import LazyTensor.DType.Promotion
import LazyTensor.Layout.Shard

/-!
# Gradients

The gradient of a result with respect to the nodes it is made from flows backward through the
graph: every operation turns the gradient of its result into those of its operands, and a node used
more than once sums what it gets.  Only nodes on the way to a target take part.
-/

namespace LazyTensor.Gradient

/-- The gradient that flows into the node that is visited. -/
def incoming : ExprM := do
  let .gradient g := (← get).context | throw .missingMember
  return g

/-- A rule that has the gradient of each operand from the node and the gradient that flows in. -/
def flow (ops : List Op) (f : Expr → Expr → GraphM (List (Option Expr))) :
    Rule (List (Option Expr)) :=
  on (.of ops) fun e => do giving (f e (← incoming))

def one (x : ExprM) : GraphM (List (Option Expr)) := do return [some (← x)]

def ln2 : Float := 0.6931471805599453

def halfPi : Float := 1.5707963267948966

/-- Arrays that are spread over more axes, multiplied and divided. -/
class Arrays (m : Type → Type) (α : Type) where
  shape : α → m (List Dim)
  reshape : α → List Dim → m α
  expand : α → List Dim → m α
  mul : α → α → m α
  div : α → α → m α

instance : Arrays GraphM Expr where
  shape e := e.shape
  reshape e ds := e.reshape ds
  expand e ds := e.expand ds
  mul a b := a.mul b
  div a b := a.fdiv b

section

open Arrays

variable {m : Type → Type} [Monad m] {α : Type} [Arrays m α]

/-- What is left of a reduction of `x`, spread over the shape of `x`. -/
def spread (x y : α) : m α := do
  let full ← shape x
  let left ← shape y
  expand (← reshape y (left ++ List.replicate (full.length - left.length) 1)) full

/-- The gradient of the elements of `x` from that of their product: the other factors. -/
def ofProduct (x product g : α) : m α := do div (← spread x (← mul g product)) x

end

/-- The gradient of what was reduced: all of it for a sum, shared by the greatest elements for a
maximum, the other factors for a product. -/
def ofReduce (e g : Expr) : GraphM (Option (List (Option Expr))) := do
  let x ← e.nth 0
  match e.arg.items with
  | [] => throw .outOfRange
  | .op .add :: _ => return some [some (← spread x g)]
  | .op .max :: rest =>
    let one ← (← x.constLike (.int 1)).cast .bool
    let greatest ← (← (← x.ne (← spread x e)).ne one).cast g.dtype
    let axes ← match rest with
      | a :: _ => pure (a.ints?.getD [])
      | [] => throw .outOfRange
    let count ← spread x (← greatest.reduceOver .add axes)
    return some [some (← (← greatest.fdiv count).mul (← spread x g))]
  | .op .mul :: _ => return some [some (← ofProduct x e g)]
  | _ => return none

/-- The order of axes that undoes another. -/
def inverse (axes : List Int) : List Int :=
  (List.range axes.length).map fun i =>
    (((axes.zipIdx.mergeSort fun a b => a.1 ≤ b.1)[i]?).map fun p => (p.2 : Int)).getD 0

/-- The gradient that a greater operand gets: all, or half where both are equal. -/
private def shareOf (a b g : Expr) (wins : Expr) : ExprM := do
  let zero ← g.constLike (.int 0)
  wins.choose g (← (← a.ne b).choose zero (← g.mul (0.5 : Float)))

/-- The gradients of the operands of a node, where the node has any. -/
def rules : RuleSet (List (Option Expr)) := .ofList [
  flow [.cast] fun e g => do one (g.cast (← e.nth 0).dtype),
  flow [.recip] fun e g => do one (do (← (← g.neg).mul e).mul e),
  flow [.sin] fun e g => do one (do (← (← (← e.nth 0).rsub halfPi).sin).mul g),
  flow [.log2] fun e g => do one (do g.fdiv (← (← e.nth 0).mul ln2)),
  flow [.exp2] fun e g => one (do (← e.mul g).mul ln2),
  flow [.sqrt] fun e g => one (do g.fdiv (← e.mul (2 : Int))),
  on (.of [.cmplt, .cmpne]) fun _ => return some [none, none],
  flow [.add] fun _ g => return [some g, some g],
  flow [.pow] fun e g => do
    let a ← e.nth 0
    let b ← e.nth 1
    let zero ← (← a.eq (0 : Int)).land (← b.eq (0 : Int))
    let ofBase ← zero.choose b (← b.mul (← a.pow (← b.sub (1 : Int))))
    let edge ← (← b.lt (0 : Int)).choose (← e.constLike (.float (-1.0 / 0.0)))
      (← e.constLike (.int 0))
    let ofExponent ← (← a.eq (0 : Int)).choose edge (← (← e.mul (← a.log2)).mul ln2)
    return [some (← g.mul ofBase), some (← g.mul ofExponent)],
  flow [.max] fun e g => do
    let a ← e.nth 0
    let b ← e.nth 1
    return [some (← shareOf a b g (← a.gt b)), some (← shareOf a b g (← a.lt b))],
  flow [.mul] fun e g => do return [some (← (← e.nth 1).mul g), some (← (← e.nth 0).mul g)],
  flow [.select] fun e g => do
    let c ← e.nth 0
    let zero ← g.constLike (.int 0)
    return [none, some (← c.choose g zero), some (← c.choose zero g)],
  on (.of [.reduceAxis]) fun e => do ofReduce e (← incoming),
  flow [.contiguous, .fuse] fun _ g => return [some g],
  flow [.contiguousBackward] fun _ g => one g.contig,
  flow [.reshape] fun e g => do one (g.reshape (← (← e.nth 0).shape)),
  flow [.permute] fun e g => do one (g.permute (inverse (← Layout.need e.arg.ints?))),
  flow [.pad] fun e g => do
    let shape ← (← e.nth 0).shape
    let parts ← (shape.zip (← Layout.need e.arg.pairs?)).mapM fun (s, p) => do return (p.1, ← s.add p.1)
    one (g.shrink parts),
  flow [.shrink] fun e g => do
    let shape ← (← e.nth 0).shape
    let parts ← (shape.zip (← Layout.need e.arg.pairs?)).mapM fun (s, p) => do return (p.1, ← s.sub p.2)
    one (g.pad parts),
  flow [.flip] fun e g => one (g.move .flip e.arg),
  flow [.expand] fun e g => do
    let shape ← (← e.nth 0).shape
    let axes ← (shape.zip (← Layout.need e.arg.dims?)).zipIdx.filterMapM fun ((a, b), i) => do
      return if ← (← a.ne b).holds then some (i : Int) else none
    one (do (← (← g.cast (← g.dtype.sumType?)).reduceOver .add axes).cast g.dtype),
  flow [.multi] fun e g => do
    match ← e.shardAxis with
    | some axis => return (← g.shard (← e.device) axis).src.map some
    | none => throw .wrongType,
  on (.of [.bitcast]) fun _ => return some [none]]

/-- The numbers of the nodes of a graph that have a target below them. -/
def between (root : Expr) (targets : List Expr) : Std.HashSet Nat :=
  let goals : Std.HashSet Nat := targets.foldl (fun s t => s.insert t.number) {}
  root.toposort.toList.foldl (fun s u =>
    if u.src.any fun x => goals.contains x.number || s.contains x.number then s.insert u.number
    else s) {}

/-- The nodes between a result and the targets, sources first; nothing flows through a node that is
detached or assigned. -/
def path (root : Expr) (targets : List Expr) : Array Expr :=
  let onPath := between root targets
  root.toposortGated fun u => !(u.is .detach) && !(u.is .assign) && onPath.contains u.number

/-- A source of a node gets a gradient: it is added to what the source has. -/
def receive (user : Expr) (grads : Std.HashMap Nat Expr) (x : Expr × Option Expr) :
    GraphM (Std.HashMap Nat Expr) := do
  let some v := x.2 | return grads
  let sum ← match grads[x.1.number]? with
    | some h => h.add v
    | none => pure v
  let known := ((← get).metadata[user.number]?).getD []
  if !known.isEmpty then
    modify fun s => { s with
      metadata := s.metadata.insert v.number (known.map fun m => { m with backward := true }) }
  return grads.insert x.1.number sum

/-- The sources of a node that has a gradient get theirs. -/
def backward (grads : Std.HashMap Nat Expr) (e : Expr) : GraphM (Std.HashMap Nat Expr) := do
  let some g := grads[e.number]? | return grads
  let (own, _) ← Rewriting.within (.gradient g) (rules.first? e)
  let some own := own | throw (.bare .misuse)
  if own.length ≠ e.src.length then
    throw (.broken s!"got {own.length} gradient, expected {e.src.length}")
  (e.src.zip own).foldlM (receive e) grads

def compute (root rootGrad : Expr) (targets : List Expr) : GraphM (Std.HashMap Nat Expr) :=
  (path root targets).toList.reverse.foldlM backward
    (({} : Std.HashMap Nat Expr).insert root.number rootGrad)

end LazyTensor.Gradient
