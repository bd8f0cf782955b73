import LazyTensor.Layout.Extent
import LazyTensor.Symbolic.Lanes

/-!
# The cost of a program

How many operations a linear program does and how many bytes it moves.  Both may depend on
variables.
-/

namespace LazyTensor

structure Cost where
  ops : Dim := 0
  accessed : Dim := 0
  memory : Dim := 0

namespace Cost

structure Count where
  ops : Dim := 0
  accessed : Dim := 0
  times : Dim := 1
  around : List Dim := []

/-- The numbers of some nodes and of all below them, added to others. -/
private def below (es : List Expr) (s : Std.HashSet Nat) : Std.HashSet Nat :=
  (Walk.run (fun _ => true) ⟨es.map (·, false), ⟨#[], s⟩⟩).seen

def addressing (prog : List Expr) : GraphM (Std.HashSet Nat) :=
  prog.foldlM (fun s u => do
    match u.op with
    | .load | .store =>
      let a ← u.nth 0
      return below (a :: (u.src.drop 2).take 1) s
    | .branch => return below [← u.nth 0] s
    | _ => return s) {}

private def product (a : Arg) : GraphM Int :=
  match a.ints? with
  | some xs => return xs.foldl (· * ·) 1
  | none => throw .wrongType

private def item (e : Expr) (i : Nat) : GraphM Arg :=
  match e.arg with
  | .tuple xs =>
    xs[i]?.getDM (throw .outOfRange)
  | _ => throw .wrongType

private def moved (c : Count) (d : DType) : GraphM Count := do
  return { c with accessed := ← c.accessed.add (← Dim.mul (.int d.itemsize) c.times) }

/-- What a node adds to the count of operations and of bytes. -/
def step (skip : Std.HashSet Nat) (c : Count) (u : Expr) : GraphM Count := do
  match u.op with
  | .range =>
    let n ← Dim.simplify (.sym (← u.nth 0))
    let times ← c.times.mul n
    let times ← match times with
      | .int _ => pure times
      | .sym e =>
        let subs ← (e.toposort.toList.filter fun x => x.is .special).mapM fun x => do
          return (x, ← x.constLike (.int 0))
        pure (.sym (← e.substitute subs))
    return { c with times, around := c.times :: c.around }
  | .endRange =>
    let t :: rest := c.around | throw .outOfRange
    return { c with times := t, around := rest }
  | .special =>
    let n ← ((← item u 1).dim?).getDM (throw .wrongType)
    return { c with times := ← c.times.mul n }
  | .load => moved c u.dtype
  | .store => moved c (← u.nth 1).dtype
  | .wmma =>
    if skip.contains u.number then return c
    let work ← product (← item u 1)
    match (← item u 5).int? with
    | some 0 => throw .divisionByZero
    | some threads =>
      return { c with ops := ← c.ops.add (← Dim.mul (.int ((2 * work).fdiv threads)) c.times) }
    | none => throw .wrongType
  | o =>
    if o.isAlu && !(skip.contains u.number) then
      let n ← c.times.mul (.int (if o = .mulacc then 2 else 1))
      return { c with ops := ← c.ops.add (← n.mul (.int u.dtype.count)) }
    return c

/-- The cost of a linear program; with `ignoreAddresses`, operations that only make addresses and
conditions do not count. -/
def ofProgram (prog : List Expr) (ignoreAddresses : Bool := false) : GraphM Cost := do
  let skip ← if ignoreAddresses then addressing prog else pure {}
  let c ← prog.foldlM (step skip) {}
  return ⟨c.ops, c.accessed, c.accessed⟩

end Cost

end LazyTensor
