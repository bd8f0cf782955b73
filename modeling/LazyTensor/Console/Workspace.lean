import LazyTensor.Console.Operations.Elementwise
import LazyTensor.Console.Operations.Memory
import LazyTensor.Console.Operations.Movement
import LazyTensor.Console.Operations.Reduction
import LazyTensor.Web

/-!
# Workspaces

A request that works with tensors consists of steps.  Between the steps a workspace holds what they
have named, the things with parts that they have made, and the pages and files they may read.

A text that starts with a dollar sign refers to something named, or to a part of it.
-/

namespace LazyTensor

structure Item where
  kind : String
  parts : Fields := []

structure SavedBuffers where
  node : Expr
  contents : List (Buffer × Option ByteArray)

structure SavedTensor where
  tensor : Kept
  grad : Option Kept
  buffers : List SavedBuffers

structure Workspace where
  names : Fields := []
  items : Std.HashMap Nat Item := {}
  saved : Std.HashMap Nat SavedTensor := {}
  next : Nat := 0
  files : Nat := 0
  pages : List Page := []

abbrev WorkM := StateT Workspace SessionM

instance : MonadLift SessionM WorkM := ⟨fun x => StateT.lift x⟩

instance : MonadLift GraphM WorkM := ⟨fun x => StateT.lift (liftM x : SessionM _)⟩

def Operations.table : List Operation :=
  elementwise ++ movement ++ reduction ++ contraction ++ creation ++ memory

def Operations.byName : Std.HashMap String Operation :=
  table.foldl (fun m o => m.insertIfNew o.name o) {}

def Operation.call (o : Operation) (args : List Value) (names : Fields) : SessionM Value := do
  let work : SessionM Value := do
    let c ← (Signature.parse o.parameters).bind args names
    o.run c
  if Operations.untraced.contains o.name then work else Session.traced o.name work

def Value.ofTensor? (t : Option Tensor) : SessionM Value := t.elim (return .null) Value.ofTensor

namespace Workspace

def add (kind : String) (parts : Fields) : WorkM Value := do
  let w ← get
  set { w with items := w.items.insert w.next { kind, parts }, next := w.next + 1 }
  return .object kind w.next

def item (n : Nat) : WorkM Item := do
  (← get).items[n]?.getDM (throw .missingMember)

def setPart (n : Nat) (name : String) (v : Value) : WorkM Unit :=
  modify fun w => match w.items[n]? with
    | none => w
    | some i =>
      { w with items := w.items.insert n { i with parts := Entries.put i.parts name v } }

def tensorPart (t : Tensor) (name : String) : SessionM Value := do
  match name with
  | "shape" => return .tuple ((← t.shape).map .ofDim)
  | "ndim" => return .int (← t.ndim)
  | "dtype" => return .dtype t.dtype
  | "device" =>
    match ← t.device with
    | .text s => return .text s
    | .tuple ds => return .tuple (ds.map fun d => match d with
      | .text s => .text s
      | _ => .null)
    | _ => return .null
  | "requires_grad" => return t.tracked.elim .null .bool
  | "grad" => Value.ofTensor? (← t.grad?)
  | "uop" => return .expr t.node
  | "training" => return .bool (← get).training
  | "T" => Value.ofTensor (← Session.traced "transpose" (t.transpose 1 0))
  | _ =>
    if Operations.byName.contains name then return .object "method" 0
    else throw .missingMember

def settingAt (n : Nat) : Flag := Flag.all.getD n .debug

def settingPart (n : Nat) (name : String) : SessionM Value := do
  match name with
  | "key" => return .text (settingAt n).name
  | "value" => return .int (← Session.setting (settingAt n))
  | "_cache" =>
    return .dict (Flag.all.zipIdx.map fun (f, i) => (.text f.name, .object "ContextVar" i))
  | _ => throw .missingMember

/-- A part of a node; its method that makes altered copies is a thing of its own. -/
def nodePart (e : Expr) (name : String) : WorkM Value :=
  match name with
  | "op" => return .op e.op
  | "dtype" => return .dtype e.dtype
  | "src" => return .tuple (e.src.map .expr)
  | "replace" => add "method" [("node", .expr e)]
  | _ => throw .missingMember

/-- A copy of a node with some of its parts replaced. -/
def altered (e : Expr) (parts : Fields) : ExprM := do
  let c ← parts.foldlM (fun (c : Expr.Content) (name, v) => match name, v with
    | "op", v => return { c with op := ← v.toOp }
    | "dtype", v => return { c with dtype := ← v.toDType }
    | "src", .tuple xs => return { c with src := ← xs.mapM Value.toExpr }
    | "arg", v => return { c with arg := ← v.arg }
    | "tag", v => return { c with tag := ← v.arg }
    | _, _ => throw .wrongType) e.content
  nodeOf c

def part (v : Value) (name : String) : WorkM Value := do
  match v with
  | .expr e => nodePart e name
  | .object "Tensor" n => tensorPart (← Tensor.atPlace n) name
  | .object "ContextVar" n => settingPart n name
  | .object "PosixPath" _ => throw .missingMember
  | .object _ n =>
    ((← item n).parts.lookup name).getDM (throw .missingMember)
  | .dict _ =>
    if ["keys", "values", "items", "get", "pop", "update", "copy", "clear"].contains name then
      return .object "builtin_function_or_method" 0
    else throw .missingMember
  | _ => throw .missingMember

def sameKey : Value → Value → Bool
  | .text a, .text b => a == b
  | a, b => match a.int?, b.int? with
    | some x, some y => x == y
    | _, _ => false

def entry (es : List (Value × Value)) (k : Value) : WorkM Value :=
  ((es.find? fun e => sameKey e.1 k).map (·.2)).getDM (throw .missingKey)

def itemAtPosition (v : Value) (i : Nat) : WorkM Value := do
  match v with
  | .list xs | .tuple xs =>
    xs[i]?.getDM (throw .outOfRange)
  | .dict es => entry es (.int i)
  | .text s => return .text (String.singleton (← s.toList[i]?.getDM (throw .outOfRange)))
  | .object "Tensor" n =>
    Session.traced "__getitem__" do
      Value.ofTensor (← (← Tensor.atPlace n).index [.position (.int i)])
  | .object "OptimizerGroup" n =>
    let some (.tuple xs) := (← item n).parts.lookup "optimizers" | throw .missingMember
    xs[i]?.getDM (throw .outOfRange)
  | _ => throw .wrongType

def follow (v : Value) (p : String) : WorkM Value := do
  if !p.isEmpty && p.all Char.isDigit then itemAtPosition v (p.toNat?.getD 0)
  else match v with
    | .dict es => entry es (.text p)
    | v => part v p

def reference (s : String) : WorkM Value := do
  let n :: path := (String.ofList (s.toList.drop 1)).splitOn "." | throw (.bare .unbound)
  let v ← ((← get).names.lookup n).getDM (throw (.bare .unbound))
  path.foldlM follow v

def resolve : Value → WorkM Value := Value.fold fun v xs es => match v, xs with
  | .text s, _ => if s.startsWith "$" then reference s else return .text s
  | .list _, xs => return .list (← xs.mapM id)
  | .tuple _, xs => return .tuple (← xs.mapM id)
  | .dict _, _ => return .dict (← es.mapM fun (k, v) => return (← k, ← v))
  | .slice .., [a, b, c] => return .slice (← a) (← b) (← c)
  | v, _ => return v

def showTensor (n : Nat) : SessionM Json := do
  let t ← Tensor.atPlace n
  return .record [("shape", ← Answer.dims (← t.shape)), ("dtype", .text t.dtype.short),
    ("rg", t.tracked.elim .null .bool)]

def answer : Value → SessionM Json := Value.jsonWith fun
  | .object "Tensor" n => showTensor n
  | .object "saved" _ => return .null
  | v => v.json

/-! ### What can be referred to -/

/-- The things that values refer to: places of tensors, and numbers of things with parts. -/
structure Reach where
  places : List Nat := []
  items : List Nat := []

def reach : Value → Reach → Reach := Value.fold fun v xs es r => match v with
  | .object "Tensor" n => { r with places := n :: r.places }
  | .object "PosixPath" _ | .object "ContextVar" _ => r
  | .object _ n => { r with items := n :: r.items }
  | .list _ | .tuple _ => xs.foldl (fun r f => f r) r
  | .dict _ => es.foldl (fun r (k, v) => v (k r)) r
  | _ => r

def close (items : Std.HashMap Nat Item) : Nat → List Nat → Reach → List Nat → Reach
  | 0, _, r, _ => r
  | _ + 1, [], r, _ => r
  | fuel + 1, n :: todo, r, seen =>
    if seen.contains n then close items fuel todo r seen
    else match items[n]? with
      | none => close items fuel todo r (n :: seen)
      | some i =>
        let found := i.parts.foldl (fun r p => reach p.2 r) ({} : Reach)
        close items fuel (found.items ++ todo)
          { places := found.places ++ r.places, items := n :: r.items } (n :: seen)

/-- The places that are in use, with their gradients; the fuel is the number of kept tensors. -/
def closeGrads (kept : Std.HashMap Nat Kept) : Nat → List Nat → Std.HashSet Nat → Std.HashSet Nat
  | 0, _, seen => seen
  | _ + 1, [], seen => seen
  | fuel + 1, n :: todo, seen =>
    if seen.contains n then closeGrads kept fuel todo seen
    else
      let next := match kept[n]?.bind (·.grad) with
        | some g => g :: todo
        | none => todo
      closeGrads kept fuel next (seen.insert n)

/-- Forget what nobody can refer to any more: tensors, things with parts, memory. -/
def tidy : WorkM Unit := do
  let w ← get
  let direct := w.names.foldl (fun r p => reach p.2 r) ({} : Reach)
  let size := w.items.fold (fun n _ i => n + i.parts.length + 1) 1
  let all := close w.items (size * size + direct.items.length + 1) direct.items
    { direct with items := [] } []
  let session : Session ← (get : SessionM Session)
  let random := session.generators.flatMap fun (_, a, b) => [a, b]
  let roots := random ++ all.places
  let live := closeGrads session.kept (2 * session.kept.size + roots.length + 1) roots {}
  let free : SessionM Unit := do
    modify fun s => { s with kept := s.kept.filter fun n _ => live.contains n }
    Session.sweep
  free
  set { w with
    items := w.items.filter fun n _ => all.items.contains n
    saved := w.saved.filter fun n _ => direct.items.contains n }

end Workspace

end LazyTensor
