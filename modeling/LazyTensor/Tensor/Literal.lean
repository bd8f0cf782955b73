import LazyTensor.Tensor.Basic

/-!
# Tensors from data

A tensor can be made from a number, from nested lists of numbers, from bytes, from an array, from a
file, or from a node.  Lists and arrays are put into memory at once; files stay where they are until
their elements are wanted.
-/

namespace LazyTensor

inductive Nested where
  | leaf (c : Const)
  | odd (shown : String)
  | list (xs : List Nested)
  | tuple (xs : List Nested)

namespace Nested

def text : Nested → String
  | leaf c => c.text
  | odd s => s
  | list xs => listOf (texts xs)
  | tuple xs => tupleOf (texts xs)
where
  texts : List Nested → List String
    | [] => []
    | x :: xs => text x :: texts xs

/-- The lengths of the lists from the outside to the inside; they have to be equal on each level. -/
def shape : Nested → Result (List Nat)
  | leaf _ | odd _ => .ok []
  | list xs => do level (list xs) (← shapes xs)
  | tuple xs => do level (tuple xs) (← shapes xs)
where
  shapes : List Nested → Result (List (List Nat))
    | [] => .ok []
    | x :: xs => return (← shape x) :: (← shapes xs)
  level (x : Nested) (subs : List (List Nat)) : Result (List Nat) :=
    match subs with
    | [] => .ok [0]
    | s :: rest =>
      if rest.all (· == s) then .ok (subs.length :: s)
      else .error (.invalid s!"inhomogeneous shape from {x.text}")

def leaves : Nested → List (Option Const)
  | leaf c => [some c]
  | odd _ => [none]
  | list xs | tuple xs => all xs
where
  all : List Nested → List (Option Const)
    | [] => []
    | x :: xs => leaves x ++ all xs

def isBool (ls : List (Option Const)) : Bool :=
  ls.all fun l => match l with
    | some (.bool _) => true
    | _ => false

def isInt (ls : List (Option Const)) : Bool :=
  ls.all fun l => match l with
    | some (.bool _) | some (.int _) => true
    | _ => false

end Nested

inductive Source where
  | nothing
  | number (c : Const)
  | node (e : Expr)
  | bytes (b : ByteArray)
  | nested (n : Nested)
  /-- An array: the name of its element type, its shape and its elements. -/
  | array (type : String) (shape : List Nat) (items : List Const)
  | file (path : String)
  | other

namespace Tensor

def hold (device : String) (size : Int) (d : DType) (bytes : ByteArray) : SessionM Expr := do
  let e ← Expr.newBuffer (.text device) (.int size) d
  let b ← Buffer.new device size d.base
  let fill : HeapM Nat := do
    let n ← Heap.add { b with refs := 1 }
    let m ← Heap.newBlock bytes
    Heap.allocateBase n (some (.block m 0 bytes.size))
    return n
  let n ← fill
  modify fun s => { s with owned := s.owned.insert e.number [n] }
  return e

def packed (d : DType) (cs : List (Option Const)) : Result ByteArray := do
  let code ← d.code?.getDM (.error (.broken s!"dtype={d.text} has None fmt"))
  let parts ← cs.mapM fun c => match c with
    | some c => do Packing.pack code (← Const.truncate d c)
    | none => .error .wrongType
  return ⟨parts.flatten.toArray⟩

def holdNested (x : Nested) (d : DType) : SessionM Expr := do
  let shape ← x.shape
  let e ← hold Device.default (Shape.count shape) d (← packed d x.leaves)
  e.reshape (Shape.ofNats shape)

def typeOfLeaves (ls : List (Option Const)) : SessionM DType := do
  if ls.isEmpty then return (← get).defaultFloat
  if Nested.isBool ls then return .bool
  if Nested.isInt ls then return (← get).defaultInt
  return (← get).defaultFloat

def converted (d : DType) (c : Const) : Result Const := do
  match d.scalar? with
  | some .bool => return .bool c.truthy
  | some s =>
    if s.isInt then Const.truncate d (.int (← c.toInt?))
    else Const.truncate d c
  | none => Const.truncate d c

/-- A tensor from given data. -/
def new (s : Source) (w : Wish := {}) : TensorM := do
  let w ← match s, w.device with
    | .file p, none => pure { w with device := some (.text s!"DISK:{p}") }
    | _, _ => pure w
  let device ← Device.resolve w.device
  let w := { w with device := some device }
  match s with
  | .node e => ofNode e w
  | .nothing =>
    ofConst (.int 0) { w with dtype := some (w.dtype.getD (← get).defaultFloat) }
  | .number c => ofConst c w
  | .bytes b =>
    let d := w.dtype.getD .uint8
    let e ← hold Device.default (b.size / d.itemsize) d b
    ofNode e { w with dtype := none }
  | .nested x =>
    let d ← match w.dtype with
      | some d => pure d
      | none => typeOfLeaves x.leaves
    if d = .bfloat16 || d = .fp8e4m3 || d = .fp8e5m2 then
      let t ← ofNode (← holdNested x .float) { device := some device }
      let t ← Session.traced "cast" (t.cast d)
      ofNode t.node { w with dtype := none }
    else ofNode (← holdNested x d) { w with dtype := none }
  | .array type shape items =>
    let own ← (Scalar.ofName? type).getDM (throw .missingKey)
    match shape, items with
    | [], c :: _ => ofConst c { w with dtype := some (w.dtype.getD (.of own)) }
    | _, _ =>
      let d := match w.dtype with
        | some d => if d.code?.isSome then d else .of own
        | none => .of own
      let cs ← items.mapM fun c => do
        let c ← converted (.of own) c
        if d = .of own then pure c else liftM (converted d c)
      let bytes ← packed d (cs.map some)
      let e ← hold "NPY" (Shape.count shape) d bytes
      ofNode (← e.reshape (Shape.ofNats shape)) { w with dtype := none }
  | .file p =>
    let d := w.dtype.getD .uint8
    let b ← ((← get).heap.file? p).getDM (throw (.bare .missingFile))
    let e ← Expr.newBuffer (.text s!"DISK:{p}") (.int (b.size / d.itemsize)) d
    ofNode e { w with dtype := none }
  | .other => throw (.misused "can't create Tensor from <class")

def empty (shape : List Dim) (w : Wish := {}) : TensorM := do
  let d := w.dtype.getD (← get).defaultFloat
  let sizes ← shape.mapM fun s => liftM s.upper
  let ns ← sizes.mapM fun c => c.int?.getDM (throw Failure.invalidValue)
  let device ← Device.resolve w.device
  let e ← Expr.newBuffer device (.int (ns.foldl (· * ·) 1)) d
  (← ofNode e { w with device := some device, dtype := some d }).reshape shape

end Tensor

end LazyTensor
