import LazyTensor.Session.Run

/-!
# Tensors

A tensor is a node of the graph, with what is known about gradients.  It may be one that the session
keeps: then it has a place, and changes of the tensor are changes of what is at that place.
Operations give new tensors without a place.
-/

namespace LazyTensor

structure Tensor where
  node : Expr
  tracked : Option Bool := none
  /-- The place in the session, for a tensor that is kept there. -/
  place : Option Nat := none

abbrev TensorM := SessionM Tensor

inductive Term where
  | tensor (t : Tensor)
  | number (c : Const)
  | symbol (e : Expr)
  | unusable (shown : String)

instance : Coe Tensor Term := ⟨.tensor⟩
instance : Coe Const Term := ⟨.number⟩
instance : Coe Float Term := ⟨fun x => .number (.float x)⟩
instance : Coe Int Term := ⟨fun n => .number (.int n)⟩
instance : Coe Bool Term := ⟨fun b => .number (.bool b)⟩
instance (n : Nat) : OfNat Term n := ⟨.number (.int n)⟩
instance : OfScientific Term := ⟨fun m s e => .number (.float (OfScientific.ofScientific m s e))⟩

def Dim.term : Dim → Term
  | .int n => .number (.int n)
  | .sym e => .symbol e

instance : Coe Dim Term := ⟨Dim.term⟩

structure Wish where
  device : Option Arg := none
  dtype : Option DType := none
  tracked : Option Bool := none

inductive Along where
  | all
  | one (i : Int)
  | some (is : List Int)

instance : Coe Int Along := ⟨.one⟩
instance (n : Nat) : OfNat Along n := ⟨.one n⟩

namespace Shape

def alignLeft (shapes : List (List Dim)) : List (List Dim) :=
  let n := (shapes.map List.length).foldl max 0
  shapes.map fun s => List.replicate (n - s.length) 1 ++ s

/-- The shape that others are stretched to: along each axis the greatest extent, or zero if there is
a zero. -/
def broadcast (shapes : List (List Dim)) : GraphM (List Dim) := do
  let rows := alignLeft shapes
  let n := (rows.headD []).length
  (List.range n).mapM fun i => do
    let ds := rows.map fun r => r.getD i 1
    if ds.contains 0 then return 0 else Dim.largest ds

def ofNats (ns : List Nat) : List Dim := ns.map fun (n : Nat) => .int n

def count (ns : List Nat) : Int := (ns.foldl (· * ·) 1 : Nat)

def ceilDiv (a b : Dim) : GraphM Dim := do
  match a, b with
  | .int _, .int 0 => throw .divisionByZero
  | .int n, .int m => return .int (-(Int.fdiv n (-m)))
  | a, b => (← a.div (← b.neg)).neg

def roundUp (n amount : Int) : Result Int :=
  if amount = 0 then .error .divisionByZero
  else .ok (Int.fdiv (n + amount - 1) amount * amount)

def whole (ds : List Dim) (text : String) : Result (List Int) :=
  (Dim.ints? ds).getDM (.error (.broken text))

end Shape

namespace Device

def resolve (d : Option Arg) : Result Arg :=
  match d with
  | none | some .none => .ok (.text default)
  | some (.text s) => .ok (.text (canonical s))
  | some (.tuple ds) => do
    let names ← ds.mapM fun d => match d with
      | .text s => .ok (Arg.text (canonical s))
      | .none => .ok (Arg.text default)
      | _ => .error Failure.missingMember
    return .tuple names
  | some _ => .error .missingMember

def isSingle : Arg → Bool
  | .text _ => true
  | _ => false

def isFile : Arg → Bool
  | .text s => s.startsWith "DISK"
  | _ => false

end Device

namespace Tensor

def shape (t : Tensor) : SessionM (List Dim) := t.node.shape

variable (t : Tensor)

def ndim : SessionM Nat := do return (← t.shape).length

def dtype (t : Tensor) : DType := t.node.dtype

def device (t : Tensor) : SessionM Arg := t.node.device

def current : TensorM := do
  let some n := t.place | return t
  let k ← Session.keptAt n
  return { t with node := k.node, tracked := k.tracked }

def atPlace (n : Nat) : TensorM := do
  let k ← Session.keptAt n
  return { node := k.node, tracked := k.tracked, place := some n }

/-- Whether gradients are wanted of what is made from tensors: if of any of them; and nothing is said
if nothing was said about one. -/
def trackedFrom (ts : List Tensor) : Option Bool :=
  if ts.any fun t => t.tracked = some true then some true
  else if ts.any fun t => t.tracked.isNone then none
  else some false

def noteOrigin (e : Expr) : SessionM Unit := do
  match (← get).origin with
  | none => pure ()
  | some m =>
    let note : GraphM Unit := modify fun s => { s with metadata := s.metadata.insert e.number [m] }
    liftM note

def apply (ts : List Tensor) (f : List Expr → ExprM) : TensorM := do
  let e ← f (ts.map (·.node))
  noteOrigin e
  let _ ← e.device
  return { node := e, tracked := trackedFrom ts }

def apply1 (f : Expr → ExprM) : TensorM :=
  apply [t] fun es => match es with
    | [e] => f e
    | _ => throw .wrongType

def apply2 (t u : Tensor) (f : Expr → Expr → ExprM) : TensorM :=
  apply [t, u] fun es => match es with
    | [a, b] => f a b
    | _ => throw .wrongType

def typeOf (c : Const) : SessionM DType := do
  match c with
  | .bool _ => return .bool
  | .int _ => return (← get).defaultInt
  | .float _ => return (← get).defaultFloat

/-- A tensor over a node, with the device and type that are asked for. -/
def ofNode (e : Expr) (w : Wish := {}) : TensorM := do
  let device ← Device.resolve w.device
  if let some d := w.dtype then
    if d ≠ e.dtype then throw (.broken "dtype doesn't match, and casting isn't supported")
  let e ← if e.is .bind then do
      let (v, n) ← e.unbind
      let c ← Expr.constArg v.dtype (.int n) (some device) (some [])
      e.withSrc [← v.withSrc c.src, c]
    else pure e
  let site ← e.device
  if Device.isSingle device then
    let e ← if site == device then pure e else e.copyTo device
    return { node := e, tracked := w.tracked }
  else if Device.isSingle site then
    let home : Arg := .text Device.default
    let e ← if site == home then pure e else e.copyTo home
    return { node := ← e.copyTo device, tracked := w.tracked }
  else if site == device then return { node := e, tracked := w.tracked }
  else
    throw (.broken (s!"MultiLazyBuffer device mismatch, {site.bareText} != {device.bareText}"))

def ofConst (c : Const) (w : Wish := {}) : TensorM := do
  let device ← Device.resolve w.device
  let d ← match w.dtype with
    | some d => pure d
    | none => typeOf c
  let e ← Expr.constArg d (.const c) (some device) (some [])
  return { node := e, tracked := w.tracked }

/-! ### Axes -/

def axisFailure (kind : String) : Failure :=
  .because .wrongType s!"'<=' not supported between instances of 'int' and '{kind}'"

/-- The position of an axis among so many; counted from the end when negative. -/
def resolveAxis (total : Nat) (dim : Int) : Result Nat :=
  let n : Int := max 1 total
  if -n ≤ dim && dim ≤ n - 1 then .ok (if dim < 0 then dim + total else dim).toNat
  else .error (.because .outOfRange s!"dim={dim} out of range [{-n}, {n - 1}]")

def axis (dim : Int) (extra : Bool := false) : SessionM Nat := do
  let n ← t.ndim
  resolveAxis (n + if extra then 1 else 0) dim

def extent (i : Int) : SessionM Dim := do itemAt (← t.shape) i

/-- One thing for an axis, and another for all others. -/
def atAxis {α : Type} (i : Nat) (x other : α) : SessionM (List α) := do
  return (List.range (← t.ndim)).map fun j => if j = i then x else other

/-! ### Movement -/

def reshape (t : Tensor) (shape : List Dim) : TensorM := do
  let old ← t.shape
  let unknown := shape.filter fun d => d == .int (-1)
  if unknown.length > 1 then
    throw (.misused
      s!"only one dimension can be inferred using -1, getting {Dim.shapeText shape}")
  let shape ← if unknown.isEmpty then pure shape else do
    let n ← (← (← Dim.prod old).neg).div (← Dim.prod shape)
    pure (shape.map fun d => if d == .int (-1) then n else d)
  if shape == old then return t else t.apply1 fun e => e.reshape shape

/-- The same elements in another shape; where no extent is given, the old one stays. -/
def reshapeSome (shape : List (Option Dim)) : TensorM := do
  let old ← t.shape
  let shape ← shape.zipIdx.mapM fun (d, i) => match d with
    | some d => pure d
    | none => itemAt old (i : Int)
  t.reshape shape

def broadcastTo (shape : List Dim) : TensorM := do
  let old ← t.shape
  if old == shape then return t
  if old.length > shape.length then
    throw (.invalid (s!"cannot broadcast tensor to fewer dimensions. shape={Dim.shapeText old} " ++
      s!"to new_shape={Dim.shapeText shape}"))
  let aligned := List.replicate (shape.length - old.length) 1 ++ old
  if !((aligned.zip shape).all fun (a, b) => a == b || a == 1) then
    throw (.invalid
      s!"cannot broadcast {Dim.shapeText old} to new_shape={Dim.shapeText shape}")
  (← t.reshape aligned).apply1 fun e => e.expand shape

/-- Stretched to a shape; where no extent is given, or minus one, the old one stays. -/
def expandSome (shape : List (Option Dim)) : TensorM := do
  let old ← t.shape
  let n := max old.length shape.length
  let old := List.replicate (n - old.length) 1 ++ old
  let shape := List.replicate (n - shape.length) (some 1) ++ shape
  t.broadcastTo ((old.zip shape).map fun (a, b) => match b with
    | none => a
    | some d => if d == .int (-1) then a else d)

def expand (shape : List Dim) : TensorM := t.expandSome (shape.map some)

/-- The axes in another order. -/
def permute (t : Tensor) (order : List Int) : TensorM := do
  let n ← t.ndim
  let order ← order.mapM fun i => t.axis i
  if order.mergeSort (· ≤ ·) ≠ List.range n then
    let shown := tupleOf (order.map fun i => s!"{i}")
    throw (.misused s!"order is not a valid permutation, getting {shown}")
  t.apply1 fun e => e.permute (order.map Int.ofNat)

def flip (t : Tensor) (axes : List Int) : TensorM := do
  let axes ← axes.mapM fun i => t.axis i
  if axes.eraseDups.length ≠ axes.length then
    let shown := tupleOf (axes.map fun i => s!"{i}")
    throw (.misused s!"dim can appear at most once, getting {shown}")
  let n ← t.ndim
  t.apply1 fun e => e.flip ((List.range n).map fun i => axes.contains i)

/-- The part between bounds along each axis; where there are none, the whole axis. -/
def shrink (t : Tensor) (bounds : List (Option (Dim × Dim))) : TensorM := do
  let shape ← t.shape
  let bounds := (bounds.zip shape).map fun (b, s) => b.getD (0, s)
  if bounds == shape.map fun s => (0, s) then return t
  t.apply1 fun e => e.shrink bounds

def transpose (a b : Int) : TensorM := do
  let n ← t.ndim
  let order := (List.range n).map Int.ofNat
  let x ← itemAt order a
  let y ← itemAt order b
  let place (i : Int) : Nat := (if i < 0 then i + n else i).toNat
  t.permute ((order.set (place a) y).set (place b) x)

def squeezeAll : TensorM := do
  t.reshape ((← t.shape).filter fun d => !(d == 1))

def squeeze (dim : Int) : TensorM := do
  let i ← t.axis dim
  let shape ← t.shape
  if shape.isEmpty then return t
  if !((← itemAt shape (i : Int)) == 1) then return t
  t.reshape (shape.take i ++ shape.drop (i + 1))

def unsqueeze (dim : Int) : TensorM := do
  let i ← t.axis dim true
  let shape ← t.shape
  t.reshape (shape.take i ++ [1] ++ shape.drop i)

def flatten (start : Int := 0) (stop : Int := -1) : TensorM := do
  let a ← t.axis start
  let b ← t.axis stop
  let shape ← t.shape
  let middle := (shape.take (b + 1)).drop a
  t.reshape (shape.take a ++ [← Dim.prod middle] ++ shape.drop (b + 1))

def unflatten (dim : Int) (sizes : List Dim) : TensorM := do
  let i ← t.axis dim
  let shape ← t.shape
  t.reshape (shape.take i ++ sizes ++ shape.drop (i + 1))

/-- Copies one after another along each axis. -/
def repeats (counts : List Dim) : TensorM := do
  let shape ← t.shape
  let base := (Shape.alignLeft [shape, counts]).headD []
  let spread := base.flatMap fun s => [1, s]
  let grown := (counts.zip base).flatMap fun (r, s) => [r, s]
  let joined ← (counts.zip base).mapM fun (r, s) => liftM (r.mul s)
  (← (← t.reshape spread).expand grown).reshape joined

/-! ### Element types -/

def floatOf (d : DType) : SessionM DType := do d.meetFloat? (← get).defaultFloat

/-- The elements converted; floating numbers go to small unsigned ones by way of integers. -/
def cast (t : Tensor) (d : DType) : TensorM := do
  if (d = .uint8 || d = .uint16) && t.dtype.isFloat then
    (← t.apply1 fun e => e.cast .int).apply1 fun e => e.cast d
  else if t.dtype = d then return t
  else t.apply1 fun e => e.cast d

def contiguous : TensorM := t.apply1 Expr.contig

def fuse (t : Tensor) : TensorM := t.apply1 Expr.fuse

def contiguousBackward : TensorM :=
  t.apply1 fun e => e.alu .contiguousBackward

/-- What is wished of a tensor on the same device, which is not tracked unless it says so. -/
def beside (dtype : Option DType := none) (tracked : Option Bool := some false) : SessionM Wish :=
  return { device := some (← t.device), dtype, tracked }

def detach : TensorM := do ofNode (← t.node.alu .detach) (← t.beside)

def withTracked (b : Option Bool) : TensorM := do
  if let some n := t.place then Session.alter n fun k => { k with tracked := b }
  return { t with tracked := b }

end Tensor

end LazyTensor
