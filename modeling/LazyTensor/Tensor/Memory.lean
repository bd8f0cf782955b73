import LazyTensor.Gradient
import LazyTensor.Tensor.Index

/-!
# Tensors and memory

Tensors are computed when their elements are wanted.  This changes the graphs of all tensors of the
session; a tensor that is held by a computation only is given a place for as long as it takes.
-/

namespace LazyTensor

structure Elements where
  shape : List Int
  dtype : DType
  items : List Const

namespace Tensor

def keep (t : Tensor) : TensorM := do
  match t.place with
  | some _ => return t
  | none =>
    let n ← Session.keep { node := t.node, tracked := t.tracked }
    return { t with place := some n }

variable (t : Tensor)

def placeOf : SessionM Nat :=
  t.place.getDM (throw .missingKey)

/-- Run with tensors kept in the session; gives the tensors as they are afterwards. -/
def keeping {α : Type} (ts : List Tensor) (x : List Tensor → SessionM α) :
    SessionM (α × List Tensor) := do
  let held ← ts.mapM keep
  let release : SessionM Unit :=
    (ts.zip held).forM fun (t, h) => do
      if t.place.isNone then h.place.forM Session.forget
  try
    let r ← x held
    let after ← (ts.zip held).mapM fun (t, h) => do
      return { (← h.current) with place := t.place }
    release
    return (r, after)
  catch f =>
    release
    throw f

def realize (ts : List Tensor) (count : Bool := true) : SessionM (List Tensor) := do
  let (_, ts) ← keeping ts fun held => do
    Session.realize (← held.mapM placeOf) count
  return ts

def realize1 : TensorM := do
  let [t] ← realize [t] | throw .wrongType
  return t

def withNode (e : Expr) : TensorM := do
  if let some n := t.place then Session.alter n fun k => { k with node := e }
  return { t with node := e }

def grad? : SessionM (Option Tensor) := do
  let some n := t.place | return none
  let some g := (← Session.keptAt n).grad | return none
  return some (← atPlace g)

def withGrad (t g : Tensor) : TensorM := do
  let t ← t.keep
  let g ← g.keep
  if let some n := t.place then Session.alter n fun k => { k with grad := g.place }
  return t

/-! ### Elements -/

/-- Compute a copy of a tensor in the memory of the host, and look at its buffer. -/
def withBuffer {α : Type} (t : Tensor) (look : Nat → SessionM α) : SessionM α := do
  let x ← (← t.cast t.dtype.base).contiguous
  let x ← x.toDevice (.text "CPU")
  let (r, _) ← keeping [x] fun held => do
    Session.realize (← held.mapM placeOf)
    let [h] := held | throw .wrongType
    let e := (← h.current).node.base
    look (← Session.singleBuffer (← e.memory))
  return r

def bytes : SessionM ByteArray :=
  t.withBuffer fun n => Heap.look n false

def symbolicFailure (shape : List Dim) : Failure :=
  .broken s!"no data if shape is symbolic, self.shape={Dim.shapeText shape}"

/-- The elements of a tensor, computed. -/
def elements (t : Tensor) : SessionM Elements := do
  let shape ← t.shape
  if shape.contains 0 then
    match t.dtype.base.code? with
    | none => throw .wrongType
    | some 'e' => throw .invalidValue
    | some _ => return { shape := shape.filterMap Dim.int?, dtype := t.dtype, items := [] }
  let ns ← (Dim.ints? shape).getDM (throw (symbolicFailure shape))
  let items ← t.withBuffer fun n => do
    let b ← Heap.find n
    let code ← Heap.elementCode b
    return (Bytes.elements code (← Heap.look n false))
  let count := (ns.foldl (· * ·) 1).toNat
  if items.length ≠ count then throw .wrongType
  return { shape := ns, dtype := t.dtype, items }

def item (t : Tensor) : SessionM Const := do
  if !((← Dim.prod (← t.shape)) == 1) then throw (.broken "must have one element for item")
  let c :: _ := (← t.elements).items | throw .outOfRange
  return c

/-! ### Changes -/

def sameShape (t u : Tensor) (message : String) : SessionM Unit := do
  let a ← t.shape
  let b ← u.shape
  if !(a == b) then
    throw (.broken s!"{message} {Dim.shapeText a} != {Dim.shapeText b}")

def replace (t u : Tensor) (anyShape : Bool := false) : TensorM := do
  if !anyShape then t.sameShape u "replace shape mismatch"
  t.withNode u.node

def assignFile (t u : Tensor) : TensorM := do
  let x ← t.contiguous
  let (_, _) ← keeping [x] fun held => do
    Session.realize (← held.mapM placeOf)
    let [h] := held | throw Failure.wrongType
    let n ← Session.singleBuffer (← (← h.current).node.base.memory)
    Heap.ensure n
    Heap.copyIn n (← u.bytes)
  return t

def assign (t u : Tensor) : TensorM := do
  if Device.isFile (← t.device) then return ← t.assignFile u
  if t.node == u.node then return t
  t.sameShape u "assign shape mismatch"
  let d ← t.device
  let e ← u.device
  if !(d == e) then throw (.broken s!"assign device mismatch {d.bareText} != {e.bareText}")
  if t.dtype ≠ u.dtype then
    throw (.broken s!"assign dtype mismatch {t.dtype.text} != {u.dtype.text}")
  t.withNode (← t.node.store [u.node])

def assignSource (s : Source) : TensorM := do
  let device ← t.device
  let device := if Device.isFile device then .text "CPU" else device
  t.assign (← new s { device := some device, dtype := some t.dtype })

/-! ### Copies -/

def movedTo (device : Option Arg) : TensorM := do
  let device ← Device.resolve device
  if (← t.device) == device then return t
  let r ← t.toDevice device
  if !(Device.isSingle device) then return r
  let some g ← t.grad? | return r
  do r.withGrad (← g.toDevice device)

def move (device : Option Arg) : TensorM := do
  let r ← t.movedTo device
  match ← t.grad?, ← r.grad? with
  | some g, some h => let _ ← g.replace h
  | _, _ => pure ()
  t.replace r

def shard (t : Tensor) (devices : List String) (dim : Option Int) : TensorM := do
  if !(Device.isSingle (← t.device)) then throw (.broken "can't shard a MultiLazyBuffer")
  let devices := Arg.tuple (devices.map fun d => .text (Device.canonical d))
  let e ← match dim with
    | some d => t.node.shard devices (← t.axis d)
    | none => t.node.copyTo devices
  ofNode e { device := some devices, tracked := t.tracked }

def blankCopy : TensorM := do empty (← t.shape) (← t.beside (some t.dtype) none)

/-- A tensor in memory of its own with the same elements, and its gradient so too. -/
def clone : TensorM := do
  let r ← t.blankCopy
  let r ← match ← t.grad? with
    | none => pure r
    | some g => r.withGrad (← (← g.blankCopy).assign g)
  r.assign t

/-! ### Setting items -/

/-- Elements at an index replaced in place. -/
def setItem (is : List Index) (v : Tensor) : SessionM Unit := do
  let held := is.filterMap fun i => match i with
    | .tensor p => some p
    | _ => none
  let (_, after) ← keeping (t :: v :: held) fun ts => do
    Session.realize (← (ts.take 1).mapM placeOf)
  let t :: v :: ps := after | throw .wrongType
  let (is, _) := is.foldl (fun acc i => match i, acc.2 with
    | .tensor _, p :: ps => (acc.1 ++ [.tensor p], ps)
    | i, ps => (acc.1 ++ [i], ps)) ([], ps)
  let r ← t.indexWith is (some v)
  if (← r.shape) == (← t.shape) && !(r.node == t.node) then
    let _ ← (← t.assign r).realize1
  else
    let v ← (← v.cast r.dtype).broadcastTo (← Shape.broadcast [← r.shape, ← v.shape])
    let _ ← (← r.assign (← v.contiguous)).realize1

def setFileItem (is : List Index) (v : Tensor ⊕ Source) : SessionM Unit := do
  let t ← t.realize1
  let r ← t.index is
  match v with
  | .inl v => let _ ← r.assign v
  | .inr s => let _ ← r.assignSource s

/-! ### Gradients -/

/-- The gradients of a tensor for targets; those that it does not depend on are refused, or zero. -/
def gradient (t : Tensor) (targets : List Tensor) (start : Option Tensor) (fill : Bool := false) :
    SessionM (List Tensor) := do
  if start.isNone && !((← t.shape).isEmpty) then
    throw (.broken "when no gradient is provided, backward must be called on a scalar tensor")
  if !(t.dtype.isFloat && targets.all fun x => x.dtype.isFloat) then
    throw (.misused "only float Tensors have gradient")
  let start ← match start with
    | some g => pure g
    | none =>
      ofConst (.float 1) (← t.beside (some t.dtype))
  let table ← Gradient.compute t.node start.node (targets.map (·.node))
  let found ← targets.mapM fun x => do
    match table[x.node.number]? with
    | some g => pure g
    | none =>
      if fill then x.node.constLike (.int 0)
      else throw (.misused "UOp(")
  (targets.zip found).mapM fun (x, g) => do ofNode g { device := some (← x.device) }

/-- Add gradients to all tensors of the session that want them and that a tensor depends on. -/
def backward (start : Option Tensor) : TensorM := do
  let seen := t.node.sorted.seen
  let places := (((← get).kept.toList.filter fun (_, k) =>
    k.listed && k.tracked = some true && seen.contains k.node.number).map (·.1)).mergeSort (· ≤ ·)
  let targets ← places.mapM atPlace
  let grads ← t.gradient targets start true
  for (x, g) in targets.zip grads do
    g.sameShape x "grad shape must match tensor shape,"
    let g ← match ← x.grad? with
      | none => pure g
      | some h => Session.traced "__add__" (h.add g)
    let _ ← x.withGrad g
  return t

end Tensor

end LazyTensor
