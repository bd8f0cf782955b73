import LazyTensor.Tensor.Reduce

/-!
# Padding and windows

Padding surrounds a tensor with a value.  Windows slide over the last axes: every position of the
window becomes an index of the front axes, and the elements inside it come last.
-/

namespace LazyTensor

namespace Padding

def grouped (flat : List Dim) : List (Dim × Dim) :=
  let r := flat.reverse
  let every2 (xs : List Dim) : List Dim :=
    (xs.zipIdx.filter fun (_, i) => i % 2 = 0).map (·.1)
  (every2 (r.drop 1)).zip (every2 r)

end Padding

namespace Tensor

def surround (t : Tensor) (amounts : List (Dim × Dim)) (value : Const) : TensorM := do
  let x ← t.apply1 fun e => e.pad amounts
  if Const.eq value (.int 0) then return x
  let inside ← (← t.onesLike).apply1 fun e => e.pad amounts
  x.add (← inside.choose 0 value)

def padBy (t : Tensor) (amounts : List (Dim × Dim)) (value : Const := .float 0) : TensorM := do
  let up : GraphM Bool := (amounts.flatMap fun (a, b) => [a, b]).allM fun d => do
    (← d.ge 0).resolve
  let kept ← amounts.mapM fun (a, b) => do
    return (← Dim.largest [a, 0], ← Dim.largest [b, 0])
  if ← liftM up then t.surround amounts value
  else
    let cuts ← (amounts.zip (← t.shape)).mapM fun ((a, b), s) => do
      return (← (← Dim.smallest [a, 0]).neg, ← Dim.smallest [← b.add s, s])
    (← t.shrink (cuts.map some)).surround kept value

def padSome (t : Tensor) (amounts : List (Option (Dim × Dim))) (value : Const := .float 0) :
    TensorM := t.padBy (amounts.map fun a => a.getD (0, 0)) value

def padFlat (t : Tensor) (flat : List Dim) (value : Const := .float 0) : TensorM := do
  let n ← t.ndim
  let flat := flat ++ List.replicate (2 * (n - flat.length / 2)) 0
  t.padBy (Padding.grouped flat) value

def perAxis (n : Nat) (x : Int ⊕ List Int) : List Int :=
  match x with
  | .inl i => List.replicate n i
  | .inr is => is

def tupleText (ns : List Int) : String := tupleOf (ns.map fun n => s!"{n}")

end Tensor

/-- What windows can be taken of.  Movements of the last axes leave the axes in front as they are. -/
class Movable (T : Type) where
  shape : T → SessionM (List Dim)
  /-- Copies one after another. -/
  tile (t : T) (front : Nat) (counts : List Dim) : SessionM T
  /-- Zeros after the end. -/
  extend (t : T) (front : Nat) (amounts : List Dim) : SessionM T
  /-- The first elements. -/
  take (t : T) (front : Nat) (lengths : List Dim) : SessionM T
  /-- The same elements along other axes. -/
  regroup (t : T) (front : Nat) (sizes : List Dim) : SessionM T
  permute (t : T) (order : List Int) : SessionM T

instance : Movable Tensor where
  shape := Tensor.shape
  tile t front ds := t.repeats (List.replicate front 1 ++ ds)
  extend t front ds := t.padSome (List.replicate front none ++ ds.map fun d => some (0, d))
  take t front ds := t.shrink (List.replicate front none ++ ds.map fun d => some (0, d))
  regroup t front ds := t.reshapeSome (List.replicate front none ++ ds.map some)
  permute := Tensor.permute

namespace Movable

variable {T : Type} [Movable T]

/-- The axes of windows and those inside them, which alternate, each kind together. -/
def sorted (front count : Nat) (outerFirst : Bool) : List Int :=
  let even := (List.range (2 * count)).filter (· % 2 = 0)
  let odd := (List.range (2 * count)).filter (· % 2 ≠ 0)
  let inner := if outerFirst then even ++ odd else odd ++ even
  (List.range front ++ inner.map (front + ·)).map Int.ofNat

/-- Windows that may overlap: every position of the window starts in a copy of its own. -/
def tiled (t : T) (front : Nat) (size inner room out : List Dim) (steps gaps : List Int) :
    SessionM T := do
  let scales ← ((out.zip steps).zip room).mapM fun ((o, s), r) => do
    let more ← (← (← o.mul (.int s)).gt r).resolve
    return (if more then 2 else 1 : Int)
  let rows ← ((inner.zip scales).zip gaps).mapM fun ((i, f), d) => do
    (← i.mul (.int f)).add (.int d)
  let lengths ← (size.zip rows).mapM fun (k, r) => liftM (k.mul r)
  let counts ← (lengths.zip inner).mapM fun (l, i) => liftM (Shape.ceilDiv l i)
  let x ← tile t front counts
  let x ← take x front lengths
  let x ← regroup x front ((size.zip rows).flatMap fun (k, r) => [k, r])
  let used ← (out.zip steps).mapM fun (o, s) => liftM (o.mul (.int s))
  let x ← take x front ((size.zip used).flatMap fun (k, u) => [k, u])
  let x ← regroup x front (((size.zip out).zip steps).flatMap fun ((k, o), s) => [k, o, .int s])
  let x ← take x front ((size.zip out).flatMap fun (k, o) => [k, o, 1])
  let x ← regroup x front ((size.zip out).flatMap fun (k, o) => [k, o])
  permute x (sorted front inner.length false)

/-- Windows side by side: each is the beginning of a block. -/
def apart (t : T) (front : Nat) (size inner out : List Dim) (steps : List Int) : SessionM T := do
  let used ← (out.zip steps).mapM fun (o, s) => liftM (o.mul (.int s))
  let missing ← (used.zip inner).mapM fun (u, i) => do
    match u, i with
    | .int a, .int b => return Dim.int (if a - b < 0 then 0 else a - b)
    | a, b =>
      let rest ← a.sub b
      let positive ← (← Dim.gt rest 0).holds
      return if positive then rest else 0
  let x ← extend t front missing
  let x ← take x front used
  let x ← regroup x front ((out.zip steps).flatMap fun (o, s) => [o, .int s])
  let x ← take x front ((out.zip size).flatMap fun (o, k) => [o, k])
  permute x (sorted front inner.length true)

/-- Windows along the last axes: first their axes, then those inside them. -/
def windows (t : T) (size : List Dim) (stride dilation : Int ⊕ List Int) : SessionM T := do
  let shape ← shape t
  let n := size.length
  if shape.length < n then
    throw (.broken s!"can't pool {Dim.shapeText shape} with {Dim.shapeText size}")
  let steps := Tensor.perAxis n stride
  let gaps := Tensor.perAxis n dilation
  if n ≠ steps.length || n ≠ gaps.length then
    throw (.broken (s!"stride/dilation mismatch kernel:{Dim.shapeText size} " ++
      s!"stride:{Tensor.tupleText steps} dilation:{Tensor.tupleText gaps}"))
  let front := shape.length - n
  let inner := if n = 0 then shape else shape.drop front
  -- the extent that the window covers less one position, for every axis
  let spans ← (size.zip gaps).mapM fun (k, d) => do Dim.mul (.int d) (← k.sub 1)
  let fits : GraphM Bool := (spans.zip inner).allM fun (s, i) => do
    (← (← s.add 1).le i).resolve
  if !(← liftM fits) then
    throw (.broken "kernel size cannot be greater than actual input size")
  let room ← (inner.zip spans).mapM fun (i, s) => liftM (i.sub s)
  let out ← (room.zip steps).mapM fun (r, s) => liftM (Shape.ceilDiv r (.int s))
  let overlap : GraphM Bool := (size.zip steps).anyM fun (k, s) => do (← k.gt (.int s)).resolve
  if (← liftM overlap) || gaps.any (· ≠ 1) then tiled t front size inner room out steps gaps
  else apart t front size inner out steps

end Movable

def Tensor.windows (t : Tensor) (size : List Dim) (stride dilation : Int ⊕ List Int := .inl 1) :
    TensorM := Movable.windows t size stride dilation

end LazyTensor
