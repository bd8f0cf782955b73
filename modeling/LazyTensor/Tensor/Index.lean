import LazyTensor.Tensor.Range

/-!
# Indexing

A tensor is indexed along its axes: by a position, which removes the axis; by a slice; by a tensor of
positions, which are looked up one by one; by a new axis.  One gap stands for all axes that are not
mentioned.

Positions are looked up by comparison: a mask over all positions of the axis selects the element, and
a sum along the axis takes it out.  Tensors of positions along several axes are stretched to a common
shape, which takes the place of the first of these axes.
-/

namespace LazyTensor

inductive Bound where
  | none
  | dim (d : Dim)
  | other (shown : String)

namespace Bound

def text : Bound → String
  | none => "None"
  | dim d => d.text
  | other s => s

def isNone : Bound → Bool
  | none => true
  | _ => false

def int? : Bound → Option (Option Int)
  | none => some Option.none
  | dim (.int n) => some (some n)
  | _ => Option.none

def dim? : Bound → Option Dim
  | dim d => some d
  | _ => Option.none

end Bound

inductive Index where
  | position (d : Dim)
  | slice (start stop step : Bound)
  | tensor (t : Tensor)
  | data (n : Nested)
  | newAxis
  | gap
  | other (kind : String)

namespace Index

def whole : Index := .slice .none .none .none

def between (start stop : Int) : Index := .slice (.dim (.int start)) (.dim (.int stop)) .none

def upFrom (start : Int) : Index := .slice (.dim (.int start)) .none .none

def upTo (stop : Int) : Index := .slice .none (.dim (.int stop)) .none

/-- Where a slice of integers starts and stops in so many positions, and its step. -/
def clip (start stop step : Option Int) (n : Int) : Int × Int × Int :=
  let step := step.getD 1
  let lower : Int := if step < 0 then -1 else 0
  let upper : Int := if step < 0 then n - 1 else n
  let clamp (x : Int) : Int :=
    if x < 0 then (if x + n < lower then lower else x + n)
    else (if x > upper then upper else x)
  let start := match start with
    | some x => clamp x
    | none => if step < 0 then upper else lower
  let stop := match stop with
    | some x => clamp x
    | none => if step < 0 then lower else upper
  (start, stop, step)

/-- What an index does to its axis. -/
structure Effect where
  consumes : Bool := true
  removed : Bool := false
  symbolic : Bool := false
  positions : Option Tensor := none
  size : Dim
  lo : Dim
  hi : Dim
  stride : Int := 1

/-- What a slice does to an axis. -/
def sliceEffect (start stop step : Bound) (size : Dim) : GraphM Effect := do
  let shown := s!"index=slice({start.text}, {stop.text}, {step.text})"
  if step.int? == some (some 0) then
    throw (.invalid s!"{shown} cannot have 0 as step")
  if start.isNone && stop.isNone && step.isNone then return { size, lo := 0, hi := size }
  match start.int?, stop.int?, step.int? with
  | some a, some b, some c =>
    match size with
    | .sym _ => throw .wrongType
    | .int n =>
      let (a, b, c) := clip a b c n
      let (lo, hi) := if c * (b - a) < 0 then (0, 0) else if c < 0 then (b + 1, a + 1) else (a, b)
      return { size := ← Shape.ceilDiv (.int (hi - lo)) (.int c.natAbs), lo := .int lo, hi := .int hi,
               stride := c }
  | _, _, _ =>
    match step.isNone, start.dim?, stop.dim? with
    | true, some a, some b =>
      let length ← b.sub a
      if ← (← length.gt 0).resolve false then
        return { size := ← length.simplify, lo := a, hi := b }
      throw (.because .wrongType s!"slice {shown} is not supported")
    | _, _, _ => throw (.because .wrongType s!"slice {shown} is not supported")

def positionEffect (d size : Dim) : GraphM Effect := do
  let above ← (← d.ge size).holds
  let below ← if above then pure true else do (← d.lt (← size.neg)).holds
  if above || below then
    throw (.because .outOfRange s!"index={d.text} is out of bounds with size={size.text}")
  let base := { size, lo := d, hi := ← d.add 1, removed := true, symbolic := !d.isInt : Effect }
  if ← (← d.ge 0).holds then return base
  let lo ← d.add size
  return { base with lo, hi := ← lo.add 1 }

end Index

namespace Tensor

variable (t : Tensor)

def toDevice (device : Arg) : TensorM := do
  if (← t.device) == device then return t
  if Device.isSingle device then ofNode t.node { device := some device, tracked := t.tracked }
  else
    if !(Device.isSingle (← t.device)) then throw (.broken "can't shard a MultiLazyBuffer")
    ofNode (← t.node.copyTo device) { device := some device, tracked := t.tracked }

/-- What an index does to an axis of a tensor. -/
def effectOf (i : Index) (size : Dim) : SessionM Index.Effect := do
  let lookup (p : Tensor) : SessionM Index.Effect := do
    if !p.dtype.isInt then
      throw (.because .outOfRange s!"index dtype {p.dtype.text} is not supported")
    let p ← (← (← p.toDevice (← t.device)).lt 0).choose (← p.add size) p
    return { size, lo := 0, hi := size, positions := some p }
  match i with
  | .position d => Index.positionEffect d size
  | .slice a b c => Index.sliceEffect a b c size
  | .tensor p => lookup p
  | .data n =>
    lookup (← new (.nested n) (← t.beside))
  | .newAxis | .gap => return { size := 1, lo := 0, hi := 1, consumes := false }
  | .other kind => throw (.because .outOfRange s!"{kind} indexing is not supported")

variable (is : List Index)

/-- The indices with the gap filled by whole axes, so that all axes are mentioned. -/
def fillGap : SessionM (List Index) := do
  let isGap (i : Index) : Bool := match i with
    | .gap => true
    | _ => false
  let isNew (i : Index) : Bool := match i with
    | .newAxis => true
    | _ => false
  let gaps := (is.filter isGap).length
  if gaps > 1 then
    throw (.because .outOfRange "indices can only have a single ellipsis")
  let n ← t.ndim
  let count := is.length - gaps - (is.filter isNew).length
  if count > n then
    throw (.because .outOfRange s!"too many num_indices={count} for self.ndim={n}")
  let at_ := (is.findIdx? isGap).getD is.length
  return is.take at_ ++ List.replicate (n - count) Index.whole ++ is.drop (at_ + 1)

def effects : SessionM (List Index.Effect) := do
  let shape ← t.shape
  let (out, _) ← is.foldlM (fun acc i => do
    match i with
    | .newAxis => return (acc.1 ++ [← t.effectOf i 1], acc.2)
    | i => return (acc.1 ++ [← t.effectOf i (← itemAt shape (acc.2 : Int))], acc.2 + 1)) ([], 0)
  return out

/-- The part of a tensor that slices and positions select, before axes are removed. -/
def cut (es : List Index.Effect) : TensorM := do
  if es.isEmpty then return t
  let x ← t.shrink (es.map fun e => some (e.lo, e.hi))
  let back := (es.zipIdx.filter fun (e, _) => e.stride < 0).map fun (_, i) => (i : Int)
  let x ← x.flip back
  if es.all fun e => e.stride.natAbs = 1 then return x
  let steps := es.map fun e => (e.stride.natAbs : Int)
  let shape ← (Dim.ints? (← x.shape)).getDM (throw (.misused "symbolic shape not supported"))
  let grown ← (shape.zip steps).mapM fun (s, st) => liftM (Shape.roundUp s st)
  let x ← x.padBy ((grown.zip shape).map fun (g, s) => (0, .int (g - s)))
  let counts := (grown.zip steps).map fun (g, st) => Dim.int (g / st)
  let x ← x.reshape ((counts.zip steps).flatMap fun (c, st) => [c, .int st])
  let x ← x.shrink (counts.flatMap fun c => [some (0, c), some (0, 1)])
  x.reshape counts

/-- Elements replaced by others where a mask says so.  Along the given axes, which the target does
not have, the last element counts. -/
def maskedSet (target values mask : Tensor) (axes : List Int) : TensorM := do
  let parts (t : Tensor) (dim : Int) : SessionM (List Tensor) := do
    let i ← t.axis dim
    let shape ← t.shape
    let ns ← (Dim.ints? shape).getDM
      (throw (.broken s!"does not support symbolic shape {Dim.shapeText shape}"))
    let n := (ns.getD i 0).toNat
    let bounds (k : Nat) : List (Option (Dim × Dim)) :=
      (shape.zipIdx.map fun (s, j) =>
        some (if j = i then (.int k, .int (k + 1 : Nat)) else (0, s)))
    -- an axis without elements is one empty part
    if n = 0 then return [← (← t.shrink (shape.map fun s => some (0, s))).flip []]
    (List.range n).mapM fun k => do (← t.shrink (bounds k)).flip []
  let (mask, values) ← axes.foldlM (fun (m, v) dim => do
    let ms ← parts m dim
    let vs ← parts v dim
    let first :: rest := ms.zip vs | throw Failure.wrongType
    rest.foldlM (fun (m, v) (m', v') => do
      return (← m.lor m', ← m'.choose v' v)) first) (mask, values)
  let (mask, values) ← axes.reverse.foldlM (fun (m, v) dim => do
    return (← m.squeeze dim, ← v.squeeze dim)) (mask, values)
  mask.choose values target

/-- The printed failure of shapes that cannot be stretched, as a failure of an index. -/
def asIndexFailure (x : TensorM) : TensorM :=
  tryCatch x fun f =>
    if f.kind = .invalidValue then
      let reason := f.message.getD ""
      throw (.because .outOfRange s!"cannot broadcast indices: {reason}")
    else throw f

/-- The elements that an index selects; or with `set`, the whole tensor with these elements replaced,
where positions are looked up. -/
def indexWith (set : Option Tensor) : TensorM := do
  let es ← t.effects (← t.fillGap is)
  let x ← t.cut (es.filter (·.consumes))
  let kept := es.filter fun e => !e.removed
  let x ← x.reshape (kept.map (·.size))
  -- symbolic positions still count among the axes here
  let counted := es.filter fun e => !(e.removed && !e.symbolic)
  let lookups := counted.zipIdx.filterMap fun (e, i) => e.positions.map fun p => (i, p)
  let (first, _) :: _ := lookups | return x
  let dims := lookups.map (·.1)
  let shape ← x.shape
  let n := shape.length
  let big ← Shape.broadcast (← lookups.mapM fun (_, p) => p.shape)
  let front := shape.take first
  let back := shape.drop first
  let masks ← lookups.mapM fun (d, p) => do
    let p ← asIndexFailure do
      (← p.reshape ((← p.shape) ++ List.replicate (n - first) 1)).expand (front ++ big ++ back)
    p.oneHotAlong (← itemAt shape (d : Int)) ((d : Int) - n)
  let mask ← match masks with
    | m :: ms => ms.foldlM (fun a (b : Tensor) => a.mul b) m
    | [] => throw .wrongType
  let wide ← x.reshape (front ++ big.map (fun _ => 1) ++ back)
  let axes := dims.map fun d => ((d + big.length : Nat) : Int)
  let y ← (← wide.mul mask).sum (.some axes) false (some x.dtype)
  let last := dims.getLastD first
  let apart := first ≠ 0 && dims.length ≠ 1 &&
    dims ≠ (List.range (last + 1 - first)).map (· + first)
  let y ← if apart then do
      let m ← y.ndim
      let range (a b : Nat) : List Int := ((List.range (b - a)).map fun i => ((a + i : Nat) : Int))
      y.permute (range first (first + big.length) ++ range 0 first ++ range (first + big.length) m)
    else pure y
  let some v := set | return y
  let v ← (← v.cast t.dtype).broadcastTo (← Shape.broadcast [← y.shape, ← v.shape])
  let v ← axes.foldlM (fun v a => v.unsqueeze a) v
  t.maskedSet v mask ((List.range big.length).map fun i => ((first + i : Nat) : Int))

def index : TensorM := t.indexWith is none

end Tensor

end LazyTensor
