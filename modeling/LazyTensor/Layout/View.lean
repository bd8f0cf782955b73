import LazyTensor.Layout.Shape

/-!
# Views

Movements of a view of memory: each gives another view of the same memory, or fails when no single
view can express it.
-/

namespace LazyTensor.View

open Dim

private def axesText (axes : List Int) : String := DType.tupleText axes

def allM (xs : List Dim) (p : Dim → GraphM Bool) : GraphM Bool := do
  for x in xs do
    if !(← p x) then return false
  return true

/-- The strides of a new view: those given, or those of a dense array. -/
def initialStrides (shape : List Dim) (strides : Option (List Dim)) : GraphM (List Dim) :=
  match strides with
  | none | some [] => Shape.strides shape
  | some st => pure (Shape.canonicalStrides shape st)

/-- Strides, offset and mask with the strides along axes with a single index moved to the offset;
where an axis has no index at all, nothing is left of any. -/
def withoutPoints (shape strides : List Dim) (offset : Dim) (ms : List (Dim × Dim)) :
    GraphM (List Dim × Dim × List (Dim × Dim)) := do
  let points ← ms.mapM fun (b, e) => do return !(← (← (← b.add 1).lt e).resolve)
  if !points.contains true then return (strides, offset, ms)
  let empty ← ms.anyM fun (b, e) => do return !(← (← b.lt e).resolve)
  let strides := if empty then shape.map fun _ => 0 else strides
  let offset := if empty then 0 else offset
  let ms := if empty then shape.map fun _ => ((0 : Dim), (0 : Dim)) else ms
  let moves ← (points.zip (strides.zip ms)).mapM fun (p, st, b, _) =>
    if p then st.mul b else pure (0 : Dim)
  let offset ← offset.add (← sum moves)
  return ((strides.zip points).map fun (st, p) => if p then 0 else st, offset, ms)

def finish (shape strides : List Dim) (offset : Dim) (mask : Option (List (Dim × Dim))) :
    GraphM (View Dim) := do
  let offset ← offset.simplify
  let shape ← shape.mapM simplify
  let dense ← Shape.strides shape
  return ⟨shape, strides, offset, mask, offset == 0 && mask.isNone && strides == dense⟩

/-- A view in canonical form: no stride along axes with a single index, no mask that hides nothing,
and nothing at all of an empty array. -/
def create (shape : List Dim) (strides : Option (List Dim) := none) (offset : Dim := 0)
    (mask : Option (List (Dim × Dim)) := none) : GraphM (View Dim) := do
  if !(← allM shape fun s => do (← s.ge 0).resolve) then
    throw (.invalid s!"Trying to create View with negative dimension: shape={shapeText shape}")
  let strides ← initialStrides shape strides
  if shape.contains 0 then return ⟨shape, shape.map fun _ => 0, 0, none, true⟩
  let mask := mask.filter fun ms =>
    !((ms.zip shape).all fun ((b, e), s) => b == 0 && e == s)
  match mask with
  | none => finish shape strides offset none
  | some ms =>
    let (strides, offset, ms) ← withoutPoints shape strides offset ms
    finish shape strides offset (some ms)

variable (v : View Dim)

def size : GraphM Int := do
  let r ← v.shape.foldlM (fun acc d => do liftM (Const.mul acc (← d.upper))) (.int 1)
  match r with
  | .int n => return n
  | .bool b => return Const.ofBool b
  | .float _ => throw (.broken s!"ret={r.text} is not int")

/-- The address of an index, and whether the index is inside. -/
def indexed (idxs : List Expr) (valid : Expr) : GraphM (Expr × Expr) := do
  let mut i ← v.offset.expr
  let mut valid := valid
  let masks : List (Option (Dim × Dim)) := match v.mask with
    | some ms => ms.map some
    | none => v.shape.map fun _ => none
  for (idx, s, st, m) in idxs.zip (v.shape.zip (v.strides.zip masks)) do
    if ← s.differs 1 then
      if ← st.differs 0 then i ← i.add (← idx.mul st)
    if let some (b, e) := m then
      if ← b.differs 0 then valid ← valid.mul (← idx.ge b)
      if ← e.differs s then valid ← valid.mul (← idx.lt e)
  return (i, valid)

def loops : GraphM (List Expr) :=
  v.shape.zipIdx.mapM fun (s, i) => Expr.range .int s i

def extents : List Dim :=
  v.shape ++ v.strides ++ [v.offset] ++ (v.mask.getD []).flatMap fun (b, e) => [b, e]

def vars : List Expr := Expr.dedup (v.extents.flatMap Dim.vars)

def substitute (subs : List (Expr × Expr)) : GraphM (View Dim) := do
  let shape ← v.shape.mapM (Dim.substitute subs)
  let strides ← v.strides.mapM (Dim.substitute subs)
  let offset ← v.offset.substitute subs
  let mask ← v.mask.mapM fun ms => ms.mapM fun (b, e) => do
    return (← b.substitute subs, ← e.substitute subs)
  create shape (some strides) offset mask

def unbind : GraphM (View Dim × List (Expr × Int)) := do
  let bound ← (v.vars.filter fun x => x.is .bind).mapM fun x => do return (x, ← x.unbind)
  return (← v.substitute (bound.map fun (x, y, _) => (x, y)), bound.map (·.2))

/-- The part of a view between bounds, which may lie outside of it. -/
def resize (arg : List (Dim × Dim)) (mask : Option (List (Dim × Dim))) : GraphM (View Dim) := do
  let moves ← (v.strides.zip arg).mapM fun (s, b, _) => s.mul b
  let offset ← sum moves
  let mask ← match v.mask with
    | none | some [] => pure mask
    | some old =>
      let moved ← (old.zip arg).mapM fun ((mx, my), ax, ay) => do
        let w ← ay.sub ax
        let b ← largest [0, ← smallest [← mx.sub ax, w]]
        let w ← ay.sub ax
        let e ← largest [0, ← smallest [← my.sub ax, w]]
        return (b, e)
      match mask with
      | none => pure (some moved)
      | some new =>
        let both ← (moved.zip new).mapM fun ((b1, e1), b2, e2) => do
          return (← largest [b1, b2], ← smallest [e1, e2])
        pure (some both)
  let shape ← arg.mapM fun (x, y) => y.sub x
  create shape (some v.strides) (← v.offset.add offset) mask

/-- Zeros before and after, along each axis. -/
def pad (arg : List (Dim × Dim)) : GraphM (View Dim) := do
  let refuse : GraphM Unit :=
    throw (.broken s!"invalid pad {pairsText arg} for {shapeText v.shape}")
  if arg.length ≠ v.shape.length then refuse
  for (b, e) in arg do
    match b, e with
    | .int n, .int m => if n < 0 || m < 0 then refuse
    | _, _ => pure ()
  let some' ← arg.anyM fun (b, e) => do
    if ← b.differs 0 then return true
    e.differs 0
  if !some' then return v
  let ends ← (v.shape.zip arg).mapM fun (s, b, e) => do return (← b.neg, ← s.add e)
  let mask ← (v.shape.zip arg).mapM fun (s, b, _) => do return (b, ← s.add b)
  v.resize ends (some mask)

def shrink (arg : List (Dim × Dim)) : GraphM (View Dim) := do
  let refuse : GraphM Unit :=
    throw (.broken s!"invalid shrink {pairsText arg} for {shapeText v.shape}")
  if arg.length ≠ v.shape.length then refuse
  for (s, b, e) in v.shape.zip arg do
    match s, b, e with
    | .int s, .int b, .int e => if !(0 ≤ b && b ≤ e && e ≤ s) then refuse
    | _, _, _ => pure ()
  v.resize arg none

/-- Axes of size one repeated. -/
def expand (shape : List Dim) : GraphM (View Dim) := do
  if shape.length ≠ v.shape.length then
    throw (.invalid s!"expand arg new_shape={shapeText shape} must have same number of dimensions as shape self.shape={shapeText v.shape}")
  if !((v.shape.zip shape).all fun (s, n) => s == n || s == 1) then
    throw (.broken s!"can't expand {shapeText v.shape} into {shapeText shape}")
  if v.shape.contains 0 then return ← create shape
  let mask ← match v.mask with
    | none | some [] => pure none
    | some ms =>
      let ms' ← (ms.zip (v.shape.zip shape)).mapM fun (m, s, n) => do
        if ← s.differs n then
          if s == 1 then return if m == ((0 : Dim), (1 : Dim)) then ((0 : Dim), n) else (0, 0)
        return m
      pure (some ms')
  create shape (some v.strides) v.offset mask

/-- The item of a list at an axis that may count from the end. -/
def axisOf {α : Type} [Inhabited α] (xs : List α) (a : Int) : α :=
  xs.getD (if a < 0 then a + xs.length else a).toNat default

def permute (axes : List Int) : GraphM (View Dim) := do
  if axes.mergeSort (· ≤ ·) != (List.range v.shape.length).map Int.ofNat then
    throw (.broken s!"invalid permutation {axesText axes} of len {v.shape.length}")
  create (axes.map (axisOf v.shape)) (some (axes.map (axisOf v.strides))) v.offset
    (v.mask.map fun ms => axes.map (axisOf ms))

def flip (arg : List Bool) : GraphM (View Dim) := do
  let moves ← (v.shape.zip (v.strides.zip arg)).filterMapM fun (s, z, f) => do
    if f then return some (← (← s.sub 1).mul z) else return none
  let offset ← sum moves
  let mask ← v.mask.mapM fun ms =>
    (ms.zip (v.shape.zip arg)).mapM fun ((b, e), s, f) => do
      if f then return (← s.sub e, ← s.sub b) else return (b, e)
  let strides ← (v.strides.zip arg).mapM fun (z, f) => if f then z.neg else pure z
  create v.shape (some strides) (← v.offset.add offset) mask

/-- The strides of new axes inside one merged block; gives the axes that are left.  The fuel bounds
the number of axes. -/
def splitBlock (size real : Dim) :
    Nat → Dim → Dim → List Dim → List Dim → GraphM (Option (List Dim × List Dim))
  | 0, _, _, _, _ => throw .exhausted
  | fuel + 1, acc, stride, new, out => do
    let goOn ← do
      if ← (← acc.le size).resolve then acc.differs size else pure false
    let stop : GraphM (Option (List Dim × List Dim)) := do
      if ← acc.differs size then return none
      return some (out, new)
    if !goOn then stop
    else
      let (d, new) := match new with
        | [] => ((0 : Dim), [])
        | d :: r => (d, r)
      if ← (← d.gt 0).resolve then
        let st ← stride.mul acc
        let acc ← acc.mul d
        let stride := if ← (← acc.lt real).resolve then stride else 0
        splitBlock size real fuel acc stride new (st :: out)
      else
        if ← acc.differs size then return none
        return some (out, new)

def splitBlocks (fuel : Nat) : List Shape.Merged → List Dim → List Dim → GraphM (Option (List Dim))
  | [], _, out => return some out
  | m :: ms, new, out => do
    let some (out, new) ← splitBlock m.size m.real fuel 1 m.stride new out | return none
    splitBlocks fuel ms new out

def maskOffset (mask : List (Dim × Dim)) (strides : List Dim) : GraphM Dim := do
  sum (← (mask.zip strides).mapM fun ((b, _), s) => b.mul s)

def firstOffset : GraphM Dim :=
  match v.mask with
  | none | some [] => pure 0
  | some ms => maskOffset ms v.strides

variable (shape : List Dim)

/-- The same elements of a view that is not dense under another shape of integers. -/
def reshapeBlocks? : GraphM (Option (View Dim)) := do
  let blocks ← Shape.mergeDims v.shape v.strides v.mask
  let some out ← splitBlocks (shape.length + 2) blocks.reverse shape.reverse [] | return none
  let strides := List.replicate (shape.length - out.length) (0 : Dim) ++ out
  let some mask ← Shape.reshapeMask? v.mask v.shape shape | return none
  let before ← v.firstOffset
  let after ← maskOffset mask strides
  let extra ← before.sub after
  return some (← create shape (some strides) (← v.offset.add extra) (some mask))

/-- The same view with expressions for its integer extents, which must have their values. -/
def reshapeSymbolic : GraphM (View Dim) := do
  let refuse : GraphM Unit :=
    throw (.invalid s!"cannot symbolic reshape non-contiguous {v.text} -> {shapeText shape}")
  if v.shape.length ≠ shape.length then refuse
  for (si, so) in v.shape.zip shape do
    let so ← match so with
      | .int n => pure (Const.int n)
      | .sym e => e.evaluate (← e.vars.mapM Expr.unbind)
    if !(Const.eq (.int (si.int?.getD 0)) so) then refuse
  return { v with shape }

/-- Refuse a shape with a negative extent, or one with another number of elements. -/
def checkReshape : GraphM Unit := do
  if !(← allM shape fun x => do (← x.ge 0).holds) then
    throw (.invalid s!"shape can't contain negative numbers {shapeText shape}")
  if allInt v.shape then
    if ← (← (← prod v.shape).ne (← prod shape)).resolve false then
      throw (.invalid s!"size mismatched, can't reshape self.shape={shapeText v.shape} -> new_shape={shapeText shape}")

/-- The same elements under another shape, if one view can express it. -/
def reshape? : GraphM (Option (View Dim)) := do
  if v.shape == shape then return some v
  v.checkReshape shape
  if v.shape.contains 0 then return some (← create shape)
  if shape.isEmpty && (v.mask.getD []).any (fun (b, e) => b == e) then return none
  if v.contiguous then return some (← create shape)
  if allInt v.shape && !Dim.allInt shape then return some (← v.reshapeSymbolic shape)
  v.reshapeBlocks? shape

def minify : GraphM (View Dim) := do
  let ms ← Shape.mergeDims v.shape v.strides v.mask
  return (← v.reshape? (ms.map Shape.Merged.size)).getD v

def sortAxes (keys : List Dim) : GraphM (List Int) := do
  let rec insert (i : Nat) (k : Dim) : List (Nat × Dim) → GraphM (List (Nat × Dim))
    | [] => return [(i, k)]
    | (j, x) :: rest => do
      if ← (← k.lt x).holds then return (i, k) :: (j, x) :: rest
      return (j, x) :: (← insert i k rest)
  let sorted ← keys.zipIdx.foldlM (fun acc (k, i) => insert i k acc) []
  return sorted.map fun (i, _) => (i : Int)

/-- The view that undoes this one, when it permutes, flips and pads a dense array. -/
def invert? : GraphM (Option (View Dim)) := do
  let r ← create v.shape
  let r ← match v.mask with
    | none | some [] => pure r
    | some ms => r.shrink ms
  let back ← v.strides.mapM fun x => do (← x.lt 0).holds
  let r ← r.flip back
  let keys ← v.strides.mapM fun x => do
    if ← (← x.gt 0).holds then x.neg else pure x
  let r ← r.permute (← sortAxes keys)
  return if (← prod r.shape) == (← prod shape) then some r else none

/-- The steps along the axes of a view that one axis of another takes: for each axis its number and
step. -/
abbrev Projection := List (Nat × Dim)

variable (v2 v1 : View Dim)

/-- The steps of `v1` along the axes of `v2`, and the strides they amount to. -/
def projections (origin : List Dim) : GraphM (List Projection × List Dim) := do
  let rows ← v1.strides.mapM fun st => do
    if st == 0 then return []
    let there ← Shape.unravel v2.shape (← v1.offset.add st)
    (there.zip origin).mapM fun (x, o) => x.sub o
  let strides ← rows.mapM fun row => do
    sum (← ((row.zip v2.strides).filter fun (x, _) => !(x == 0)).mapM fun (x, st) => x.mul st)
  let terms := (List.range v2.shape.length).map fun d2 => rows.zipIdx.filterMap fun (row, d1) =>
    (row[d2]?.filter fun x => !(x == 0)).map (d1, ·)
  return (terms, strides)

/-- The state of grouping axes where a step crosses them: the size and the position of the axes of
the current group, and the groups found. -/
structure Grouping where
  size : Dim
  term : Expr
  groups : List (Dim × Expr)

/-- The position along an axis: where it starts, moved by the steps of each index. -/
def position (idxs : List Expr) (term : Projection) (o : Dim) : GraphM Dim := do
  let parts ← term.mapM fun (d1, s1) => do
    let some x := idxs[d1]? | throw Failure.outOfRange
    return sym (← x.mul s1)
  (← sum parts).add o

/-- Take the next axis into the current group, which ends where no position leaves it. -/
def groupStep (idxs : List Expr) (g : Grouping) (axis : (Projection × Dim) × Dim) :
    GraphM Grouping := do
  let ((term, s), o) := axis
  let total ← (← position idxs term o).mul g.size
  let term ← g.term.add total
  let size ← g.size.mul s
  if ← (← term.lt size).resolve false then
    if ← (← term.ge 0).resolve false then
      return ⟨1, ← Expr.const .int (.int 0), (size, term) :: g.groups⟩
  return ⟨size, term, g.groups⟩

/-- The groups of axes of `v2` that no step of `v1` leaves, if there are any. -/
def groups? (origin : List Dim) (terms : List Projection) :
    GraphM (Option (List (Dim × Expr))) := do
  let idxs ← v1.shape.zipIdx.mapM fun (s, i) => do
    Expr.var s!"idx{i}" (.int 0) (.int (s.int?.getD 0 - 1))
  let start : Grouping := ⟨1, ← Expr.const .int (.int 0), []⟩
  let g ← ((terms.zip v2.shape).zip origin).reverse.foldlM (groupStep idxs) start
  return if ← (← g.term.ne 0).resolve then none else some g.groups

/-- What the mask of one view leaves of the axes of another, and whether one of its axes depends on
more than one of them. -/
structure Carried where
  window : List (Dim × Dim)
  bad : Bool := false

def boundInt (c : Const) : GraphM Dim :=
  match c.int? with
  | some n => pure (.int n)
  | none => throw Failure.wrongType

/-- Whether a position is always inside a part of an axis. -/
def covers (m : Dim × Dim) (t : Expr) : GraphM Bool := do
  let (lo, hi) ← t.bounds
  let lo ← boundInt lo
  let hi ← boundInt hi
  if ← (← m.1.le lo).holds then (← hi.lt m.2).resolve false else return false

/-- The first or the last index of a part of an axis, from an origin. -/
def edge (o : Dim) (m : Dim × Dim) (first : Bool) : GraphM Dim := do
  if first then m.1.sub o else (← m.2.sub o).sub 1

/-- Where steps from an origin come into a part of an axis, and where they leave it. -/
def crossing (o step : Dim) (m : Dim × Dim) : GraphM (Dim × Dim) := do
  let first ← edge o m (← (← step.gt 0).holds)
  let first ← (← first.div (← step.neg)).neg
  let last ← edge o m (← (← step.lt 0).holds)
  return (first, ← (← last.div step).add 1)

/-- The mask along an axis, carried to the window of the axis it comes from. -/
def carryStep (c : Carried) (axis : ((Dim × Dim) × Dim) × (Projection × (Dim × Expr))) :
    GraphM Carried := do
  let ((m, o), term, _, t) := axis
  if ← covers m t then return c
  match term with
  | [(d1, step)] =>
    let (b, e) := c.window.getD d1 (0, 0)
    let (first, last) ← crossing o step m
    return { c with window := c.window.set d1 (← largest [b, first], ← smallest [e, last]) }
  | [] =>
    match c.window with
    | [] => return { c with bad := true }
    | (b, _) :: rest => return { c with window := (b, 0) :: rest }
  | _ => return { c with bad := true }

/-- What merging a view `v1` of a view `v2` comes to: the answer; the part of `v1` inside its mask,
to be merged and padded; or other views of the same. -/
inductive Merging where
  | done (r : Option (View Dim))
  | within (mask : List (Dim × Dim)) (v1 : View Dim)
  | again (v2 v1 : View Dim)

/-- Merge views with the steps of `v1` projected on the axes of `v2`: those that a step crosses are
merged first, and the mask of `v2` is carried over to `v1`. -/
def mergeSteps : GraphM Merging := do
  let origin ← Shape.unravel v2.shape v1.offset
  let (terms, strides) ← projections v2 v1 origin
  let some groups ← groups? v2 v1 origin terms | return .done none
  let some r ← v2.reshape? (groups.map (·.1)) | return .done none
  if !(r.shape == v2.shape) then return .again r v1
  let c ← (((v2.mask.getD []).zip origin).zip (terms.zip groups)).foldlM carryStep
    { window := v1.shape.map fun s => (0, s) }
  if !((c.window.zip v1.shape).all fun ((b, e), s) => b == 0 && e == s) then
    return .again v2 (← create v1.shape (some v1.strides) v1.offset (some c.window))
  if c.bad then return .done none
  let offs ← (origin.zip v2.strides).mapM fun (o, s) => o.mul s
  let offset ← (← sum offs).add v2.offset
  return .done (← create v1.shape (some strides) offset)

/-- The view `v2` in the shape of the view `v1`, if `v1` shows all of it in order. -/
def denseMerge? (size : Int) : GraphM (Option (View Dim)) := do
  if !v1.contiguous then return none
  if v1.shape == v2.shape then return some v2
  if size = (← v2.size) then v2.reshape? v1.shape else return none

def mergeStep : GraphM Merging := do
  if v2.contiguous then return .done v1
  let size ← v1.size
  if size = 0 then return .done v1
  if let some r ← denseMerge? v2 v1 size then return .done r
  if let some (m :: ms) := v1.mask then
    let inner ← v1.shrink (m :: ms)
    return if inner == v1 then .done none else .within (m :: ms) inner
  if Dim.allInt v1.shape then return ← mergeSteps v2 v1
  return .done (if (v2.strides ++ v1.strides).all (· == 0) && v2.mask.isNone then some v1 else none)

/-- One view for the view `v1` of the view `v2`, if there is one; after so many steps another way to
merge goes on. -/
def mergeWithin (beyond : View Dim → View Dim → GraphM (Option (View Dim))) :
    Nat → View Dim → View Dim → GraphM (Option (View Dim))
  | 0, v2, v1 => beyond v2 v1
  | n + 1, v2, v1 => do
    match ← mergeStep v2 v1 with
    | .done r => return r
    | .again v2 v1 => mergeWithin beyond n v2 v1
    | .within mask inner =>
      let some r ← mergeWithin beyond n v2 inner | return none
      let pads ← (mask.zip v1.shape).mapM fun ((b, e), s) => do return (b, ← s.sub e)
      return some (← r.pad pads)

/-- One view for the view `v1` of the view `v2`, if there is one. -/
def merge? : GraphM (Option (View Dim)) :=
  mergeWithin (fun _ _ => throw (.bare .recursionLimit)) 900 v2 v1

end LazyTensor.View
