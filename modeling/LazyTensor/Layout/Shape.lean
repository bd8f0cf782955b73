import LazyTensor.Layout.Extent

/-!
# Shapes and strides

How shapes relate to strides and to each other: the strides of a dense array, the axes that merge,
which axes of one shape make up an axis of another, and what a mask becomes under a new shape.
-/

namespace LazyTensor.Shape

def canonicalStrides (shape strides : List Dim) : List Dim :=
  (shape.zip strides).map fun (s, st) => if s == 1 then 0 else st

def strides (shape : List Dim) : GraphM (List Dim) := do
  let _ :: rest := shape | return []
  let (_, acc) ← rest.reverse.foldlM (fun (x, acc) d => do
    let y ← x.mul d
    return (y, y :: acc)) ((1 : Dim), [(1 : Dim)])
  return canonicalStrides shape acc

def position? (xs : List Dim) (x : Dim) : Option Nat := xs.findIdx? (· == x)

/-- The axes of the old shape that make up each axis of the new one, where there are such. -/
def contraction? (old new : List Dim) : GraphM (Option (List (List Nat))) := do
  let accOld ← Dim.accumulate old
  let accNew ← Dim.accumulate new
  let ends ← try
      accNew.mapM fun acc => do
        if ← (← acc.ne 1).holds then
          let some i := position? accOld acc | throw Failure.invalidValue
          return i + 1
        return 0
    catch f =>
      if f.kind = .invalidValue then return none else throw f
  let starts := 0 :: ends.dropLast
  let stops := ends.dropLast ++ [old.length]
  return some ((starts.zip stops).map fun (a, b) => (List.range (b - a)).map (· + a))

/-- The first position at or after `i` whose list of axes is not empty; axes passed over must have
size one. -/
def nextFilled (shape : List Dim) (groups : List (List Nat)) (i : Nat) : GraphM Nat := do
  let rec go : Nat → Nat → GraphM Nat
    | 0, i => return i
    | fuel + 1, i => do
      if i < groups.length && (groups.getD i []).isEmpty then
        if !(shape.getD i 0 == 1) then throw (.broken "")
        go fuel (i + 1)
      else return i
  go groups.length i

/-- A contraction in which every reduced axis is made up of some axis: one without any takes an axis
of size one from the next. -/
def contractionWithReduce? (old new : List Dim) (axes : List Int) :
    GraphM (Option (List (List Nat))) := do
  let some c ← contraction? old new | return none
  let mut c := c
  for i in List.range c.length do
    if axes.contains (i : Int) && (c.getD i []).isEmpty then
      let j ← nextFilled new c (i + 1)
      if j ≥ c.length then return none
      if !(new.getD j 0 == 1) then
        if ← (← (new.getD j 0).ne 1).holds then return none
      for d in List.range (j - i) do
        let k := j - d
        let g := c.getD k []
        if g.isEmpty then throw (.broken "")
        c := (c.set (k - 1) g.dropLast).set k (g.drop (g.length - 1))
  return some c

/-- A block of merged axes: its size, its stride, and its size without repeated axes. -/
structure Merged where
  size : Dim
  stride : Dim
  real : Dim

variable (mask : Option (List (Dim × Dim)))

/-- Whether only one index of an axis is inside the mask, or the axis has size one. -/
def isPoint (shape : List Dim) (i : Nat) : GraphM Bool := do
  let some ms := mask | return shape.getD i 0 == 1
  let (b, e) := ms.getD i (0, 0)
  return (← e.sub b) == 1

/-- The state of merging axes from the first on: the blocks before the current one, the current
block, and whether only one index of its last axis counts. -/
structure Merging where
  done : List Merged
  last : Merged
  point : Bool

/-- Merge the next axis into the current block, or begin a new one. -/
def mergeStep (shape : List Dim) (m : Merging)
    (axis : (Dim × Dim) × Nat) : GraphM Merging := do
  let ((s, st), i) := axis
  if s == 1 then return m
  let (done, last) ←
    if m.point then pure (m.done, Merged.mk (← m.last.size.mul s) st s)
    else if m.last.stride == (← s.mul st) then
      pure (m.done, Merged.mk (← m.last.size.mul s) st (← m.last.real.mul s))
    else pure (m.done ++ [m.last], Merged.mk s st s)
  return ⟨done, last, ← isPoint mask shape i⟩

/-- Merge neighbouring axes that move through memory as one, or whose outer one has a single
index. -/
def mergeDims (shape strides : List Dim) (mask : Option (List (Dim × Dim))) :
    GraphM (List Merged) := do
  match shape, strides with
  | [], _ => return []
  | s0 :: _, st0s =>
    if shape.length ≠ strides.length || (mask.elim false fun m => m.length ≠ shape.length) then
      throw (.broken "")
    let st0 := st0s.headD 0
    let first : Merged := ⟨s0, st0, if ← (← st0.ne 0).holds then s0 else 0⟩
    let start : Merging := ⟨[], first, ← isPoint mask shape 0⟩
    let m ← (((shape.zip strides).drop 1).zipIdx 1).foldlM (mergeStep mask shape) start
    return m.done ++ [m.last]

/-- The state of carrying a mask over to a new shape, from the last axis on. -/
structure MaskState where
  masks : List (Dim × Dim)
  old : List Dim
  new : List Dim
  stride : Dim
  oldDim : Dim
  newDim : Dim
  mask : Dim × Dim
  done : List (Dim × Dim)

def next {α : Type} (xs : List α) (d : α) : α × List α :=
  match xs with
  | [] => (d, [])
  | x :: r => (x, r)

/-- The mask under a new shape, from the state; the fuel bounds the number of axes looked at. -/
def reshapeLoop (want : Nat) : Nat → MaskState → GraphM (Option (List (Dim × Dim)))
  | 0, _ => throw .exhausted
  | fuel + 1, s => do
    if s.done.length ≥ want then return some s.done
    let (l, r) := s.mask
    let nextStride ← (← s.newDim.mul s.stride).simplify
    let last ← r.sub 1
    if s.oldDim == nextStride then
      let b ← l.div s.stride
      let e ← (← last.div s.stride).add 1
      let (oldDim, old) := next s.old 1
      let (newDim, new) := next s.new 1
      let (mask, masks) := next s.masks ((0 : Dim), (1 : Dim))
      reshapeLoop want fuel ⟨masks, old, new, 1, oldDim, newDim, mask, (b, e) :: s.done⟩
    else if ← (← s.oldDim.gt nextStride).holds then
      if ← (← (← s.oldDim.mod nextStride).ne 0).holds then return none
      let cutL ← (← (← l.mod nextStride).ne 0).holds
      let cut ← if cutL then pure true else (← (← r.mod nextStride).ne 0).holds
      if cut then
        if ← (← (← l.div nextStride).ne (← last.div nextStride)).holds then return none
      let b ← (← l.mod nextStride).div s.stride
      let e ← (← (← last.mod nextStride).div s.stride).add 1
      let (newDim, new) := next s.new 1
      reshapeLoop want fuel { s with new, newDim, stride := nextStride, done := (b, e) :: s.done }
    else
      let (m, masks) := next s.masks ((0 : Dim), (1 : Dim))
      if !(s.mask == ((0 : Dim), s.oldDim)) && !(l == r) then
        if !((← m.2.sub m.1) == 1) then return none
      let b ← (← m.1.mul s.oldDim).add l
      let e ← (← (← m.2.sub 1).mul s.oldDim).add r
      let (d, old) := next s.old 1
      let oldDim ← (← s.oldDim.mul d).simplify
      reshapeLoop want fuel { s with masks, old, oldDim, mask := (b, e) }

def reshapeMask? (old new : List Dim) : GraphM (Option (List (Dim × Dim))) := do
  let some ms := mask | return some (new.map fun s => (0, s))
  if !ms.all (fun (b, e) => b.isInt && e.isInt) then return none
  let (oldDim, old') := next old.reverse 1
  let (newDim, new') := next new.reverse 1
  let (m, ms') := next ms.reverse ((0 : Dim), (1 : Dim))
  reshapeLoop new.length (1000 + 10 * (old.length + new.length))
    ⟨ms', old', new', 1, oldDim, newDim, m, []⟩

def unravel (shape : List Dim) (offset : Dim) : GraphM (List Dim) := do
  let (_, idxs) ← shape.reverse.foldlM (fun (acc, idxs) d => do
    let i ← (← offset.div acc).mod d
    return (← acc.mul d, i :: idxs)) ((1 : Dim), ([] : List Dim))
  return idxs

end LazyTensor.Shape
