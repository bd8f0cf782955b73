import LazyTensor.Tensor.Memory
import LazyTensor.Tensor.Scan

/-!
# Looking up and sorting

Elements are gathered from positions and scattered to them by masks that compare positions.  Sorting
is a network of comparisons between halves of ever smaller blocks; the positions of the sorted
elements are found by comparing with the unsorted ones.
-/

namespace LazyTensor.Tensor

variable (t : Tensor)

/-- Elements at positions along an axis. -/
def gather (dim : Int) (index : Tensor) : TensorM := do
  let n ← t.ndim
  let m ← index.ndim
  if m ≠ n then
    throw (.broken (s!"self.ndim must equal index.ndim, self.ndim={n}, index.ndim={m}"))
  let d ← t.axis dim
  let shape ← t.shape
  let other ← index.shape
  let fits : GraphM Bool := ((shape.zip other).zipIdx).allM fun ((s, i), k) => do
    if k = d then return true else (← s.ge i).holds
  if !(← liftM fits) then
    throw (.broken "requires self.shape[d] >= index.shape[d] for all d != dim")
  let index ← index.movedTo (some (← t.device))
  let cut ← t.shrink ((← index.shape).zipIdx.map fun (i, k) => if k = d then none else some (0, i))
  let x ← (← cut.unsqueeze (-1)).transpose (-1) d
  let mask ← (← index.unsqueeze (-1)).oneHotAlong (← t.extent d)
  (← x.mul mask).sum (.one (-1)) false (some t.dtype)

/-- Positions as rows with a single one; without a number of classes, one more than the greatest. -/
def oneHot (classes : Int := -1) : TensorM := do
  if !t.dtype.isInt then
    throw (.misused s!"expect integer dtype, getting self.dtype={t.dtype.text}")
  let (t, count) ← if classes = -1 then do
      let (c, after) ← keeping [t] fun ts => match ts with
        | [t] => do (← (← t.max).add 1).item
        | _ => throw .wrongType
      pure (after.headD t, ← c.toInt?)
    else pure (t, classes)
  let x ← t.index [.gap, .newAxis]
  (← x.oneHotAlong (.int count)).choose 1 0

/-- The values to scatter and the mask of their places, with a last axis for the positions of the
values. -/
def beforeScatter (dim : Int) (index src : Tensor) : SessionM (Tensor × Tensor) := do
  let index ← index.movedTo (some (← t.device))
  let d ← t.axis dim
  let n ← t.ndim
  let a ← index.ndim
  let b ← src.ndim
  if !(a = n && n = b) then
    throw (.broken (s!"self.ndim, index.ndim and src.ndim must all equal, self.ndim={n} " ++
      s!"index.ndim={a} src.ndim={b}"))
  let shape ← t.shape
  let shapeI ← index.shape
  let shapeS ← src.shape
  let fits : GraphM Bool := ((shape.zip shapeI).zip shapeS).zipIdx.allM
    fun (((s, i), v), k) => do
      let inside ← if k = d then pure true else (← s.ge i).holds
      if inside then (← v.ge i).holds else return false
  if !(← liftM fits) then
    throw (.broken (s!"All dimensions of index.shape={Dim.shapeText shapeI} should be <= to all " ++
      s!"dimensions of src.shape={Dim.shapeText shapeS} and all dimensions except dimension {d} " ++
      s!"of self.shape={Dim.shapeText shape}"))
  if t.dtype ≠ src.dtype then
    throw (.misused
      s!"expect self.dtype={t.dtype.text} to be equal to src.dtype={src.dtype.text}")
  let src ← src.shrink (shapeI.map fun i => some (0, i))
  let size ← t.extent d
  let src ← (← (← src.unsqueeze (-1)).expand ((← src.shape) ++ [size])).transpose (-1) d
  let mask ← (← (← index.unsqueeze (-1)).oneHotAlong size).transpose (-1) d
  let grow (x : Tensor) : TensorM := do
    let s ← x.shape
    let amounts ← (List.range n).mapM fun k => do
      if k = d then return none
      return some ((0 : Dim), ← (← itemAt shape (k : Int)).sub (← itemAt s (k : Int)))
    x.padSome (amounts ++ [none])
  return (← grow src, ← grow mask)

inductive Combine where
  | sum
  | prod
  | mean
  | amax
  | amin
  | other (shown : String)
  deriving DecidableEq, Repr

/-- Values scattered to positions along an axis and combined there, with what is there or without. -/
def scatterReduce (dim : Int) (index src : Tensor) (how : Combine)
    (withSelf : Bool := true) : TensorM := do
  let (src, mask) ← t.beforeScatter dim index src
  let untouched (a b : Term) : TensorM := do
    (← (← mask.any (.one (-1))).lnot).choose a b
  let base (neutral : Term) : TensorM :=
    if withSelf then pure t else untouched t neutral
  match how with
  | .sum => (← (← mask.choose src 0).sum (.one (-1))).add (← base 0)
  | .prod => (← (← mask.choose src 1).prod (.one (-1))).mul (← base 1)
  | .amax =>
    let m := Const.least src.dtype
    (← (← mask.choose src m).max (.one (-1))).maximum (← base m)
  | .amin =>
    let m := Const.greatest src.dtype
    (← (← mask.choose src m).min (.one (-1))).minimum (← base m)
  | .mean =>
    let hits ← (← mask.choose 1 0).sum (.one (-1))
    let count ← if withSelf then hits.add 1 else hits.add (← untouched 1 0)
    (← (← (← mask.choose src 0).sum (.one (-1))).add (← base 0)).div count
  | .other s =>
    throw (.misused
      s!"reduce={s} must be one of 'sum', 'prod', 'mean', 'amax', 'amin'")

/-- Elements put at positions along an axis. -/
def scatter (dim : Int) (index : Tensor) (src : Tensor ⊕ Const)
    (how : Option Combine) : TensorM := do
  match how with
  | some (.other s) =>
    throw (.because .wrongType s!"reduce={s} must be one of None, 'multiply', or 'add'")
  | _ => pure ()
  let src ← match src, how with
    | .inl _, some _ =>
      throw (.because .wrongType
        "Tensor src is not supported with reduce arg. see scatter_reduce")
    | .inl s, none => pure s
    | .inr c, _ => index.fullLike c (← t.beside (some t.dtype) none)
  match how with
  | some c => t.scatterReduce dim index src c
  | none =>
    let (src, mask) ← t.beforeScatter dim index src
    t.maskedSet src mask [-1]

/-! ### Sorting -/

def doublings (n : Nat) : Nat := if n ≤ 1 then 0 else (n - 1).log2 + 1

def halves (x : Tensor) (dim : Nat) : SessionM (Tensor × Tensor) := do
  let [a, b] ← x.split 1 dim | throw .invalidValue
  return (a, b)

/-- One stage of the network that sorts: blocks of a size are turned so that all point the same way,
their halves are compared, and they are turned back. -/
def sortStage (x : Tensor) (ndim dim stages stage : Nat) (descending : Bool) : TensorM := do
  let crossing := dim + stages - stage - 1
  let turned := (List.range (stage + (ndim - dim))).map fun (i : Nat) => -((i : Int) + 1)
  let turn (x : Tensor) : TensorM := do
    let (a, b) ← x.halves crossing
    cat [a, ← b.flip turned] crossing
  let x ← if stage ≠ stages then do (← turn x).contiguous else pure x
  let x ← (List.range stage).reverse.foldlM (fun (x : Tensor) (sub : Nat) => do
    let partner := dim + stages - sub - 1
    let (top, bottom) ← x.halves partner
    let larger ← top.maximum bottom
    let smaller ← top.minimum bottom
    (← cat (if descending then [larger, smaller] else [smaller, larger]) partner).contiguous) x
  if stage ≠ stages then turn x else return x

/-- The elements in order along an axis, and where they were. -/
def sort (dim : Int := -1) (descending : Bool := false) : SessionM (Tensor × Tensor) := do
  let d ← t.axis dim
  let n ← t.ndim
  let length ← match ← t.extent d with
    | .int n => pure n
    | .sym _ => throw .wrongType
  if length ≤ 0 then throw .invalidValue
  let stages := doublings length.toNat
  let fill := if descending then Const.least t.dtype else Const.greatest t.dtype
  let along {α : Type} (a : α) : List (Option α) :=
    (List.range n).map fun i => if i = d then some a else none
  let x ← t.padSome (along ((0 : Dim), Dim.int ((2 : Int) ^ stages - length))) fill
  let x ← x.unflatten d (List.replicate stages 2)
  let x ← (List.range stages).foldlM (fun x k =>
    x.sortStage n d stages (k + 1) descending) x
  let wide ← x.ndim
  let x ← x.flatten d ((d : Int) + stages - 1)
  let x ← x.shrink ((List.range wide).map fun i =>
    if i = d then some ((0 : Dim), Dim.int length) else none)
  let positions ← arange (.int 0) (.int length) (.int 1) (← t.beside)
  let positions ← positions.reshape (← x.atAxis d (.int length) 1)
  let positions ← positions.expand (← x.shape)
  let at_ : Int := d
  let counts (y : Tensor) : TensorM := do
    let before ← (← positions.unsqueeze at_).le (← positions.unsqueeze (at_ + 1))
    let equal ← (← y.unsqueeze at_).eq (← y.unsqueeze (at_ + 1))
    (← before.land equal).sum (.one (at_ + 1))
  let before ← counts t
  let after ← counts x
  let same ← (← t.unsqueeze (at_ + 1)).eq (← x.unsqueeze at_)
  let nth ← (← before.unsqueeze (at_ + 1)).eq (← after.unsqueeze at_)
  let positions ← (← (← same.land nth).mul (← positions.unsqueeze (at_ + 1))).sum (.one at_)
  return (x, positions)

def topk (t : Tensor) (k : Int) (dim : Int := -1) (largest : Bool := true) (inOrder : Bool := true) :
    SessionM (Tensor × Tensor) := do
  if !inOrder then
    throw (.because .unsupported "topk with sorted_=False is not supported")
  let d ← t.axis dim
  let n ← t.extent d
  if ← (← Dim.gt (.int k) n).holds then
    throw (.invalid s!"selected index k={k} is out of range")
  let (x, positions) ← t.sort d largest
  let cut ← t.atAxis d (some (0, Dim.int k)) none
  return (← x.shrink cut, ← positions.shrink cut)

/-- What a selection does with vectors.  A sum is read by running it, and the vectors are given back
as they are after that. -/
class Rows (m : Type → Type) (V : Type) where
  sums : V → m V
  last : V → V → m (Int × V × V)
  tally : Int → V → m V
  pick : V → V → m V

instance : Rows SessionM Tensor where
  sums v := v.cumsum
  last x v := do
    let (last, after) ← keeping [x, v] fun ts => match ts with
      | [_, v] => do (← v.index [.position (.int (-1))]).item
      | _ => throw .wrongType
    let [x, v] := after | throw .wrongType
    return (← last.toInt?, x, v)
  tally n v := do (← zeros [.int n] { dtype := some .int }).scatter 0 v (.inr (.int 1)) (some .sum)
  pick x v := x.index [.tensor v]

/-- The entries where a mask is set.  As many of its running sums as are not above `j` come before
the entry that is set after `j` others. -/
def selected {m : Type → Type} [Monad m] {V : Type} [Rows m V] (x mask : V) : m V := do
  let (count, x, sums) ← Rows.last x (← Rows.sums mask)
  Rows.pick x (← Rows.sums (← Rows.tally count sums))

def maskedSelect (t mask : Tensor) : TensorM := do
  if !mask.dtype.isBool then
    throw (.misused s!"masked_select expects bool mask tensor, got {mask.dtype.text}")
  selected (← t.flatten) (← (← mask.broadcastTo (← t.shape)).flatten)

/-! ### Interpolation -/

inductive Interpolation where
  | linear
  | nearest
  | nearestExact
  deriving DecidableEq, Repr

/-- Another size of the last axes, by values between the elements. -/
def interpolate (size : List Int) (mode : Interpolation) (corners : Bool) : TensorM := do
  let shape ← t.shape
  let n := shape.length
  let sub : Int := if corners then 1 else 0
  let dims := (List.range size.length).map fun (k : Nat) => -(k : Int) - 1
  let (x, _) ← dims.foldlM (fun acc i => do
    let (x, grown) := acc
    let old ← match ← itemAt shape i with
      | .int n => pure n
      | .sym _ => throw Failure.wrongType
    let new ← itemAt size i
    let scale ← Const.trueDiv (.int (old - sub)) (.int (new - sub))
    let steps ← arange (.int 0) (.int new) (.int 1) (← t.beside (some .float) none)
    let place := (i + n).toNat
    let row := (List.replicate n (1 : Dim)).set place (.int new)
    let grown := grown.set place (.int new)
    let spread (y : Tensor) : TensorM := do (← y.reshape row).expand grown
    match mode with
    | .linear =>
      let raw ← if corners then steps.mul scale true
        else (← (← steps.add 0.5).mul scale true).sub 0.5
      let index ← raw.clamp (some 0) (some (.number (.int (old - 1))))
      let low ← (← index.floor).cast .int
      let high ← (← index.ceil).cast .int
      let weight ← index.sub (← index.floor)
      let low ← spread low
      let high ← spread high
      let weight ← spread weight
      return (← (← x.gather i low).lerp (← x.gather i high) weight, grown)
    | mode =>
      let raw ← if mode = .nearestExact then (← steps.add 0.5).mul scale true
        else steps.mul scale true
      let index ← spread (← raw.cast .int)
      return (← x.gather i index, grown)) (t, shape)
  x.cast t.dtype

end LazyTensor.Tensor
