import LazyTensor.Tensor.Contract

/-!
# Pooling and convolution

Windows slide over the last axes of a tensor.  Pooling combines the elements of each window;
convolution multiplies them by weights first.  Small windows can be convolved by a fast algorithm that
transforms tiles of the tensor and the weights.
-/

namespace LazyTensor

open List

namespace Winograd

section

variable {α : Type} [∀ n, OfNat α n] [Neg α] [Div α]

def weights : List (List α) :=
  [[1 / 4, 0, 0], [-1 / 6, -1 / 6, -1 / 6], [-1 / 6, 1 / 6, -1 / 6], [1 / 24, 1 / 12, 1 / 6],
   [1 / 24, -1 / 12, 1 / 6], [0, 0, 1]]

def tiles : List (List α) :=
  [[4, 0, -5, 0, 1, 0], [0, -4, -4, 1, 1, 0], [0, 4, -4, -1, 1, 0], [0, -2, -1, 2, 1, 0],
   [0, 2, -1, -2, 1, 0], [0, 4, 0, -5, 0, 1]]

def results : List (List α) :=
  [[1, 1, 1, 1, 1, 0], [0, 1, -1, 2, -2, 0], [0, 1, 1, 4, 4, 0], [0, 1, -1, 8, -8, 1]]

end

/-- What is missing from an extent to whole tiles, of six elements every four. -/
def missing (n : Int) : Int := Int.fmod (-(n - 2)) 4

def tuples (bound : Nat) : Nat → List (List Nat)
  | 0 => [[]]
  | n + 1 => (range bound).flatMap fun i => (tuples bound n).map (i :: ·)

/-- What a transform combines. -/
class Values (m : Type → Type) (α : Type) where
  add : α → α → m α
  mul : α → α → m α
  zeroAdd : α → m α
  oneMul : α → m α
  nothing : m α

instance : Values SessionM Tensor where
  add a b := a.add b
  mul a b := a.mul b
  zeroAdd a := a.add 0 true
  oneMul a := a.mul 1 true
  nothing := throw (.broken "sum didn't return a Tensor")

section

open Values

variable {m : Type → Type} [Monad m] {α : Type} [Values m α]

def product (factors : List α) (x : α) : m α :=
  match factors with
  | [] => oneMul x
  | f :: fs => do mul (← fs.foldlM mul (← oneMul f)) x

def total (terms : List α) : m α :=
  match terms with
  | [] => nothing
  | a :: rest => do rest.foldlM add (← zeroAdd a)

/-- The sum of the parts at all positions, each with the factors of its position. -/
def combine (factors : List (List α)) (width : Nat) (part : List Nat → m α) : m α := do
  total (← (tuples width factors.length).mapM fun is => do
    product ((factors.zip is).filterMap fun p => p.1[p.2]?) (← part is))

end

/-- The columns of a matrix along each of the first axes, as constant tensors. -/
def columns (m : List (List Float)) (dims : Nat) (shape : List Dim) (device : Arg) (d : DType) :
    SessionM (List (List Tensor)) := do
  let width := (m.headD []).length
  (range dims).mapM fun dim => (range width).mapM fun k => do
    let parts ← m.mapM fun row =>
      Tensor.full (shape.take dim ++ [1] ++ shape.drop (dim + 1)) (.float (row.getD k 0))
        { device := some device, dtype := some d }
    Tensor.cat parts dim

def apply (m : List (List Float)) (t : Tensor) (dims : Nat) : TensorM := do
  let shape ← t.shape
  let front := shape.take dims
  let back := shape.drop dims
  let x ← t.reshape (front ++ replicate dims 1 ++ back)
  let x ← x.expand (front ++ replicate dims (.int m.length) ++ back)
  let cols ← columns m dims ((← x.shape).drop dims) (← x.device) x.dtype
  combine cols (m.headD []).length fun is => x.index (is.map fun (i : Nat) => .position (.int i))

end Winograd

namespace Tensor

def windowExtents (t : Tensor) (n : Nat) : SessionM (List Int) := do
  let shape ← t.shape
  let last := if n = 0 then shape else shape.drop (shape.length - n)
  (Dim.ints? last).getDM (throw .wrongType)

def groupedInts (ns : List Int) : List (Int × Int) :=
  (Padding.grouped (asDims ns)).map fun (a, b) => ((a.int?).getD 0, (b.int?).getD 0)

/-- How many windows an axis has if the last may reach over its end. -/
def ceilCount (extent span step : Int) : Int := -(Int.fdiv (extent - span) (-step)) + 1

/-- How much longer an axis of `i` elements between `a` and `b` zeros gets for its last window; a
window that would begin after the elements is left out. -/
def ceilGrowth (i a b span step : Int) : Int :=
  let last := step * (ceilCount (i + a + b) span step - 1)
  last + span - (i + a + b) - Max.max (last - (a + i - 1)) 0

def ceilPads (t : Tensor) (pads : List Int) (size : List Int) (stride dilation : Amount) :
    SessionM (List Int) := do
  let n := size.length
  let steps := stride.values n
  let inner ← t.windowExtents n
  let rows := (((inner.zip (dilation.values n)).zip size).zip steps).zip (groupedInts pads)
  if rows.any fun row => row.1.2 = 0 then throw .divisionByZero
  return rows.zipIdx.foldl (fun pads (((((i, d), k), s), (a, b)), dim) =>
    let at_ := pads.length - 1 - dim * 2
    pads.set at_ (pads.getD at_ 0 + ceilGrowth i a b (d * (k - 1) + 1) s)) pads

def windowAxes (n : Nat) : Along := .some ((range n).map fun (i : Nat) => (i : Int) - n)

/-- The mean of each window. -/
def avgPool (t : Tensor) (size : List Int) (stride : Option Amount) (dilation padding : Amount)
    (ceil includePad : Bool) : TensorM := do
  let n := size.length
  let stride := stride.getD (Amount.ofList size)
  let pool (x : Tensor) (pads : List Int) : TensorM := do
    (← x.padFlat (asDims pads)).windows (asDims size) stride.sum dilation.sum
  let regular ← t.poolPads padding n
  let grown ← t.ceilPads regular size stride dilation
  if !includePad then
    let pads := if ceil then grown else regular
    let total ← (← pool t pads).sum (windowAxes n)
    total.div (← (← pool (← t.onesLike) pads).sum (windowAxes n))
  else if !ceil then (← pool t regular).mean (windowAxes n)
  else
    let total ← (← pool t grown).sum (windowAxes n)
    let ones ← (← t.padFlat (asDims regular)).onesLike
    let rest := (grown.zip regular).map fun (a, b) => a - b
    total.div (← (← pool ones rest).sum (windowAxes n))

/-- What is done with the elements of windows: the greatest of each window, which may be kept as an
axis, elements compared and multiplied, and their difference from a number. -/
structure Pooling (m : Type → Type) (α : Type) where
  max : α → Bool → m α
  eq : α → α → m α
  mul : α → α → m α
  below : Int → α → m α

/-- The greatest element of each window and its position, from numbers that fall with the position. -/
def Pooling.greatest {m : Type → Type} [Monad m] {α : Type} (p : Pooling m α) (total : Int)
    (windows : α) (down : m α) : m (α × α) := do
  let isMax ← p.eq windows (← p.max windows true)
  let score ← p.mul isMax (← down)
  let greatest ← p.max windows false
  return (greatest, ← p.below total (← p.max score false))

/-- The greatest element of each window; with its position where that is asked for. -/
def maxPool (t : Tensor) (size : List Int) (stride : Option Amount) (dilation padding : Amount)
    (ceil positions : Bool) : SessionM (Tensor × Option Tensor) := do
  let n := size.length
  let stride := stride.getD (Amount.ofList size)
  let pads ← t.poolPads padding n
  let pads ← if ceil then t.ceilPads pads size stride dilation else pure pads
  let windowsOf (x : Tensor) : TensorM := do
    (← x.padFlat (asDims pads) (Const.least x.dtype)).windows (asDims size) stride.sum dilation.sum
  let pooled ← windowsOf t
  if !positions then return (← pooled.max (windowAxes n), none)
  let spatial ← t.windowExtents n
  let total := spatial.foldl (· * ·) 1
  let down ← arange (.int total) (.int 0) (.int (-1)) (← t.beside)
  let down ← down.reshape (asDims spatial)
  let ops : Pooling SessionM Tensor := {
    max := fun x keep => x.max (windowAxes n) keep, eq := fun a b => a.eq b
    mul := fun a b => a.mul b, below := fun k x => x.sub k true }
  let (greatest, found) ← ops.greatest total pooled (windowsOf down)
  return (greatest, some found)

/-- Elements put back to the positions they were taken from, zeros elsewhere. -/
def maxUnpool (t indices : Tensor) (size : Amount) (stride : Option Amount)
    (dilation padding : Amount) (output : Option (List Int)) : TensorM := do
  match Dim.ints? (← t.shape) with
  | some (bs :: c :: spatial) =>
    let n := spatial.length
    let out ← match output with
      | some o => pure (if n = 0 then o else o.drop (o.length - n))
      | none =>
        let ks := size.values n
        let ds := dilation.values n
        let ss := (stride.getD size).values n
        let ps := groupedInts (← t.poolPads padding n)
        pure (((((spatial.zip ks).zip ds).zip ss).zip ps).map fun ((((i, k), d), s), (a, b)) =>
          (i - 1) * s - (b + a) + (d * (k - 1) + 1))
    let total := out.foldl (· * ·) 1
    let rows ← indices.reshape (asDims [bs, c, 1, -1])
    let mask ← rows.oneHotAlong (.int total) 2
    let r ← (← mask.mul (← t.reshape (asDims [bs, c, 1, -1]))).sum (.one 3)
    r.reshape (asDims (bs :: c :: out))
  | some _ => throw .invalidValue
  | none => throw .wrongType

variable (t weight : Tensor) (bias : Option Tensor)

/-- A convolution with kernels of size three, by fewer products. -/
def convFast (groups : Int) (pads : List Int)
    (bs cin cout rcout : Dim) (hw oyx : List Dim) (dtype : Option DType) : TensorM := do
  let n := hw.length
  let six := replicate n (6 : Dim)
  let shape ← t.windowExtents n
  let grown := shape.zipIdx.flatMap fun (dim, i) =>
    let a := pads.getD (2 * i) 0
    let b := pads.getD (2 * i + 1) 0
    [a, b + Winograd.missing (dim + a + b)]
  let front (x : Tensor) : TensorM := do
    let m ← x.ndim
    x.permute (((range n).map fun i => ((m - n + i : Nat) : Int)) ++
      (range (m - n)).map Int.ofNat)
  let d ← (← t.padFlat (asDims grown)).windows six (.inr (replicate n 4))
  let d ← front d
  let dshape ← d.shape
  let tyx := dshape.drop (dshape.length - n)
  let g ← front weight
  let gs ← (← Winograd.apply Winograd.weights g n).reshape
    (six ++ [1, .int groups, rcout, cin] ++ replicate tyx.length 1)
  let ds ← (← Winograd.apply Winograd.tiles d n).reshape
    (six ++ [bs, .int groups, 1, cin] ++ tyx)
  let sums ← (← gs.mul ds).sum (.one (-1 - (n : Int))) false dtype
  let r ← Winograd.apply Winograd.results sums n
  let m ← r.ndim
  let order := ((range (m - 2 * n)).map fun i => ((n + i : Nat) : Int)) ++
    (range n).flatMap fun i => [((m - n + i : Nat) : Int), (i : Int)]
  let r ← r.permute order
  let outs ← tyx.mapM fun c => liftM (c.mul 4)
  let r ← (← r.reshape ([bs, cout] ++ outs)).shrink (([bs, cout] ++ oyx).map fun s => some (0, s))
  let r ← match bias with
    | none => pure r
    | some b => r.add (← b.reshape ([1, .int (-1)] ++ replicate n 1))
  (← r.contiguous).contiguousBackward

/-- A convolution, with bias. -/
def conv (groups : Int := 1)
    (stride dilation : Amount := .one 1) (padding : Amount := .one 0)
    (dtype : Option DType := none) : TensorM := do
  if ← Session.settingOn .image then
    return ← t.imageConv weight bias groups stride dilation padding dtype
  let shape ← t.shape
  let wshape ← weight.shape
  match shape, wshape with
  | bs :: cinAll :: _, cout :: cin :: hw =>
    let pads ← t.poolPads padding hw.length
    let expected ← Dim.mul (.int groups) cin
    let fits ← if expected == cinAll then pure true else
      let other ← (← expected.ne cinAll).resolve
      pure (!other)
    if !(fits && shape.length = wshape.length) then
      throw (.broken (s!"Input Tensor shape {Dim.shapeText shape} does not match the shape of the " ++
        s!"weights {Dim.shapeText wshape}. ({expected.text} vs. {cinAll.text})"))
    let x ← (← t.padFlat (asDims pads)).windows hw stride.sum dilation.sum
    let rcout ← cout.div (.int groups)
    let all ← x.shape
    let n := hw.length
    let oyx := if n = 0 then [] else (all.take (all.length - n)).drop 2
    let fast ← Session.settingOn .wino
    if hw.all (· == 3) && stride.isUnit && dilation.isUnit && fast then
      return ← t.convFast weight bias groups pads bs cin cout rcout hw oyx dtype
    let m := oyx.length
    let x ← x.reshape ([bs, .int groups, cin, 1] ++ oyx ++ hw)
    let x ← x.expand ([bs, .int groups, cin, rcout] ++ oyx ++ hw)
    let x ← x.permute ([0, 1, 3] ++ ((range m).map fun i => ((4 + i : Nat) : Int)) ++ [2] ++
      (range n).map fun i => ((4 + m + i : Nat) : Int))
    let w ← weight.reshape ([1, .int groups, rcout] ++ replicate m 1 ++ [cin] ++ hw)
    let axes := (range (m + 1)).map fun (i : Nat) => -1 - (i : Int)
    let r ← (← x.mul w).sum (.some axes) true dtype
    let r ← r.reshape ([bs, cout] ++ oyx)
    let some b := bias | return r
    do r.add (← b.reshape ([1, .int (-1)] ++ replicate n 1))
  | _, _ => throw .invalidValue

/-- The transpose of a convolution: every element spreads its weights over a window. -/
def convTranspose (groups : Int := 1)
    (stride dilation : Amount := .one 1) (padding outPadding : Amount := .one 0) :
    TensorM := do
  let wshape ← weight.shape
  let w ← (← weight.unflatten 0 [.int groups, .int (-1)]).transpose 1 2
  let axes := (range (wshape.length - 2)).map fun i => ((3 + i : Nat) : Int)
  if axes.isEmpty then throw .wrongType
  let w ← w.flip axes
  let hw ← weight.windowExtents (wshape.length - 2)
  let n := hw.length
  let pads := groupedInts (← t.poolPads padding n)
  let steps := stride.values n
  let gaps := dilation.values n
  let outs := outPadding.values n
  let x ← if steps.any (· > 1) then do
      let shape ← t.shape
      let x ← t.reshapeSome ([none, none] ++ (shape.drop 2).flatMap fun k => [some k, some 1])
      let x ← x.padSome ([none, none] ++ steps.flatMap fun s => [none, some (0, .int (s - 1))])
      let every2 := ((← x.shape).drop 2).zipIdx.filter fun (_, i) => i % 2 = 0
      let lengths ← ((every2.map (·.1)).zip steps).mapM fun (k, s) => liftM (k.mul (.int s))
      let x ← x.reshapeSome ([none, none] ++ lengths.map some)
      let cuts ← (((← x.shape).drop 2).zip steps).mapM fun (k, s) => do
        return some ((0 : Dim), ← k.sub (.int (s - 1)))
      x.shrink ([none, none] ++ cuts)
    else pure t
  let rows := ((hw.zip gaps).zip pads).zip outs
  let padding := rows.reverse.flatMap fun (((k, d), (a, b)), op) =>
    [(k - 1) * d - a, (k - 1) * d - b + op]
  x.conv (← w.flatten 0 1) bias groups (.one 1) (Amount.ofList gaps) (Amount.ofList padding)

end Tensor

end LazyTensor
