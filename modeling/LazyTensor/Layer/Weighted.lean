import LazyTensor.Tensor.Conv

/-!
# Layers with weights

A layer is a record of tensors and numbers; applying it to a tensor is a chain of tensor operations.
Weights start as random numbers between bounds that depend on how many inputs are summed up.
-/

namespace LazyTensor

open Session (traced)

def weightBound (inputs : Int) : Result Float := do
  if inputs < 0 then throw .invalidValue
  let root := (Float.ofInt inputs).sqrt
  if root == 0 then throw .divisionByZero
  return 1 / root

def randomWeights (shape : List Int) (bound : Float) : TensorM :=
  traced "uniform" (Tensor.uniform (shape.map Dim.int) (.float (-bound)) (.float bound))

structure Linear where
  weight : Tensor
  bias : Option Tensor

namespace Linear

def random (inputs outputs : Int) (bias : Bool) : SessionM Linear := do
  let bound ← weightBound inputs
  let weight ← randomWeights [outputs, inputs] bound
  let bias ← if bias then do pure (some (← randomWeights [outputs] bound)) else pure none
  return { weight, bias }

def apply (l : Linear) (x : Tensor) : TensorM := do
  let w ← traced "transpose" (l.weight.transpose 1 0)
  traced "linear" (x.linear w l.bias)

end Linear

structure Conv where
  weight : Tensor
  bias : Option Tensor
  groups : Int
  stride : Amount
  dilation : Amount
  padding : Amount

namespace Conv

def inputs (channels : Int) (kernel : List Int) : Int := channels * kernel.foldl (· * ·) 1

def random (channels outputs : Int) (kernel : List Int) (groups : Int) (bias : Bool) :
    SessionM (Tensor × Option Tensor) := do
  let bound ← weightBound (inputs channels kernel)
  if groups = 0 then throw .divisionByZero
  let weight ← randomWeights ([outputs, Int.fdiv channels groups] ++ kernel) bound
  let bias ← if bias then do pure (some (← randomWeights [outputs] bound)) else pure none
  return (weight, bias)

/-- The padding that keeps the extents, for each axis of the kernel from the last: so many before and
so many after. -/
def samePadding (dilations kernel : List Int) : List Int :=
  (dilations.zip kernel.reverse).flatMap fun (d, k) =>
    let all := d * (k - 1)
    let before := Int.fdiv all 2
    [before, all - before]

def apply (l : Conv) (x : Tensor) : TensorM :=
  traced "conv2d" (x.conv l.weight l.bias l.groups l.stride l.dilation l.padding)

def randomTransposed (channels outputs : Int) (kernel : List Int) (groups : Int) : TensorM := do
  let bound ← weightBound (inputs channels kernel)
  if groups = 0 then throw .divisionByZero
  randomWeights ([channels, Int.fdiv outputs groups] ++ kernel) bound

def applyTransposed (l : Conv) (outPadding : Amount) (x : Tensor) : TensorM :=
  traced "conv_transpose2d"
    (x.convTranspose l.weight l.bias l.groups l.stride l.dilation l.padding outPadding)

end Conv

/-- A table of vectors; `rows` are the numbers of its rows, made when they are first needed. -/
structure Embedding where
  count : Int
  width : Int
  weight : Tensor
  rows : Option Tensor := none

namespace Embedding

def random (count width : Int) : TensorM :=
  traced "glorot_uniform" (Tensor.glorotUniform [.int count, .int width] {})

def rowNumbers (l : Embedding) : TensorM := do
  match l.rows with
  | some t => return t
  | none =>
    let t ← traced "arange" (Tensor.arange (.int 0) (.int l.count) (.int 1) (← l.weight.beside))
    (← traced "unsqueeze" (t.unsqueeze (-1))).keep

def apply (l : Embedding) (rows x : Tensor) : TensorM := do
  let shape ← x.shape
  let big := shape ++ [.int l.count, .int l.width]
  let rows ← traced "expand" (rows.expand big)
  let x ← traced "reshape" (x.reshape (shape ++ [1, 1]))
  let x ← traced "expand" (x.expand big)
  let values ← traced "expand" (l.weight.expand big)
  let hit ← traced "__eq__" (rows.eq x)
  let chosen ← traced "mul" (hit.mul values)
  traced "sum" (chosen.sum (.one (-2)) false (some values.dtype))

end Embedding

structure LongShortTerm where
  inputWeight : Tensor
  stateWeight : Tensor
  inputBias : Option Tensor
  stateBias : Option Tensor

namespace LongShortTerm

def random (inputs width : Int) (bias : Bool) : SessionM LongShortTerm := do
  let bound ← weightBound width
  let inputWeight ← randomWeights [width * 4, inputs] bound
  let stateWeight ← randomWeights [width * 4, width] bound
  let zeros : SessionM (Option Tensor) := do
    if bias then return some (← traced "zeros" (Tensor.zeros [.int (width * 4)])) else return none
  return { inputWeight, stateWeight, inputBias := ← zeros, stateBias := ← zeros }

/-- The next state, from the gates. -/
def apply (l : LongShortTerm) (x : Tensor) (state : Option (Tensor × Tensor)) :
    SessionM (Tensor × Tensor) := do
  let (h, c) ← match state with
    | some s => pure s
    | none =>
      let z ← traced "zeros" (Tensor.zeros [← x.extent 0, ← l.stateWeight.extent 1]
        (← x.beside (some x.dtype) none))
      pure (z, z)
  let wi ← traced "transpose" (l.inputWeight.transpose 1 0)
  let a ← traced "linear" (x.linear wi l.inputBias)
  let wh ← traced "transpose" (l.stateWeight.transpose 1 0)
  let b ← traced "linear" (h.linear wh l.stateBias)
  let gates ← traced "__add__" (a.add b)
  let [i, f, g, o] ← traced "chunk" (gates.chunk 4 1) | throw .invalidValue
  let i ← traced "sigmoid" i.sigmoid
  let f ← traced "sigmoid" f.sigmoid
  let g ← traced "tanh" g.tanh
  let o ← traced "sigmoid" o.sigmoid
  let kept ← traced "__mul__" (f.mul c)
  let added ← traced "__mul__" (i.mul g)
  let c ← traced "__add__" (kept.add added)
  let h ← traced "__mul__" (o.mul (← traced "tanh" c.tanh))
  let h ← traced "contiguous" h.contiguous
  let c ← traced "contiguous" c.contiguous
  return (h, c)

end LongShortTerm

end LazyTensor
