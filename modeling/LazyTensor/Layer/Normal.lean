import LazyTensor.Tensor.Memory

/-!
# Layers that normalize

Elements are brought to mean zero and variance one, over parts of the tensor that differ from layer
to layer; then they are scaled and shifted by weights.
-/

namespace LazyTensor

open Session (traced)

def plainAffine (shape : List Int) (wanted : Bool) : SessionM (Option Tensor × Option Tensor) := do
  if !wanted then return (none, none)
  let w ← traced "ones" (Tensor.ones (shape.map Dim.int))
  let b ← traced "zeros" (Tensor.zeros (shape.map Dim.int))
  return (some w, some b)

structure BatchNormal where
  eps : Const
  momentum : Const
  weight : Option Tensor
  bias : Option Tensor
  batches : Tensor
  running : Option (Tensor × Tensor)

namespace BatchNormal

/-- The mean and the variance, of the batch or as they have run. -/
def statistics (l : BatchNormal) (x : Tensor) : SessionM (Tensor × Tensor) := do
  let n ← x.ndim
  let mask : List Dim := [1, .int (-1)] ++ List.replicate (n - 2) 1
  match l.running, (← get).training with
  | some (mean, var), false =>
    let v ← traced "reshape" (var.reshape mask)
    return (mean, ← traced "expand" (v.expand (← x.shape)))
  | _, _ =>
    let axes := Along.some (((List.range n).filter (· ≠ 1)).map Int.ofNat)
    let mean ← traced "mean" (x.mean axes)
    let m ← traced "detach" mean.detach
    let y ← traced "__sub__" (x.sub (← traced "reshape" (m.reshape mask)))
    let var ← traced "mean" ((← traced "__mul__" (y.mul y)).mean axes)
    return (mean, var)

def moved (momentum factor : Const) (old new : Tensor) : TensorM := do
  let rest ← (Const.int 1).sub momentum
  let a ← traced "__rmul__" (old.mul rest true)
  let n ← traced "detach" new.detach
  let b ← traced "__rmul__" (n.mul factor true)
  traced "assign" (old.assign (← traced "__add__" (a.add b)))

def apply (l : BatchNormal) (x : Tensor) : TensorM := do
  let (mean, var) ← l.statistics x
  match l.running, (← get).training with
  | some (runMean, runVar), true =>
    let _ ← moved l.momentum l.momentum runMean mean
    let total ← match ← Dim.prod (← x.shape) with
      | .int n => pure n
      | .sym _ => throw .wrongType
    let channels ← match ← x.extent 1 with
      | .int n => pure n
      | .sym _ => throw .wrongType
    let factor ← (← l.momentum.mul (.int total)).trueDiv (.int (total - channels))
    let _ ← moved l.momentum factor runVar var
    let _ ← traced "__iadd__" do l.batches.assign (← l.batches.add 1)
  | _, _ => pure ()
  let shifted ← traced "add" (var.add l.eps)
  let inverse ← traced "rsqrt" shifted.rsqrt
  traced "batchnorm" (x.batchNorm l.weight l.bias mean inverse)

end BatchNormal

structure GroupNormal where
  groups : Int
  eps : Const
  weight : Option Tensor
  bias : Option Tensor

def GroupNormal.apply (l : GroupNormal) (x : Tensor) : TensorM := do
  let shape ← x.shape
  let first ← itemAt shape 0
  let y ← traced "reshape" (x.reshape [first, .int l.groups, .int (-1)])
  let y ← traced "layernorm" (y.layerNorm (.one (-1)) l.eps)
  let y ← traced "reshape" (y.reshape shape)
  match l.weight, l.bias with
  | some w, some b =>
    let mask : List Dim := [1, .int (-1)] ++ List.replicate ((← y.ndim) - 2) 1
    let scaled ← traced "__mul__" (y.mul (← traced "reshape" (w.reshape mask)))
    traced "__add__" (scaled.add (← traced "reshape" (b.reshape mask)))
  | _, _ => return y

structure LayerNormal where
  shape : List Int
  eps : Const
  affine : Bool
  weight : Option Tensor
  bias : Option Tensor

namespace LayerNormal

def axes (shape : List Int) : List Int := (List.range shape.length).map fun (i : Nat) => -1 - (i : Int)

def apply (l : LayerNormal) (x : Tensor) : TensorM := do
  let shape ← x.shape
  let n := l.shape.length
  let last := if n = 0 then shape else shape.drop (shape.length - n)
  let own := l.shape.map Dim.int
  if !(last == own) then
    throw (.broken
      s!"last dimensions of {Dim.shapeText shape} must match {Dim.shapeText own}")
  let y ← traced "layernorm" (x.layerNorm (.some (axes l.shape)) l.eps)
  if !l.affine then return y
  match l.weight, l.bias with
  | some w, some b => traced "__add__" ((← traced "__mul__" (y.mul w)).add b)
  | _, _ => throw .missingMember

def applyToImages (l : LayerNormal) (x : Tensor) : TensorM := do
  let x ← traced "permute" (x.permute [0, 2, 3, 1])
  let y ← l.apply x
  traced "permute" (y.permute [0, 3, 1, 2])

end LayerNormal

structure RootMeanSquare where
  eps : Const
  weight : Option Tensor

def RootMeanSquare.apply (l : RootMeanSquare) (x : Tensor) : TensorM := do
  let y ← traced "float" (x.cast .float)
  let m ← traced "mean" ((← traced "square" y.square).mean (.one (-1)) true)
  let s ← traced "rsqrt" (← traced "__add__" (m.add l.eps)).rsqrt
  let y ← traced "cast" ((← traced "__mul__" (y.mul s)).cast x.dtype)
  let some w := l.weight | return y
  traced "__mul__" (y.mul w)

end LazyTensor
