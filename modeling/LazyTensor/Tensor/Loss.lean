import LazyTensor.Tensor.Contract

/-!
# Losses

A loss compares predictions with what they should have been, element by element or row by row, and is
then reduced to one number where that is asked for.
-/

namespace LazyTensor

inductive Reduction where
  | mean
  | sum
  | none
  | other (shown : String)
  deriving DecidableEq

namespace Tensor

def reducedBy (t : Tensor) : Reduction → TensorM
  | .mean => t.mean
  | .sum => t.sum
  | .none => return t
  | .other s => throw (.invalid s!"reduction={s} must be one of ('mean', 'sum', 'none')")

variable (t y : Tensor)

def binaryCrossEntropy (how : Reduction) : TensorM := do
  let a ← (← y.neg).mul (← t.log)
  let b ← (← y.sub 1 true).mul (← (← t.sub 1 true).log)
  (← a.sub b).reducedBy how

def binaryCrossEntropyLogits (how : Reduction) : TensorM := do
  let a ← (← t.maximum 0).sub (← y.mul t)
  let b ← (← (← (← (← t.abs).neg).exp).add 1 true).log
  (← a.add b).reducedBy how

def checkSmoothing (smoothing : Const) : Result Unit :=
  if (Const.float 0).le smoothing && smoothing.le (.float 1) then return
  else throw (.broken "label_smoothing must be in [0.0, 1.0]")

/-- The loss of rows of scores, where the right column of each row is given. -/
def sparseCrossEntropy (ignored : Const) (smoothing : Const) (how : Reduction) : TensorM := do
  checkSmoothing smoothing
  if let .other _ := how then
    throw (.broken "reduction must be one of ['mean', 'sum', 'none']")
  let logs ← t.logSoftmax
  let mask ← if ignored.eq (.int (-1)) then y.onesLike { dtype := some .bool } else y.ne ignored
  let column : List Dim := [.int (-1), 1]
  let flat ← (← (← y.toDevice (← t.device)).flatten).reshape column
  let last ← t.extent (-1)
  let counted ← flat.oneHotAlong last
  let rows ← (← counted.mul (← mask.reshape column)).reshape ((← y.shape) ++ [last])
  let smoothed ← (← (← logs.mean (.one (-1))).mul mask).mul smoothing true
  let rest ← Const.sub (.int 1) smoothing
  let main ← (← (← logs.mul rows).sum (.one (-1))).mul rest true
  let single ← main.add smoothed
  let r ← match how with
    | .mean => (← single.sum).div (← mask.sum)
    | .sum => single.sum
    | _ => pure single
  r.neg

/-- The loss of rows of scores, where columns or their probabilities are given. -/
def crossEntropy (how : Reduction) (smoothing : Const) : TensorM := do
  checkSmoothing smoothing
  let y ← if (← y.ndim) < 2 then do
      let n ← ((← t.extent 1).int?).getDM (throw .wrongType)
      y.oneHot n
    else pure y
  let rest ← Const.sub (.int 1) smoothing
  let classes ← (← y.extent 1).int?.getDM (throw .wrongType)
  let scaled ← y.mul rest true
  let share ← Const.trueDiv smoothing (.int classes)
  let y ← scaled.add share
  let r ← (← (← t.logSoftmax (.one 1)).mul y).sum (.one 1)
  (← r.neg).reducedBy how

/-- The loss of rows of logarithms of probabilities, where the right column of each row is given. -/
def nllLoss (weight : Option Tensor) (ignored : Option Const) (how : Reduction) : TensorM := do
  let weight ← match weight with
    | none => y.onesLike { tracked := some false }
    | some w => w.index [.tensor y]
  let masked ← match ignored with
    | none => pure weight
    | some c => weight.mul (← y.ne c)
  let picked ← (← t.gather 1 (← y.unsqueeze 1)).squeeze 1
  let r ← (← picked.neg).mul masked
  match how with
  | .mean => (← r.sum).div (← masked.sum)
  | how => r.reducedBy how

end Tensor

end LazyTensor
