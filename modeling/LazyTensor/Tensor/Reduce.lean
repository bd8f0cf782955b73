import LazyTensor.Tensor.Elementwise

/-!
# Reductions

Sums, products and extremes along axes, and the statistics made from them.
-/

namespace LazyTensor.Tensor

variable (t : Tensor)

def axesOf (axes : Along) : SessionM (List Nat) := do
  let n ← t.ndim
  let is ← match axes with
    | .all => pure (List.range n)
    | .one i => pure [← t.axis i]
    | .some is => is.mapM fun i => t.axis i
  return if n = 0 then [] else is

def reduce (op : Op) (axes : Along := .all) (keep : Bool := false) : TensorM := do
  let is ← t.axesOf axes
  let r ← t.apply1 fun e => e.reduceOver op (is.map Int.ofNat)
  if keep then return r
  let shape ← t.shape
  r.reshape ((shape.zipIdx.filter fun (_, i) => !(is.contains i)).map (·.1))

variable (axes : Along := .all) (keep : Bool := false)

/-- Sum.  It is computed in a type that is wide enough; small floating types are restored. -/
def sum (dtype : Option DType := none) : TensorM := do
  let d ← match dtype with
    | some d => pure d
    | none => liftM t.dtype.sumType?
  let r ← (← t.cast d).reduce .add axes keep
  if dtype.isNone && (t.dtype = .half || t.dtype = .bfloat16) then r.cast t.dtype else return r

def prod (dtype : Option DType := none) : TensorM := do
  (← t.cast (dtype.getD t.dtype)).reduce .mul axes keep

def max : TensorM :=
  t.reduce .max axes keep

def min : TensorM := do
  (← (← t.inverse).max axes keep).inverse

def any : TensorM := do
  (← t.cast .bool).max axes keep

def all : TensorM := do
  (← (← t.lnot).any axes keep).lnot

/-- How many elements are combined to one between a shape and a reduced one. -/
def combined (before after : List Dim) : GraphM Dim := do
  Dim.prod ((← (before.zip after).filterM fun (a, b) => a.differs b).map (·.1))

def mean : TensorM := do
  let result := if t.dtype.isFloat then t.dtype else .float
  let total ← (← t.cast (← t.dtype.sumType?)).sum axes keep
  let count ← combined (← t.shape) (← (← t.sum axes true).shape)
  (← total.div count).cast result

def var (correction : Dim := 1) : TensorM := do
  let squares ← (← t.sub (← t.mean axes true)).square
  let count ← combined (← t.shape) (← (← squares.sum axes true).shape)
  let count ← Dim.largest [0, ← count.sub correction]
  (← squares.sum axes keep).div count

def std (correction : Dim := 1) : TensorM := do
  (← t.var axes keep correction).sqrt

/-! ### Exponentials -/

/-- The elements minus their greatest, their exponentials, and the sum of these. -/
def softmaxParts (axes : Along) (dtype : Option DType) : SessionM (Tensor × Tensor × Tensor) := do
  let m ← t.sub (← (← t.max axes true).detach)
  let m ← match dtype with
    | some d => m.cast d
    | none => pure m
  let e ← m.exp
  return (m, e, ← e.sum axes true)

def softmax (axes : Along := .one (-1)) (dtype : Option DType := none)
    (single : Bool := false) : TensorM := do
  if single then
    let (_, e, s) ← (← t.contiguous).softmaxParts axes dtype
    (← e.div s).fuse
  else
    let (_, e, s) ← t.softmaxParts axes dtype
    e.div s

def logSoftmax (axes : Along := .one (-1)) (dtype : Option DType := none) : TensorM := do
  let (m, _, s) ← t.softmaxParts axes dtype
  m.sub (← s.log)

def logSumExp : TensorM := do
  let m ← t.max axes true
  let s ← (← (← (← t.sub m).exp).sum axes keep).log
  let m ← match axes with
    | .all => m.squeezeAll
    | .one i => m.squeeze i
    | .some _ => throw (axisFailure "tuple")
  s.add m

/-! ### Normalization -/

def layerNorm (axes : Along := .one (-1)) (eps : Const := .float 1e-5) : TensorM := do
  let y ← t.sub (← t.mean axes true)
  y.mul (← (← (← (← y.mul y).mean axes true).add eps).rsqrt)

def batchNorm (weight bias : Option Tensor) (mean invstd : Tensor)
    (axes : List Int := [1]) : TensorM := do
  let shape := (← t.shape).zipIdx.map fun (s, i) => if axes.contains (i : Int) then s else 1
  let x ← t.sub (← mean.reshape shape)
  let x ← match weight with
    | some w => x.mul (← w.reshape shape)
    | none => pure x
  let scale ← if (← invstd.ndim) = axes.length then invstd.reshape shape else pure invstd
  let r ← x.mul scale
  let some b := bias | return r
  do r.add (← b.reshape shape)

end LazyTensor.Tensor
