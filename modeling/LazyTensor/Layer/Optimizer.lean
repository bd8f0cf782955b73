import LazyTensor.Tensor.Join
import LazyTensor.Tensor.Memory

/-!
# Optimizers

An optimizer changes parameters along their gradients.  All its state is tensors of the session, so a
step changes tensors in place and gives those that have to be computed.

Two rules cover the usual optimizers: momentum with a trust ratio, and estimated moments with a trust
ratio; without the ratio the first is gradient descent and the second is the method of adaptive moments.
A fused optimizer joins all parameters to one tensor before the rule is applied.
-/

namespace LazyTensor

open Session (traced)

inductive UpdateRule where
  /-- Momentum: its factor, the decay of weights, and the coefficient of the trust ratio; `memory` is
  what has been accumulated. -/
  | momentum (factor decay : Const) (nesterov classic : Bool) (trust : Const) (memory : List Tensor)
  /-- Moments: their two factors with their powers so far, and the two accumulated moments. -/
  | moments (first second eps decay : Const) (plain : Bool) (power₁ power₂ : Tensor)
      (memory₁ memory₂ : List Tensor)

structure Optimizer where
  params : List Tensor
  /-- Tensors that are computed with every step, and not changed. -/
  buffers : List Tensor
  rate : Tensor
  fused : Bool
  rule : UpdateRule

namespace Optimizer

def distinct (ts : List Tensor) : List Tensor :=
  ts.foldl (fun acc t => if acc.any fun u => u.place == t.place then acc else acc ++ [t]) []

/-- The parameters and the other tensors among those given; what nothing was said about becomes a
parameter. -/
def claim (ts : List Tensor) : SessionM (List Tensor × List Tensor) := do
  for t in ts do
    if (← t.current).tracked.isNone then let _ ← t.withTracked (some true)
  let ts ← ts.mapM fun t => t.current
  let (params, buffers) := ts.partition fun t => t.tracked = some true
  let params := distinct params
  if params.isEmpty then throw (.broken "optimizer must have at least one param")
  return (params, distinct buffers)

def rateTensor (rate : Nested) (device : Arg) : TensorM := do
  let d ← DType.meet? [(← get).defaultFloat, .float]
  (← Tensor.new (.nested (.list [rate]))
    { tracked := some false, device := some device, dtype := some d }).keep

variable (params : List Tensor)

/-- Where the parameters begin when they are joined, and where the last one ends. -/
def positions : SessionM (List Dim) := do
  let (all, _) ← params.foldlM (fun (acc : List Dim × Dim) t => do
    let next ← acc.2.add (← Dim.prod (← t.shape))
    return (acc.1 ++ [next], next)) ([0], 0)
  return all

def kept (name : String) (make : Wish → TensorM) (device : Arg) : TensorM := do
  let t ← traced name (make { dtype := some .float, device := some device, tracked := some false })
  (← traced "contiguous" t.contiguous).keep

def blank (fused : Bool) (device : Arg) : SessionM (List Tensor) := do
  let zeros (shape : List Dim) : Arg → TensorM := kept "zeros" (Tensor.zeros shape ·)
  if fused then
    let ends ← positions params
    return [← zeros [ends.getLastD 0] device]
  else params.mapM fun t => do zeros (← t.shape) (← t.device)

def unitPower : Arg → TensorM := kept "ones" (Tensor.ones [1] ·)

def loose (t : Tensor) : TensorM := traced "detach" t.detach

def times (c : Const) (t : Tensor) : TensorM := traced "__rmul__" (t.mul c true)

def plus (a : Tensor) (b : Term) : TensorM := traced "__add__" (a.add b)

def norm (t : Tensor) : TensorM := do
  let s ← traced "square" t.square
  traced "sqrt" (← traced "sum" s.sum).sqrt

/-- The quotient of the sizes of a parameter and its change, where neither is zero, else one. -/
def trustRatio (t g : Tensor) (quotient : Tensor → Tensor → TensorM) : SessionM Term := do
  let r₁ ← norm (← loose t)
  let r₂ ← norm g
  let pos₁ ← traced "__gt__" (r₁.gt 0)
  let pos₂ ← traced "__gt__" (r₂.gt 0)
  let q ← quotient r₁ r₂
  let inner ← traced "where" (pos₂.choose q 1.0)
  return .tensor (← traced "where" (pos₁.choose inner 1.0))

/-- The update of one parameter by momentum: the new parameter, and the new memory. -/
def momentumUpdate (factor decay : Const) (nesterov classic : Bool) (trust : Const) (rate : Tensor)
    (t g : Tensor) (memory : Option Tensor) : TensorM := do
  let ratio : Term ← if trust.eq (.int 0) then pure 1.0 else
    trustRatio t g fun r₁ r₂ => do
      let top ← times trust r₁
      let decayed ← times decay r₁
      traced "__truediv__" (top.div (← plus r₂ decayed))
  let scaled (g : Tensor) : TensorM := do
    let g ← traced "__mul__" (g.mul ratio)
    traced "__mul__" (g.mul rate)
  let g ← if (Const.int 0).lt decay then do plus g (← times decay (← loose t)) else pure g
  let g ← if classic then scaled g else pure g
  let g ← if !factor.truthy then pure g else do
    let m ← memory.getDM (throw .outOfRange)
    let old ← times factor (← traced "contiguous" m.contiguous)
    let m ← traced "assign" (m.assign (← plus old g))
    if nesterov then plus g (← times factor m) else pure m
  let g ← if classic then pure g else scaled g
  let d ← loose t
  traced "cast" ((← traced "__sub__" (d.sub g)).cast t.dtype)

def movedMoment (factor : Const) (m : Tensor) (new : TensorM) : TensorM := do
  let a ← times factor m
  let b ← times (← (Const.float 1).sub factor) (← new)
  let s ← traced "cast" ((← plus a b).cast m.dtype)
  traced "assign" (m.assign s)

def momentsUpdate (first second eps decay : Const) (plain : Bool) (rate power₁ power₂ : Tensor)
    (t g m v : Tensor) : TensorM := do
  let m ← movedMoment first m (pure g)
  let v ← movedMoment second v (traced "__mul__" (g.mul g))
  let whole (m power : Tensor) : TensorM := do
    traced "__truediv__" (m.div (← traced "__rsub__" (power.sub 1.0 true)))
  let mHat ← whole m power₁
  let root ← traced "sqrt" (← whole v power₂).sqrt
  let q ← traced "__truediv__" (mHat.div (← plus root eps))
  let up ← plus q (← times decay (← loose t))
  let ratio : Term ← if plain then pure 1.0 else
    trustRatio t up fun r₁ r₂ => traced "__truediv__" (r₁.div r₂)
  let d ← loose t
  let r ← traced "__mul__" (rate.mul ratio)
  let change ← traced "__mul__" (r.mul up)
  traced "cast" ((← traced "__sub__" (d.sub change)).cast t.dtype)

/-- The new parameters by a rule, and the tensors of the rule to be computed. -/
def applyRule (o : Optimizer) (params grads : List Tensor) : SessionM (List Tensor × List Tensor) := do
  match o.rule with
  | .momentum factor decay nesterov classic trust memory =>
    let new ← (params.zip grads).zipIdx.mapM fun ((t, g), i) =>
      momentumUpdate factor decay nesterov classic trust o.rate t g memory[i]?
    return (new, memory)
  | .moments first second eps decay plain power₁ power₂ memory₁ memory₂ =>
    let p₁ ← traced "__imul__" do power₁.assign (← power₁.mul first)
    let p₂ ← traced "__imul__" do power₂.assign (← power₂.mul second)
    let new ← ((params.zip grads).zip (memory₁.zip memory₂)).mapM fun ((t, g), (m, v)) =>
      momentsUpdate first second eps decay plain o.rate p₁ p₂ t g m v
    return (new, [power₁, power₂] ++ memory₁ ++ memory₂)

def gradOf (t : Tensor) : TensorM := do
  (← t.grad?).getDM (throw (.broken ""))

def current (o : Optimizer) : SessionM Optimizer := do
  let all (ts : List Tensor) : SessionM (List Tensor) := ts.mapM fun t => t.current
  let rule ← match o.rule with
    | .momentum factor decay nesterov classic trust memory =>
      pure (UpdateRule.momentum factor decay nesterov classic trust (← all memory))
    | .moments first second eps decay plain power₁ power₂ memory₁ memory₂ =>
      pure (.moments first second eps decay plain (← power₁.current) (← power₂.current)
        (← all memory₁) (← all memory₂))
  return { o with params := ← all o.params, buffers := ← all o.buffers, rate := ← o.rate.current, rule }

/-- The new values of all parameters. -/
def updates (o : Optimizer) : SessionM (List Tensor) := do
  let o ← o.current
  if !(← get).training then
    throw (.misused ("Tensor.training=False, Tensor.training must be enabled to use the optimizer.\n" ++
      "                - help: Consider setting Tensor.training=True before calling Optimizer.step()."))
  let (new, extra) ← if o.fused then do
      let flat ← o.params.mapM fun t => traced "flatten" t.flatten
      let joined ← traced "cat" (Tensor.cat flat 0)
      let grads ← o.params.mapM fun t => do traced "flatten" (← gradOf t).flatten
      let joinedGrads ← traced "cat" (Tensor.cat grads 0)
      let (out, extra) ← o.applyRule [joined] [joinedGrads]
      let out ← match out with
        | t :: _ => pure t
        | [] => throw .outOfRange
      let ends ← positions o.params
      let parts ← (o.params.zip (ends.zip (ends.drop 1))).mapM fun (t, (a, b)) => do
        let part ← traced "__getitem__" (out.index [.slice (.dim a) (.dim b) .none])
        traced "reshape" (part.reshape (← t.shape))
      pure (parts, extra)
    else
      let grads ← o.params.mapM gradOf
      o.applyRule o.params grads
  for (t, u) in o.params.zip new do let _ ← traced "assign" (t.assign u)
  return extra ++ o.params ++ o.buffers

def step (os : List Optimizer) : SessionM Unit := do
  let ts ← os.flatMapM updates
  let ts ← ts.mapM fun t => t.current
  let _ ← traced "realize" (Tensor.realize ts)

def zeroGrad : SessionM Unit :=
  params.forM fun t => match t.place with
    | some n => Session.alter n fun k => { k with grad := none }
    | none => pure ()

end Optimizer

end LazyTensor
