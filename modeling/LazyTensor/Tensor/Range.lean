import LazyTensor.Tensor.Literal
import LazyTensor.Tensor.Pool

/-!
# Running reductions and ranges

A running reduction combines every element with all before it: the tensor is padded in front by the
neutral element, and a window as long as the axis slides over it.  A range of numbers is the running
sum of its step.
-/

namespace LazyTensor.Tensor

/-- A running reduction along an axis; with `initial`, the result starts with the neutral element and
leaves the last one out. -/
def running (t : Tensor) (dim : Int) (op : Op) (initial : Bool := false) : TensorM := do
  let n ← t.extent dim
  let filled ← (← n.ne 0).holds
  if !(filled && [Op.add, Op.max, Op.mul].contains op) then throw (.broken "")
  let front ← n.sub (.int (if initial then 0 else 1))
  let neutral ← identityElement? op t.dtype
  let padded ← (← t.transpose dim (-1)).padFlat [front, .int (if initial then -1 else 0)] neutral
  let w ← padded.windows [n]
  let r ← match op with
    | .add => w.sum (.one (-1))
    | .max => w.max (.one (-1))
    | _ => w.prod (.one (-1))
  r.transpose dim (-1)

def rangeOf (count : Dim) (start step : Const) (d : DType) (w : Wish) : TensorM := do
  let steps ← full [count] step { w with dtype := some d }
  let first ← start.sub step
  (← (← steps.running 0 .add).add first).cast d

def arange (start stop step : Const) (w : Wish := {}) : TensorM := do
  let isFloat (c : Const) : Bool := match c with
    | .float _ => true
    | _ => false
  let s ← get
  let d := w.dtype.getD
    (if isFloat start || isFloat stop || isFloat step then s.defaultFloat else s.defaultInt)
  let count ← (← (← stop.sub start).floorDiv step.neg).neg.toInt?
  if count ≤ 0 then new (.nested (.list [])) { w with dtype := some d }
  else rangeOf (.int count) start step d w

def arangeTo (stop : Dim) (w : Wish := {}) : TensorM := do
  match stop with
  | .int n => arange (.int 0) (.int n) (.int 1) w
  | .sym _ =>
    let d := w.dtype.getD (← get).defaultInt
    let count ← Shape.ceilDiv (← stop.sub 0) 1
    if ← (← count.le 0).holds then new (.nested (.list [])) { w with dtype := some d }
    else rangeOf count (.int 0) (.int 1) d w

def linspace (start stop : Const) (steps : Int) (w : Wish := {}) : TensorM := do
  if steps < 0 then throw (.invalid "number of steps must be non-negative")
  let d := w.dtype.getD (← get).defaultFloat
  if d = .bool then throw (.invalid "linspace with bool dtype is not supported")
  if steps = 1 then new (.nested (.list [.leaf start])) { w with dtype := some d }
  else
    let positions ← arange (.int 0) (.int steps) (.int 1) { w with dtype := none }
    let gap ← Const.trueDiv (← stop.sub start) (.int (steps - 1))
    (← (← positions.mul gap).add start true).cast d

def eye (n : Int) (m : Option Int) (w : Wish := {}) : TensorM := do
  if n < 0 || m.elim false (· < 0) then
    let shown := match m with
      | some m => s!"{m}"
      | none => "None"
    throw (.invalid s!"cannot have negative n={n}, m={shown}")
  let x ← (← ones [.int n, 1] w).padSome [none, some (0, .int n)]
  let x ← (← x.flatten).shrink [some (0, .int (n * n))]
  let x ← x.reshape [.int n, .int n]
  let some m := m | return x
  if m > n then x.padSome [none, some (0, .int (m - n))]
  else x.shrink [none, some (0, .int m)]

def oneHotAlong (t : Tensor) (classes : Dim) (dim : Int := -1) : TensorM := do
  if !t.dtype.isInt then
    throw (.misused s!"_one_hot_along_dim expects int index tensor, getting {t.dtype.text}")
  let n ← t.ndim
  let after := (n : Int) - (← t.axis dim) - 1
  let positions ← arangeTo classes (← t.beside)
  t.eq (← positions.reshape (classes :: List.replicate after.toNat 1))

end LazyTensor.Tensor
