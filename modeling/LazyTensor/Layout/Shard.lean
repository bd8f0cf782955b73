import LazyTensor.Layout.OfExpr

/-!
# Reductions over axes, and nodes spread over devices

A reduction moves its axes to the end before it removes them.  A node on several devices is one
node whose value is cut along an axis; the part of each device is chosen by a variable that stands
for the number of the device.
-/

namespace LazyTensor

/-- The item at a position, counted from the end when negative. -/
def itemAt {α : Type} (xs : List α) (i : Int) : GraphM α :=
  let j := if i < 0 then i + xs.length else i
  (if j < 0 then none else xs[j.toNat]?).getDM (throw .outOfRange)

namespace Expr

variable (e : Expr)

def reduceOver (op : Op) (axes : List Int) : ExprM := do
  let shape ← e.shape
  let axes ← axes.filterM fun a => do (← itemAt shape a).differs 1
  let axes := axes.mergeSort (· ≤ ·)
  if axes.isEmpty then return e
  let n := shape.length
  let rest := (List.range n).filterMap fun (i : Nat) => if axes.contains (i : Int) then none else some (i : Int)
  let moved ← e.permute (rest ++ axes)
  let last := (List.range axes.length).map fun i => ((n - axes.length + i : Nat) : Int)
  let r ← node .reduceAxis e.dtype [moved] (.tuple [.op op, .ofInts last])
  r.reshape (shape.zipIdx.map fun (s, i) => if axes.contains (i : Int) then 1 else s)

/-- The greatest extent of each axis among the views of a graph. -/
def fullShape (e : Expr) : GraphM (List Dim) := do
  match e with
  | .mk number op d src arg tag =>
    if let some s := (← get).shapes[number]? then return s
    let r ←
      if op = .view then (Expr.mk number op d src arg tag).shape
      else
        let below ← src.attach.mapM fun ⟨a, _⟩ => a.fullShape
        let below := below.filter fun s => !s.isEmpty
        let n := (below.map List.length).min?.getD 0
        (List.range n).mapM fun i => Dim.largest (below.map fun s => s.getD i 1)
    modify fun s => { s with shapes := s.shapes.insert number r }
    return r
termination_by e

def deviceText (d : Arg) : String := d.bareText

def multi (e : Expr) (axis : Option Int) : ExprM := do
  match ← e.device with
  | .tuple _ =>
    let some a := axis | throw (.broken "multi None is no longer supported")
    node .multi e.dtype [e] (.int a)
  | d => throw (.broken s!"multi device must be tuple, {deviceText d} isn't")

/-- The variable that stands for the number of the device. -/
def deviceNumber (count : Nat) : ExprM := var "_device_num" (.int 0) (.int ((count : Int) - 1))

def cutForDevices (axis : Int) : ExprM := do
  let count ← e.deviceCount
  let number ← deviceNumber count
  let shape ← e.shape
  let size ← itemAt shape axis
  if ← (← (← size.mod (.int count)).ne 0).holds then
    throw (.misused
      s!"multi axis uneven: self.shape[axis]={size.text} axis={axis} dcount={count}")
  let part ← size.div (.int count)
  let start ← Dim.mul (.sym number) part
  let stop ← start.add part
  e.shrink (shape.zipIdx.map fun (s, i) => if (i : Int) = axis then (start, stop) else (0, s))

def shard (devices : Arg) (axis : Int) : ExprM := do
  (← (← e.copyTo devices).cutForDevices axis).multi (some axis)

/-- A reduction of the parts of all devices onto others. -/
def allReduce (op : Arg) (device : Arg) : ExprM := do
  match ← e.device with
  | .tuple _ =>
    let d ← match device with
      | .expr d => pure d
      | d => node .device .void [] d
    node .allreduce e.dtype [e, d] op
  | d => throw (.broken s!"allreduce must be on tuple {deviceText d} isn't")

/-- Where the parts of the devices begin and end along the axis they are cut. -/
def shardBounds : GraphM (List (Dim × Dim)) := do
  let some axis ← e.shardAxis | throw (.misused "bounds is not defined when axis is None")
  let part ← itemAt (← (← e.nth 0).shape) axis
  let count ← e.deviceCount
  let starts ← (List.range count).foldlM (fun acc _ => do
    return acc ++ [← (acc.getLastD 0).add part]) [(0 : Dim)]
  return starts.zip starts.tail

/-- The node's constant where its view is inside memory, zero elsewhere. -/
def validOnly : ExprM := do
  let l ← e.layout?
  let v ← node .valid .bool [← node .view .void [] (l.elim .none .layout)]
  let c ← e.constLikeArg e.base.arg
  v.choose c (0 : Int)

end Expr

end LazyTensor
