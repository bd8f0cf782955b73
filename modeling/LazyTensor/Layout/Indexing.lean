import LazyTensor.Layout.Tracker
import LazyTensor.Symbolic.Algebra
import LazyTensor.Symbolic.Validity

/-!
# Addresses from layouts

The address of an index under a layout, as an expression, with the condition under which the index
is inside; and what can be read off from them: strides, masked axes, the memory needed.
-/

namespace LazyTensor.Layout

/-- An operation whose value may leave the 32-bit range is done with 64 bits. -/
def widenOverflow (u : Expr) : RuleM := do
  let wide ← DType.long.vec? u.dtype.count
  let (lo, hi) ← u.bounds
  if Const.lt (Const.greatest .int) hi || Const.lt lo (Const.least .int) then
    let src ← u.src.mapM fun x => x.cast wide
    return some (← node u.op wide src u.arg u.tag)
  if u.src.any fun x => x.dtype = .long then
    let src ← u.src.mapM fun x => x.cast wide
    return some (← (← node u.op wide src u.arg u.tag).cast u.dtype)
  return none

/-- Operations that may overflow 32 bits are done with 64. -/
def upcast : RuleSet Expr := .ofList [on (Pat.of Op.alus none (some [.int])) widenOverflow]

def flatUpcast : RuleSet Expr := Algebra.flat ++ upcast

def pair (e : Expr) : GraphM (Expr × Expr) :=
  match e.src with
  | [a, b] => pure (a, b)
  | _ => throw .invalidValue

/-- The address of an index, and the condition under which the index is inside.  Without an index,
that of a loop for each axis. -/
def indexed (l : Layout) (idxs : Option (List Expr) := none) : GraphM (Expr × Expr) := do
  let top := l.last
  let start ← match idxs with
    | some xs => pure xs
    | none => top.loops
  let mut cur ← top.indexed start (← Expr.const .bool (.bool true))
  for v in l.dropLast.reverse do
    let v ← v.minify
    let at' ← (← Shape.unravel v.shape (.sym cur.1)).mapM fun d => d.expr
    cur ← v.indexed at' cur.2
  let s ← Algebra.flat.apply (← Expr.sink [cur.1, cur.2])
  let (idx, valid) ← pair s
  let valid := (← Validity.simplify? valid).getD valid
  let idx := (← Validity.given? valid idx).getD idx
  pair (← flatUpcast.apply (← Expr.sink [idx, valid]))

def loopNumbers (e : Expr) : List Int :=
  e.toposort.toList.filterMap fun x => if x.is .range then x.arg.int? else none

/-- The stride of every axis: zero along axes that do not matter, none along axes that have no
single one or, unless that is ignored, are masked. -/
def realStrides (l : Layout) (ignoreValid : Bool := false) : GraphM (List (Option Dim)) := do
  if l.length = 1 && l.last.mask.isNone then return l.last.strides.map some
  let mut ret : List (Option Dim) := l.shape.map fun _ => none
  let (idx, valid) ← l.indexed
  for c in idx.split .add do
    if c.is .range then
      if let some i := c.arg.int? then ret := ret.set i.toNat (some 1)
    if c.is .mul then
      let a ← c.nth 0
      let b ← c.nth 1
      if a.is .range && b.is .const then
        if let some i := a.arg.int? then ret := ret.set i.toNat b.arg.dim?
      if b.is .range && a.is .const then
        if let some i := b.arg.int? then ret := ret.set i.toNat a.arg.dim?
  let used := loopNumbers idx
  ret := ret.zipIdx.map fun (x, i) => if used.contains (i : Int) then x else some 0
  if !ignoreValid then
    for a in loopNumbers valid do
      ret := ret.set a.toNat none
  return ret

/-- The axes along which neighbours are neighbours in memory. -/
def unitStrideAxes (l : Layout) (ignoreValid : Bool := false) : GraphM (List Nat) := do
  let st ← l.realStrides ignoreValid
  return (st.zipIdx.filter fun (x, _) => match x with
    | some d => d == 1
    | none => false).map (·.2)

def axisIsMasked (l : Layout) (axis : Int) : GraphM Bool := do
  let (_, valid) ← l.indexed
  return (loopNumbers (← Algebra.flat.apply valid)).contains axis

def realSize (l : Layout) : GraphM Int := do
  if l.shape.contains 0 then return 0
  let v := l.headD l.last
  let v ← match v.mask with
    | some (m :: ms) => v.shrink (m :: ms)
    | _ => pure v
  let (idx, _) ← indexed [v]
  let hi ← idx.vmax
  if !Const.lt hi (.float 1e12) then throw (.broken s!"real_size broken for {View.layoutText l}")
  liftM (do (← Const.add hi (.int 1)).toInt?)

end LazyTensor.Layout
