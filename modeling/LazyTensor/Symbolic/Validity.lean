import LazyTensor.Symbolic.Terms
import LazyTensor.Graph.Rules

/-!
# Simplification under a condition

A condition on indices is a conjunction of bounds `X < c` and `X ≥ c`.  An expression that matters
only where the condition holds can be simplified with those bounds.
-/

namespace LazyTensor.Validity

/-- A bound: an expression, whether the bound is from above, and the constant (inclusive). -/
structure Bound where
  expr : Expr
  isUpper : Bool
  limit : Const

/-- The bound that a condition puts on an expression. -/
def parse? (v : Expr) : GraphM (Option Bound) := do
  if v.is .cmpne then
    let c ← v.nth 1
    if c.is .const && (c.arg.const?.elim false fun k => Const.eq k (.int 1)) then
      let s ← v.nth 0
      if s.is .cmplt then
        let k ← s.nth 1
        if k.is .const then return some ⟨← s.nth 0, false, ← k.argConst⟩
  if v.is .cmplt then
    let k ← v.nth 1
    let x ← v.nth 0
    if k.is .const && x.dtype.isInt then
      return some ⟨x, true, ← Const.sub (← k.argConst) (.int 1)⟩
  return none

def notABound : Failure := .invalid "not able to parse valid=UOp("

structure Known where
  expr : Expr
  lower : Option Const := none
  upper : Option Const := none

/-- Record a bound; the latest in each direction counts. -/
def record (ks : List Known) (b : Bound) : List Known :=
  let set (k : Known) : Known :=
    if b.isUpper then { k with upper := some b.limit } else { k with lower := some b.limit }
  if ks.any fun k => k.expr == b.expr then
    ks.map fun k => if k.expr == b.expr then set k else k
  else ks ++ [set ⟨b.expr, none, none⟩]

def allSame (es : List Expr) : Bool :=
  match es with
  | [] => true
  | e :: rest => rest.all (· == e)

/-- An expression with nodes replaced by others for the time of a simplification. -/
def under (uop x x' : Expr) : ExprM := do
  let a ← (← uop.substitute [(x, x')]).simplify
  (← a.substitute [(x', x)]).simplify

/-- Try replacements that a bound suggests; if all lead to the same expression, it is the result. -/
def attempt (uop : Expr) (candidate : List (Expr × Expr)) : ExprM := do
  let news ← candidate.mapM fun (x, x') => under uop x x'
  let first := news.headD uop
  if uop.is .vectorize && uop.src.length = 2 then
    let mut uop := uop
    let a ← news.mapM fun n => n.nth 0
    let b ← news.mapM fun n => n.nth 1
    if allSame a then uop ← uop.withSrc [← first.nth 0, ← uop.nth 1]
    if allSame b then uop ← uop.withSrc [← uop.nth 0, ← first.nth 1]
    return uop
  return if allSame news then first else uop

/-- An expression simplified under a condition; nothing if the condition never holds.  Addresses
inside the expression are left alone. -/
def given? (valid uop : Expr) : RuleM := do
  let mut bounds : List Known := []
  for stmt in valid.split .and do
    let some b ← parse? stmt | return some uop
    bounds := record bounds b
  let hidden ← (uop.toposort.toList.filter fun u => u.is .index).mapM fun u => do
    return (u, ← node .noop .void [] (.expr u))
  let mut uop ← uop.substitute hidden
  for k in bounds do
    let lo ← match k.lower with
      | some c => pure c
      | none => k.expr.vmin
    let hi ← match k.upper with
      | some c => pure c
      | none => k.expr.vmax
    if Const.lt hi lo then return none
    if Const.eq lo hi then
      uop ← (← uop.substitute [(k.expr, ← k.expr.constLike lo)]).simplify
    else
      let parts := k.expr.split .add
      let mut candidates : List (List (Expr × Expr)) := []
      if k.expr.is .add && Const.eq lo (.int 1) && parts.all (fun u => u.op.isIrreducible) then
        let c ← parts.mapM fun x => do
          return (x, ← Expr.var "fake" (.int 1) (← x.vmax) x.dtype)
        candidates := candidates ++ [c]
      if uop.reaches k.expr then
        candidates := candidates ++ [[(k.expr, ← Expr.var "fake" lo hi k.expr.dtype)]]
      for c in candidates do
        uop ← attempt uop c
  return some (← uop.substitute (hidden.map fun (a, b) => (b, a)))

/-- How early a part of a condition is looked at: the earlier the more parts depend on it. -/
def priority (v : Expr) (valids : List Expr) : GraphM Int := do
  let some b ← parse? v | return 0
  return -(valids.countP fun o => o.reaches b.expr : Nat)

/-- A condition whose parts are simplified by one another, if that changes it. -/
def simplify? (valid : Expr) : RuleM := do
  let valids := valid.split .and
  let keyed ← valids.mapM fun v => do return (← priority v valids, v)
  let sorted := keyed.mergeSort fun a b => a.1 ≤ b.1
  let mut ret : List Expr := []
  let mut changed := false
  for (_, stmt) in sorted do
    if stmt.is .cast then return none
    let new ← if ret.isEmpty then pure stmt
      else pure ((← given? (← Expr.conj ret) stmt).getD stmt)
    ret := ret ++ [new]
    if !(new == stmt) then changed := true
  if changed then return some (← Expr.conj ret) else return none

end LazyTensor.Validity
