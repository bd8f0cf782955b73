import LazyTensor.Graph.Bounds

/-!
# Sums, factors and quotients

Index arithmetic seen as sums of terms with constant factors: what divides a node, when a comparison
of a sum with a constant can drop terms, and how quotients and remainders of sums by constants
simplify.
-/

namespace LazyTensor

open Int

def Const.asInt (c : Const) : GraphM Int :=
  c.int?.getDM (throw .wrongType)

namespace Expr

def intBounds (e : Expr) : GraphM (Int × Int) := do
  let b ← e.bounds
  return (← b.1.asInt, ← b.2.asInt)

def argConst (e : Expr) : GraphM Const :=
  match e.arg with
  | .const c => pure c
  | _ => throw .wrongType

/-- Whether a node never falls when an index grows, as far as its form shows. -/
def isIncreasing (e : Expr) : GraphM Bool := do
  match e with
  | .mk _ op _ src _ _ =>
    if op.isIrreducible then return true
    match op, src with
    | .add, a :: b :: _ => if ← a.isIncreasing then b.isIncreasing else return false
    | .mul, a :: b :: _ | .idiv, a :: b :: _ =>
      if b.is .const then
        if Const.le (.int 0) (← b.argConst) then a.isIncreasing else return false
      else return false
    | .add, _ | .mul, _ | .idiv, _ => throw .outOfRange
    | _, _ => return false
termination_by e

def gcdOf (cs : List Const) : GraphM Const := do
  let ns ← cs.mapM Const.asInt
  return .int (ns.foldl (fun g n => (Nat.gcd g n.natAbs : Nat)) (0 : Nat) : Nat)

/-- The greatest constant that is known to divide a node. -/
def constFactor (e : Expr) : GraphM Const := do
  match e with
  | .mk _ op _ src arg _ =>
    match op, src with
    | .const, _ =>
      let .const c := arg | throw .wrongType
      return c
    | .vconst, _ => gcdOf (arg.items.filterMap Arg.const?)
    | .add, a :: b :: _ =>
      let x ← a.constFactor
      let y ← b.constFactor
      gcdOf [x, y]
    | .mul, a :: b :: _ =>
      if a.is .const then a.argConst
      else if b.is .const then b.argConst
      else return .int 1
    | .add, _ | .mul, _ => throw .outOfRange
    | _, _ => return .int 1
termination_by e

/-- The quotient of a node by an integer that divides it, where that can be told. -/
def divides (e : Expr) (v : Int) : RuleM := do
  if v = 1 then return some e
  match e with
  | .mk n op d src arg tag =>
    match op, src with
    | .const, _ =>
      let .const c := arg | throw .wrongType
      if Const.eq (← Const.floorMod c (.int v)) (.int 0) then
        return some (← (Expr.mk n op d src arg tag).constLike (← Const.floorDiv c (.int v)))
      return none
    | .vconst, _ =>
      let cs := arg.items.filterMap Arg.const?
      for c in cs do
        if !Const.eq (← Const.floorMod c (.int v)) (.int 0) then return none
      let qs ← cs.mapM fun c => liftM (Const.floorDiv c (.int v))
      return some (← (Expr.mk n op d src arg tag).constLikeArg (.tuple (qs.map Arg.const)))
    | .add, a :: b :: _ =>
      let some x ← a.divides v | return none
      let some y ← b.divides v | return none
      return some (← x.add y)
    | .mul, a :: b :: _ =>
      match ← a.divides v with
      | some x => return some (← x.mul b)
      | none =>
        let some y ← b.divides v | return none
        return some (← a.mul y)
    | .add, _ | .mul, _ => throw .outOfRange
    | _, _ => return none
termination_by e

def sum (es : List Expr) : ExprM :=
  match es with
  | [] => throw .wrongType
  | e :: rest => rest.foldlM (fun a b => a.add b) e

def conj (es : List Expr) : ExprM :=
  match es with
  | [] => throw .wrongType
  | e :: rest => rest.foldlM (fun a b => a.land b) e

end Expr

namespace Terms

def weighted (terms : List (Int × Expr)) : ExprM :=
  match terms with
  | [] => throw .missingMember
  | (k, v) :: rest => do
    let first ← Expr.binRev .add 0 (← Expr.binRev .mul k v)
    rest.foldlM (fun a (k, v) => do a.add (← Expr.binRev .mul k v)) first

def cdiv (x y : Int) : Int := if y = 0 then 0 else tdiv x y

def cmod (x y : Int) : Int := x - cdiv x y * y

/-- The dividend, not negative, of a quotient by `denominator` in a term, which is `fac` times the
quotient. -/
def dividend? (denominator fac : Const) (u : Expr) : RuleM := do
  if !Const.eq fac (.int 1) then
    if !(u.is .mul && u.srcIs 1 .const) then return none
    if !Const.eq (← (← u.nth 1).argConst) fac then return none
  let u ← if Const.eq fac (.int 1) then pure u else u.nth 0
  if !(u.is .idiv && u.srcIs 1 .const) then return none
  if !Const.eq denominator (← (← u.nth 1).argConst) then return none
  let s ← u.nth 0
  if Const.lt (← s.vmin) (.int 0) then return none
  return some s

def offset (s : Expr) : GraphM (Expr × Int) := do
  if s.is .add && s.srcIs 1 .const then
    let k ← (← (← s.nth 1).argConst).asInt
    return (← s.nth 0, k)
  return (s, 0)

/-- The offsets of the dividends of quotients, and the base they have in common. -/
def offsets? (denominator fac : Const) :
    List Expr → List Int → Option Expr → GraphM (Option (List Int × Option Expr))
  | [], seen, base => return some (seen, base)
  | u :: us, seen, base => do
    let some s ← dividend? denominator fac u | return none
    let (a, k) ← offset s
    if base.all (· == a) then offsets? denominator fac us (seen ++ [k]) (some (base.getD a))
    else return none

/-- The common base of the quotients in a sum `(x + c₀) / d + (x + c₁) / d + …`, each times `fac`, if
the offsets are all those below `d`; small missing ones may have vanished. -/
def unrolled? (divs : Expr) (denominator : Const) (fac : Const) : RuleM := do
  let some (seen, some a) ← offsets? denominator fac (divs.split .add) [] none | return none
  let d ← denominator.asInt
  let (lo, hi) ← a.intBounds
  let vanished := (List.range (d - seen.length).toNat).filter fun (i : Nat) => hi + i < d
  let all := seen ++ if 0 ≤ lo then vanished.map ofNat else []
  let sorted := all.mergeSort (· ≤ ·)
  if sorted.length = d.toNat && 0 ≤ d && sorted == (List.range d.toNat).map ofNat then
    return some (← Expr.binRev .mul fac a)
  return none

def totalBounds (us : List Expr) : GraphM (Int × Int) :=
  us.foldlM (fun acc u => do
    let b ← u.intBounds
    return (acc.1 + b.1, acc.2 + b.2)) (0, 0)

/-- A comparison of a sum with a constant, without the terms too small to matter. -/
def lessThan? (x : Expr) (c : Int) : RuleM := do
  let terms ← (x.split .add).mapM fun u => do return (u, ← u.constFactor)
  let (p, np) := terms.partition fun (_, f) => Const.eq f (.int 1)
  if np.isEmpty then return none
  let fs ← np.mapM fun (_, f) => f.asInt
  let d : Int := (fs.foldl (fun g n => Nat.gcd g n.natAbs) c.natAbs : Nat)
  if d ≤ 1 then return none
  let (lo, hi) ← totalBounds (p.map (·.1))
  if 0 ≤ lo && hi < d then
    let some q ← (← Expr.sum (np.map (·.1))).divides d | throw .wrongType
    return some (← q.lt (fdiv c d))
  return none

/-- A term without a positive factor, and whether it had one. -/
def unscaled (u : Expr) : GraphM (Expr × Bool) := do
  if u.is .mul && u.srcIs 1 .const then
    if Const.lt (.int 0) (← u.src1.argConst) then return (u.src0, true)
  return (u, false)

/-- Terms without their positive factors, if all are indices that are not negative, and whether some
had a factor. -/
def indices? : List Expr → List Expr → Bool → GraphM (Option (List Expr × Bool))
  | [], ret, changed => return some (ret, changed)
  | u :: us, ret, changed => do
    let (v, scaled) ← unscaled u
    if !v.op.isIrreducible then return none
    if Const.lt (← v.vmin) (.int 0) then return none
    indices? us (ret ++ [v]) (changed || scaled)

/-- The sum without the positive factors of its terms, if all are indices that are not negative and
some have a factor. -/
def simplex? (x : Expr) : RuleM := do
  let some (ret, true) ← indices? (x.split .add) [] false | return none
  return some (← Expr.sum ret)

/-- A term of a sum under a quotient: factor, quotient and remainder of the factor by the divisor,
and the rest of the term. -/
structure Term where
  factor : Int
  quotient : Int
  remainder : Int
  rest : Expr

/-- Of two numbers the one nearer to zero, the first on a tie. -/
def nearer (a b : Int) : Int := if b.natAbs < a.natAbs then b else a

/-- What the terms of a sum under a quotient amount to: those that are not constant, the greatest
common divisor of the divisor and of their remainders, the least factor that divides the divisor, the
sum of the constants, and whether a term is not as simple as it could be. -/
structure Collected where
  terms : List Term
  gcd : Nat
  div : Int
  const : Int
  changed : Bool

/-- What a term counts as under a remainder by `c`: a remainder by a multiple of `c` as its
dividend. -/
def congruent (c : Int) (isMod : Bool) (u : Expr) : GraphM (Expr × Bool) := do
  if u.is .mod && isMod then
    let m ← u.nth 1
    if m.is .const then
      let k ← (← m.argConst).asInt
      if fmod k c = 0 then return (← u.nth 0, true)
  return (u, false)

def collect (c : Int) (isMod : Bool) (acc : Collected) (u : Expr) : GraphM Collected := do
  let (u, reduced) ← congruent c isMod u
  let f ← (← u.constFactor).asInt
  let v ← u.divides f
  let r := fmod f c
  let changed := acc.changed || reduced || r = 0 || ((isMod || u.is .const) && r ≠ f)
  if u.is .const then return { acc with const := acc.const + f, changed }
  let div := if f > 1 && fmod c f = 0 && (acc.div = 1 || acc.div > f) then f else acc.div
  let some v := v | throw .missingMember
  return ⟨acc.terms ++ [⟨f, fdiv f c, r, v⟩], Nat.gcd r.natAbs acc.gcd, div, acc.const, changed⟩

/-- The quotient or remainder of one term with two values. -/
def twoValued? (col : Collected) (c : Int) (isMod : Bool) : RuleM := do
  let [t] := col.terms | return none
  let (lo, hi) ← t.rest.intBounds
  if hi - lo ≠ 1 then return none
  let op := if isMod then cmod else cdiv
  let y1 := op (t.factor * lo + col.const) c
  let y2 := op (t.factor * hi + col.const) c
  return some (← (← Expr.binRev .mul (y2 - y1) (← t.rest.sub lo)).add y1)

/-- The quotient or remainder by a congruent sum that stays within one period. -/
def periodic? (col : Collected) (c : Int) (isMod : Bool) : RuleM := do
  let rems := col.terms.map fun t => nearer t.remainder (t.remainder - c)
  let rem ← (← weighted (rems.zip (col.terms.map Term.rest))).add (fmod col.const c)
  let (lo, hi) ← rem.intBounds
  if fdiv lo c ≠ fdiv hi c || !col.terms.all (fun t => t.factor > 0) then return none
  let base := fdiv lo c * c
  if isMod then return some (← rem.sub base)
  let quo ← weighted ((col.terms.zip rems).map fun (t, r) => (fdiv (t.factor - r) c, t.rest))
  return some (← quo.add (fdiv (col.const - fmod col.const c + base) c))

/-- The quotient or remainder with the common factor `g` of dividend and divisor cancelled. -/
def cancelled (x : Expr) (col : Collected) (c g : Int) (isMod : Bool) : ExprM := do
  let num ← weighted (col.terms.map fun t => (fdiv t.factor g, t.rest))
  let num ← num.add (fdiv col.const g)
  let r ← node (if isMod then .mod else .idiv) x.dtype [num, ← x.constLike (.int (fdiv c g))]
  if isMod then r.mul g else return r

/-- Take a term into a quotient and what remains under it, both by `c` and with the factor `common`
taken out of what remains. -/
def separate (common : Int) (isMod : Bool) (acc : Expr × Expr) (t : Term) : GraphM (Expr × Expr) := do
  let (quo, rem) := acc
  if !isMod && t.remainder ≠ 0 then
    return (quo, ← rem.add (← Expr.binRev .mul (fdiv t.factor common) t.rest))
  let rem ← rem.add (← Expr.binRev .mul (fdiv t.remainder common) t.rest)
  return (← quo.add (← Expr.binRev .mul t.quotient t.rest), rem)

/-- The quotient or remainder of what remains after multiples of the divisor are taken out, for sums
that are not negative. -/
def separated? (x : Expr) (col : Collected) (c xMin : Int) (isMod : Bool) : RuleM := do
  let common : Int := col.gcd
  let quo ← x.constLike (.int (fdiv col.const c))
  let rem ← x.constLike (.int (fdiv (fmod col.const c) common))
  let (quo, rem) ← col.terms.foldlM (separate common isMod) (quo, rem)
  if !col.terms.isEmpty then
    if xMin < 0 then return none
    if (← rem.intBounds).1 < 0 then return none
  if isMod then
    let m ← rem.mod (fdiv c common)
    return some (← (← Expr.binRev .mul common m).add (fmod col.const common))
  return some (← (← rem.idiv (fdiv c common)).add quo)

/-- A simpler form of the quotient (`isMod` false) or remainder of a node.  The fuel bounds how often
the divisor is replaced by a smaller one. -/
def divModFuel : Nat → Expr → Expr → Bool → RuleM
  | 0, _, _, _ => return none
  | fuel + 1, x, y, isMod => do
    let xb ← x.bounds
    let yb ← y.bounds
    let (some xMin, some xMax, some yMin, some yMax) :=
      (xb.1.int?, xb.2.int?, yb.1.int?, yb.2.int?) | throw (.broken "")
    let q := cdiv xMin yMin
    if yMin * yMax > 0 && q = cdiv xMin yMax && q = cdiv xMax yMin && q = cdiv xMax yMax then
      if isMod then return some (← x.sub (← Expr.binRev .mul q y))
      return some (← x.constLike (.int q))
    if !(y.is .const) then return none
    let c ← (← y.argConst).asInt
    if c ≤ 0 || x.dtype.count > 1 then return none
    let col ← (x.split .add).foldlM (collect c isMod) ⟨[], c.natAbs, 1, 0, false⟩
    match ← twoValued? col c isMod with
    | some r => return some r
    | none =>
    let exact := !(← GraphM.settingOn .correctDivmodFolding) || xMin ≥ 0
    match ← if exact then periodic? col c isMod else pure none with
    | some r => return some r
    | none =>
    let g : Int := (Nat.gcd col.gcd col.const.natAbs : Nat)
    if g ≠ 1 then return some (← cancelled x col c g isMod)
    if col.changed || col.gcd ≠ 1 then separated? x col c xMin isMod
    else if !isMod && 1 < col.div && col.div < c then
      let some x' ← divModFuel fuel x (← x.constLike (.int col.div)) false | return none
      return some (← x'.idiv (fdiv c col.div))
    else return none

def divMod? (x y : Expr) (isMod : Bool) : RuleM := divModFuel 1000 x y isMod

end Terms

end LazyTensor
