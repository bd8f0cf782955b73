import LazyTensor.Graph.Order
import LazyTensor.Symbolic.Folding
import LazyTensor.Symbolic.Lanes
import LazyTensor.Symbolic.Terms

/-!
# Algebra of index expressions

Rules that look deeper than one operation: like terms are collected, constants move to the end,
comparisons, quotients and remainders simplify by the bounds of their operands.
-/

namespace LazyTensor.Algebra

open Pat Folding

/-- Operands of commutative operations on integers are put in order. -/
def commutative : RuleSet Expr := .ofList [
  on (of Op.commutatives none (some [.int])) fun x => do
    let a ← x.nth 0
    let b ← x.nth 1
    if ← b.before? a then giving (x.withSrc x.src.reverse) else return none]

/-- A quotient of constants that are not negative, brought to an integer: that of integers from the
nearest double. -/
def wholeDiv (onInts : Nat → Nat → Nat) (onFloat : Float → Int) (a b : Const) : GraphM Int := do
  let q ← Const.trueDiv a b
  match a.int?, b.int?, q with
  | some n, some m, _ => return onInts n.natAbs m.natAbs
  | _, _, .float x => return onFloat x
  | _, _, c => c.asInt

def ceilDiv : Const → Const → GraphM Int := wholeDiv Binary64.ceilFraction Binary64.ceil

def floorDiv : Const → Const → GraphM Int := wholeDiv Binary64.floorFraction Binary64.floor

def isPos (c : Const) : Bool := Const.lt (.int 0) c
def isNeg (c : Const) : Bool := Const.lt c (.int 0)

/-- Rules on sums, products, choices, comparisons, quotients and remainders. -/
def deeper : RuleSet Expr := .ofList ([
  on1 ((var "x").lor ((var "x").land wild)) "x" fun x => return some x,
  -- like terms
  on3 (((var "x").mul (cvar "c0")).add ((var "x").mul (cvar "c1"))) "x" "c0" "c1" fun x c0 c1 =>
    giving (do x.mul (← c0.add c1)),
  on4 (((var "y").add ((var "x").mul (cvar "c0"))).add ((var "x").mul (cvar "c1")))
      "x" "y" "c0" "c1" fun x y c0 c1 =>
    giving (do y.add (← x.mul (← c0.add c1))),
  on2 ((var "x").add ((var "x").mul (cvar "c"))) "x" "c" fun x c =>
    giving (do x.mul (← c.add 1)),
  on3 (((var "y").add (var "x")).add ((var "x").mul (cvar "c"))) "x" "y" "c" fun x y c =>
    giving (do y.add (← x.mul (← c.add 1))),
  on1 ((var "x").add (var "x")) "x" fun x => giving (x.mul 2),
  on2 (((var "y").add (var "x")).add (var "x")) "y" "x" fun y x => giving (do y.add (← x.mul 2)),
  on3 (((var "x").fdiv (var "x2")).fdiv (var "x3")) "x" "x2" "x3" fun x x2 x3 =>
    givingIf (!(x2 == x3)) (do x.fdiv (← x2.mul x3)),
  on2 (((var "x").add (cvar "c")).mulBy (-1 : Int)) "x" "c" fun x c =>
    giving (do (← x.neg).add (← c.neg)),
  -- choices
  on1 (wild.choose (var "val") (var "val")) "val" fun v => return some v,
  on3 ((cvar1 "gate").choose (var "c0") (var "c1")) "gate" "c0" "c1" fun g c0 c1 =>
    return some (if (g.arg.const?.getD (.int 0)).truthy then c0 else c1),
  on3 ((var "cond" bools).lnot.choose (var "t") (var "f")) "cond" "t" "f" fun c t f =>
    giving (c.choose f t),
  ⟨seq Op.binaries [(var "c").choose (var "t") (var "f"), (var "c").choose (var "tt") (var "ff")],
    fun a b => do
      let c := b.get "c"
      let t := b.get "t"
      let tt := b.get "tt"
      let f := b.get "f"
      let ff := b.get "ff"
      if (t.is .const && tt.is .const) || (f.is .const && ff.is .const) then
        let x ← t.alu a.op [tt]
        giving (do c.choose x (← f.alu a.op [ff]))
      else return none⟩,
  -- a node with a single value
  on (of (Op.alus ++ [.defineVar, .special, .range])) fun x => do
    let (lo, hi) ← x.bounds
    givingIf (Const.eq lo hi) (x.constLike lo),
  on2 ((var "x").maximum (var "y")) "x" "y" fun x y => do
    let (xl, xh) ← x.bounds
    let (yl, yh) ← y.bounds
    return if Const.le yh xl then some x else if Const.le xh yl then some y else none]
  -- two constants under one associative operation
  ++ [Op.add, .mul, .and, .or, .max].map (fun op =>
    on4 ((((var "x").alu op [cvar "c1"]).alu op [cvar "c2"]).named "f") "f" "x" "c1" "c2"
      fun f x c1 c2 => giving (do x.alu f.op [← c1.alu f.op [c2]]))
  ++ [
  on3 (((cvar "c0").add (var "x")).lt (cvar "c1")) "x" "c0" "c1" fun x c0 c1 =>
    giving (do x.lt (← c1.sub c0)),
  on3 (((var "x").idiv (cvar "c1")).idiv (cvar "c2")) "x" "c1" "c2" fun x c1 c2 =>
    giving (do x.idiv (← c1.mul c2)),
  -- comparisons with a constant
  on3 (((cvar1 "c0").mul (var "x" ints)).lt (cvar1 "c1")) "x" "c0" "c1" fun x c0 c1 => do
    let a ← c0.argConst
    let b ← c1.argConst
    if isPos a && isPos b then giving (do x.lt (← ceilDiv b a)) else return none,
  on3 (((cvar1 "c0").mul (var "x" ints)).lt (cvar1 "c1")) "x" "c0" "c1" fun x c0 c1 => do
    let a ← c0.argConst
    let b ← c1.argConst
    if isNeg a && !Const.eq a (.int (-1)) && !isPos b then
      let k ← floorDiv b.neg a.neg
      giving (do (← x.neg).lt (-k))
    else return none,
  on3 (((var "x" ints).idiv (cvar1 "d")).lt (cvar1 "c")) "x" "d" "c" fun x d c => do
    let d ← (← d.argConst).asInt
    let c ← (← c.argConst).asInt
    if d > 0 then giving (x.lt (if c > 0 then c * d else c * d - (d - 1))) else return none,
  -- constants go last
  on3 (((var "x").add (cvar "c1")).add (var "y")) "x" "c1" "y" fun x c1 y =>
    giving (do (← x.add y).add c1),
  on3 (((var "x").mul (cvar "c1")).mul (var "y")) "x" "c1" "y" fun x c1 y =>
    giving (do (← x.mul y).mul c1),
  -- sums of quotients
  on2 ((wild.add (wild.idiv (cvar1 "d"))).named "divs") "divs" "d" fun divs d => do
    Terms.unrolled? divs (← d.argConst) (.int 1),
  on3 ((wild.add ((wild.idiv (cvar1 "d")).mul (cvar "c"))).named "divs") "divs" "d" "c"
    fun divs d c => do
      match c.arg with
      | .const k => Terms.unrolled? divs (← d.argConst) k
      | _ => Terms.unrolled? divs (← d.argConst) (.float Binary64.nan),
  -- comparisons of sums
  on2 ((var "x" sints).lt (cvar1 "c")) "x" "c" fun x c => do
    let k ← c.argConst
    if isPos k then Terms.lessThan? x (← k.asInt) else return none,
  on2 (((var "x" sints).mul (-1 : Int)).lt ((var "y" sints).mul (-1 : Int))) "x" "y" fun x y =>
    giving (y.lt x),
  on1 (((var "x" ints).lt 1).ne true) "x" fun x => do
    match ← Terms.simplex? x with
    | some x' => giving (do (← x'.lt 1).ne true)
    | none => return none,
  -- quotients
  on4 ((((var "x").idiv (cvar "c")).add (cvar "a")).idiv (cvar "d")) "x" "c" "a" "d"
    fun x c a d => do
      if !isPos (← c.vmin) then return none
      if !isPos (← d.vmin) then return none
      let xb ← x.bounds
      let ab ← a.bounds
      if (!isNeg xb.1 && !isNeg ab.1) || (!isPos xb.2 && !isPos ab.2) then
        giving (do (← x.add (← a.mul c)).idiv (← c.mul d))
      else return none,
  on2 ((var "x" sints).idiv (var "y")) "x" "y" fun x y => Terms.divMod? x y false,
  on2 ((var "x").idiv (var "d")) "x" "d" fun x d => do
    if !isPos (← d.vmax) then giving (do (← x.idiv (← d.neg)).neg) else return none,
  on2 ((var "x").idiv (var "d")) "x" "d" fun x d => do
    if !isPos (← x.vmax) then giving (do (← (← x.neg).idiv d).neg) else return none,
  on4 ((((var "x" sints).add (cvar1 "c")).named "n").idiv (cvar1 "d")) "x" "c" "n" "d"
    fun x c n d => do
      if isPos (← x.vmax) then return none
      if isNeg (← n.vmin) then return none
      let k ← (← c.argConst).asInt
      let m ← (← d.argConst).asInt
      if m > 0 then
        let inner ← (← Expr.binRev .add (Int.fmod k m) x).sub (m - 1)
        giving (do (← (← (← inner.neg).idiv d).neg).add (Int.fdiv k m))
      else return none,
  -- remainders
  on2 ((var "x").mod (var "y")) "x" "y" fun x y => Terms.divMod? x y true,
  on2 ((var "x").mod (var "d")) "x" "d" fun x d => do
    if !isPos (← x.vmax) then giving (do (← (← x.neg).mod d).neg) else return none])

def rules : RuleSet Expr := Folding.rules ++ commutative ++ deeper ++ Lanes.rules

def expanding : RuleSet Expr := .ofList [
  on2 (((var "x").add (var "y")).mulBy (-1 : Int)) "x" "y" fun x y =>
    giving (do (← x.neg).add (← y.neg)),
  on3 (((var "x" ints).add (var "y")).mul (cvar "c")) "x" "y" "c" fun x y c =>
    giving (do (← x.mul c).add (← y.mul c))]

/-- The simplifications of index expressions, with products of sums multiplied out. -/
def flat : RuleSet Expr := rules ++ expanding

end LazyTensor.Algebra
