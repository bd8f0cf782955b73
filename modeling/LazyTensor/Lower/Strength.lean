import LazyTensor.Symbolic.Full
import LazyTensor.DType.Support

/-!
# Cheaper operations

Operations that a target does not have, or that cost more than others, are replaced by ones it has:
products and quotients by powers of two become shifts, quotients by other constants a product and a
shift, and elementary functions their series.
-/

namespace LazyTensor

namespace Division

def bitLength (n : Nat) : Nat := if n = 0 then 0 else n.log2 + 1

/-- Whether the shift by `s` divides by `d` exactly up to the bound that `nc` stands for. -/
def exactBy (nc d : Int) (s : Nat) : Bool :=
  2 ^ s > nc * (d - 1 - (2 ^ s - 1 : Int).fmod d)

def factor (d : Int) (s : Nat) : Int :=
  (2 ^ s + d - 1 - (2 ^ s - 1 : Int).fmod d).fdiv d

/-- Factor `m` and shift `s` such that `x / d = x * m / 2 ^ s` for every `x` from zero to the bound,
with the least shift. -/
def magic? (vmax d : Int) : Result (Int × Nat) :=
  if d = 0 then .error .divisionByZero else
  let nc := (vmax + 1).fdiv d * d - 1
  match (List.range (2 * bitLength vmax.natAbs + 1)).find? (exactBy nc d) with
  | some s => .ok (factor d s, s)
  | none => .error (.broken "")

end Division

namespace Strength

open Pat

private def maxOf (d : DType) : Const := Const.greatest d

/-- The next wider integer type of a promotion, if it is one and the device has it. -/
private def wider? (device : String) (d : DType) : GraphM (Option DType) := do
  let .vec s 1 := d | throw .missingKey
  let some n := (Scalar.next s).getLast? | throw .missingKey
  let w := DType.of n
  return if w.isInt && w.supportedOn device then some w else none

/-- A quotient of a number that is not negative by a constant, as a product and a shift. -/
def quotient? (t : Option Target) (x d : Expr) : RuleM := do
  let (lo, hi) ← x.bounds
  if Const.lt lo (.int 0) then return none
  let d ← (← d.argConst).asInt
  let vmax ← (Const.min hi (maxOf x.dtype)).asInt
  let sign : Int := if d > 0 then 1 else -1
  let (m, s) ← Division.magic? vmax d.natAbs
  if Const.le (.int (m * vmax)) (maxOf x.dtype) then
    return some (← Expr.binRev .mul sign (← (← x.mul m).shr s))
  let some t := t | return none
  let some w ← wider? t.device x.dtype | return none
  if Const.le (.int (m * vmax)) (maxOf w) then
    let q ← (← (← (← x.cast w).mul m).shr s).cast x.dtype
    return some (← Expr.binRev .mul sign q)
  return none

/-- The exponent of a constant that is a power of two below `2 ^ 64`. -/
def exponent? (c : Expr) : Option Nat :=
  match c.arg with
  | .const k =>
    match k with
    | .float x =>
      if Binary64.isFinite x && Binary64.isIntegral x then pow? (Binary64.truncate x) else none
    | k => k.int?.bind pow?
  | _ => none
where
  pow? (n : Int) : Option Nat :=
    if n ≤ 0 then none
    else
      let e := n.toNat.log2
      if (2 : Int) ^ e = n && e < 64 then some e else none

private def shift? (c : Expr) : Option Nat := (exponent? c).filter fun n => n ≠ 0

private def ints : Option (List DType) := some DType.ints

/-- Quotient toward zero by a power of two: numbers below zero are raised first. -/
private def shiftedQuotient (x c : Expr) : RuleM := do
  let some v := shift? c | return none
  let l ← x.lt 0
  let (lo, hi) ← l.bounds
  let l ← if Const.eq lo hi then l.constLike lo else pure l
  giving do (← x.add (← l.choose (← c.sub 1) 0)).shr v

/-- The replacements for the operations a target has.  With `force`, elementary functions are
replaced also where the target has them. -/
def rules (ops : List Op) (force : Bool := false) : RuleSet Expr :=
  let lacks (o : Op) : Bool := !ops.contains o || force
  let has (o : Op) (rs : List (Rule Expr)) : List (Rule Expr) := if ops.contains o then rs else []
  let series (o : Op) (f : Expr → ExprM) : List (Rule Expr) :=
    if lacks o then
      [on1 (seq [o] [var "d"] none (some [.half, .float, .double])) "d" fun d => giving (f d)]
    else []
  .ofList <|
    series .exp2 Elementary.xexp2 ++ series .log2 Elementary.xlog2
    ++ series .sin (fun d => Elementary.xsin d)
    ++ (if ops.contains .sqrt then [] else
      [on1 (all [.sqrt] (var "d")) "d" fun d => giving do
        Elementary.xpow d (← d.constLike (.float 0.5))])
    ++ has .and [on2 ((var "x" ints).mod (cvar "c")) "x" "c" fun x c =>
      match exponent? c, c.arg with
      | some _, .const k => giving do
        x.land (← k.sub (.int 1))
      | _, _ => return none]
    ++ has .shl [on2 ((var "x" ints).mul (cvar "c")) "x" "c" fun x c =>
      match shift? c with
      | some v => giving (x.shl v)
      | none => return none]
    ++ has .shr [
      on2 ((var "x" (some DType.uints)).idiv (cvar "c")) "x" "c" fun x c =>
        match shift? c with
        | some v => giving (x.shr v)
        | none => return none,
      on2 ((var "x" ints).idiv (cvar "c")) "x" "c" shiftedQuotient,
      on2 ((var "x" ints).idiv (cvar "d")) "x" "d" fun x d => do
        quotient? (← target?) x d,
      on2 ((var "x" ints).mod (cvar "d")) "x" "d" fun x d => do
        match ← quotient? (← target?) x d with
        | some q => giving do x.sub (← d.mul q)
        | none => return none]
    ++ has .neg ([on1 ((var "x").mul (-1 : Int)) "x" fun x => giving (x.alu .neg)]
      ++ has .sub [on2 ((var "x").add ((var "y").alu .neg)) "x" "y" fun x y => giving (x.alu .sub [y])])
    ++ has .mulacc [on3 (((var "a").mul (var "b")).add (var "c")) "a" "b" "c" fun a b c =>
      giving (a.alu .mulacc [b, c])]
where
  target? : GraphM (Option Target) := do
    let .target t := (← get).context | return none
    return some t

end Strength

end LazyTensor
