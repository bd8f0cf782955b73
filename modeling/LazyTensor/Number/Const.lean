import LazyTensor.DType.Basic
import LazyTensor.Number.Decimal

/-!
# Constants

A constant is a truth value, an integer of any size, or a double.  Truth values count as the
integers 0 and 1, and an integer meeting a double is converted to one, so that the three kinds mix
in arithmetic; comparison of an integer with a double is exact.
-/

namespace LazyTensor

open Binary64

inductive Const where
  | bool (b : Bool)
  | int (n : Int)
  | float (x : Float)
  deriving Repr

namespace Const

def ofBool (b : Bool) : Int := if b then 1 else 0

def int? : Const → Option Int
  | .bool b => some (ofBool b)
  | .int n => some n
  | .float _ => none

def isIntLike : Const → Bool
  | .float _ => false
  | _ => true

/-- The double of a constant; a large integer does not fit. -/
def toFloat? : Const → Result Float
  | .bool b => .ok (if b then 1.0 else 0.0)
  | .int n =>
    (ofInt? n).getDM (.error .overflow)
  | .float x => .ok x

variable (a b : Const)

/-- Exact order of two constants; `none` when one is a NaN. -/
def compare? : Option Ordering :=
  let intFloat (n : Int) (x : Float) : Option Ordering :=
    if x.isNaN then none
    else if isFinite x then some (compareInt n x)
    else some (if signBit x then .gt else .lt)
  match a, b with
  | .float x, .float y =>
    if x < y then some .lt else if x == y then some .eq else if y < x then some .gt else none
  | .float x, .int n => (intFloat n x).map Ordering.swap
  | .float x, .bool c => (intFloat (ofBool c) x).map Ordering.swap
  | .int n, .float y => intFloat n y
  | .bool c, .float y => intFloat (ofBool c) y
  | .int n, .int m => some (compare n m)
  | .int n, .bool c => some (compare n (ofBool c))
  | .bool c, .int m => some (compare (ofBool c) m)
  | .bool c, .bool e => some (compare (ofBool c) (ofBool e))

def eq (a b : Const) : Bool := compare? a b == some .eq

def lt (a b : Const) : Bool := compare? a b == some .lt

def le : Bool := compare? a b == some .lt || compare? a b == some .eq

def truthy : Const → Bool
  | .bool b => b
  | .int n => n != 0
  | .float x => !(x == 0)

def max : Const := if lt a b then b else a

def min : Const := if lt b a then b else a

@[inline] def arith (onInt : Int → Int → Int) (onFloat : Float → Float → Float) (a b : Const) :
    Result Const :=
  match a.int?, b.int? with
  | some n, some m => .ok (.int (onInt n m))
  | _, _ => return .float (onFloat (← a.toFloat?) (← b.toFloat?))

def add : Const → Const → Result Const := arith (· + ·) (· + ·)

def sub : Const → Const → Result Const := arith (· - ·) (· - ·)

def mul : Const → Const → Result Const := arith (· * ·) (· * ·)

def neg : Const → Const
  | .bool b => .int (-(ofBool b))
  | .int n => .int (-n)
  | .float x => .float (-x)

def abs : Const → Const
  | .bool b => .int (ofBool b)
  | .int n => .int n.natAbs
  | .float x => .float x.abs

/-- The remainder of doubles that has the sign of the divisor, with the quotient that belongs to
it. -/
def floatDivMod (x y : Float) : Float × Float :=
  -- the remainder toward zero is exact
  let rem : Float :=
    if !Binary64.isFinite x || y.isNaN || x.isNaN then nan
    else if !Binary64.isFinite y then x
    else
      let (a, p) := toFraction x
      let (b, q) := toFraction y
      let n := a.natAbs * q
      let d := b.natAbs * p
      let r := n % d
      copySign (ofFraction false r (p * q)) x
  let adjusted : Float × Bool :=
    if rem == 0 then (copySign 0 y, false)
    else if rem.isNaN then (rem, false)
    else if (y < 0) != (rem < 0) then (rem + y, true) else (rem, false)
  let div := (x - rem) / y
  let div := if adjusted.2 then div - 1 else div
  let quo : Float :=
    if div.isNaN then div
    else if div == 0 then copySign 0 (x / y)
    else
      let f := div.floor
      if div - f > 0.5 then f + 1 else f
  (quo, adjusted.1)

def floorDiv : Result Const :=
  match a.int?, b.int? with
  | some n, some m => if m = 0 then .error .divisionByZero else .ok (.int (n.fdiv m))
  | _, _ => do
    let x ← a.toFloat?
    let y ← b.toFloat?
    if y == 0 then throw .divisionByZero
    return .float (floatDivMod x y).1

def floorMod : Result Const :=
  match a.int?, b.int? with
  | some n, some m => if m = 0 then .error .divisionByZero else .ok (.int (n.fmod m))
  | _, _ => do
    let x ← a.toFloat?
    let y ← b.toFloat?
    if y == 0 then throw .divisionByZero
    return .float (floatDivMod x y).2

/-- A quotient as the nearest double. -/
def trueDiv : Result Const :=
  match a.int?, b.int? with
  | some n, some m =>
    if m = 0 then .error .divisionByZero else
    let neg := (n < 0) != (m < 0)
    if n = 0 then .ok (.float (zero (m < 0)))
    else match roundFormat 52 11 n.natAbs m.natAbs with
      | some _ => .ok (.float (ofFraction neg n.natAbs m.natAbs))
      | none => .error .overflow
  | _, _ => do
    let x ← a.toFloat?
    let y ← b.toFloat?
    if y == 0 then throw .divisionByZero
    return .float (x / y)

def truncDiv : Result Const := do
  if eq b (.int 0) then return .int 0
  match a.int?, b.int? with
  | some n, some m => return .int (n.tdiv m)
  | _, _ =>
    let q ← floorDiv a.abs b.abs
    let s ← mul a b
    mul q (.int (if lt s (.int 0) then -1 else 1))

def truncMod : Result Const := do
  sub a (← mul (← truncDiv a b) b)

/-- Two's-complement bits of an integer, combined digit by digit. -/
def bitwise (f : Nat → Nat → Nat) (n m : Int) : Int :=
  -- enough bits for both operands and their sign
  let w := Nat.max (Nat.log2 n.natAbs) (Nat.log2 m.natAbs) + 2
  let wrap (k : Int) : Nat := (k % (2 ^ w : Int)).toNat
  let r := f (wrap n) (wrap m)
  if r ≥ 2 ^ (w - 1) then (r : Int) - 2 ^ w else r

/-- A bitwise operation; two truth values give a truth value, a double is refused. -/
def bits (onBool : Bool → Bool → Bool) (onNat : Nat → Nat → Nat) (a b : Const) : Result Const :=
  match a, b with
  | .bool x, .bool y => .ok (.bool (onBool x y))
  | a, b =>
    match a.int?, b.int? with
    | some n, some m => .ok (.int (bitwise onNat n m))
    | _, _ => .error .wrongType

def land : Const → Const → Result Const := bits and Nat.land

def lor : Const → Const → Result Const := bits or Nat.lor

def lxor : Const → Const → Result Const := bits xor Nat.xor

def shiftLeft : Result Const :=
  match a.int?, b.int? with
  | some n, some m =>
    if m < 0 then .error .invalidValue
    else if n = 0 then .ok (.int 0)
    else if m > 100000000 then .error (.bare .outOfMemory)
    else .ok (.int (n * 2 ^ m.toNat))
  | _, _ => .error .wrongType

/-- Right shift toward minus infinity; a negative distance is refused. -/
def shiftRight : Result Const :=
  match a.int?, b.int? with
  | some n, some m =>
    if m < 0 then .error .invalidValue
    else if m > 100000000 then .ok (.int (if n < 0 then -1 else 0))
    else .ok (.int (n.fdiv (2 ^ m.toNat)))
  | _, _ => .error .wrongType

/-- The integer of a constant, a double losing its fraction. -/
def toInt? : Const → Result Int
  | .bool b => .ok (ofBool b)
  | .int n => .ok n
  | .float x =>
    if x.isNaN then .error .invalidValue
    else if !Binary64.isFinite x then .error .overflow
    else .ok (truncate x)

/-- A constant brought to the kind of an element type: integers, doubles, else truth values. -/
def ofDType? (c : Const) (d : DType) : Result Const :=
  if d.isInt then .int <$> c.toInt?
  else if d.isFloat then .float <$> c.toFloat?
  else .ok (.bool c.truthy)

def text : Const → String
  | .bool b => if b then "True" else "False"
  | .int n => toString n
  | .float x => Decimal.text x

def least (d : DType) : Const :=
  match d with
  | .vec s n =>
    -- vectors span the bits of all their lanes
    if s.isInt then (if s.isUnsigned then .int 0 else .int (-(2 ^ (8 * s.itemsize * n - 1) : Int)))
    else if s.isFloat then .float (infinity true) else .bool false
  | .image .. => .float (infinity true)
  | .ptr .. => .bool false

def greatest (d : DType) : Const :=
  match d with
  | .vec s n =>
    if s.isInt then
      .int ((2 ^ (8 * s.itemsize * n) : Int) - 1
        + (if s.isUnsigned then 0 else -(2 ^ (8 * s.itemsize * n - 1) : Int)))
    else if s.isFloat then .float (infinity false) else .bool true
  | .image .. => .float (infinity false)
  | .ptr .. => .bool true

end Const

end LazyTensor
