/-!
# Binary floating point from exact fractions

A finite double is `± m · 2^q` with `m < 2^53`.  This module takes doubles apart into that form,
and rounds exact fractions to the nearest double, ties to the even significand.  Everything is
computed on natural numbers, so no intermediate step rounds.
-/

namespace LazyTensor

/-- Powers of numbers are those of the core library, whatever other library has them as well. -/
@[default_instance 20000]
instance (priority := 2000) corePow {α : Type} [NatPow α] : Pow α Nat := instPowNat

end LazyTensor

namespace LazyTensor.Binary64

/-- The quotient `n / d` rounded to the nearest natural; a tie goes to the even one. -/
def roundDiv (n d : Nat) : Nat :=
  let q := n / d
  let r := n % d
  if 2 * r > d then q + 1
  else if 2 * r = d then (if q % 2 = 0 then q else q + 1)
  else q

variable (x : Float)

/-- The sign, the biased exponent and the fraction field of a double. -/
def fields : Bool × Nat × Nat :=
  let b := x.toBits.toNat
  (b / 2 ^ 63 % 2 = 1, b / 2 ^ 52 % 2 ^ 11, b % 2 ^ 52)

/-- A finite double as sign, significand `m` and exponent `q`, meaning `± m · 2^q`. -/
def decode : Bool × Nat × Int :=
  let (s, e, f) := fields x
  if e = 0 then (s, f, -1074) else (s, f + 2 ^ 52, (e : Int) - 1075)

def isFinite : Bool := (fields x).2.1 ≠ 2047

/-- Whether the sign bit is set; zeros and NaNs have a sign too. -/
def signBit : Bool := (fields x).1

variable (negative : Bool)

def infinity : Float :=
  Float.ofBits (if negative then 0xFFF0000000000000 else 0x7FF0000000000000)

def nan : Float := Float.ofBits 0x7FF8000000000000

def zero : Float := Float.ofBits (if negative then 0x8000000000000000 else 0)

def copySign (x y : Float) : Float :=
  Float.ofBits ((x.toBits &&& 0x7FFFFFFFFFFFFFFF) ||| (y.toBits &&& 0x8000000000000000))

/-- The significand `m` and the exponent `e` of the value nearest to the fraction `n / d` in a binary
format with `p` fraction bits and `w` exponent bits, meaning `m · 2^(e - p)`; neither `n` nor `d` is
zero. -/
def nearest (p w : Nat) (n d : Nat) : Nat × Int :=
  let bias : Int := 2 ^ (w - 1) - 1
  -- the exponent `k` with `2^k ≤ n/d < 2^(k+1)`, first guessed from the lengths
  let guess : Int := (Nat.log2 n : Int) - (Nat.log2 d : Int)
  let below : Bool :=
    if guess ≥ 0 then n < d * 2 ^ guess.toNat else n * 2 ^ (-guess).toNat < d
  let k := if below then guess - 1 else guess
  let least : Int := 1 - bias
  let e := if k < least then least else k
  -- significand in units of `2^(e-p)`
  let shift : Int := (p : Int) - e
  (if shift ≥ 0 then roundDiv (n * 2 ^ shift.toNat) d else roundDiv n (d * 2 ^ (-shift).toNat), e)

/--
The bits of the nearest value in a binary format with `p` fraction bits and `w` exponent bits, for
the fraction `n / d` with `d ≠ 0`; `none` when the rounded value is past the largest finite one.
The result has no sign.
-/
def roundFormat (p w : Nat) (n d : Nat) : Option Nat :=
  if n = 0 then some 0 else
  let (m, e) := nearest p w n d
  -- adding the significand to the shifted exponent carries a rounded-up significand over
  let stored := m + ((e - (1 - (2 ^ (w - 1) - 1))).toNat) * 2 ^ p
  if stored ≥ (2 ^ w - 1) * 2 ^ p then none else some stored

/-- The largest natural number not above the double nearest to `n / d`. -/
def floorFraction (n d : Nat) : Nat :=
  let (m, e) := nearest 52 11 n d
  if e ≤ 52 then m / 2 ^ (52 - e).toNat else m * 2 ^ (e - 52).toNat

/-- The least natural number not below the double nearest to `n / d`. -/
def ceilFraction (n d : Nat) : Nat :=
  let (m, e) := nearest 52 11 n d
  if e ≤ 52 then (m + 2 ^ (52 - e).toNat - 1) / 2 ^ (52 - e).toNat else m * 2 ^ (e - 52).toNat

/-- The double nearest to `n / d`, infinite when it is past the largest finite double. -/
def ofFraction (n d : Nat) : Float :=
  match roundFormat 52 11 n d with
  | some b => Float.ofBits (UInt64.ofNat (b + if negative then 2 ^ 63 else 0))
  | none => infinity negative

/-- The double nearest to an integer, or `none` when it would be infinite. -/
def ofInt? (n : Int) : Option Float :=
  (roundFormat 52 11 n.natAbs 1).map fun b =>
    Float.ofBits (UInt64.ofNat (b + if n < 0 then 2 ^ 63 else 0))

def ofInt (n : Int) : Float := ofFraction (n < 0) n.natAbs 1

def ofDecimal (m : Nat) (e : Int) : Float :=
  -- an exponent this large or small decides the answer whatever the digits say
  if m = 0 then zero negative
  else if e > 400 then infinity negative
  else if e < -(400 + (Nat.toDigits 10 m).length) then zero negative
  else if e ≥ 0 then ofFraction negative (m * 10 ^ e.toNat) 1
  else ofFraction negative m (10 ^ (-e).toNat)

def truncate : Int :=
  let (s, m, q) := decode x
  let n : Nat := if q ≥ 0 then m * 2 ^ q.toNat else m / 2 ^ (-q).toNat
  if s then -(n : Int) else n

def floor : Int :=
  let (s, m, q) := decode x
  if q ≥ 0 then (if s then -((m * 2 ^ q.toNat : Nat) : Int) else (m * 2 ^ q.toNat : Nat))
  else
    let d := 2 ^ (-q).toNat
    if s then -(((m + d - 1) / d : Nat) : Int) else (m / d : Nat)

def ceil : Int := -(floor (-x))

def isIntegral : Bool :=
  let (_, m, q) := decode x
  q ≥ 0 || m % 2 ^ (-q).toNat == 0

/-- The order of an integer and a finite double, compared exactly. -/
def compareInt (n : Int) (x : Float) : Ordering :=
  let (s, m, q) := decode x
  let sm : Int := if s then -(m : Int) else m
  if q ≥ 0 then compare n (sm * 2 ^ q.toNat) else compare (n * 2 ^ (-q).toNat) sm

/-- A finite double as an exact fraction: numerator and positive denominator. -/
def toFraction : Int × Nat :=
  let (s, m, q) := decode x
  let sm : Int := if s then -(m : Int) else m
  if q ≥ 0 then (sm * 2 ^ q.toNat, 1) else (sm, 2 ^ (-q).toNat)

end LazyTensor.Binary64
