import LazyTensor.DType.Basic

/-!
# Narrow floating formats

Half precision, bfloat16 and the two eight-bit formats, as bit patterns and as roundings of
doubles.  Half rounds to nearest, bfloat16 drops the low bits, and the eight-bit formats round to
nearest and stop at their largest finite value.
-/

namespace LazyTensor.Narrow

open Binary64

variable (x : Float)

/-- The bits of the nearest half, or `none` past the largest finite one. -/
def halfBits? : Option Nat :=
  let sign := if signBit x then 2 ^ 15 else 0
  if x.isNaN then some (0x7E00 + sign)
  else if !isFinite x then some (0x7C00 + sign)
  else
    let (n, d) := toFraction x
    (roundFormat 10 5 n.natAbs d).map (· + sign)

/-- The value of a binary format with `p` fraction bits and `w` exponent bits. -/
def ofFormat (p w : Nat) (b : Nat) : Float :=
  let neg := b / 2 ^ (p + w) % 2 = 1
  let e := b / 2 ^ p % 2 ^ w
  let f := b % 2 ^ p
  let bias : Int := 2 ^ (w - 1) - 1
  if e = 2 ^ w - 1 then (if f = 0 then infinity neg else nan)
  else
    let m := if e = 0 then f else f + 2 ^ p
    let q : Int := (if e = 0 then 1 else (e : Int)) - bias - p
    if q ≥ 0 then ofFraction neg (m * 2 ^ q.toNat) 1 else ofFraction neg m (2 ^ (-q).toNat)

def ofHalfBits (b : Nat) : Float := ofFormat 10 5 b

/-- The nearest half, infinite past the largest finite one. -/
def truncateHalf : Float :=
  match halfBits? x with
  | some b => ofHalfBits b
  | none => infinity (signBit x)

def singleBits : Nat := x.toFloat32.toBits.toNat

def ofSingleBits (b : Nat) : Float := (Float32.ofBits (UInt32.ofNat b)).toFloat

def truncateSingle : Float := x.toFloat32.toFloat

def maxBfloat : Float := ofSingleBits 0x7F7F0000

/-- The nearest single with its low sixteen bits dropped, infinite past the largest finite one. -/
def truncateBfloat : Float :=
  if x.abs > maxBfloat then infinity (signBit x)
  else ofSingleBits (singleBits x / 2 ^ 16 * 2 ^ 16)

/-- The parameters of an eight-bit format; bounds are the bits of doubles. -/
structure Fp8 where
  bias : Int
  significand : Nat
  mask : Nat
  halfLeast : Nat
  overflow : Nat
  greatest : Nat
  leastNormal : Nat
  nan : Nat

/-- Four exponent bits, three fraction bits, no infinity. -/
def Fp8.e4m3 : Fp8 :=
  ⟨7, 4, 0x7, 0x3F50000000000000, 0x407D000000000000, 0x7E, 0x3F90000000000000, 0x7F⟩

def Fp8.e5m2 : Fp8 :=
  ⟨15, 3, 0x3, 0x3EE0000000000000, 0x40EE000000000000 - 1, 0x7B, 0x3F10000000000000, 0x7E⟩

/-- The code `r`, or the next one if the rest left out is past the half, or is the half and `n` is
odd. -/
def rounded (r n rest half : Nat) : Nat :=
  if rest > half ∨ (rest = half ∧ n % 2 = 1) then r + 1 else r

namespace Fp8

variable (c : Fp8) (b : Nat)

def exponent : Int := (b / 2 ^ 52 % 2 ^ 11 : Nat) - 1023 + c.bias

def fraction : Nat := b / 2 ^ (53 - c.significand) % (c.mask + 1)

def halfUlp : Nat := 2 ^ (53 - c.significand - 1)

def normal : Nat :=
  rounded (Nat.lor ((c.exponent b).toNat * 2 ^ (c.significand - 1)) (c.fraction b)) (c.fraction b)
    (b % (2 * c.halfUlp)) c.halfUlp

/-- The code of a number too small for a leading one, which is put among the fraction bits. -/
def subnormal : Nat :=
  let shift := (1 - c.exponent b).toNat
  let r := Nat.lor (c.fraction b) (2 ^ (c.significand - 1)) / 2 ^ shift
  rounded r r (Nat.lor b (2 ^ 52) % (c.halfUlp * 2 ^ (shift + 1))) (c.halfUlp * 2 ^ shift)

/-- The code without a sign for the bits of a number. -/
def code : Nat :=
  let size := b % 2 ^ 63
  if size ≤ c.halfLeast then 0
  else if size > c.overflow then c.greatest
  else if size ≥ c.leastNormal then c.normal b else c.subnormal b

end Fp8

/-- The eight bits nearest to a double, ties to even, stopping at the largest finite value. -/
def toFp8 (c : Fp8) (x : Float) : Nat :=
  let b := x.toBits.toNat
  let res :=
    if b % 2 ^ 63 > 0x7FF0000000000000 then Nat.lor c.nan (c.fraction b) else c.code b
  Nat.lor res (b / 2 ^ 63 % 2 * 128)

/-- Move a small fraction up until its leading bit is in place. -/
def normalize (fuel : Nat) (mant exponent : Nat) : Nat × Nat :=
  match fuel with
  | 0 => (mant, exponent)
  | fuel + 1 =>
    if mant / 0x400 % 2 = 0 then normalize fuel (mant * 2) (exponent - 0x400) else (mant, exponent)

/-- The value of eight bits; `none` when the number does not fit sixteen bits. -/
def ofFp8 (c : Fp8) (x : Nat) : Option Float :=
  let ur := x * 256
  let ur :=
    -- with five exponent bits, the bits begin a half
    if c.significand = 3 then (if ur % 0x8000 > 0x7C00 then 0x7FFF else ur)
    else
      let sign := Nat.land ur 0x8000
      let exponent := Nat.land ur 0x7800 / 2 + 0x2000
      let mant := Nat.land ur 0x0700 / 2
      if x % 128 = 0x7F then 0x7FFF
      else if exponent = 0x2000 then
        if mant ≠ 0 then
          let (m, e) := normalize 16 (mant * 2) exponent
          Nat.lor (Nat.lor sign e) (m % 0x400)
        else sign
      else Nat.lor (Nat.lor sign exponent) mant
  if ur < 2 ^ 16 then some (ofHalfBits ur) else none

def truncateFp8 (c : Fp8) : Float := (ofFp8 c (toFp8 c x)).getD 0

end LazyTensor.Narrow
