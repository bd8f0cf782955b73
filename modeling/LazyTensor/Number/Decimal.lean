import LazyTensor.Number.Binary64

/-!
# Decimal text of doubles

The shortest decimal that reads back as a given double, and the decimal with a fixed number of
places.  Both are found in exact arithmetic on naturals.
-/

namespace LazyTensor.Decimal

open Binary64

/--
A positive value `n / d`, with the open or closed interval of decimals that read back as it, given
as fractions over one denominator.
-/
structure Target where
  value : Nat
  low : Nat
  high : Nat
  den : Nat
  closed : Bool

/-- The interval of reals that round to a positive finite double. -/
def Target.ofFloat (x : Float) : Target :=
  let (_, m, q) := decode x
  let (_, e, f) := fields x
  -- below a power of two the neighbour is half as far away
  let tight := f = 0 && e > 1
  -- work in quarters of a unit in the last place
  let scaleN : Nat := if q ≥ 2 then 2 ^ (q - 2).toNat else 1
  let scaleD : Nat := if q ≥ 2 then 1 else 2 ^ (2 - q).toNat
  { value := 4 * m * scaleN
    low := (if tight then 4 * m - 1 else 4 * m - 2) * scaleN
    high := (4 * m + 2) * scaleN
    den := scaleD
    closed := m % 2 = 0 }

def Target.contains (t : Target) (n : Nat) (e : Int) : Bool :=
  let (a, d) := if e ≥ 0 then (n * 10 ^ e.toNat, 1) else (n, 10 ^ (-e).toNat)
  let v := a * t.den
  if t.closed then t.low * d ≤ v && v ≤ t.high * d else t.low * d < v && v < t.high * d

/-- The number of decimal digits before the point of `n / d`, counted so that it is the exponent
`k` with `10^(k-1) ≤ n/d < 10^k`. -/
def magnitude (n d : Nat) : Int :=
  let rec up (fuel : Nat) (k : Nat) (p : Nat) : Nat :=
    match fuel with
    | 0 => k
    | fuel + 1 => if n < d * p then k else up fuel (k + 1) (p * 10)
  let rec down (fuel : Nat) (k : Nat) (p : Nat) : Nat :=
    match fuel with
    | 0 => k
    | fuel + 1 => if n * p * 10 ≥ d then k else down fuel (k + 1) (p * 10)
  if n ≥ d then (up 400 1 10 : Int) else -(down 400 0 1 : Int)

/-- Digits `n` and exponent `e` of the shortest decimal `n · 10^e` that reads back as the positive
finite double; of two of that length the nearer one. -/
def shortest (x : Float) : Nat × Int :=
  let t := Target.ofFloat x
  let k := magnitude t.value t.den
  let rec go (fuel len : Nat) : Nat × Int :=
    let e : Int := k - len
    -- the grid point at or below the value
    let (a, d) := if e ≥ 0 then (t.value, t.den * 10 ^ e.toNat) else (t.value * 10 ^ (-e).toNat, t.den)
    let lo := a / d
    match fuel with
    | 0 => (roundDiv a d, e)
    | fuel + 1 =>
      let r := a % d
      let okLo := lo > 0 && t.contains lo e
      let okHi := t.contains (lo + 1) e
      if okLo && okHi then
        if 2 * r < d then (lo, e)
        else if 2 * r > d then (lo + 1, e)
        else if lo % 2 = 0 then (lo, e) else (lo + 1, e)
      else if okLo then (lo, e)
      else if okHi then (lo + 1, e)
      else go fuel (len + 1)
  go 17 1

/-- Digits without trailing zeros, with the exponent that keeps the value. -/
def strip (fuel : Nat) (n : Nat) (e : Int) : Nat × Int :=
  match fuel with
  | 0 => (n, e)
  | fuel + 1 => if n ≠ 0 && n % 10 = 0 then strip fuel (n / 10) (e + 1) else (n, e)

def rep (c : Char) (n : Nat) : String := String.ofList (List.replicate n c)

def exponent (ex : Int) : String :=
  let mag := toString ex.natAbs
  "e" ++ (if ex < 0 then "-" else "+") ++ (if mag.length < 2 then "0" ++ mag else mag)

/-- The text of a finite positive double from its shortest digits. -/
def positiveText (x : Float) : String :=
  let (n, e) := shortest x
  let (n, e) := strip 20 n e
  let digits := toString n
  let len : Int := digits.length
  let point := len + e
  if point > 16 || point < -3 then
    let head := digits.take 1
    let rest := digits.drop 1
    let mant := if rest.isEmpty then head.toString else head.toString ++ "." ++ rest.toString
    mant ++ exponent (point - 1)
  else if point ≤ 0 then "0." ++ rep '0' (-point).toNat ++ digits
  else if e ≥ 0 then digits ++ rep '0' e.toNat ++ ".0"
  else (digits.take point.toNat).toString ++ "." ++ (digits.drop point.toNat).toString

/-- The text of any double, from the text of a finite one after its sign. -/
def signed (x : Float) (f : String → String) : String :=
  if x.isNaN then "nan"
  else if !isFinite x then (if signBit x then "-inf" else "inf")
  else f (if signBit x then "-" else "")

/-- The shortest decimal text of a double: positional from `1e-4` to `1e16`, else scientific. -/
def text (x : Float) : String :=
  signed x fun s => if x == 0 then s ++ "0.0" else s ++ positiveText x.abs

def padZeros (w n : Nat) : String :=
  let s := toString n
  rep '0' (w - s.length) ++ s

/-- The text of `n / d` with `places` digits after the point; a tie goes to the even digit. -/
def fixedFraction (places : Nat) (negative : Bool) (n d : Nat) : String :=
  let v := roundDiv (n * 10 ^ places) d
  let s := padZeros (places + 1) v
  let whole := (s.take (s.length - places)).toString
  let frac := (s.drop (s.length - places)).toString
  (if negative then "-" else "") ++ whole ++ (if places = 0 then "" else "." ++ frac)

def fixed (places : Nat) (x : Float) : String :=
  signed x fun _ =>
    let (n, d) := toFraction x.abs
    fixedFraction places (signBit x) n.natAbs d

/-- The text of a double with so many significant digits and no zeros after the last of them that
counts: positional from `1e-4` as long as the digits reach the point, else scientific. -/
def general (digits : Nat) (x : Float) : String :=
  signed x fun sign =>
    if x == 0 then sign ++ "0"
    else
      let (n, d) := toFraction x.abs
      let n := n.natAbs
      let k := magnitude n d
      let e : Int := k - digits
      let (a, b) := if e ≥ 0 then (n, d * 10 ^ e.toNat) else (n * 10 ^ (-e).toNat, d)
      let v := roundDiv a b
      -- rounding up may give one digit more
      let point := if (toString v).length > digits then k + 1 else k
      let ds := toString (strip 400 v 0).1
      let len : Int := ds.length
      if point - 1 < -4 || point - 1 ≥ digits then
        sign ++ (ds.take 1).toString ++ (if len > 1 then "." ++ (ds.drop 1).toString else "")
          ++ exponent (point - 1)
      else if point ≤ 0 then sign ++ "0." ++ rep '0' (-point).toNat ++ ds
      else if len ≤ point then sign ++ ds ++ rep '0' (point - len).toNat
      else sign ++ (ds.take point.toNat).toString ++ "." ++ (ds.drop point.toNat).toString

def padLeft (w : Nat) (s : String) : String := rep ' ' (w - s.length) ++ s

def padRight (w : Nat) (s : String) : String := s ++ rep ' ' (w - s.length)

def readDigits (cs : List Char) : Nat × Nat × List Char :=
  let ds := cs.takeWhile Char.isDigit
  (ds.foldl (fun a c => a * 10 + (c.toNat - '0'.toNat)) 0, ds.length, cs.dropWhile Char.isDigit)

def readSign : List Char → Bool × List Char
  | '-' :: r => (true, r)
  | '+' :: r => (false, r)
  | r => (false, r)

/-- Read a decimal with an optional fraction and exponent, as an integer and a power of ten; the
whole text must be used. -/
def scientific? (cs : List Char) : Option (Nat × Int) :=
  let (a, na, cs) := readDigits cs
  let (b, nb, cs) := match cs with
    | '.' :: r => readDigits r
    | r => (0, 0, r)
  let number (e : Int) : Nat × Int := (a * 10 ^ nb + b, e - nb)
  if na + nb = 0 then none else
  match cs with
  | [] => some (number 0)
  | c :: r =>
    let (less, r) := readSign r
    let (e, ne, r) := readDigits r
    if (c = 'e' || c = 'E') && ne ≠ 0 && r.isEmpty then some (number (if less then -e else e))
    else none

def parse? (s : String) : Option Float :=
  let (neg, cs) := readSign s.toList
  let low := String.ofList (cs.map Char.toLower)
  if low = "inf" || low = "infinity" then some (infinity neg)
  else if low = "nan" then some nan
  else (scientific? cs).map fun (m, e) => ofDecimal neg m e

end LazyTensor.Decimal

namespace LazyTensor

/-- A number with finitely many decimal places, added and subtracted without rounding. -/
structure Exact where
  digits : Int
  places : Nat := 0
  deriving DecidableEq

namespace Exact

def scaled (x : Exact) (places : Nat) : Int := x.digits * 10 ^ (places - x.places)

def add (x y : Exact) : Exact :=
  let p := max x.places y.places
  ⟨x.scaled p + y.scaled p, p⟩

def sub (x y : Exact) : Exact :=
  let p := max x.places y.places
  ⟨x.scaled p - y.scaled p, p⟩

instance : Add Exact := ⟨add⟩
instance : Sub Exact := ⟨sub⟩

def isZero (x : Exact) : Bool := x.digits = 0

def truncate (x : Exact) : Int := x.digits.tdiv (10 ^ x.places)

def toFloat (x : Exact) : Float :=
  Binary64.ofFraction (x.digits < 0) x.digits.natAbs (10 ^ x.places)

def parse? (s : String) : Option Exact :=
  let (neg, cs) := Decimal.readSign s.toList
  (Decimal.scientific? cs).map fun (m, e) =>
    ⟨(if neg then -(m : Int) else m) * 10 ^ e.toNat, (-e).toNat⟩

end Exact

end LazyTensor
