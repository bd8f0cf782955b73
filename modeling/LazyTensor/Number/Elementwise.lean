import LazyTensor.Graph.Op
import LazyTensor.Number.Const
import LazyTensor.Number.Narrow

/-!
# Elementwise operations on constants

What an elementwise operation computes on constants: first exactly, on integers of any size and
doubles, then brought into the range of an element type.  Integer types wrap, floating types round.
-/

namespace LazyTensor

open Binary64

namespace Const

/-- A constant brought into the range of an element type; types without values leave it alone. -/
def truncate (d : DType) (c : Const) : Result Const :=
  match d with
  | .vec s 1 =>
    if s.isInt then
      match c.int? with
      | some n =>
        let w : Int := 2 ^ s.bits
        let r := n % w
        .ok (.int (if s.isUnsigned || 2 * r < w then r else r - w))
      | none => .error .wrongType
    else
      match s with
      | .bool => .ok (.bool c.truthy)
      | .float64 => .float <$> c.toFloat?
      | .float32 => return .float (Narrow.truncateSingle (← c.toFloat?))
      | .float16 => return .float (Narrow.truncateHalf (← c.toFloat?))
      | .bfloat16 =>
        if lt (.float Narrow.maxBfloat) c.abs then do
          return .float (infinity (signBit (← c.toFloat?)))
        else do return .float (Narrow.truncateBfloat (← c.toFloat?))
      | .fp8e4m3 => return .float (Narrow.truncateFp8 (← c.toFloat?) .e4m3)
      | .fp8e5m2 => return .float (Narrow.truncateFp8 (← c.toFloat?) .e5m2)
      | _ => .ok c
  | _ => .ok c

def exp2 (c : Const) : Result Const :=
  match c.int? with
  | some n =>
    if n ≥ 0 then
      if n > 1000000 then .error (.bare .outOfMemory) else .ok (.int (2 ^ n.toNat))
    else if n < -1100 then .ok (.float 0)
    else .ok (.float (ofFraction false 1 (2 ^ (-n).toNat)))
  | none => return .float (Float.pow 2.0 (← c.toFloat?))

/-- The base-two logarithm of a positive integer, from its leading bits when it is large. -/
def log2Int (n : Int) : Float :=
  let m := n.toNat
  let k := Nat.log2 m
  if k < 1000 then Float.log2 (ofInt n)
  else Float.log2 (ofInt (m / 2 ^ (k - 63) : Nat)) + ofInt ((k - 63 : Nat) : Int)

/-- The base-two logarithm, minus infinity at zero and a NaN below. -/
def log2 (c : Const) : Result Const :=
  if lt (.int 0) c then
    match c with
    | .float x => .ok (.float x.log2)
    | c => .ok (.float (log2Int (c.int?.getD 1)))
  else if eq c (.int 0) then .ok (.float (infinity true))
  else .ok (.float nan)

/-- Powers of constants.  A negative base under a fractional exponent gives a NaN, a zero base
under a negative exponent an infinity. -/
def pow (a b : Const) : Result Const :=
  match a.int?, b.int? with
  | some n, some m =>
    if m ≥ 0 then
      if m > 1000000 && n.natAbs > 1 then .error (.bare .outOfMemory)
      else .ok (.int (n ^ m.toNat))
    else if n = 0 then .ok (.float (infinity false))
    else do return .float (Float.pow (← a.toFloat?) (← b.toFloat?))
  | _, _ => do
    let x ← a.toFloat?
    let y ← b.toFloat?
    if x == 0 && y < 0 then return .float (infinity false)
    if x < 0 && isFinite x && isFinite y && !Binary64.isIntegral y then
      return .float nan
    let r := Float.pow x y
    if !Binary64.isFinite r && !r.isNaN && isFinite x && isFinite y then
      throw .overflow
    return .float r

def sqrt (c : Const) : Result Const :=
  if le (.int 0) c then do return .float (← c.toFloat?).sqrt else .ok (.float nan)

/-- The reciprocal; of a zero, the infinity of its sign. -/
def recip (c : Const) : Result Const :=
  if eq c (.int 0) then do
    return .float (infinity (signBit (← c.toFloat?)))
  else trueDiv (.int 1) c

def sin (c : Const) : Result Const := do
  let x ← c.toFloat?
  return .float (if x.isInf then nan else x.sin)

end Const

namespace Op

open LazyTensor.Const in
/-- An elementwise operation on constants, before it is brought into a type. -/
def evalExact (o : Op) (xs : List Const) : Result Const :=
  let un (f : Const → Result Const) := match xs with
    | [a] => f a
    | _ => .error .wrongType
  let bin (f : Const → Const → Result Const) := match xs with
    | [a, b] => f a b
    | _ => .error .wrongType
  match o with
  | .log2 => un Const.log2
  | .exp2 => un Const.exp2
  | .sqrt => un Const.sqrt
  | .recip => un Const.recip
  | .sin => un Const.sin
  | .neg => un fun a => .ok a.neg
  | .pow => bin Const.pow
  | .add => bin Const.add
  | .sub => bin Const.sub
  | .mul => bin Const.mul
  | .cmpne => bin fun a b => .ok (.bool !(eq a b))
  | .cmplt => bin fun a b => .ok (.bool (lt a b))
  | .xor => bin lxor
  | .or => bin lor
  | .and => bin land
  | .shr => bin shiftRight
  | .shl => bin shiftLeft
  | .max =>
    match xs with
    | [] => .error .wrongType
    | [_] => .error .wrongType
    | a :: rest => .ok (rest.foldl Const.max a)
  | .mod => bin truncMod
  | .idiv => bin truncDiv
  | .mulacc =>
    match xs with
    | [a, b, c] => do Const.add (← Const.mul a b) c
    | _ => .error .wrongType
  | .select =>
    match xs with
    | [a, b, c] => .ok (if a.truthy then b else c)
    | _ => .error .wrongType
  | _ => .error .missingKey

/-- An elementwise operation on constants of an element type with one lane. -/
def eval (o : Op) (d : DType) (xs : List Const) : Result Const := do
  Const.truncate d (← o.evalExact xs)

end Op

/-- The value that a reduction starts from: zero for sums, one for products, and the least value of
the type for maxima. -/
def identityElement? (op : Op) (d : DType) : Result Const :=
  match op with
  | .add => (Const.int 0).ofDType? d
  | .mul => (Const.int 1).ofDType? d
  | .max => (Const.least d).ofDType? d
  | _ => .error .missingKey

end LazyTensor
