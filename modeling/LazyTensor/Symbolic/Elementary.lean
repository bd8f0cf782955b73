import LazyTensor.DType.Promotion
import LazyTensor.Graph.Build

/-!
# Elementary functions from basic arithmetic

Sine, base-two exponential and logarithm, and powers, written with additions, multiplications,
comparisons and operations on the bits of floating values.  The argument is brought into a small
interval, a polynomial approximates the function there, and the result is put together again.
-/

namespace LazyTensor.Elementary

open Binary64

variable (d : DType)

def supported : Bool :=
  d.scalar == .half || d.scalar == .float || d.scalar == .double

def require : GraphM Unit := if supported d then pure () else throw (.broken "")

def byType {α : Type} (d : DType) (forDouble forFloat forHalf : α) : GraphM α :=
  match d.scalar with
  | .double => pure forDouble
  | .float => pure forFloat
  | .half => pure forHalf
  | _ => throw .missingKey

def mantissaBits : GraphM Nat := do return (← d.scalar.floatInfo?).2.toNat

def exponentBias : GraphM Int := byType d 1023 127 15

def exponentMask : GraphM Int := byType d 2047 255 31

def signedOf : GraphM DType := byType d .long .int .int16

def unsignedOf : GraphM DType := byType d .ulong .uint .uint16

def shr (x : Expr) (n : Nat) : ExprM := x.idiv (2 ^ n : Nat)

def shl (x : Expr) (n : Nat) : ExprM := x.mul (2 ^ n : Nat)

def withConst (e condition : Expr) (c : Const) : ExprM := do condition.choose (← e.constLike c) e

def signOf (e condition : Expr) : ExprM := do
  condition.choose (← e.constLike (.int (-1))) (← e.constLike (.int 1))

def mapSpecial (x inf negInf nan ratio : Expr) : ExprM := do
  let a ← x.ne (infinity false)
  let b ← x.ne x
  let c ← x.ne (infinity true)
  let inner ← c.choose ratio negInf
  let middle ← b.choose nan inner
  a.choose middle inf

variable (d : Expr)

/-- Round to the nearest integer, halves away from zero. -/
def rintk : ExprM := do
  let out ← (← signedOf d.dtype).vec? d.dtype.lanes
  let isNeg ← d.lt (0.0 : Float)
  let low ← d.constLike (.float (-0.5))
  let high ← d.constLike (.float 0.5)
  (← d.add (← isNeg.choose low high)).cast out

/-- Two to an integer power, by writing the exponent field. -/
def pow2if (q : Expr) (d : DType) : ExprM := do
  let out ← match q.dtype.scalar with
    | .long => pure DType.double
    | .int => pure DType.float
    | .int16 => pure d.scalar
    | _ => throw .missingKey
  let out ← out.vec? q.dtype.lanes
  let bias ← exponentBias out
  let bits ← mantissaBits out
  (← shl (← q.add bias) bits).bitcast out

def ilogb2k : ExprM := do
  require d.dtype
  let bits ← d.bitcast (← (← signedOf d.dtype).vec? d.dtype.lanes)
  let e ← shr bits (← mantissaBits d.dtype)
  (← e.land (← exponentMask d.dtype)).sub (← exponentBias d.dtype)

/-- A product with a power of two, by adding to the exponent field. -/
def ldexp3k (d e : Expr) : ExprM := do
  if !(supported d.dtype && supported e.dtype) then throw (.broken "")
  let t ← (← signedOf d.dtype).vec? d.dtype.count
  let a ← d.bitcast t
  let b ← shl (← e.cast t) (← mantissaBits d.dtype)
  (← (← a.add b).bitcast d.dtype).cast d.dtype

def ldexp2k (d e : Expr) : ExprM := do
  let s := e.dtype.scalar
  if !(supported d.dtype && (s == .int16 || s == .int || s == .long)) then throw (.broken "")
  let half ← pow2if (← shr e 1) d.dtype
  let x ← d.mul half
  x.mul (← pow2if (← e.sub (← shr e 1)) d.dtype)

def frexp (v : Expr) : GraphM (Expr × Expr) := do
  require v.dtype
  let keep : Int ← byType v.dtype 0x000FFFFFFFFFFFFF 0x807FFFFF 0x83FF
  let norm : Int ← byType v.dtype 0x3FE0000000000000 0x3F000000 0x3800
  let bits ← v.bitcast (← (← unsignedOf v.dtype).vec? v.dtype.count)
  let e ← (← shr bits (← mantissaBits v.dtype)).land (← exponentMask v.dtype)
  let m ← (← (← bits.land keep).lor norm).bitcast v.dtype
  return (m, ← (← e.sub (← exponentBias v.dtype)).add 1)

def twoOverPi : List Int :=
  [0x00000000, 0x28be60db, 0x9391054a, 0x7f09d5f4, 0x7d4d3770, 0x36d8a566, 0x4f10e410]

/-- The word of two over pi at position `i + offset`, by a chain of choices; `fuel` words remain. -/
def takeWord (i an : Expr) (offset : Nat) : Nat → Nat → ExprM
  | 0, _ => pure an
  | fuel + 1, count =>
    if count + offset < twoOverPi.length - 1 then do
      let differs ← i.ne count
      let deeper ← takeWord i an offset fuel (count + 1)
      differs.choose deeper (← an.constLike (.int (twoOverPi.getD (count + offset) 0)))
    else pure an

/-- The remainder of a large value modulo a quarter turn, and the number of the quarter, from the
bits of two over pi that matter at its magnitude. -/
def reduceLarge : GraphM (Expr × Expr) := do
  require d.dtype
  let mid ← if d.dtype.base.scalar == .half then liftM (DType.float.vec? d.dtype.count)
    else pure d.dtype
  let (f, e) ← frexp d
  let ia ← (← (← f.cast mid).mul (4.294967296e9 : Float)).castVec .ulong
  let i ← shr (← e.castVec .ulong) 5
  let e ← (← e.castVec .int).land 31
  let offset ← e.rsub 32
  let moved (f : Expr → Expr → ExprM) (x y : Expr) : ExprM := do
    let x ← x.castVec .ulong
    let p ← (← pow2if y d.dtype).castVec .ulong
    (← f x p).castVec .uint
  let word (k : Nat) : ExprM := do
    takeWord i (← Expr.const (← DType.uint.vec? d.dtype.count) (.int 0)) k 7 0
  let a0 ← word 0
  let a1 ← word 1
  let a2 ← word 2
  let a3 ← word 3
  let join (x y : Expr) : ExprM := do (← moved Expr.mul x e).lor (← moved Expr.idiv y offset)
  let hi ← join a0 a1
  let mi ← join a1 a2
  let lo ← join a2 a3
  let times (x y : Expr) : ExprM := do (← x.castVec .ulong).mul (← y.castVec .ulong)
  let p ← (← (← shl (← times ia hi) 32).add (← times ia mi)).add (← shr (← times ia lo) 32)
  let q ← (← shr p 62).castVec .int
  let p ← p.land 0x3fffffffffffffff
  let r ← (← (← p.cast mid).mul (3.4061215800865545e-19 : Float)).cast d.dtype
  let r' ← (← f.lt (0.5 : Float)).choose r (← r.sub (1.5707963267948966 : Float))
  let q' ← (← f.lt (0.5 : Float)).choose q (← q.add 1)
  return (r', q')

/-- Subtract multiples of pi in pieces: a product with each piece, added in turn. -/
def subtractPieces (x : Expr) (pieces : List (Expr × Float)) : ExprM :=
  pieces.foldlM (fun d (q, c) => do (← q.mul c).add d) x

def piecesSingle (x q : Expr) : ExprM :=
  subtractPieces x [(q, -3.1414794921875), (q, -0.00011315941810607910156),
    (q, -1.9841872589410058936e-09), (q, -1.2154201256553420762e-10)]

/-- The remainder of a small value modulo pi, and the number of half turns. -/
def reduceSmall : GraphM (Expr × Expr) := do
  let invPi : Float := 0.318309886183790671537767526745028724
  let scaled ← d.mul (invPi / 16777216.0)
  let qdh ← (← (← scaled.castVec .long).cast d.dtype).mul (16777216.0 : Float)
  let quadrant ← if d.dtype.base.scalar == .double then do rintk (← (← d.mul invPi).sub qdh)
    else rintk (← d.mul invPi)
  let q ← quadrant.cast d.dtype
  let r ← match d.dtype.scalar with
    | .double =>
      let a : Float := -3.1415926218032836914
      let b : Float := -3.1786509424591713469e-08
      let c : Float := -1.2246467864107188502e-16
      let r ← subtractPieces d [(qdh, a), (q, a), (qdh, b), (q, b), (qdh, c), (q, c)]
      (← (← qdh.add q).mul (-1.2736634327021899816e-24 : Float)).add r
    | .half =>
      let x ← d.castVec .float
      let q ← q.castVec .float
      (← piecesSingle x q).castVec .half
    | _ => piecesSingle d q
  return (r, ← quadrant.castVec .int)

def poly (x : Expr) (cs : List Float) : ExprM := do
  let c :: rest := cs | throw .missingMember
  let first ← (← Expr.binRev .mul (0.0 : Float) x).add c
  rest.foldlM (fun acc c => do (← acc.mul x).add c) first

def sinPoly : ExprM := do
  let x ← d.mul d
  let p ← if d.dtype.scalar == .double then
      poly x [-7.97255955009037868891952e-18, 2.81009972710863200091251e-15,
        -7.64712219118158833288484e-13, 1.60590430605664501629054e-10,
        -2.50521083763502045810755e-08, 2.75573192239198747630416e-06,
        -0.000198412698412696162806809, 0.00833333333333332974823815,
        -0.166666666666666657414808, 1.0]
    else
      poly x [2.6083159809786593541503e-06, -0.0001981069071916863322258,
        0.00833307858556509017944336, -0.166666597127914428710938, 1.0]
  d.mul p

def hasBit (q : Expr) (n : Nat) : ExprM := do (← q.land n).ne 0

def sinSmall (d q : Expr) : ExprM := do
  let r ← sinPoly d
  r.mul (← signOf r (← hasBit q 1))

def sinLarge (d q : Expr) : ExprM := do
  let odd ← hasBit q 1
  let shift ← odd.choose (← d.constLike (.float 1.5707963267948966)) (← d.constLike (.int 0))
  let r ← sinPoly (← d.add shift)
  r.mul (← signOf r (← hasBit q 2))

def finitePart : ExprM := do
  let z ← d.constLike (.float 0.0)
  mapSpecial d z z z d

/-- A sine, by a reduction of the angle and a polynomial. -/
def xsin (fast : Bool := false) (switchOver : Float := 30.0) : ExprM := do
  require d.dtype
  let x ← finitePart d
  let isZero ← x.ne 0
  let isNeg ← x.lt 0
  let sign ← signOf x isNeg
  let sign ← isZero.choose sign (← x.constLike (.int 0))
  let mag ← x.mul sign
  let r ← if fast then do
      let (r, q) ← reduceSmall mag
      sinSmall r q
    else
      let (r, q) ← reduceLarge mag
      let (rs, qs) ← reduceSmall mag
      let small ← mag.lt switchOver
      let a ← sinSmall rs qs
      small.choose a (← sinLarge r q)
  let r ← r.mul sign
  let n ← d.constLike (.float nan)
  mapSpecial d n n n r

/-- A power of two, by its integer part and a polynomial. -/
def xexp2 : ExprM := do
  require d.dtype
  let x ← finitePart d
  let q ← rintk x
  let s ← x.sub (← q.cast x.dtype)
  let u ← if d.dtype.scalar == .double then
      poly s [0.4434359082926529454e-9, 0.7073164598085707425e-8, 0.1017819260921760451e-6,
        0.1321543872511327615e-5, 0.1525273353517584730e-4, 0.1540353045101147808e-3,
        0.1333355814670499073e-2, 0.9618129107597600536e-2, 0.5550410866482046596e-1,
        0.2402265069591012214e+0, 0.6931471805599452862e+0, 0.1000000000000000000e+1]
    else
      poly s [0.1535920892e-3, 0.1339262701e-2, 0.9618384764e-2, 0.5550347269e-1,
        0.2402264476e+0, 0.6931471825e+0, 1.0]
  let u ← ldexp2k u q
  let (upper, lower) : Int × Int ← byType d.dtype (1024, -2000) (128, -150) (23, -22)
  let big ← d.ge upper
  let u ← big.choose (← d.constLike (.float (infinity false))) u
  let low ← d.lt lower
  let u ← low.choose (← d.constLike (.float 0.0)) u
  let isNan ← d.ne d
  isNan.choose (← d.constLike (.float nan)) u

/-- The base-two logarithm of a value that is not of half precision. -/
def xlog2Wide : ExprM := do
  require d.dtype
  let floor ← d.constLike (.float 1e-4)
  let tiny ← d.lt floor
  let a ← tiny.choose (← d.mul (18446744073709551616 : Nat)) d
  let e ← (← ilogb2k (← a.mul (1.0 / 0.75 : Float))).cast a.dtype
  let m ← ldexp3k a (← e.neg)
  let e ← tiny.choose (← e.sub 64) e
  let x ← (← m.sub (1.0 : Float)).fdiv (← m.add (1.0 : Float))
  let x2 ← x.mul x
  let isDouble := d.dtype.scalar == .double
  let t ← if isDouble then
      poly x2 [0.2211941750456081490e+0, 0.2200768693152277689e+0, 0.2623708057488514656e+0,
        0.3205977477944495502e+0, 0.4121985945485324709e+0, 0.5770780162997058982e+0,
        0.96179669392608091449]
    else poly x2 [0.4374550283e+0, 0.5764790177e+0, 0.9618012905120]
  let hi ← e.add (← x.mul (if isDouble then 2.885390081777926774 else 2.8853900432586669922 : Float))
  let lo ← if isDouble then e.constLike (.int 0) else x.mul (3.2734474483568488616e-08 : Float)
  let r ← (← t.mul (← x.mul x2)).add (← hi.add lo)
  let finite ← d.ne (infinity false)
  let r ← finite.choose r (← r.constLike (.float (infinity false)))
  let r ← withConst r (← d.lt (Float.neg 0.0)) (.float nan)
  let atZero : Int ← byType d.dtype (-1087) (-191) (-79)
  let r ← (← r.ne atZero).choose r (← r.constLike (.float (infinity true)))
  let r ← withConst r (← d.ne d) (.float nan)
  let fromBelow ← (← d.recip).ne (infinity true)
  fromBelow.choose r (← r.constLike (.float (infinity true)))

/-- The base-two logarithm; half precision goes through single precision. -/
def xlog2 : ExprM := do
  require d.dtype
  if d.dtype.scalar == .half then (← xlog2Wide (← d.castVec .float)).castVec .half
  else xlog2Wide d

/-- A power: of a negative base, NaN unless the exponent is an integer, and negative if it is odd. -/
def xpow (base exponent : Expr) : ExprM := do
  let isNeg ← base.lt 0
  let mag ← isNeg.choose (← base.neg) base
  let r ← (← (← mag.log2).mul exponent).exp2
  let frac ← exponent.ne (← (← exponent.castVec .int).cast exponent.dtype)
  let nan ← r.constLike (.float nan)
  let expNeg ← exponent.lt 0
  let expMag ← expNeg.choose (← exponent.neg) exponent
  let odd ← (← (← expMag.castVec .int).mod 2).castVec .bool
  let sign ← signOf r odd
  let adj ← frac.choose nan sign
  let zeros ← (← base.eq 0).land (← exponent.eq 0)
  let one ← r.constLike (.int 1)
  let factor ← (← base.lt 0).choose adj (← r.constLike (.int 1))
  zeros.choose one (← r.mul factor)

end LazyTensor.Elementary
