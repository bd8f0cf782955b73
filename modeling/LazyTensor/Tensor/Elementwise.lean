import LazyTensor.Tensor.Basic

/-!
# Operations on elements

Two tensors are combined element by element: first their element types meet, then both are stretched
to a common shape.  A number takes the element type of the tensor where it can.
-/

namespace LazyTensor.Tensor

/-! ### Operands -/

variable (x : Tensor)

def ofTerm (c : Const) : TensorM := do
  let isInt : Bool := match c with
    | .float _ => false
    | _ => true
  let d ← if x.dtype.isImage || x.dtype.isFloat || (x.dtype.isInt && isInt) then pure x.dtype
    else typeOf c
  let c ← c.ofDType? d
  ofConst c (← x.beside (some d))

def stretched (x y : Tensor) : SessionM (Tensor × Tensor) := do
  let shape ← Shape.broadcast [← x.shape, ← y.shape]
  return (← x.broadcastTo shape, ← y.broadcastTo shape)

def meet (x y : Tensor) : SessionM (Tensor × Tensor) := do
  if x.dtype = y.dtype then return (x, y)
  let d ← DType.meet? [x.dtype, y.dtype]
  return (← x.cast d, ← y.cast d)

def combine (x y : Tensor) (op : Op) : TensorM := do
  let (x, y) ← x.meet y
  let (x, y) ← x.stretched y
  x.apply2 y fun a b => a.alu op [b]

/-- A symbolic number as a tensor: a bound variable, a constant, or sums and products of them.  The
device is for a single variable or constant only. -/
def ofSymbol (e : Expr) (w : Wish := {}) : TensorM := do
  match e with
  | .mk number op d src arg tag =>
    match op, src.attach, arg with
    | .bind, _, _ =>
      ofNode (.mk number op d src arg tag) { w with tracked := some false }
    | .const, _, .const c => ofConst c { w with tracked := some false }
    | .mul, ⟨a, _⟩ :: ⟨b, _⟩ :: _, _ =>
      let x ← ofSymbol a
      x.combine (← ofSymbol b) .mul
    | .add, ⟨a, _⟩ :: ⟨b, _⟩ :: _, _ =>
      let x ← ofSymbol a
      x.combine (← ofSymbol b) .add
    | _, _, _ => throw (.misused "unhandled UOp UOp(")
termination_by e

def operand (y : Term) : TensorM := do
  match y with
  | .tensor t => return t
  | .number c => x.ofTerm c
  | .symbol e => ofSymbol e { device := some (← x.device) }
  | .unusable _ => throw (.bare .brokenContract)

/-- Both operands, with a common element type and shape; `reverse` exchanges them. -/
def matched (y : Term) (reverse : Bool := false) : SessionM (Tensor × Tensor) := do
  let y ← x.operand y
  let (x, y) ← x.meet y
  if reverse then y.stretched x else x.stretched y

def aligned (y : Term) : SessionM (Tensor × Tensor) := do
  x.stretched (← x.operand y)

def binary (op : Op) (x : Tensor) (y : Term) (reverse : Bool := false) : TensorM := do
  let (a, b) ← x.matched y reverse
  a.apply2 b fun a b => a.alu op [b]

/-! ### Arithmetic -/

section Arithmetic

variable (y : Term) (reverse : Bool := false)

def add : TensorM := x.binary .add y reverse

def mul : TensorM := x.binary .mul y reverse

def idiv : TensorM := x.binary .idiv y reverse

def lnot : TensorM := do (← x.cast .bool).binary .cmpne true

def neg : TensorM :=
  if x.dtype = .bool then x.lnot else x.mul (-1 : Int)

def sub : TensorM := do
  let (a, b) ← x.matched y reverse
  a.add (← b.neg)

def lt : TensorM := x.binary .cmplt y

def gt : TensorM := x.binary .cmplt y true

def ge : TensorM := do (← x.lt y).lnot

def le : TensorM := do (← x.gt y).lnot

def ne : TensorM := x.binary .cmpne y

def eq : TensorM := do (← x.ne y).lnot

def maximum : TensorM := x.binary .max y

def needBits : SessionM Unit :=
  if x.dtype = .bool || x.dtype.isInt then pure ()
  else throw (.misused s!"{x.dtype.text} is not supported")

def bitwise (f : Expr → Expr → ExprM) : TensorM := do
  x.needBits
  let (a, b) ← x.matched y reverse
  a.apply2 b f

def lxor : TensorM := x.bitwise y reverse Expr.lxor

def land : TensorM := x.bitwise y reverse Expr.land

def lor : TensorM := x.bitwise y reverse Expr.lor

def complement : TensorM := do
  x.needBits
  if x.dtype = .bool then x.lnot else x.lxor (-1 : Int)

def inverse : TensorM :=
  if x.dtype.isFloat then x.neg else if x.dtype.isInt then x.complement else x.lnot

def minimum : TensorM := do
  let (a, b) ← x.matched y
  (← (← a.inverse).maximum (← b.inverse)).inverse

def shiftBy (y : Term) (reverse : Bool) : SessionM Nat := do
  let shown := match y with
    | .number c => c.text
    | .tensor _ => "<Ops"
    | .symbol _ => "UOp("
    | .unusable s => s
  if let .number c := y then
    if let some n := c.int? then
      if x.dtype.isUnsigned && n ≥ 0 && !reverse then return n.toNat
  throw (.broken s!"not supported self.dtype={x.dtype.text} x={shown}")

def shl : TensorM := do
  let n ← x.shiftBy y reverse
  x.mul (.number (.int (2 ^ n))) reverse

def shr : TensorM := do
  let n ← x.shiftBy y reverse
  x.idiv (.number (.int (2 ^ n))) reverse

/-- One of two, element by element. -/
def choose (c : Tensor) (x y : Term) : TensorM := do
  let (x, y) ← match x, y with
    | .tensor a, y =>
      let (a, b) ← a.matched y
      pure (Term.tensor a, Term.tensor b)
    | x, .tensor b =>
      let (b, a) ← b.matched x
      pure (Term.tensor a, Term.tensor b)
    | x, y => pure (x, y)
  let (c, x) ← c.aligned x
  let (c, y) ← c.aligned y
  let c ← c.cast .bool
  let (x, y) ← x.matched y
  apply [c, x, y] fun es => match es with
    | [c, x, y] => c.alu .select [x, y]
    | _ => throw .wrongType

/-! ### Functions of one tensor -/

def floating (op : Op) (x : Tensor) : TensorM := do
  (← x.cast (← floatOf x.dtype)).apply1 fun e => e.alu op

def log2 : TensorM := x.floating .log2

def exp2 : TensorM := x.floating .exp2

def sqrt : TensorM := x.floating .sqrt

def sin : TensorM := x.floating .sin

def reciprocal : TensorM := x.floating .recip

def trunc : TensorM := do (← x.cast .int).cast x.dtype

def ceil : TensorM := do
  let b ← x.trunc
  (← x.gt b).choose (← b.add 1) b

def floor : TensorM := do
  let b ← x.trunc
  (← x.lt b).choose (← b.sub 1) b

inductive Rounding where
  | none
  | trunc
  | floor
  | other (shown : String)
  deriving DecidableEq, Repr

/-- A quotient, rounded as asked. -/
def div (rounding : Rounding := .none) : TensorM := do
  let (a, b) ← x.matched y reverse
  let d ← (← a.cast (← floatOf a.dtype)).mul (← (← b.cast (← floatOf b.dtype)).reciprocal)
  let result := if a.dtype.isInt then a.dtype else d.dtype
  let common ← DType.meet? [a.dtype, b.dtype]
  if common.isInt && rounding ≠ .none then
    let a ← a.cast common
    let b ← b.cast common
    match rounding with
    | .trunc => return ← a.idiv b
    | .floor =>
      let quotient ← a.idiv b
      let rest ← a.binary .mod b
      let apart ← (← (← a.gt 0).land (← b.lt 0)).lor (← (← a.lt 0).land (← b.gt 0))
      return ← (← apart.land (← rest.ne 0)).choose (← quotient.sub 1) quotient
    | _ => pure ()
  match rounding with
  | .trunc => (← d.trunc).cast result
  | .floor => (← d.floor).cast result
  | .other s => throw (.misused s!"rounding_mode={s} is not supported")
  | .none => return d

def mod : TensorM := do
  let (a, b) ← x.matched y reverse
  a.sub (← (← a.div b false .floor).mul b)

def round : TensorM := do
  let positive ← x.gt 0
  let b ← (← x.cast .int).div 2.0
  let even ← (← b.cast .int).eq b
  (← positive.eq even).choose (← (← x.sub 0.5).ceil) (← (← x.add 0.5).floor)

def pow : TensorM := do
  let (a, b) ← x.matched y reverse
  if !a.dtype.isFloat then throw (.misused "base needs to be float")
  let r ← a.apply2 b fun a b => a.alu .pow [b]
  if !reverse && !x.dtype.isFloat then (← r.round).cast x.dtype else return r

end Arithmetic

def log : TensorM := do (← x.log2).mul 0.6931471805599453

def exp : TensorM := do (← x.mul 1.4426950408889634).exp2

def rsqrt : TensorM := do (← x.sqrt).reciprocal

def cos : TensorM := do (← x.sub 1.5707963267948966 true).sin

def tan : TensorM := do (← x.sin).div (← x.cos)

def square : TensorM := x.mul x

def polynomial (coefficients : List Float) : TensorM := do
  match coefficients with
  | [] => ofConst (.float 0)
  | c :: cs =>
    let start ← (← x.mul 0.0 true).add c
    cs.foldlM (fun acc (c : Float) => do (← acc.mul x).add c) start

/-! ### Tensors of one value -/

def full (shape : List Dim) (value : Const) (w : Wish := {}) : TensorM := do
  (← (← ofConst value w).reshape (shape.map fun _ => 1)).expand shape

def zeros (shape : List Dim) (w : Wish := {}) : TensorM := full shape (.float 0) w

def ones (shape : List Dim) (w : Wish := {}) : TensorM := full shape (.float 1) w

def fullLike (t : Tensor) (value : Const) (w : Wish := {}) : TensorM := do
  let device ← match w.device with
    | some d => pure d
    | none => t.device
  full (← t.shape) value
    { device := some device, dtype := some (w.dtype.getD t.dtype), tracked := w.tracked }

def onesLike (t : Tensor) (w : Wish := {}) : TensorM := t.fullLike (.int 1) w

def zerosLike (t : Tensor) (w : Wish := {}) : TensorM := t.fullLike (.int 0) w

/-! ### Signs and special values -/

def sign : TensorM := do
  let unequal ← x.ne 0
  let negative ← x.lt 0
  let side ← negative.choose (← x.fullLike (.int (-1))) (← x.fullLike (.int 1))
  (← unequal.choose side (← x.fullLike (.int 0))).add (← x.mul 0)

def abs : TensorM := do x.mul (← x.sign)

def isInf (positive negative : Term := true) : TensorM := do
  let up ← (← x.eq (Binary64.infinity false)).mul positive
  let down ← (← x.eq (Binary64.infinity true)).mul negative
  up.add down

def isNan : TensorM := x.ne x

def isFinite : TensorM := do (← (← x.isInf).lor (← x.isNan)).lnot

def isClose (x y : Tensor) (relative absolute : Const) (nanEqual : Term) : TensorM := do
  let bound ← (← (← y.abs).mul relative true).add absolute true
  let near ← (← (← x.isFinite).land (← y.isFinite)).land (← (← (← x.sub y).abs).le bound)
  let far ← (← (← x.isInf).lor (← y.isInf)).land (← x.eq y)
  let none' ← (← (← x.isNan).land (← y.isNan)).land nanEqual
  (← near.lor far).lor none'

def clamp (lo hi : Option Term) : TensorM := do
  if lo.isNone && hi.isNone then
    throw (.misused "at least one of 'min_' or 'max_' must not be None")
  let r ← match lo with
    | some l => x.maximum l
    | none => pure x
  let some h := hi | return r
  r.minimum h

def copySign (y : Term) : TensorM := do
  let (_, y) ← x.matched y
  (← (← y.lt 0).choose (← (← x.abs).neg) (← x.abs)).add (← y.mul 0)

def lerp (x y : Tensor) (weight : Term) : TensorM := do
  match weight with
  | .tensor w =>
    if x.dtype = .uint8 then
      let w ← (← (← w.mul 128).add 0.5).cast .int16
      let step ← (← (← (← y.sub x).cast .int8).mul w).add 64
      return ← (← x.add (← (← step.cast .uint16).shr 7)).cast .uint8
    x.add (← (← y.sub x).mul weight)
  | _ => x.add (← (← y.sub x).mul weight)

/-! ### Inverse trigonometric and hyperbolic functions -/

def asin : TensorM := do
  let coefficients := [-0.0012624911, 0.0066700901, -0.0170881256, 0.0308918810, -0.0501743046,
    0.0889789874, -0.2145988016, 1.5707963050]
  let root ← (← (← x.abs).sub 1.0 true).sqrt
  let y ← (← root.mul (← polynomial (← x.abs) coefficients)).sub 1.5707963267948966 true
  (← x.sign).mul y

def acos : TensorM := do (← x.asin).sub 1.5707963267948966 true

def atan : TensorM := do
  (← x.div (← (← (← x.mul x).add 1 true).sqrt)).asin

def sigmoid : TensorM := do
  (← (← (← x.mul (-1.4426950408889634 : Float)).exp2).add 1 true).reciprocal

def tanh : TensorM := do
  (← (← (← x.mul 2.0 true).sigmoid).mul 2.0 true).sub 1.0

def sinh : TensorM := do (← (← x.exp).sub (← (← x.neg).exp)).div 2

def cosh : TensorM := do (← (← x.exp).add (← (← x.neg).exp)).div 2

def atanh : TensorM := do
  (← (← (← x.add 1 true).div (← x.sub 1 true)).log).div 2

def asinh : TensorM := do
  (← x.add (← (← (← x.square).add 1).sqrt)).log

def acosh : TensorM := do
  (← x.add (← (← (← x.square).sub 1).sqrt)).log

def erf : TensorM := do
  let t ← (← (← (← x.abs).mul 0.3275911 true).add 1.0 true).div 1.0 true
  let p ← polynomial t [1.061405429, -1.453152027, 1.421413741, -0.284496736, 0.254829592]
  let tail ← (← t.mul p).mul (← (← (← x.square).neg).exp)
  (← x.sign).mul (← tail.sub 1.0 true)

/-! ### Activations -/

def relu : TensorM := do (← x.gt 0).choose x 0

def hardSigmoid (alpha beta : Const) : TensorM := do
  let high ← (← (← x.mul alpha true).add beta).relu
  let low ← (← (← (← x.mul alpha true).add beta).sub 1).relu
  high.sub low

def elu (alpha : Const) : TensorM := do
  (← x.relu).sub (← (← (← (← x.exp).sub 1 true).relu).mul alpha true)

def celu (alpha : Const) : TensorM := do
  let tail ← (← (← (← x.div alpha).exp).sub 1).mul alpha true
  (← x.maximum 0).add (← tail.minimum 0)

def selu (alpha gamma : Const) : TensorM := do
  let inside ← (← x.ge 0).detach
  (← inside.choose x (← (← (← x.exp).sub 1).mul alpha true)).mul gamma true

def swish : TensorM := do x.mul (← x.sigmoid)

def relu6 : TensorM := do (← x.relu).sub (← (← x.sub 6).relu)

def hardSwish : TensorM := do
  (← x.mul (← (← x.add 3).relu6)).mul 0.16666666666666666

/-- The elements times the distribution function of the normal distribution, nearly. -/
def gelu : TensorM := do
  let half ← x.mul 0.5 true
  let cube ← (← x.pow 3).mul 0.044715 true
  let inner ← (← (← x.add cube).mul 0.7978845608028654 true).tanh
  half.mul (← inner.add 1 true)

def quickGelu : TensorM := do x.mul (← (← x.mul 1.702).sigmoid)

def leakyRelu (slope : Const) : TensorM := do
  (← x.lt 0).choose (← x.mul slope true) x

def softplus (beta : Const) : TensorM := do
  let scale ← Const.trueDiv (.int 1) beta
  (← (← (← (← x.mul beta).exp).add 1 true).log).mul scale true

/-- The elements times the hyperbolic tangent of their smooth positive part. -/
def mish : TensorM := do x.mul (← (← x.softplus (.int 1)).tanh)

def softsign : TensorM := do x.div (← (← x.abs).add 1 true)

end LazyTensor.Tensor
