import LazyTensor.Tensor.Bits
import LazyTensor.Tensor.Lookup

/-!
# Random tensors

Random bits come from a counter that is enciphered under a key, one key and one counter for every
device.  The bits become the fraction of numbers between one and two, and one is subtracted.
-/

namespace LazyTensor.Tensor

def seed (c : Const) : SessionM Unit := modify fun s => { s with seed := c, generators := [] }

def generatorKey (n : Nat) : Int :=
  let bytes := #[UInt8.ofNat (n / 2 ^ 24), UInt8.ofNat (n / 2 ^ 16), UInt8.ofNat (n / 2 ^ 8),
    UInt8.ofNat n]
  ((Sha256.digest ⟨bytes⟩).foldl (fun a b => a * 256 + b.toNat) 0 : Nat)

/-- The key of the generator of a device and its counter, after it was moved on by so many. -/
def advance (device : String) (count : Int) : SessionM (Tensor × Tensor) := do
  let s ← get
  match s.generators.find? (·.1 = device) with
  | some (_, key, counter) =>
    let c ← atPlace counter
    let _ ← c.assign (← c.add count)
    return (← atPlace key, ← atPlace counter)
  | none =>
    let w : Wish := { device := some (.text device), dtype := some .uint, tracked := some false }
    let leaf (n : Int) : Nested := .leaf (.int n)
    let key ← new (.nested (.list [leaf (generatorKey s.generators.length), .leaf s.seed])) w
    let key ← key.keep
    let counter ← (← new (.nested (.list [leaf count])) w).keep
    let entry := (device, ← key.placeOf, ← counter.placeOf)
    modify fun s => { s with generators := s.generators ++ [entry] }
    return (key, counter)

def randomBits (key low high : Tensor) : TensorM := do
  let x ← (← (← high.cast .ulong).shl 32).lor (← low.cast .ulong)
  let shape ← x.shape
  let part (i : Int) : TensorM := do
    (← (← key.index [.position (.int i)]).broadcastTo shape).cast .ulong
  let k ← (← (← part 1).shl 32).lor (← part 0)
  let x ← x.apply2 k fun a b => a.alu .threefry [b]
  let mask : Term := .number (.int 0xffffffff)
  let low ← (← x.land mask).cast .uint
  let high ← (← (← x.shr 32).land mask).cast .uint
  cat [low, high]

/-- Numbers from zero to one, from the generator of the device. -/
def rand (shape : List Dim) (w : Wish := {}) (contiguous : Bool := true) : TensorM := do
  let d := w.dtype.getD (← get).defaultFloat
  if !d.isFloat then throw (.invalid s!"rand only supports float dtypes, got {d.text}")
  let ns ← ((Dim.ints? shape).filter fun ns => ns.all (· ≥ 0)).getDM
      (throw (.invalid s!"invalid input shape={Dim.shapeText shape}"))
  match w.device with
  | none | some .none | some (.text _) => pure ()
  | some d => throw (.invalid s!"rand only supports single device, got device={d.literal}")
  let device ← Device.resolve w.device
  let name ← match device with
    | .text s => pure s
    | _ => throw .wrongType
  let total := ns.foldl (· * ·) 1
  if total = 0 then
    return ← zeros shape { device := some device, dtype := some d, tracked := w.tracked }
  let up (a b : Int) : Int := -(Int.fdiv a (-b))
  let count := up (total * d.itemsize) 4
  let (key, counter) ← advance name count
  let before ← counter.sub count
  let half := up count 2
  let low ← (← arange (.int 0) (.int half) (.int 1)
    { device := some device, dtype := some .uint, tracked := some false }).add before
  let high ← low.add half
  let bits ← (← randomBits key low high).index [Index.upTo count]
  let (_, fraction) ← d.floatInfo?
  let word ← match d.itemsize with
    | 1 => pure DType.uint8
    | 2 => pure DType.uint16
    | 4 => pure DType.uint
    | 8 => pure DType.ulong
    | _ => throw .missingKey
  let bits ← bits.bitcast word
  let one ← (← bits.onesLike (← bits.beside (some d) none)).bitcast word
  let bits ← (← bits.shr (.number (.int (d.itemsize * 8 - fraction)))).lor one
  let out ← (← (← (← bits.bitcast d).index [Index.upTo total]).sub 1).reshape shape
  let out ← out.withTracked w.tracked
  if contiguous then out.contiguous else return out

def randLike (t : Tensor) (w : Wish := {}) (contiguous : Bool := true) : TensorM := do
  let d := w.dtype.getD t.dtype
  let device ← t.device
  match device with
  | .tuple ds =>
    if w.device.isSome then
      throw (.misused "cannot specify `device` on `rand_like` of a multi device tensor")
    let r ← rand (← t.shape) { w with dtype := some d } contiguous
    r.shard (ds.filterMap Arg.text?) (← t.node.shardAxis)
  | _ =>
    rand (← t.shape) { w with dtype := some d, device := some (w.device.getD device) } contiguous

def randnLike (t : Tensor) (w : Wish) : TensorM := do
  let source ← (← stack [t, t]).randLike { device := w.device, dtype := some .float }
  let angle ← (← (← source.index [.position 0]).mul 6.283185307179586).cos
  let length ← (← (← (← (← source.index [.position 1]).sub 1 true).log).mul (-2 : Int)).sqrt
  let r ← (← angle.mul length).cast (w.dtype.getD t.dtype)
  r.withTracked w.tracked

section Shaped

variable (shape : List Dim)

def randn (w : Wish := {}) : TensorM := do (← empty shape).randnLike { w with device := none }

def uniform (low high : Const) (w : Wish := {}) (contiguous : Bool := true) : TensorM := do
  let width ← high.sub low
  let d := w.dtype.getD (← get).defaultFloat
  let r ← (← (← rand shape { device := w.device } contiguous).mul width true).cast d
  (← r.add low).withTracked w.tracked

def randint (low high : Const) (d : DType := .int) (w : Wish := {}) : TensorM := do
  if !(low.isIntLike && high.isIntLike) then
    throw (.because .wrongType s!"low={low.text} and high={high.text} must be integers")
  if !d.isInt then throw (.because .wrongType s!"dtype={d.text} must be int")
  uniform shape low high { w with dtype := some d }

def normal (mean std : Const) (w : Wish) : TensorM := do
  let r ← (← (← randn shape { dtype := w.dtype }).mul std true).add mean
  r.withTracked w.tracked

def volume : SessionM Float := do
  match ← Dim.prod shape with
  | .int n => return Binary64.ofInt n
  | .sym _ => throw .wrongType

def nonzero (x : Float) : SessionM Float :=
  if x == 0 then throw .divisionByZero else pure x

def scaledUniform (w : Wish) : TensorM := do
  let r ← uniform shape (.float (-1)) (.float 1) w
  r.mul ((← nonzero (← volume shape)).pow (-0.5))

def glorotUniform (w : Wish) : TensorM := do
  let r ← uniform shape (.float (-1)) (.float 1) w
  let first ← itemAt shape 0
  let total := (← volume [first]) + (← volume shape.tail)
  r.mul ((6 / (← nonzero total)).pow 0.5)

def kaimingScale (a : Const) : SessionM Float := do
  let a ← a.toFloat?
  let fan := (← volume shape.tail).sqrt
  return (2.0 / (1 + a * a)).sqrt / (← nonzero fan)

def kaimingUniform (a : Const) (w : Wish) : TensorM := do
  let x ← a.toFloat?
  let fan ← nonzero (← volume shape.tail).sqrt
  let bound := Float.sqrt 3.0 * (2.0 / (1 + x * x)).sqrt / fan
  uniform shape (.float (-bound)) (.float bound) w

def kaimingNormal (a : Const) (w : Wish) : TensorM := do
  normal shape (.float 0) (.float (← kaimingScale shape a)) w

end Shaped

def randperm (n : Dim) (d : DType) (w : Wish) : TensorM := do
  let r ← rand [n] w
  let (_, positions) ← r.sort (-1) false
  positions.cast d

/-- Positions drawn with the given weights. -/
def multinomial (t : Tensor) (samples : Int) (replacement : Bool) : TensorM := do
  let n ← t.ndim
  if !(1 ≤ n && n ≤ 2 && samples > 0) then
    throw (.broken
      s!"self.ndim={n} must be 1 or 2 dim, num_samples={samples} must be positive")
  if !(replacement || samples = 1) then
    throw (.broken "no replacement only supports num_samples = 1")
  let weight ← if n = 1 then t.unsqueeze 0 else pure t
  let sums ← (← weight.cumsum 1).cast .float
  let last ← (← sums.index [Index.whole, .position (.int (-1))]).unsqueeze 1
  let cdf ← sums.div last
  let rows ← cdf.extent 0
  let cols ← cdf.extent 1
  let draws ← (← rand [.int samples, rows, 1]).movedTo (some (← t.device))
  let hits ← (← draws.expand [.int (-1), .int (-1), cols]).ge cdf
  let r ← (← hits.sum (.one 2)).permute [1, 0]
  (← if n = 1 then r.squeeze 0 else pure r).cast .int

def dropout (t : Tensor) (p : Const) : TensorM := do
  if !(← get).training || Const.eq p (.int 0) then return t
  let r ← t.randLike { dtype := some (← get).defaultFloat, tracked := some false } false
  let kept ← (← r.ge p).contiguous
  let rest ← Const.sub (.float 1) p
  (← kept.choose t 0).div rest

end LazyTensor.Tensor
