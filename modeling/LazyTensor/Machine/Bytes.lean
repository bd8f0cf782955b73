import LazyTensor.Number.Packing

/-!
# Typed access to bytes

Memory is bytes.  Elements of a type lie one after the other, the lowest byte of each first.
-/

namespace LazyTensor.Bytes

@[inline] def byteAt (b : ByteArray) (i : Nat) : Nat := if h : i < b.size then b[i].toNat else 0

@[inline] def setByte (b : ByteArray) (i : Nat) (v : Nat) : ByteArray :=
  if h : i < b.size then b.set i (UInt8.ofNat v) h else b

def readNat (b : ByteArray) : Nat → Nat → Nat
  | _, 0 => 0
  | i, n + 1 => byteAt b i + 256 * readNat b (i + 1) n

def writeNat (b : ByteArray) : Nat → Nat → Nat → ByteArray
  | _, 0, _ => b
  | i, n + 1, v => writeNat (setByte b i (v % 256)) (i + 1) n (v / 256)

variable (code : Char)

def count (b : ByteArray) : Nat := b.size / Packing.size code

def read (b : ByteArray) (i : Nat) : Const :=
  let w := Packing.size code
  let n := readNat b (i * w) w
  match code with
  | '?' => .bool (n ≠ 0)
  | 'e' => .float (Narrow.ofHalfBits n)
  | 'f' => .float (Narrow.ofSingleBits n)
  | 'd' => .float (Float.ofBits n.toUInt64)
  | _ =>
    if Packing.isSigned code then
      let full : Int := 2 ^ (8 * w)
      .int (if 2 * (n : Int) < full then n else n - full)
    else .int n

/-- The number whose bytes are the form of a value in a type.  Integers have to be in range, and
only integers are integers. -/
def encode (c : Const) : Result Nat :=
  match code with
  | '?' => .ok (if c.truthy then 1 else 0)
  | 'f' => return Narrow.singleBits (← real c)
  | 'd' => return (← real c).toBits.toNat
  | 'e' => do
    (Narrow.halfBits? (← real c)).getDM (throw .overflow)
  | _ =>
    match c.int? with
    | none => .error .wrongType
    | some n =>
      let full : Int := 2 ^ (8 * Packing.size code)
      if Packing.isSigned code then
        if -full ≤ 2 * n && 2 * n < full then .ok (n % full).toNat else .error .invalidValue
      else if 0 ≤ n && n < full then .ok n.toNat
      else .error .invalidValue
where
  real (c : Const) : Result Float :=
    match c with
    | .float x => .ok x
    | c =>
      match c.toFloat? with
      | .ok x => .ok x
      | .error _ => .error .invalidValue

def zeros (n : Nat) : ByteArray := ⟨Array.replicate n 0⟩

def elements (b : ByteArray) : List Const :=
  (List.range (count code b)).map fun i => read code b i

end LazyTensor.Bytes
