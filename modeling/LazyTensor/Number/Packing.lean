import LazyTensor.Number.Const
import LazyTensor.Number.Narrow

/-!
# Packing of constants into bytes

The bytes of a value in memory, little end first, by the one-letter code of its type, and back.
Values that do not fit are refused.
-/

namespace LazyTensor.Packing

variable (code : Char)

def size : Nat :=
  match code with
  | 'h' | 'H' | 'e' => 2
  | 'i' | 'I' | 'f' | 'l' | 'L' => 4
  | 'q' | 'Q' | 'd' => 8
  | _ => 1

/-- The lowest `n` bytes of a natural, the lowest first. -/
def littleEndian : Nat → Nat → List UInt8
  | 0, _ => []
  | n + 1, v => UInt8.ofNat (v % 256) :: littleEndian n (v / 256)

def ofLittleEndian : List UInt8 → Nat
  | [] => 0
  | b :: bs => b.toNat + 256 * ofLittleEndian bs

def isSigned : Bool := code ∈ ['b', 'h', 'i', 'q']

def isUnsigned : Bool := code ∈ ['B', 'H', 'I', 'Q']

def packInt (n : Int) : Result (List UInt8) :=
  let w := size code
  let full : Int := 2 ^ (8 * w)
  if isSigned code then
    if -full ≤ 2 * n && 2 * n < full then .ok (littleEndian w (n % full).toNat)
    else .error .badPacking
  else
    if 0 ≤ n && n < full then .ok (littleEndian w n.toNat) else .error .badPacking

/-- The bytes of a constant. -/
def pack (c : Const) : Result (List UInt8) :=
  match code with
  | '?' => .ok [if c.truthy then 1 else 0]
  | 'e' =>
    match c with
    | c => do
      let x ← packFloat c
      let some b := Narrow.halfBits? x | throw .overflow
      return littleEndian 2 b
  | 'f' => do
    let x ← packFloat c
    return littleEndian 4 (Narrow.singleBits x)
  | 'd' => do return littleEndian 8 (← packFloat c).toBits.toNat
  | code =>
    if isSigned code || isUnsigned code then
      match c.int? with
      | some n => packInt code n
      | none => .error .badPacking
    else .error .badPacking
where
  packFloat (c : Const) : Result Float :=
    match c with
    | .float x => .ok x
    | c => c.toFloat?

/-- The constant with the given bytes. -/
def unpack (bs : List UInt8) : Result Const :=
  if bs.length ≠ size code then .error .badPacking
  else
    let n := ofLittleEndian bs
    match code with
    | '?' => .ok (.bool (n ≠ 0))
    | 'e' => .ok (.float (Narrow.ofHalfBits n))
    | 'f' => .ok (.float (Narrow.ofSingleBits n))
    | 'd' => .ok (.float (Float.ofBits n.toUInt64))
    | code =>
      if isSigned code then
        let full : Int := 2 ^ (8 * size code)
        .ok (.int (if 2 * (n : Int) < full then n else n - full))
      else if isUnsigned code then .ok (.int n)
      else .error .badPacking

end LazyTensor.Packing
