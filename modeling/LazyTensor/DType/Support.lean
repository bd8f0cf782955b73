import LazyTensor.DType.Basic

/-!
# Which devices compute with which element types
-/

namespace LazyTensor

def DType.supportedOn (d : DType) (device : String) : Bool :=
  match d with
  | .bfloat16 => ["METAL", "CUDA", "NV", "CPU", "LLVM", "AMD"].contains device
  | .fp8e4m3 | .fp8e5m2 => false
  | d =>
    if device = "WEBGPU" then
      [DType.bool, .int8, .uint8, .int16, .uint16, .float, .int, .uint, .half].contains d
    else
      match d with
      | .half => device ≠ "LLVM" && device ≠ "PYTHON"
      | .double => device ≠ "METAL"
      | _ => true

namespace Device

/-- A letter in upper case: of ASCII, and of the Latin, Greek and Cyrillic letters that have their
upper case at a fixed distance. -/
def upperChar (c : Char) : Char :=
  let n := c.toNat
  if 'a' ≤ c && c ≤ 'z' then Char.ofNat (n - 32)
  else if (0xe0 ≤ n && n ≤ 0xf6) || (0xf8 ≤ n && n ≤ 0xfe) then Char.ofNat (n - 32)
  else if n = 0xff then Char.ofNat 0x178
  else if n = 0xb5 then Char.ofNat 0x39c
  else if 0x100 ≤ n && n ≤ 0x137 && n ≠ 0x131 && n % 2 = 1 then Char.ofNat (n - 1)
  else if 0x3b1 ≤ n && n ≤ 0x3c9 && n ≠ 0x3c2 then Char.ofNat (n - 32)
  else if n = 0x3c2 then Char.ofNat 0x3a3
  else if 0x430 ≤ n && n ≤ 0x44f then Char.ofNat (n - 32)
  else if 0x450 ≤ n && n ≤ 0x45f then Char.ofNat (n - 80)
  else c

/-- The usual spelling of the name of a device: the kind in upper case, without the number zero. -/
def canonical (s : String) : String :=
  let cs := s.toList
  let kind := cs.takeWhile (· ≠ ':')
  let whole := kind.map upperChar ++ cs.drop kind.length
  let n := whole.length
  String.ofList (if whole.drop (n - 2) = [':', '0'] then whole.take (n - 2) else whole)

end Device

end LazyTensor
