/-!
# Quoted text

The printed form of a text or of bytes as a literal: between quotes, with escapes for what is not
printable.  The quote is a single one unless the text has single quotes and no double ones.
-/

namespace LazyTensor.Quoted

def hexDigit (n : Nat) : Char := (Nat.toDigits 16 n).getD 0 '0'

def hexWidth (w n : Nat) : String :=
  let ds := Nat.toDigits 16 n
  String.ofList (List.replicate (w - ds.length) '0' ++ ds.drop (ds.length - w))

def hex (bs : List UInt8) : String :=
  String.ofList (bs.flatMap fun b => [hexDigit (b.toNat / 16), hexDigit (b.toNat % 16)])

def isPrintable (c : Char) : Bool :=
  let n := c.toNat
  if n < 0x7f then n ≥ 0x20
  else n > 0xa0 && n ≠ 0xad && !(0x200b ≤ n && n ≤ 0x200f) && !(0x2028 ≤ n && n ≤ 0x202f)
    && !(0x2000 ≤ n && n ≤ 0x200a) && !(0x205f ≤ n && n ≤ 0x206f) && n ≠ 0x3000
    && !(0xe000 ≤ n && n ≤ 0xf8ff) && n ≠ 0xfeff && !(0xfff0 ≤ n && n ≤ 0xfffb) && n < 0xe0000

def escape (quote c : Char) : String :=
  if c = quote || c = '\\' then String.ofList ['\\', c]
  else if c = '\n' then "\\n"
  else if c = '\r' then "\\r"
  else if c = '\t' then "\\t"
  else if isPrintable c then String.singleton c
  else if c.toNat < 0x100 then "\\x" ++ hexWidth 2 c.toNat
  else if c.toNat < 0x10000 then "\\u" ++ hexWidth 4 c.toNat
  else "\\U" ++ hexWidth 8 c.toNat

def quoteFor (cs : List Char) : Char := if cs.contains '\'' && !cs.contains '"' then '"' else '\''

def text (s : String) : String :=
  let cs := s.toList
  let q := quoteFor cs
  String.singleton q ++ String.join (cs.map (escape q)) ++ String.singleton q

def bytes (bs : List UInt8) : String :=
  let cs := bs.map fun b => Char.ofNat b.toNat
  let q := quoteFor cs
  let one (c : Char) : String :=
    if c.toNat < 0x7f then escape q c else "\\x" ++ hexWidth 2 c.toNat
  "b" ++ String.singleton q ++ String.join (cs.map one) ++ String.singleton q

end LazyTensor.Quoted
