import LazyTensor.Failure
import LazyTensor.Number.Binary64
import LazyTensor.Text.Quoted

/-!
# Encodings of text

Text as bytes and back.  Bytes that stand for no text are refused, left out, or replaced.
-/

namespace LazyTensor

inductive Encoding where
  | utf8
  | latin1
  | ascii
  deriving DecidableEq

namespace Encoding

/-- The encoding of a name; case does not matter, nor do the marks between words. -/
def ofName? (name : String) : Option Encoding :=
  let plain := String.ofList (name.toLower.toList.map fun c => if c = '_' || c = ' ' then '-' else c)
  if ["utf-8", "utf8", "u8", "utf", "utf8-ucs2", "utf8-ucs4", "cp65001"].contains plain then
    some .utf8
  else if ["latin-1", "latin1", "latin", "l1", "iso-8859-1", "iso8859-1", "iso8859", "8859", "cp819",
      "iso-ir-100"].contains plain then some .latin1
  else if ["ascii", "us-ascii", "us", "646", "iso-ir-6", "cp367", "ansi-x3.4-1968"].contains plain then
    some .ascii
  else none

inductive Piece where
  | char (c : Char)
  | broken (bytes : List UInt8)

def followers (lead : Nat) : List (Nat × Nat) :=
  let any := (0x80, 0xbf)
  if 0xc2 ≤ lead && lead ≤ 0xdf then [any]
  else if lead = 0xe0 then [(0xa0, 0xbf), any]
  else if lead = 0xed then [(0x80, 0x9f), any]
  else if 0xe1 ≤ lead && lead ≤ 0xef then [any, any]
  else if lead = 0xf0 then [(0x90, 0xbf), any, any]
  else if 0xf1 ≤ lead && lead ≤ 0xf3 then [any, any, any]
  else if lead = 0xf4 then [(0x80, 0x8f), any, any]
  else []

def takeIn : List (Nat × Nat) → List UInt8 → List UInt8
  | (low, high) :: ranges, b :: bs =>
    if low ≤ b.toNat && b.toNat ≤ high then b :: takeIn ranges bs else []
  | _, _ => []

variable (e : Encoding)

/-- The first piece of some bytes that begin with a given one, and how many bytes it takes after
that. -/
def firstPiece (b : UInt8) (rest : List UInt8) : Piece × Nat :=
  let n := b.toNat
  if n < 0x80 then (.char (Char.ofNat n), 0)
  else match e with
  | .latin1 => (.char (Char.ofNat n), 0)
  | .ascii => (.broken [b], 0)
  | .utf8 =>
    let ranges := followers n
    let more := takeIn ranges rest
    if ranges.isEmpty || more.length < ranges.length then (.broken (b :: more), more.length)
    else
      let first := n % 2 ^ (6 - ranges.length)
      let code := more.foldl (fun acc x => acc * 64 + x.toNat % 64) first
      (.char (Char.ofNat code), more.length)

def piecesFrom (e : Encoding) : Nat → List UInt8 → List Piece
  | fuel + 1, b :: bs =>
    let (p, n) := e.firstPiece b bs
    p :: e.piecesFrom fuel (bs.drop n)
  | _, _ => []

def pieces (bs : List UInt8) : List Piece := e.piecesFrom bs.length bs

/-- What stands for bytes that are no text, by a named way; the strict way refuses them. -/
def mend (way : String) (bs : List UInt8) : Result (List Char) :=
  match way with
  | "strict" => .error (.bare .badEncoding)
  | "ignore" => .ok []
  | "replace" => .ok [Char.ofNat 0xfffd]
  | "backslashreplace" => .ok (bs.flatMap fun b => ("\\x" ++ Quoted.hex [b]).toList)
  | _ => .error (.bare .unknownCodec)

def decode (bs : List UInt8) (way : String := "strict") : Result String := do
  let parts ← (e.pieces bs).mapM fun p => match p with
    | .char c => pure [c]
    | .broken bs => mend way bs
  return String.ofList parts.flatten

def encode (s : String) : Result (List UInt8) :=
  let upTo (limit : Nat) : Result (List UInt8) :=
    s.toList.mapM fun c =>
      if c.toNat < limit then .ok (UInt8.ofNat c.toNat) else .error (.bare .badCharacter)
  match e with
  | .utf8 => .ok s.toUTF8.data.toList
  | .latin1 => upTo 256
  | .ascii => upTo 128

end Encoding

end LazyTensor
