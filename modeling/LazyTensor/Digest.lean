import LazyTensor.Number.Packing

/-!
# Digests

The Secure Hash Algorithm with 256 bits of output, whose constants are the first bits after the point
of roots of the first primes, and the Message Digest algorithm, version five, whose numbers have their
low end first.  Both take blocks of sixteen 32-bit words, sixty-four rounds each.
-/

namespace LazyTensor

/-- A message padded to whole blocks: a one bit, zeros, and the length in bits. -/
def paddedMessage (lengthBytes : Nat → List UInt8) (msg : ByteArray) : ByteArray :=
  let n := msg.size
  let zeros := (119 - n % 64) % 64
  ⟨msg.data ++ #[0x80] ++ Array.replicate zeros 0 ++ (lengthBytes (n * 8)).toArray⟩

namespace Sha256

def rotr (x : UInt32) (n : UInt32) : UInt32 := (x >>> n) ||| (x <<< (32 - n))

def primes : Array Nat :=
  ((Array.range 312).drop 2).filter fun p => (List.range p).all fun d => d < 2 || p % d ≠ 0

/-- The first 32 bits after the point of a root of a number below 512. -/
def rootBits (k p : Nat) : UInt32 :=
  UInt32.ofNat ((List.range 37).foldr (fun b r =>
    if (r + 2 ^ b) ^ k ≤ p * 2 ^ (32 * k) then r + 2 ^ b else r) 0)

def constants : Array UInt32 := primes.map (rootBits 3)

def start : Array UInt32 := (primes.take 8).map (rootBits 2)

def bigEndian (n v : Nat) : List UInt8 := (Packing.littleEndian n v).reverse

def schedule (msg : ByteArray) (at' : Nat) : Array UInt32 :=
  let byte (i : Nat) : UInt32 := (msg.data.getD (at' + i) 0).toUInt32
  let first : Array UInt32 := (Array.range 16).map fun i =>
    (byte (4 * i) <<< 24) ||| (byte (4 * i + 1) <<< 16) ||| (byte (4 * i + 2) <<< 8) ||| byte (4 * i + 3)
  (List.range 48).foldl (fun w k =>
    let i := k + 16
    let a := w.getD (i - 15) 0
    let b := w.getD (i - 2) 0
    let s0 := rotr a 7 ^^^ rotr a 18 ^^^ (a >>> 3)
    let s1 := rotr b 17 ^^^ rotr b 19 ^^^ (b >>> 10)
    w.push (w.getD (i - 16) 0 + s0 + w.getD (i - 7) 0 + s1)) first

def round (w : Array UInt32) (s : Array UInt32) (i : Nat) : Array UInt32 :=
  let g (k : Nat) : UInt32 := s.getD k 0
  let s1 := rotr (g 4) 6 ^^^ rotr (g 4) 11 ^^^ rotr (g 4) 25
  let ch := (g 4 &&& g 5) ^^^ ((g 4 ^^^ 0xffffffff) &&& g 6)
  let t1 := g 7 + s1 + ch + constants.getD i 0 + w.getD i 0
  let s0 := rotr (g 0) 2 ^^^ rotr (g 0) 13 ^^^ rotr (g 0) 22
  let maj := (g 0 &&& g 1) ^^^ (g 0 &&& g 2) ^^^ (g 1 &&& g 2)
  #[t1 + s0 + maj, g 0, g 1, g 2, g 3 + t1, g 4, g 5, g 6]

def block (msg : ByteArray) (s : Array UInt32) (at' : Nat) : Array UInt32 :=
  let w := schedule msg at'
  let t := (List.range 64).foldl (round w) s
  (Array.range 8).map fun k => s.getD k 0 + t.getD k 0

def digest (msg : ByteArray) : List UInt8 :=
  let m := paddedMessage (bigEndian 8) msg
  let s := (List.range (m.size / 64)).foldl (fun s k => block m s (64 * k)) start
  s.toList.flatMap fun x => bigEndian 4 x.toNat

end Sha256

namespace Md5

def rotl (x : UInt32) (n : UInt32) : UInt32 := (x <<< n) ||| (x >>> (32 - n))

def shifts : Array UInt32 := #[7, 12, 17, 22, 5, 9, 14, 20, 4, 11, 16, 23, 6, 10, 15, 21]

/-- The first 32 bits after the point of the sines of 1, 2 and so on. -/
def constants : Array UInt32 :=
  (Array.range 64).map fun i => ((Float.ofNat (i + 1)).sin.abs * 4294967296).toUInt32

structure State where
  a : UInt32 := 0x67452301
  b : UInt32 := 0xefcdab89
  c : UInt32 := 0x98badcfe
  d : UInt32 := 0x10325476

def round (words : Array UInt32) (s : State) (i : Nat) : State :=
  let (f, g) :=
    if i < 16 then ((s.b &&& s.c) ||| ((s.b ^^^ 0xffffffff) &&& s.d), i)
    else if i < 32 then ((s.d &&& s.b) ||| ((s.d ^^^ 0xffffffff) &&& s.c), (5 * i + 1) % 16)
    else if i < 48 then (s.b ^^^ s.c ^^^ s.d, (3 * i + 5) % 16)
    else (s.c ^^^ (s.b ||| (s.d ^^^ 0xffffffff)), (7 * i) % 16)
  let x := f + s.a + constants.getD i 0 + words.getD g 0
  { a := s.d, d := s.c, c := s.b, b := s.b + rotl x (shifts.getD (i / 16 * 4 + i % 4) 0) }

def block (msg : ByteArray) (s : State) (k : Nat) : State :=
  let byte (i : Nat) : UInt32 := (msg.data.getD (64 * k + i) 0).toUInt32
  let words : Array UInt32 := (Array.range 16).map fun i =>
    byte (4 * i) ||| (byte (4 * i + 1) <<< 8) ||| (byte (4 * i + 2) <<< 16) ||| (byte (4 * i + 3) <<< 24)
  let t := (List.range 64).foldl (round words) s
  { a := s.a + t.a, b := s.b + t.b, c := s.c + t.c, d := s.d + t.d }

def digest (msg : ByteArray) : List UInt8 :=
  let p := paddedMessage (Packing.littleEndian 8) msg
  let s := (List.range (p.size / 64)).foldl (block p) {}
  [s.a, s.b, s.c, s.d].flatMap fun w => Packing.littleEndian 4 w.toNat

end Md5

end LazyTensor
