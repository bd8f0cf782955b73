import LazyTensor.Archive.Deflate
import LazyTensor.Failure

/-!
# Compressed files and archives

A compressed file is a sequence of members: a header, compressed data, and a checksum and a length at
the end.  Zeros between the members are skipped.
-/

/-! ## The checksum

The cyclic redundancy check with the reversed polynomial `edb88320`. -/

namespace LazyTensor.Crc32

def shift (x : UInt32) : UInt32 :=
  if x &&& 1 = 1 then (x >>> 1) ^^^ 0xedb88320 else x >>> 1

def remainder (n : Nat) : UInt32 := (List.range 8).foldl (fun x _ => shift x) (UInt32.ofNat n)

def table : Array UInt32 := (Array.range 256).map remainder

def checksum (b : ByteArray) : Nat :=
  let x := b.data.foldl (fun (x : UInt32) c =>
    table.getD ((x ^^^ c.toUInt32) &&& 0xff).toNat 0 ^^^ (x >>> 8)) 0xffffffff
  (x ^^^ 0xffffffff).toNat

end LazyTensor.Crc32

namespace LazyTensor.Gzip

def number (b : ByteArray) (start length : Nat) : Result Nat :=
  if start + length > b.size then .error (.bare .endOfData)
  else .ok ((List.range length).foldr (fun i acc => (b.data.getD (start + i) 0).toNat + 256 * acc) 0)

def afterZero (b : ByteArray) : Nat → Nat → Nat
  | 0, i => i
  | fuel + 1, i =>
    match b.data[i]? with
    | none => i
    | some 0 => i + 1
    | some _ => afterZero b fuel (i + 1)

def headerEnd (b : ByteArray) (start : Nat) : Result Nat := do
  if b.data.getD start 0 ≠ 0x1f || b.data.getD (start + 1) 0 ≠ 0x8b then throw (.bare .badGzip)
  let method ← number b (start + 2) 8
  if method % 256 ≠ 8 then throw (.bare .badGzip)
  let flags := method / 256 % 256
  let i := start + 10
  let i ← if flags / 4 % 2 = 1 then do
      let n ← number b i 2
      let _ ← number b (i + 2) n
      pure (i + 2 + n)
    else pure i
  let i := if flags / 8 % 2 = 1 then afterZero b (b.size + 1) i else i
  let i := if flags / 16 % 2 = 1 then afterZero b (b.size + 1) i else i
  if flags / 2 % 2 = 1 then
    let _ ← number b i 2
    return i + 2
  return i

def skipZeros (b : ByteArray) : Nat → Nat → Nat
  | 0, i => i
  | fuel + 1, i => if b.data[i]? = some 0 then skipZeros b fuel (i + 1) else i

/-- The contents of the members from a place on; the fuel is at least their number. -/
def members (b : ByteArray) : Nat → Nat → ByteArray → Result ByteArray
  | 0, _, _ => .error (.bare .endOfData)
  | fuel + 1, start, out => do
    if start ≥ b.size then return out
    let i ← headerEnd b start
    match Deflate.inflate b i with
    | .error .truncated => throw (.bare .endOfData)
    | .error .invalid => throw (.bare .badCompression)
    | .ok (part, i) =>
      let crc ← number b i 4
      let length ← number b (i + 4) 4
      if crc ≠ Crc32.checksum part || length ≠ part.size % 2 ^ 32 then throw (.bare .badGzip)
      members b fuel (skipZeros b (b.size + 1) (i + 8)) (out ++ part)

def decompress (b : ByteArray) : Result ByteArray := members b (b.size + 1) 0 ByteArray.empty

end LazyTensor.Gzip

/-!
## Archives with a directory

An archive whose directory stands at its end; an entry is stored as it is, or compressed.
-/

namespace LazyTensor.Zip

structure Entry where
  name : String
  flags : Nat
  method : Nat
  crc : Nat
  stored : Nat
  header : Int

variable (b : ByteArray)

/-- The number in so many bytes, the lowest first; beyond the end there are zeros. -/
def number (start length : Nat) : Nat :=
  (List.range length).foldr (fun i acc => (b.data.getD (start + i) 0).toNat + 256 * acc) 0

def marked (start : Nat) (mark : List UInt8) : Bool :=
  (b.extract start (start + mark.length)).data.toList = mark

def endMark : List UInt8 := [0x50, 0x4b, 5, 6]

def lastMark (b : ByteArray) : Nat → Option Nat
  | 0 => if marked b 0 endMark then some 0 else none
  | i + 1 => if marked b (i + 1) endMark then some (i + 1) else lastMark b i

def endRecord? : Option Nat :=
  if b.size ≥ 22 && marked b (b.size - 22) endMark && number b (b.size - 2) 2 = 0 then some (b.size - 22)
  else
    match lastMark b b.size with
    | some i => if i + 22 ≤ b.size && i + 65536 + 22 ≥ b.size then some i else none
    | none => none

def isArchive : Bool := (endRecord? b).isSome

def nameOf (bs : List UInt8) : String :=
  let s : String := match String.fromUTF8? ⟨bs.toArray⟩ with
    | some s => s
    | none => String.ofList (bs.map fun c => Char.ofNat c.toNat)
  String.ofList (s.toList.takeWhile (· ≠ Char.ofNat 0))

/-- The entries in a directory between two places; the fuel is at least their number. -/
def entriesFrom (b : ByteArray) (stop : Nat) (shift : Int) : Nat → Nat → Result (List Entry)
  | 0, _ => .ok []
  | fuel + 1, i => do
    if i ≥ stop then return []
    if i + 46 > min stop b.size then throw (.bare .badZip)
    if !marked b i [0x50, 0x4b, 1, 2] then throw (.bare .badZip)
    let nameLength := number b (i + 28) 2
    let entry : Entry := {
      name := nameOf (b.extract (i + 46) (i + 46 + nameLength)).data.toList
      flags := number b (i + 8) 2
      method := number b (i + 10) 2
      crc := number b (i + 16) 4
      stored := number b (i + 20) 4
      header := (number b (i + 42) 4 : Int) + shift }
    let next := i + 46 + nameLength + number b (i + 30) 2 + number b (i + 32) 2
    return entry :: (← entriesFrom b stop shift fuel next)

def entries : Result (List Entry) := do
  let i ← (endRecord? b).getDM (throw (.bare .badZip))
  let size := number b (i + 12) 4
  let offset := number b (i + 16) 4
  let shift : Int := (i : Int) - size - offset
  let start := (offset : Int) + shift
  if start < 0 then throw (.bare .badZip)
  entriesFrom b (start.toNat + size) shift (b.size + 1) start.toNat

def dataStart (e : Entry) : Result Nat := do
  if e.header < 0 then throw .invalidValue
  let i := e.header.toNat
  if i + 30 > b.size then throw (.bare .badZip)
  if !marked b i [0x50, 0x4b, 3, 4] then throw (.bare .badZip)
  let nameLength := number b (i + 26) 2
  let name := nameOf (b.extract (i + 30) (i + 30 + nameLength)).data.toList
  if name ≠ e.name then throw (.bare .badZip)
  if e.flags % 2 = 1 then throw (.bare .misuse)
  if !(([0, 8, 12, 14] : List Nat).contains e.method) then throw (.bare .unsupported)
  return i + 30 + nameLength + number b (i + 28) 2

def contents (e : Entry) : Result ByteArray := do
  let start ← dataStart b e
  let out ← if e.method = 0 then
      if start + e.stored > b.size then throw (.bare .endOfData)
      else pure (b.extract start (start + e.stored))
    else
      match Deflate.inflate (b.extract start (start + e.stored)) 0 with
      | .ok (out, _) => pure out
      | .error .truncated => throw (.bare .endOfData)
      | .error .invalid => throw (.bare .badCompression)
  if Crc32.checksum out ≠ e.crc then throw (.bare .badZip)
  return out

def find (es : List Entry) (name : String) : Result Entry :=
  (es.reverse.find? (·.name = name)).getDM (.error .missingKey)

end LazyTensor.Zip
