import LazyTensor.Number.Packing
import LazyTensor.Text.Quoted

/-!
# Object files

An object file holds sections: code and data that belong in memory, tables of symbols, and tables
of relocations, which say where the address of a symbol is to be written into a section once the
sections have their addresses.  Files are of the sixty-four bit kind with the lowest byte first.

Sections with an address of their own are put there; the others follow one after the other, each
at a multiple of its alignment.
-/

namespace LazyTensor.Elf

def slice (bs : List UInt8) (start stop : Nat) : List UInt8 := (bs.drop start).take (stop - start)

def word (bs : List UInt8) (start width : Nat) : Nat :=
  Packing.ofLittleEndian (slice bs start (start + width))

/-- The integer whose remainder modulo `2 ^ bits` is given, between `-2 ^ (bits - 1)` and
`2 ^ (bits - 1)`. -/
def signed (bits n : Nat) : Int := if n < 2 ^ (bits - 1) then n else (n : Int) - 2 ^ bits

/-- The name at a place of a table of names: up to the next zero byte, and if there is none all but
the last byte. -/
def nameAt (table : List UInt8) (start : Nat) : Result String :=
  let rest := table.drop start
  let bs := if rest.contains 0 then rest.takeWhile (· ≠ 0) else rest.dropLast
  (String.fromUTF8? ⟨bs.toArray⟩).getDM (.error (.bare .badEncoding))

inductive Purpose where
  | contents
  | symbols
  | relocations
  | relocationsWithAddend
  | other
  deriving DecidableEq

def Purpose.ofNumber : Nat → Purpose
  | 1 => .contents
  | 2 => .symbols
  | 9 => .relocations
  | 4 => .relocationsWithAddend
  | _ => .other

structure Section where
  name : String
  kind : Nat
  address : Nat
  size : Nat
  alignment : Nat
  entrySize : Nat
  content : List UInt8

def Section.purpose (s : Section) : Purpose := .ofNumber s.kind

def headerSize : Nat := 64

def sectionSize : Nat := 64

def sectionOf (file header names : List UInt8) : Result Section := do
  let offset := word header 24 8
  let size := word header 32 8
  return {
    name := ← nameAt names (word header 0 4)
    kind := word header 4 4
    address := word header 16 8
    size
    alignment := word header 48 8
    entrySize := word header 56 8
    content := slice file offset (offset + size) }

variable (file : List UInt8)

def sections : Result (List Section × List UInt8) := do
  if file.length < headerSize then throw .invalidValue
  let rest := file.drop (word file 40 8)
  let count := word file 60 2
  if rest.length < count * sectionSize then throw .invalidValue
  let headers := (List.range count).map fun i => slice rest (i * sectionSize) ((i + 1) * sectionSize)
  let h ← headers[word file 62 2]?.getDM (throw .outOfRange)
  let offset := word h 24 8
  let names := slice file offset (offset + word h 32 8)
  return (← headers.mapM fun h => sectionOf file h names, names)

/-- The entries of a section, each of so many bytes.  Their number is by the size that the section
gives them. -/
def Section.entries (s : Section) (width : Nat) : Result (List (List UInt8)) := do
  if s.entrySize = 0 then throw .divisionByZero
  let count := s.size / s.entrySize
  if 2 ^ 63 ≤ count * width then throw .overflow
  if s.content.length < count * width then throw .invalidValue
  return (List.range count).map fun i => slice s.content (i * width) ((i + 1) * width)

/-- A symbol: the place of its name, the section it is defined in, and where in it. -/
structure Symbol where
  name : Nat
  home : Nat
  value : Nat
  deriving DecidableEq

def symbolSize : Nat := 24

def Symbol.ofBytes (bs : List UInt8) : Symbol :=
  { name := word bs 0 4, home := word bs 6 2, value := word bs 8 8 }

/-- An entry of a table of relocations: where in the section, for which symbol, how, and what is
added. -/
structure Entry where
  offset : Nat
  symbol : Nat
  kind : Nat
  addend : Int
  deriving DecidableEq

def Entry.width (withAddend : Bool) : Nat := if withAddend then 24 else 16

def Entry.ofBytes (withAddend : Bool) (bs : List UInt8) : Entry :=
  let info := word bs 8 8
  { offset := word bs 0 8
    symbol := info / 2 ^ 32
    kind := info % 2 ^ 32
    addend := if withAddend then signed 64 (word bs 16 8) else 0 }

/-- A relocation: the place in the image, the address of the symbol, how, and what is added. -/
structure Relocation where
  place : Nat
  target : Nat
  kind : Nat
  addend : Int
  deriving DecidableEq

structure Loaded where
  image : List UInt8
  sections : List Section
  relocations : List Relocation

/-! ### Placing -/

def roomLimit : Nat := 2 ^ 34

def gap (length alignment : Int) : Result Nat :=
  if alignment = 0 then .error .divisionByZero
  else .ok (Int.fmod (alignment - Int.fmod length alignment) alignment).toNat

def placeOne (align : Int) (image : List UInt8) (s : Section) : Result (List UInt8 × Section) := do
  if s.address ≠ 0 then
    return (image.take s.address ++ s.content ++ image.drop (s.address + s.size), s)
  let pad ← gap image.length (max (s.alignment : Int) align)
  if roomLimit < image.length + pad then throw (.bare .outOfMemory)
  let start := image.length + pad
  return (image ++ List.replicate pad 0 ++ s.content, { s with address := start })

/-- Put the sections that belong in memory into an image; the others stay as they are. -/
def placeFrom (align : Int) : List UInt8 → List Section → Result (List UInt8 × List Section)
  | image, [] => .ok (image, [])
  | image, s :: rest => do
    let (image, s) ← if s.purpose = .contents then placeOne align image s else pure (image, s)
    let (image, rest) ← placeFrom align image rest
    return (image, s :: rest)

/-- The image of sections.  There is room from the start for those with an address of their own. -/
def place (align : Int) (ss : List Section) : Result (List UInt8 × List Section) := do
  let ends := ss.filterMap fun s =>
    if s.purpose = .contents && s.address ≠ 0 then some (s.address + s.size) else none
  let room := ends.foldl max 0
  if 2 ^ 63 ≤ room then throw .overflow
  if roomLimit < room then throw (.bare .outOfMemory)
  placeFrom align (List.replicate room 0) ss

/-! ### Loading -/

def undefinedSymbol (name : String) : Failure :=
  .misused s!"Attempting to relocate against an undefined symbol {Quoted.text name}"

def relocationsOf (ss : List Section) (names : List UInt8) (symbols : List Symbol)
    (target : String) (entries : List Entry) : Result (List Relocation) := do
  let home ← (ss.find? (·.name == target)).getDM (throw (.bare .stopped))
  let found ← entries.mapM fun e => do
    let s ← (symbols[e.symbol]?).getDM (throw .outOfRange)
    return (e, s)
  for (_, s) in found do
    if s.home = 0 then throw (undefinedSymbol (← nameAt names s.name))
  found.mapM fun (e, s) => do
    let t ← ss[s.home]?.getDM (throw .outOfRange)
    return { place := home.address + e.offset, target := t.address + s.value, kind := e.kind,
             addend := e.addend }

/-- The tables of relocations among sections, with the name of the section each is for: what
follows the usual beginning of the name. -/
def tablesOf (withAddend : Bool) (ss : List Section) : Result (List (String × List Entry)) := do
  let purpose := if withAddend then Purpose.relocationsWithAddend else .relocations
  let drop := if withAddend then 5 else 4
  (ss.filter (·.purpose = purpose)).mapM fun s => do
    let es ← s.entries (Entry.width withAddend)
    return (String.ofList (s.name.toList.drop drop), es.map (Entry.ofBytes withAddend))

def symbolsOf (ss : List Section) : Result (List Symbol) := do
  let tables ← (ss.filter (·.purpose = .symbols)).mapM fun s => s.entries symbolSize
  let t :: _ := tables | throw .outOfRange
  return t.map Symbol.ofBytes

/-- Load a file: its image in memory, with every section at a multiple of an alignment at least, its
sections with their addresses, and the relocations that are to be done. -/
def load (align : Int := 1) : Result Loaded := do
  let (ss, names) ← sections file
  let plain ← tablesOf false ss
  let added ← tablesOf true ss
  let symbols ← symbolsOf ss
  let (image, ss) ← place align ss
  let relocations ← (plain ++ added).mapM fun (target, es) => relocationsOf ss names symbols target es
  return { image, sections := ss, relocations := relocations.flatten }

/-! ### Relocation -/

def bits (v : Int) (low high : Nat) : Nat := (v / 2 ^ low % 2 ^ (high - low + 1)).toNat

def setBits (v : Int) (more : Nat) : Int :=
  match v with
  | .ofNat n => (n ||| more : Nat)
  | .negSucc n => .negSucc (n - (n &&& more))

def page (address : Int) : Int := address / 4096 * 4096

inductive Fixup where
  /-- The distance, in all thirty-two bits. -/
  | distance
  /-- The distance of the pages, in the two immediate fields of an instruction. -/
  | pages
  /-- The place in the page in units of `2 ^ shift` bytes, in the immediate field. -/
  | inPage (shift : Nat)
  deriving DecidableEq

def Fixup.ofKind? : Int → Option Fixup
  | 2 => some .distance
  | 275 => some .pages
  | 277 => some (.inPage 0)
  | 284 => some (.inPage 1)
  | 285 => some (.inPage 2)
  | 286 => some (.inPage 3)
  | 299 => some (.inPage 4)
  | _ => none

/-- The instruction at a place with the address of its target.  A distance forward is not cut to
thirty-two bits. -/
def Fixup.apply (f : Fixup) (instruction place target : Int) : Int :=
  match f with
  | .distance =>
    let d := target - place
    if d < 0 then 2 ^ 32 + d else d
  | .pages =>
    let d := page target - page place
    setBits (setBits instruction (bits d 12 13 * 2 ^ 29)) (bits d 14 32 * 2 ^ 5)
  | .inPage shift => setBits instruction (bits target shift 11 * 2 ^ 10)

/-- The instruction at a place with the address of its target, by the kind of the relocation. -/
def patch (instruction place target kind : Int) : Result Int :=
  match Fixup.ofKind? kind with
  | some f => .ok (f.apply instruction place target)
  | none => .error (.because .unsupported s!"Encountered unknown relocation type {kind}")

def relocate (image : List UInt8) (r : Relocation) : Result (List UInt8) := do
  let old := slice image r.place (r.place + 4)
  if old.length ≠ 4 then throw .badPacking
  let new ← patch (Packing.ofLittleEndian old) r.place (r.target + r.addend) r.kind
  let bs ← Packing.packInt 'I' new
  return image.take r.place ++ bs ++ image.drop (r.place + 4)

def link : Result (List UInt8) := do
  let l ← load file
  l.relocations.foldlM relocate l.image

end LazyTensor.Elf
