/-!
# Compressed data

Data compressed as blocks: stored bytes, or symbols of canonical prefix codes that stand for bytes and
for repetitions of earlier ones.  Bits are taken from the low end of every byte.
-/

namespace LazyTensor.Deflate

inductive Fault where
  | truncated
  | invalid
  deriving DecidableEq, Repr

structure Source where
  data : ByteArray
  position : Nat := 0

abbrev ReadM := StateT Source (Except Fault)

def refuse {α : Type} (f : Fault) : ReadM α := StateT.lift (.error f)

def bit : ReadM Nat := do
  let s ← get
  match s.data.data[s.position / 8]? with
  | none => refuse .truncated
  | some b =>
    set { s with position := s.position + 1 }
    return (b.toNat >>> (s.position % 8)) % 2

def bits : Nat → ReadM Nat
  | 0 => return 0
  | n + 1 => do
    let low ← bit
    return low + 2 * (← bits n)

/-- A canonical prefix code: how many symbols there are of each length, and the symbols by length. -/
structure Code where
  counts : Array Nat
  symbols : Array Nat

namespace Code

/-- The code with symbols of given lengths; a length of zero stands for no symbol. -/
def ofLengths (lengths : List Nat) : Code :=
  let counts := (Array.range 16).map fun n => if n = 0 then 0 else lengths.count n
  let symbols := (List.range 15).flatMap fun n =>
    (lengths.zipIdx.filter (·.1 = n + 1)).map (·.2)
  { counts, symbols := symbols.toArray }

/-- How many codes of full length are left over; nothing if there are too many symbols. -/
def left (c : Code) : Option Nat :=
  (List.range 15).foldl (fun acc n => acc.bind fun l =>
    let k := c.counts.getD (n + 1) 0
    if k > 2 * l then none else some (2 * l - k)) (some 1)

/-- The next symbol: the first code of a length, the place of its first symbol, and the code so far. -/
def symbolFrom (c : Code) : Nat → Nat → Nat → Nat → Nat → ReadM Nat
  | 0, _, _, _, _ => refuse .invalid
  | fuel + 1, length, code, first, index => do
    let code := code + (← bit)
    let count := c.counts.getD length 0
    if code < first + count then return c.symbols.getD (index + (code - first)) 0
    else c.symbolFrom fuel (length + 1) (2 * code) (2 * (first + count)) (index + count)

def symbol (c : Code) : ReadM Nat := c.symbolFrom 15 1 0 0 0

end Code

/-- The lengths of repetitions: the least of every symbol, and the number of further bits. -/
def lengthCodes : Array (Nat × Nat) := #[
  (3, 0), (4, 0), (5, 0), (6, 0), (7, 0), (8, 0), (9, 0), (10, 0), (11, 1), (13, 1), (15, 1), (17, 1),
  (19, 2), (23, 2), (27, 2), (31, 2), (35, 3), (43, 3), (51, 3), (59, 3), (67, 4), (83, 4), (99, 4),
  (115, 4), (131, 5), (163, 5), (195, 5), (227, 5), (258, 0)]

/-- The distances of repetitions: the least of every symbol, and the number of further bits. -/
def distanceCodes : Array (Nat × Nat) := #[
  (1, 0), (2, 0), (3, 0), (4, 0), (5, 1), (7, 1), (9, 2), (13, 2), (17, 3), (25, 3), (33, 4), (49, 4),
  (65, 5), (97, 5), (129, 6), (193, 6), (257, 7), (385, 7), (513, 8), (769, 8), (1025, 9), (1537, 9),
  (2049, 10), (3073, 10), (4097, 11), (6145, 11), (8193, 12), (12289, 12), (16385, 13), (24577, 13)]

def copyBack (out : ByteArray) (distance : Nat) : Nat → ByteArray
  | 0 => out
  | n + 1 => copyBack (out.push (out.data.getD (out.size - distance) 0)) distance n

/-- The symbols of a block, until the one that ends it. -/
def symbols (literals distances : Code) : Nat → ByteArray → ReadM ByteArray
  | 0, _ => refuse .truncated
  | fuel + 1, out => do
    let s ← literals.symbol
    if s < 256 then symbols literals distances fuel (out.push (UInt8.ofNat s))
    else if s = 256 then return out
    else
      match lengthCodes[s - 257]? with
      | none => refuse .invalid
      | some (least, more) =>
        let length := least + (← bits more)
        match distanceCodes[← distances.symbol]? with
        | none => refuse .invalid
        | some (least, more) =>
          let distance := least + (← bits more)
          if distance > out.size then refuse .invalid
          symbols literals distances fuel (copyBack out distance length)

def lengthOrder : List Nat := [16, 17, 18, 0, 8, 7, 9, 6, 10, 5, 11, 4, 12, 3, 13, 2, 14, 1, 15]

def readLengths (c : Code) (total : Nat) : Nat → List Nat → ReadM (List Nat)
  | 0, _ => refuse .invalid
  | fuel + 1, done => do
    if done.length = total then return done.reverse
    else
      let s ← c.symbol
      if s < 16 then readLengths c total fuel (s :: done)
      else
        let (length, count) ← match s with
          | 16 => match done with
            | [] => refuse .invalid
            | l :: _ => pure (l, 3 + (← bits 2))
          | 17 => pure (0, 3 + (← bits 3))
          | _ => pure (0, 11 + (← bits 7))
        if done.length + count > total then refuse .invalid
        readLengths c total fuel (List.replicate count length ++ done)

/-- Whether a code uses all bits, or has a single symbol of one bit, or none. -/
def usable (c : Code) (symbols : Nat) : Bool :=
  match c.left with
  | none => false
  | some 0 => true
  | some _ => symbols = c.counts.getD 0 0 + c.counts.getD 1 0

/-- The two codes of a block, which are written in a third. -/
def readCodes : ReadM (Code × Code) := do
  let nLiterals := 257 + (← bits 5)
  let nDistances := 1 + (← bits 5)
  let nLengths := 4 + (← bits 4)
  if nLiterals > 286 || nDistances > 30 then refuse .invalid
  let given ← (List.range nLengths).mapM fun _ => bits 3
  let place (i : Nat) : Nat :=
    match lengthOrder.zipIdx.find? (·.1 = i) with
    | some (_, k) => given.getD k 0
    | none => 0
  let lengthCode := Code.ofLengths ((List.range 19).map place)
  if lengthCode.left ≠ some 0 then refuse .invalid
  let total := nLiterals + nDistances
  let all ← readLengths lengthCode total (total + 1) []
  let literals := all.take nLiterals
  let distances := all.drop nLiterals
  if literals.getD 256 0 = 0 then refuse .invalid
  let used (ls : List Nat) : Nat := (ls.filter (· ≠ 0)).length
  let a := Code.ofLengths literals
  let b := Code.ofLengths distances
  if !(usable a (used literals) && usable b (used distances)) then refuse .invalid
  return (a, b)

def fixedLiterals : Code :=
  .ofLengths (List.replicate 144 8 ++ List.replicate 112 9 ++ List.replicate 24 7 ++
    List.replicate 8 8)

def fixedDistances : Code := .ofLengths (List.replicate 30 5)

def stored (out : ByteArray) : ReadM ByteArray := do
  modify fun s => { s with position := (s.position + 7) / 8 * 8 }
  let length ← bits 16
  let inverse ← bits 16
  if length + inverse ≠ 65535 then refuse .invalid
  let s ← get
  let start := s.position / 8
  if start + length > s.data.size then refuse .truncated
  set { s with position := 8 * (start + length) }
  return out ++ s.data.extract start (start + length)

/-- The blocks of a compressed stream. -/
def blocks : Nat → ByteArray → ReadM ByteArray
  | 0, _ => refuse .truncated
  | fuel + 1, out => do
    let last ← bit
    let kind ← bits 2
    let limit := 8 * (← get).data.size + 1
    let out ← match kind with
      | 0 => stored out
      | 1 => symbols fixedLiterals fixedDistances limit out
      | 2 =>
        let (a, b) ← readCodes
        symbols a b limit out
      | _ => refuse .invalid
    if last = 1 then return out else blocks fuel out

/-- The data that the blocks from a byte on stand for, and the byte at which they end. -/
def inflate (data : ByteArray) (start : Nat) : Except Fault (ByteArray × Nat) := do
  let (out, s) ← (blocks (8 * data.size + 1) ByteArray.empty).run { data, position := 8 * start }
  return (out, (s.position + 7) / 8)

end LazyTensor.Deflate
