import LazyTensor.Failure
import LazyTensor.Number.Binary64

/-!
# Tape archives

An archive is a sequence of blocks: a header for every member, and after it the data of the member.
Long names, and sizes that do not fit, stand in members of their own before the one they belong to.
-/

namespace LazyTensor.Tar

def blockSize : Nat := 512

inductive Fault where
  | empty
  | truncated
  | ending
  | invalid
  /-- The member that something belongs to is missing. -/
  | subsequent
  deriving DecidableEq

structure Member where
  name : String
  kind : UInt8
  size : Int
  start : Nat

def Member.isRegular (m : Member) : Bool := [48, 0, 55, 83].contains m.kind.toNat

def isKnown (kind : UInt8) : Bool :=
  [48, 0, 49, 50, 53, 54, 55, 51, 52, 76, 75, 83].contains kind.toNat

variable (b : ByteArray) (start length : Nat)

def fieldBytes : List UInt8 :=
  (b.extract start (start + length)).data.toList.takeWhile (· ≠ 0)

/-- The text of bytes; what is no text stands for itself as single characters. -/
def textOf (bs : List UInt8) : String :=
  match String.fromUTF8? ⟨bs.toArray⟩ with
  | some s => s
  | none => String.ofList (bs.map fun c => Char.ofNat c.toNat)

def fieldText : String := textOf (fieldBytes b start length)

def octal? (cs : List Char) : Option Int :=
  let blank (c : Char) : Bool := c = ' ' || ('\t' ≤ c && c ≤ '\r')
  let cs := ((cs.dropWhile blank).reverse.dropWhile blank).reverse
  let (sign, ds) := match cs with
    | '-' :: r => ((-1 : Int), r)
    | '+' :: r => (1, r)
    | r => (1, r)
  if cs.isEmpty then some 0
  else if ds.isEmpty || !ds.all fun c => '0' ≤ c && c ≤ '7' then none
  else some (sign * ds.foldl (fun n c => 8 * n + (c.toNat - '0'.toNat : Nat)) 0)

def number : Except Fault Int :=
  let bytes := (b.extract start (start + length)).data.toList
  let plain := (bytes.drop 1).foldl (fun (n : Int) c => 256 * n + c.toNat) 0
  match bytes.head? with
  | some 0x80 => .ok plain
  | some 0xff => .ok (plain - 256 ^ (length - 1))
  | _ =>
    (octal? ((fieldBytes b start length).map fun c => Char.ofNat c.toNat)).getDM (.error .invalid)

def checksum (block : List UInt8) (signed : Bool) : Int :=
  let value (c : UInt8) : Int := if signed && c ≥ 128 then (c.toNat : Int) - 256 else c.toNat
  ((block.take 148 ++ block.drop 156).map value).foldl (· + ·) 256

/-- A header: the member without its place, and the name of the directory it is in. -/
def header (at' : Nat) : Except Fault Member := do
  let block := (b.extract at' (at' + blockSize)).data.toList
  if block.isEmpty then throw .empty
  if block.length ≠ blockSize then throw .truncated
  if block.all (· = 0) then throw .ending
  let sum ← number b (at' + 148) 8
  if sum ≠ checksum block false && sum ≠ checksum block true then throw .invalid
  let name := fieldText b at' 100
  for (start, length) in [(100, 8), (108, 8), (116, 8), (136, 12), (329, 8), (337, 8)] do
    let _ ← number b (at' + start) length
  let size ← number b (at' + 124) 12
  let kind := block.getD 156 0
  let kind := if kind = 0 && name.endsWith "/" then 53 else kind
  let trimmed := String.ofList (name.toList.reverse.dropWhile (· = '/')).reverse
  let name := if kind = 53 then trimmed else name
  let dir := fieldText b (at' + 345) 155
  let name := if !dir.isEmpty && !(([76, 75, 83] : List Nat).contains kind.toNat) then dir ++ "/" ++ name else name
  return { name, kind, size, start := at' + blockSize }

def filled (size : Int) : Nat := ((size + blockSize - 1) / blockSize * blockSize).toNat

abbrev Properties := List (String × String)

/-- The properties written in data: a length, a name, an equals sign, a value, a new line. -/
def properties : Nat → List UInt8 → Properties → Except Fault Properties
  | 0, _, ps => .ok ps
  | fuel + 1, bs, ps =>
    match bs with
    | [] | 0 :: _ => .ok ps
    | _ =>
      let digits := bs.takeWhile fun c => 48 ≤ c && c ≤ 57
      let length := digits.foldl (fun n c => 10 * n + (c.toNat - 48)) 0
      if digits.isEmpty || bs.getD digits.length 0 ≠ 32 || length < 5 || length > bs.length
          || bs.getD (length - 1) 0 ≠ 10 then .error .invalid
      else
        let body := (bs.take (length - 1)).drop (digits.length + 1)
        let key := body.takeWhile (· ≠ 61)
        if key.isEmpty || key.length = body.length then .error .invalid
        else
          let value := textOf (body.drop (key.length + 1))
          let name := textOf key
          properties fuel (bs.drop length) (ps.filter (·.1 ≠ name) ++ [(name, value)])

def Member.apply (m : Member) (ps : Properties) : Member :=
  let m := match ps.lookup "path" with
    | some s => { m with name := String.ofList (s.toList.reverse.dropWhile (· = '/')).reverse }
    | none => m
  match ps.lookup "size" with
  | some s => { m with size := (s.toInt?).getD 0 }
  | none => m

def Member.stop (m : Member) : Nat :=
  if m.isRegular || !isKnown m.kind then m.start + filled m.size else m.start

/-- The member at a place, where the next one begins, and the properties of all that follow. -/
def member (b : ByteArray) : Nat → Nat → Properties → Except Fault (Member × Nat × Properties)
  | 0, _, _ => .error .invalid
  | fuel + 1, at', shared => do
    let m ← header b at'
    let data := b.extract m.start (m.start + filled m.size)
    let next (ps : Properties) : Except Fault (Member × Nat × Properties) :=
      match member b fuel (m.start + data.size) ps with
      | .ok r => .ok r
      | .error _ => .error .subsequent
    if m.kind = 76 || m.kind = 75 then
      let (n, after, ps) ← next shared
      let name := textOf (data.data.toList.takeWhile (· ≠ 0))
      let name := if n.kind = 53 && name.endsWith "/" then (name.dropEnd 1).toString else name
      return (if m.kind = 76 then { n with name } else n, after, ps)
    else if m.kind = 120 || m.kind = 88 then
      let ps ← properties (data.size + 1) data.data.toList shared
      let (n, after, shared) ← next shared
      let n' := n.apply ps
      return (n', if (ps.lookup "size").isSome then n'.stop else after, shared)
    else if m.kind = 103 then
      next (← properties (data.size + 1) data.data.toList shared)
    else if m.kind = 83 then
      let real ← number b (at' + 483) 12
      return ({ m with size := real }, m.start + filled m.size, shared)
    else
      let stop := m.stop
      return (m.apply shared, stop, shared)

def membersFrom (b : ByteArray) : Nat → Nat → Bool → Properties → Result (List Member)
  | 0, _, _, _ => .ok []
  | fuel + 1, at', first, ps =>
    match member b (b.size / blockSize + 2) at' ps with
    | .ok (m, next, ps) => do
      if next ≠ m.start && next > b.size then throw (.bare .badArchive)
      return m :: (← membersFrom b fuel next false ps)
    | .error .subsequent => .error (.bare .badArchive)
    | .error .ending => .ok []
    | .error _ => if first then .error (.bare .badArchive) else .ok []

def members : Result (List Member) :=
  membersFrom b (b.size / blockSize + 2) 0 true []

def isArchive : Bool :=
  match member b (b.size / blockSize + 2) 0 [] with
  | .ok _ => true
  | .error .ending => true
  | .error _ => false

end LazyTensor.Tar
