import LazyTensor.Session.State

/-!
# Object streams

A stream of instructions for a stack machine that builds objects: numbers, texts, lists, dictionaries,
and instances of known kinds.  What has been built can be noted and fetched again, so that objects are
shared.  Saved models are such streams; the elements of their tensors stand elsewhere, and the stream
says where.
-/

namespace LazyTensor

inductive Global where
  | orderedDict
  /-- Something unknown that stands in for a kind of objects. -/
  | placeholder
  | storage (d : DType)
  /-- The function that makes a tensor of a storage. -/
  | rebuild
  | parameter
  /-- The function from texts to bytes. -/
  | encoder
  | other (kind : String)

/-- A stored object. -/
inductive Stored where
  | none
  | bool (b : Bool)
  | int (n : Int)
  | float (x : Float)
  | text (s : String)
  | bytes (b : List UInt8)
  | tuple (xs : List Stored)
  /-- Something that can change: a list, a dictionary, an instance. -/
  | cell (n : Nat)
  | global (g : Global)
  | tensor (place : Nat)

inductive Cell where
  | list (xs : List Stored)
  | dict (entries : List (Stored × Stored)) (ordered : Bool)
  | set (xs : List Stored)
  | made (g : Global) (state : Option Stored)

namespace Stored

def sameKey : Stored → Stored → Bool
  | text a, text b => a == b
  | bytes a, bytes b => a == b
  | int a, int b => a == b
  | bool a, bool b => a == b
  | bool a, int b => Const.ofBool a == b
  | int a, bool b => a == Const.ofBool b
  | float a, float b => a == b
  | none, none => true
  | tuple xs, tuple ys => sameKeys xs ys
  | tensor a, tensor b => a == b
  | _, _ => false
where
  sameKeys : List Stored → List Stored → Bool
    | [], [] => true
    | x :: xs, y :: ys => sameKey x y && sameKeys xs ys
    | _, _ => false

def int? : Stored → Option Int
  | int n => some n
  | bool b => some (Const.ofBool b)
  | _ => Option.none

end Stored

namespace ObjectStream

structure Machine where
  data : ByteArray
  position : Nat := 0
  stack : List Stored := []
  /-- The stacks below the marks, the innermost first. -/
  marks : List (List Stored) := []
  memo : Std.HashMap Nat Stored := {}
  cells : Std.HashMap Nat Cell := {}
  next : Nat := 0
  /-- The lengths of storages that were mentioned, in bytes. -/
  lengths : List (Stored × Int) := []

structure Loader where
  /-- What a name in a module stands for. -/
  global : String → String → SessionM Stored
  /-- What an outside reference stands for. -/
  outside : Stored → SessionM Stored
  /-- A tensor from a storage, and the length of the storage. -/
  rebuild : List Stored → SessionM (Stored × Option (Stored × Int))

abbrev StreamM := StateT Machine SessionM

def bad {α : Type} : StreamM α := throw (.bare .badPickle)

variable (n : Nat)

def takeBytes : StreamM (List UInt8) := do
  let m ← get
  if m.position + n > m.data.size then bad
  set { m with position := m.position + n }
  return (m.data.extract m.position (m.position + n)).data.toList

def takeNat : StreamM Nat := do return Packing.ofLittleEndian (← takeBytes n)

def takeInt : StreamM Int := do
  let v ← takeNat n
  return if n ≠ 0 && 2 * v ≥ 256 ^ n then (v : Int) - 256 ^ n else v

def takeLine : StreamM String := do
  let m ← get
  let rest := (m.data.extract m.position m.data.size).data.toList
  let line := rest.takeWhile (· ≠ 10)
  if line.length = rest.length then bad
  set { m with position := m.position + line.length + 1 }
  (String.fromUTF8? ⟨line.toArray⟩).getDM (throw (.bare .badEncoding))

def takeText : StreamM String := do
  (String.fromUTF8? ⟨(← takeBytes n).toArray⟩).getDM (throw (.bare .badEncoding))

def takePlain : StreamM String := do
  let bs ← takeBytes n
  if bs.any (· ≥ 128) then throw (.bare .badEncoding)
  return String.ofList (bs.map fun b => Char.ofNat b.toNat)

variable (v : Stored)

def push : StreamM Unit := modify fun m => { m with stack := v :: m.stack }

def pop : StreamM Stored := do
  let m ← get
  match m.stack with
  | v :: rest =>
    set { m with stack := rest }
    return v
  | [] => bad

def top : StreamM Stored := do (← get).stack.head?.getDM bad

/-- So many from the stack, the last put there last. -/
def popEach : Nat → StreamM (List Stored)
  | 0 => return []
  | n + 1 => do
    let v ← pop
    return (← popEach n) ++ [v]

def popMark : StreamM (List Stored) := do
  let m ← get
  match m.marks with
  | below :: marks =>
    set { m with stack := below, marks }
    return m.stack.reverse
  | [] => bad

def newCell (c : Cell) : StreamM Stored := do
  let m ← get
  set { m with cells := m.cells.insert m.next c, next := m.next + 1 }
  return .cell m.next

def setCell (c : Cell) : StreamM Unit :=
  modify fun m => { m with cells := m.cells.insert n c }

def cellOf : StreamM Cell := do (← get).cells[n]?.getDM bad

def note : StreamM Unit :=
  modify fun m => { m with memo := m.memo.insert n v }

def noted : StreamM Stored := do (← get).memo[n]?.getDM bad

def putEntries (old new : List (Stored × Stored)) : List (Stored × Stored) :=
  new.foldl (fun es (k, v) =>
    if es.any fun e => e.1.sameKey k then es.map fun e => if e.1.sameKey k then (e.1, v) else e
    else es ++ [(k, v)]) old

def pairs : List Stored → StreamM (List (Stored × Stored))
  | [] => return []
  | k :: v :: rest => return (k, v) :: (← pairs rest)
  | [_] => bad

def extend (xs : List Stored) : StreamM Unit := do
  let .cell n := v | throw .missingMember
  match ← cellOf n with
  | .list ys => setCell n (.list (ys ++ xs))
  | .set ys => setCell n (.set (ys ++ xs.filter fun x => !ys.any (·.sameKey x)))
  | _ => throw .missingMember

def setEntries (es : List (Stored × Stored)) : StreamM Unit := do
  let .cell n := v | throw .wrongType
  let .dict old ordered ← cellOf n | throw .wrongType
  setCell n (.dict (putEntries old es) ordered)

def itemsOf : StreamM (List Stored) := do
  match v with
  | .tuple xs => return xs
  | .cell n =>
    let .list xs ← cellOf n | throw .wrongType
    return xs
  | _ => throw .wrongType

variable (loader : Loader)

/-- A stored function applied to stored arguments. -/
def call (f : Stored) (args : List Stored) : StreamM Stored := do
  match f with
  | .global .orderedDict =>
    match args with
    | [] => newCell (.dict [] true)
    | [xs] =>
      let es ← (← itemsOf xs).mapM fun x => do
        let [k, v] ← itemsOf x | throw .invalidValue
        return (k, v)
      newCell (.dict (putEntries [] es) true)
    | _ => throw .wrongType
  | .global .rebuild =>
    let (r, length) ← loader.rebuild args
    if let some (k, n) := length then
      modify fun m => { m with
        lengths := (k, n) :: m.lengths.filter fun e => !(e.1.sameKey k) }
    return r
  | .global .placeholder | .global .parameter =>
    match f, args with
    | .global g, [] => newCell (.made g none)
    | _, _ => throw .wrongType
  | .global .encoder =>
    let .text s :: _ := args | throw .wrongType
    return .bytes (s.toList.map fun c => UInt8.ofNat c.toNat)
  | _ => throw .wrongType

/-- Call what is on the stack with the arguments above it. -/
def callTop (refuse : StreamM Unit) : StreamM Unit := do
  let args ← pop
  let f ← pop
  match args with
  | .tuple xs => push (← call loader f xs)
  | _ => refuse

def build (v state : Stored) : StreamM Unit := do
  let .cell n := v | throw .missingMember
  match ← cellOf n with
  | .made .parameter _ =>
    let x :: _ ← itemsOf state | throw .outOfRange
    setCell n (.made .parameter (some x))
  | .made g _ => setCell n (.made g (some state))
  | .dict _ true => pure ()
  | _ => throw .missingMember

def quoted (s : String) : StreamM String := do
  let cs := s.toList
  match cs.head?, cs.getLast? with
  | some a, some b =>
    if cs.length ≥ 2 && a = b && (a = '\'' || a = '"') then
      return String.ofList ((cs.drop 1).dropLast)
    else bad
  | _, _ => bad

def decimal (s : String) : StreamM Int :=
  s.toInt?.getDM (throw .invalidValue)

/-- One instruction of a stream of objects. -/
def step (code : Char) : StreamM Unit := do
  match code with
  | '(' => modify fun m => { m with marks := m.stack :: m.marks, stack := [] }
  | '0' => let _ ← pop
  | '1' => let _ ← popMark
  | '2' => push (← top)
  | 'N' => push .none
  | 'I' =>
    let s ← takeLine
    if s = "01" then push (.bool true) else if s = "00" then push (.bool false)
    else push (.int (← decimal s))
  | 'J' => push (.int (← takeInt 4))
  | 'K' => push (.int (← takeNat 1))
  | 'M' => push (.int (← takeNat 2))
  | 'L' =>
    let s ← takeLine
    push (.int (← decimal (if s.endsWith "L" then (s.dropEnd 1).toString else s)))
  | '\x8a' => push (.int (← takeInt (← takeNat 1)))
  | '\x8b' => push (.int (← takeInt (← takeNat 4)))
  | '\x88' => push (.bool true)
  | '\x89' => push (.bool false)
  | 'F' => push (.float (← (Decimal.parse? (← takeLine)).getDM (throw .invalidValue)))
  | 'G' =>
    let n := Packing.ofLittleEndian (← takeBytes 8).reverse
    push (.float (Float.ofBits (UInt64.ofNat n)))
  | 'S' => push (.text (← quoted (← takeLine)))
  | 'V' => push (.text (← takeLine))
  | 'T' => push (.text (← takePlain (← takeNat 4)))
  | 'U' => push (.text (← takePlain (← takeNat 1)))
  | 'X' => push (.text (← takeText (← takeNat 4)))
  | '\x8c' => push (.text (← takeText (← takeNat 1)))
  | '\x8d' => push (.text (← takeText (← takeNat 8)))
  | 'B' => push (.bytes (← takeBytes (← takeNat 4)))
  | 'C' => push (.bytes (← takeBytes (← takeNat 1)))
  | '\x8e' | '\x96' => push (.bytes (← takeBytes (← takeNat 8)))
  | ')' => push (.tuple [])
  | 't' => push (.tuple (← popMark))
  | '\x85' => push (.tuple (← popEach 1))
  | '\x86' => push (.tuple (← popEach 2))
  | '\x87' => push (.tuple (← popEach 3))
  | ']' => push (← newCell (.list []))
  | 'l' => push (← newCell (.list (← popMark)))
  | 'a' =>
    let x ← pop
    extend (← top) [x]
  | 'e' | '\x90' =>
    let xs ← popMark
    extend (← top) xs
  | '}' => push (← newCell (.dict [] false))
  | 'd' => push (← newCell (.dict (putEntries [] (← pairs (← popMark))) false))
  | 's' =>
    let v ← pop
    let k ← pop
    setEntries (← top) [(k, v)]
  | 'u' =>
    let es ← pairs (← popMark)
    setEntries (← top) es
  | '\x8f' => push (← newCell (.set []))
  | '\x91' => push (← newCell (.set (← popMark)))
  | 'p' => note (← decimal (← takeLine)).toNat (← top)
  | 'q' => note (← takeNat 1) (← top)
  | 'r' => note (← takeNat 4) (← top)
  | '\x94' => note (← get).memo.size (← top)
  | 'g' => push (← noted (← decimal (← takeLine)).toNat)
  | 'h' => push (← noted (← takeNat 1))
  | 'j' => push (← noted (← takeNat 4))
  | 'c' =>
    let module ← takeLine
    let name ← takeLine
    push (← loader.global module name)
  | '\x93' =>
    let name ← pop
    let module ← pop
    match module, name with
    | .text m, .text n => push (← loader.global m n)
    | _, _ => bad
  | 'P' => push (← loader.outside (.text (← takeLine)))
  | 'Q' =>
    let v ← pop
    push (← loader.outside v)
  | 'R' => callTop loader (throw .wrongType)
  | '\x81' => callTop loader bad
  | '\x92' =>
    let _ ← pop
    callTop loader bad
  | 'o' =>
    match ← popMark with
    | f :: xs => push (← call loader f xs)
    | [] => bad
  | 'i' =>
    let module ← takeLine
    let name ← takeLine
    let xs ← popMark
    push (← call loader (← loader.global module name) xs)
  | 'b' =>
    let state ← pop
    build (← top) state
  | '\x80' =>
    if (← takeNat 1) > 5 then throw .invalidValue
  | '\x95' => let _ ← takeNat 8
  | _ => bad

/-- Run instructions up to the stop; the fuel is at least the number of bytes. -/
def runFrom (loader : Loader) : Nat → StreamM Stored
  | 0 => bad
  | fuel + 1 => do
    let m ← get
    let code ← m.data.data[m.position]?.getDM (throw (.bare .endOfData))
    set { m with position := m.position + 1 }
    if code = 46 then return ← pop
    step loader (Char.ofNat code.toNat)
    runFrom loader fuel

def load : StreamM Stored := do
  modify fun m => { m with stack := [], marks := [] }
  runFrom loader ((← get).data.size + 1)

end ObjectStream

end LazyTensor
