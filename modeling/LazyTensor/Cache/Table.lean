import LazyTensor.Number.Const

/-!
# Tables of kept results

A database of tables.  A table has key columns with declared types, and one column for the result.  A
column turns what is put into it, and what it is compared with, into its own kind where that loses
nothing: a number written as text is a number in a column of numbers, and a text in a column of texts.

Rows are found by any of their columns.  Those that share the first key column are found in the order
of their keys, all others in the order in which they were put there.

Names are not quoted when a statement is written, so a name that is not a plain name makes the
statement fail.
-/

namespace LazyTensor.Cache

inductive Cell where
  | null
  | int (n : Int)
  | real (x : Float)
  | text (s : String)
  | blob (b : List UInt8)

inductive Kind where
  | text
  | number
  | blob
  deriving DecidableEq

namespace Cell

/-- A cell from its text. -/
def ofText? (s : String) : Option Cell :=
  let s := s.trimAscii.toString
  let cs := match s.toList with
    | '+' :: r => r
    | '-' :: r => r
    | r => r
  if cs.isEmpty then none
  else if cs.all Char.isDigit then
    match s.toList with
    | '+' :: r => (String.ofList r).toInt?.map .int
    | _ => s.toInt?.map .int
  else if cs.all fun c => c.isDigit || c = '.' || c = 'e' || c = 'E' || c = '+' || c = '-' then
    (Decimal.parse? s).map .real
  else none

def whole : Cell → Cell
  | real x =>
    if x.floor == x && x.abs < 9007199254740992.0 then
      int (((Const.float x).toInt?).toOption.getD 0)
    else real x
  | c => c

def as (k : Kind) (c : Cell) : Cell :=
  match k, c with
  | .text, int n => text (toString n)
  | .text, real x => text (Decimal.text x)
  | .number, text s => ((ofText? s).map whole).getD (text s)
  | .number, real x => whole (real x)
  | _, c => c

def const? : Cell → Option Const
  | int n => some (.int n)
  | real x => some (.float x)
  | _ => none

def eq : Cell → Cell → Bool
  | text a, text b => a == b
  | blob a, blob b => a == b
  | a, b => match a.const?, b.const? with
    | some x, some y => x.eq y
    | _, _ => false

def rank : Cell → Nat
  | null => 0
  | int _ | real _ => 1
  | text _ => 2
  | blob _ => 3

def lt (a b : Cell) : Bool :=
  if a.rank ≠ b.rank then a.rank < b.rank
  else match a, b with
    | text x, text y => x < y
    | blob x, blob y => x.map UInt8.toNat < y.map UInt8.toNat
    | a, b => match a.const?, b.const? with
      | some x, some y => x.lt y
      | _, _ => false

end Cell

structure Column where
  name : String
  kind : Kind

structure Row (α : Type) where
  key : List Cell
  result : α

/-- A table: its key columns, and its rows in the order in which they were put there. -/
structure Table (α : Type) where
  columns : List Column
  rows : List (Row α) := []

def reserved : List String :=
  ("add all alter and as autoincrement between case check collate commit constraint create " ++
    "default deferrable delete distinct drop else escape exists foreign from group having in " ++
    "index insert intersect into is isnull join limit not notnull null on or order primary " ++
    "references select set table then to transaction union unique update using values when " ++
    "where").splitOn " "

def isName (s : String) : Bool :=
  match s.toList with
  | [] => false
  | c :: cs =>
    let isStart (c : Char) : Bool := c.isAlpha || c = '_' || c.toNat ≥ 128
    isStart c && cs.all (fun c => isStart c || c.isDigit || c = '$') && !reserved.contains s.toLower

def isQuotable : List Char → Bool
  | [] => true
  | '\'' :: '\'' :: rest => isQuotable rest
  | c :: rest => c ≠ '\'' && isQuotable rest

def badStatement : Failure := .bare .badStatement

namespace Table

variable {α : Type}

variable (t : Table α)

def position? (name : String) : Option Nat :=
  t.columns.findIdx? fun c => c.name.toLower = name.toLower

variable (key : List (String × Cell))

def positions : Result (List (Nat × Cell)) :=
  key.mapM fun (n, c) => match t.position? n with
    | some i => if isName n then .ok (i, c) else .error badStatement
    | none => .error badStatement

def kindAt (i : Nat) : Kind := (t.columns[i]?.map (·.kind)).getD .blob

/-- Put a result into a table, in place of one with the same key.  Columns that are not given have no
value, and no two rows without a value have the same key. -/
def put (result : α) : Result (Table α) := do
  if key.isEmpty then throw badStatement
  let given ← t.positions key
  let cells := (List.range t.columns.length).map fun i =>
    ((given.lookup i).getD .null).as (t.kindAt i)
  let rows := t.rows.filter fun r => !((r.key.zip cells).all fun (a, b) => a.eq b)
  return { t with rows := rows ++ [⟨cells, result⟩] }

def keyBefore : List Cell → List Cell → Bool
  | a :: as, b :: bs => a.lt b || (!b.lt a && keyBefore as bs)
  | _, _ => false

def find? : Result (Option α) := do
  if key.isEmpty then throw badStatement
  let given ← t.positions key
  let found := t.rows.filter fun r => given.all fun (i, c) =>
    ((r.key[i]?).getD .null).eq (c.as (t.kindAt i))
  let byKey := given.any (·.1 = 0)
  let found := if byKey then found.mergeSort fun a b => !keyBefore b.key a.key else found
  return found.head?.map (·.result)

end Table

structure Database (α : Type) where
  tables : List (String × Table α) := []
  known : List String := []

namespace Database

variable {α : Type}

def version : String := "_20"

variable (d : Database α) (table : String)

def nameOf : Result String :=
  let name := (table ++ version).toLower
  if !isQuotable table.toList || name.startsWith "sqlite_" then .error badStatement else .ok name

def admits (names : List String) : Bool :=
  match nameOf table with
  | .error _ => false
  | .ok name =>
    match d.tables.lookup name with
    | none => false
    | some t => !names.isEmpty && names.all fun n => isName n && (t.position? n).isSome

def get? (key : List (String × Cell)) : Option α :=
  let found : Result (Option α) := do
    let t ← (d.tables.lookup (← nameOf table)).getDM (throw badStatement)
    t.find? key
  match found with
  | .ok r => r
  | .error _ => none

def create (columns : List Column) : Result (Database α) := do
  let name ← nameOf table
  let names := "val" :: columns.map fun c => c.name.toLower
  if columns.isEmpty || !columns.all (fun c => isName c.name) || names.eraseDups.length ≠ names.length
  then throw badStatement
  if (d.tables.lookup name).isSome then return d
  return { d with tables := (name, { columns }) :: d.tables }

def put (d : Database α) (table : String) (key : List (String × Cell)) (result : α) :
    Result (Database α) := do
  let name ← nameOf table
  let t ← (d.tables.lookup name).getDM (throw badStatement)
  let t ← t.put key result
  return { d with tables := (name, t) :: d.tables.filter (·.1 ≠ name) }

def clear : Database α := { d with tables := [] }

end Database

end LazyTensor.Cache
