import LazyTensor.Number.Decimal
import LazyTensor.Text.Quoted

/-!
# Documents

Trees of nulls, truth values, numbers, texts, lists and records, and their usual written form.
Integers are exact and apart from decimals; the fields of a record keep their order.
-/

namespace LazyTensor

/-- Entries with one more, which takes the place of an entry with the same key. -/
def Entries.put {α β : Type} [BEq α] (es : List (α × β)) (k : α) (v : β) : List (α × β) :=
  if es.any (·.1 == k) then es.map fun e => if e.1 == k then (k, v) else e else es ++ [(k, v)]

inductive Json where
  | null
  | bool (b : Bool)
  | int (n : Int)
  | dec (x : Float)
  | text (s : String)
  | list (xs : List Json)
  | record (fields : List (String × Json))

namespace Json

def field? (j : Json) (k : String) : Option Json :=
  match j with
  | .record fs => (fs.find? (·.1 == k)).map (·.2)
  | _ => none

def items? : Json → Option (List Json)
  | .list xs => some xs
  | _ => none

def text? : Json → Option String
  | .text s => some s
  | _ => none

def int? : Json → Option Int
  | .int n => some n
  | _ => none

def isOn : Json → Bool
  | .bool b => b
  | .int n => n ≠ 0
  | _ => false

/-- One character in the written form of a text; outside ASCII in units of sixteen bits. -/
def escapeChar (c : Char) : String :=
  if c = '"' then "\\\""
  else if c = '\\' then "\\\\"
  else if c = '\n' then "\\n"
  else if c = '\r' then "\\r"
  else if c = '\t' then "\\t"
  else
    let n := c.toNat
    if n < 0x20 || (0x7f ≤ n && n < 0x10000) then "\\u" ++ Quoted.hexWidth 4 n
    else if n < 0x7f then String.singleton c
    else
      let m := n - 0x10000
      "\\u" ++ Quoted.hexWidth 4 (0xd800 + m / 0x400) ++ "\\u" ++ Quoted.hexWidth 4 (0xdc00 + m % 0x400)

def quote (s : String) : String := s.foldl (fun acc c => acc ++ escapeChar c) "\"" ++ "\""

/-- The text of a value after another text. -/
def writeTo (acc : String) : Json → String
  | .null => acc ++ "null"
  | .bool b => acc ++ (if b then "true" else "false")
  | .int n => acc ++ toString n
  | .dec x => acc ++ Decimal.text x
  | .text s => acc ++ quote s
  | .list xs => writeItems (acc ++ "[") true xs ++ "]"
  | .record fs => writeFields (acc ++ "\x7b") true fs ++ "\x7d"
where
  writeItems (acc : String) (first : Bool) : List Json → String
    | [] => acc
    | x :: xs => writeItems (writeTo (if first then acc else acc ++ ",") x) false xs
  writeFields (acc : String) (first : Bool) : List (String × Json) → String
    | [] => acc
    | (k, x) :: xs =>
      writeFields (writeTo ((if first then acc else acc ++ ",") ++ quote k ++ ":") x) false xs

def write (j : Json) : String := writeTo "" j

private def skip : List Char → List Char
  | ' ' :: cs | '\n' :: cs | '\r' :: cs | '\t' :: cs => skip cs
  | cs => cs

def hexValue? (c : Char) : Option Nat :=
  if '0' ≤ c && c ≤ '9' then some (c.toNat - '0'.toNat)
  else if 'a' ≤ c && c ≤ 'f' then some (c.toNat - 'a'.toNat + 10)
  else if 'A' ≤ c && c ≤ 'F' then some (c.toNat - 'A'.toNat + 10)
  else none

private def hex4? : List Char → Option (Nat × List Char)
  | a :: b :: c :: d :: rest => do
    let n ← [a, b, c, d].foldlM (fun acc x => do return acc * 16 + (← hexValue? x)) 0
    return (n, rest)
  | _ => none

private def readText : Nat → List Char → List Char → Option (String × List Char)
  | 0, _, _ => none
  | fuel + 1, acc, cs =>
    match cs with
    | '"' :: rest => some (String.ofList acc.reverse, rest)
    | '\\' :: 'u' :: rest => do
      let (n, rest) ← hex4? rest
      if 0xd800 ≤ n && n < 0xdc00 then
        match rest with
        | '\\' :: 'u' :: rest' =>
          let (m, rest'') ← hex4? rest'
          if 0xdc00 ≤ m && m < 0xe000 then
            readText fuel (Char.ofNat (0x10000 + (n - 0xd800) * 0x400 + (m - 0xdc00)) :: acc) rest''
          else readText fuel (Char.ofNat 0xfffd :: acc) rest
        | _ => readText fuel (Char.ofNat 0xfffd :: acc) rest
      else readText fuel (Char.ofNat n :: acc) rest
    | '\\' :: c :: rest =>
      match c with
      | '"' | '\\' | '/' => readText fuel (c :: acc) rest
      | 'n' => readText fuel ('\n' :: acc) rest
      | 'r' => readText fuel ('\r' :: acc) rest
      | 't' => readText fuel ('\t' :: acc) rest
      | 'b' => readText fuel ('\x08' :: acc) rest
      | 'f' => readText fuel ('\x0c' :: acc) rest
      | _ => none
    | c :: rest => if c.toNat < 0x20 then none else readText fuel (c :: acc) rest
    | [] => none

private def inNumber (c : Char) : Bool :=
  c.isDigit || c = '-' || c = '+' || c = '.' || c = 'e' || c = 'E'

private def readNumber (cs : List Char) : Option (Json × List Char) := do
  let ds := cs.takeWhile inNumber
  let rest := cs.dropWhile inNumber
  let s := String.ofList ds
  let (neg, digits) := match ds with
    | '-' :: r => (true, r)
    | r => (false, r)
  match digits with
  | [] => none
  | d :: more =>
    if !d.isDigit || (d = '0' && (more.head?.elim false Char.isDigit)) then none
    else if digits.all Char.isDigit then
      let n : Int := (digits.foldl (fun a c => a * 10 + (c.toNat - '0'.toNat)) 0 : Nat)
      some (.int (if neg then -n else n), rest)
    else
      let x ← Decimal.parse? s
      some (.dec x, rest)

mutual

private def readValue : Nat → List Char → Option (Json × List Char)
  | 0, _ => none
  | fuel + 1, cs =>
    match skip cs with
    | 'n' :: 'u' :: 'l' :: 'l' :: r => some (.null, r)
    | 't' :: 'r' :: 'u' :: 'e' :: r => some (.bool true, r)
    | 'f' :: 'a' :: 'l' :: 's' :: 'e' :: r => some (.bool false, r)
    | 'N' :: 'a' :: 'N' :: r => some (.dec Binary64.nan, r)
    | 'I' :: 'n' :: 'f' :: 'i' :: 'n' :: 'i' :: 't' :: 'y' :: r => some (.dec (Binary64.infinity false), r)
    | '-' :: 'I' :: 'n' :: 'f' :: 'i' :: 'n' :: 'i' :: 't' :: 'y' :: r =>
      some (.dec (Binary64.infinity true), r)
    | '"' :: r => do
      let (s, r) ← readText (r.length + 1) [] r
      some (.text s, r)
    | '[' :: r =>
      match skip r with
      | ']' :: r => some (.list [], r)
      | r => readItems fuel [] r
    | '\x7b' :: r =>
      match skip r with
      | '\x7d' :: r => some (.record [], r)
      | r => readFields fuel [] r
    | r => readNumber r

private def readItems : Nat → List Json → List Char → Option (Json × List Char)
  | 0, _, _ => none
  | fuel + 1, acc, cs => do
    let (x, r) ← readValue fuel cs
    match skip r with
    | ',' :: r => readItems fuel (x :: acc) r
    | ']' :: r => some (.list (x :: acc).reverse, r)
    | _ => none

private def readFields : Nat → List (String × Json) → List Char → Option (Json × List Char)
  | 0, _, _ => none
  | fuel + 1, acc, cs =>
    match skip cs with
    | '"' :: r => do
      let (k, r) ← readText (r.length + 1) [] r
      match skip r with
      | ':' :: r =>
        let (x, r) ← readValue fuel r
        let acc := if acc.any (·.1 == k) then acc.map fun (k', y) => (k', if k' == k then x else y)
          else (k, x) :: acc
        match skip r with
        | ',' :: r => readFields fuel acc r
        | '\x7d' :: r => some (.record acc.reverse, r)
        | _ => none
      | _ => none
    | _ => none

end

def parse? (s : String) : Option Json := do
  let cs := s.toList
  let (j, r) ← readValue (cs.length + 2) cs
  if (skip r).isEmpty then some j else none

end Json

end LazyTensor
