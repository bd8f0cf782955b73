import LazyTensor.Console.Arguments
import LazyTensor.Text.Character

/-!
# Small functions by name

Functions on plain values: products, divisions and bit fields, lists without duplicates, nested lists
made flat, colored text.  Operands may be nodes of a graph where the function does arithmetic only.
-/

namespace LazyTensor

namespace Plain

/-- Whether two values are equal; numbers of all kinds are compared by value. -/
def same : Nat → Value → Value → Bool
  | 0, _, _ => false
  | fuel + 1, a, b =>
    let all (xs ys : List Value) : Bool :=
      xs.length = ys.length && (xs.zip ys).all fun (x, y) => same fuel x y
    match a, b with
    | .null, .null => true
    | .text x, .text y => x == y
    | .bytes x, .bytes y => x == y
    | .list xs, .list ys => all xs ys
    | .tuple xs, .tuple ys => all xs ys
    | .dict es, .dict fs =>
      es.length = fs.length && es.all fun (k, v) => fs.any fun (l, w) => same fuel k l && same fuel v w
    | .dtype x, .dtype y => x == y
    | .op x, .op y => x == y
    | .expr x, .expr y => x == y
    | a, b => match a.const?, b.const? with
      | some x, some y => x.eq y
      | _, _ => false

def depth : Nat := 256

def equal (a b : Value) : Bool := same depth a b

def beforeTo : Nat → Value → Value → Result Bool
  | 0, _, _ => .error (.bare .recursionLimit)
  | fuel + 1, a, b =>
    let rec go : List Value → List Value → Result Bool
      | [], [] => .ok false
      | [], _ :: _ => .ok true
      | _ :: _, [] => .ok false
      | x :: xs, y :: ys => if equal x y then go xs ys else beforeTo fuel x y
    match a, b with
    | .text x, .text y => .ok (x < y)
    | .list xs, .list ys => go xs ys
    | .tuple xs, .tuple ys => go xs ys
    | a, b => match a.const?, b.const? with
      | some x, some y => .ok (x.lt y)
      | _, _ => .error .wrongType

def before (a b : Value) : Result Bool := beforeTo depth a b

def isKey : Value → Bool := Value.fold fun v xs _ => match v with
  | .list _ | .dict _ | .array .. => false
  | .tuple _ => xs.all id
  | _ => true

def items (v : Value) : Result (List Value) :=
  match v with
  | .list xs | .tuple xs => .ok xs
  | .text s => .ok (s.toList.map fun c => .text (String.singleton c))
  | .bytes b => .ok (b.map fun (x : UInt8) => .int x.toNat)
  | .dict es => .ok (es.map (·.1))
  | _ => .error .wrongType

def arith (onConst : Const → Const → Result Const) (name reversed : String) (a b : Value) :
    GraphM Value := do
  match a.const?, b.const? with
  | some x, some y => return .ofConst (← onConst x y)
  | _, _ =>
    match a, b with
    | .expr e, b => .expr <$> Method.call name e [b]
    | a, .expr e => .expr <$> Method.call reversed e [a]
    | _, _ => wrongType

def add : Value → Value → GraphM Value := arith Const.add "add" "__radd__"

def sub (a b : Value) : GraphM Value :=
  match a with
  | .expr e => return .expr (← e.sub (← b.negatable))
  | a => arith Const.sub "sub" "__rsub__" a b

def copies {α : Type} (n : Int) (xs : List α) : List α := (List.replicate n.toNat xs).flatten

def mul (a b : Value) : GraphM Value := do
  let times (v : Value) (n : Int) : GraphM Value := match v with
    | .text s => return .text (String.ofList (copies n s.toList))
    | .bytes b => return .bytes (copies n b)
    | .list xs => return .list (copies n xs)
    | .tuple xs => return .tuple (copies n xs)
    | _ => wrongType
  match a, b with
  | .text _, b | .bytes _, b | .list _, b | .tuple _, b => times a (← b.toInt)
  | a, .text _ | a, .bytes _ | a, .list _ | a, .tuple _ => times b (← a.toInt)
  | a, b => arith Const.mul "mul" "__rmul__" a b

def floorDiv : Value → Value → GraphM Value := arith Const.floorDiv "idiv" "__rfloordiv__"

def neg (v : Value) : GraphM Value :=
  match v with
  | .expr e => return .expr (← e.neg)
  | v => return .ofConst (← v.toConst).neg

def land : Value → Value → GraphM Value := arith Const.land "bitwise_and" "__rand__"

def shiftRight : Value → Value → GraphM Value := arith Const.shiftRight "rshift" "__rrshift__"

def text (v : Value) : GraphM String :=
  match v with
  | .text s => pure s
  | _ => wrongType

def inText : Value → String
  | .text s => s
  | v => v.shown

end Plain

namespace Functions

open Plain

def unique (xs : List Value) : Result (List Value) := do
  if !xs.all isKey then throw .wrongType
  return xs.foldl (fun acc x => if acc.any (equal x) then acc else acc ++ [x]) []

def order (xs : List Value) : Result (List Value) := do
  let sorted ← Sorting.sort? (fun (a b : Value × Nat) => before a.1 b.1) xs.zipIdx
  return sorted.map fun (_, i) => .int i

def colorCode (color : String) (background : Const) : Result Const := do
  let i := Escape.colors.findIdx (· == color.toLower)
  if i ≥ Escape.colors.length then throw .invalidValue
  let bright : Int := if color.toUpper == color then 60 else 0
  (← Const.mul (.int 10) background).add (.int (bright + 30 + i))

def colored (st color : Value) (background : Value := .bool false) : GraphM Value := do
  match color with
  | .null => return st
  | .text c =>
    let n ← colorCode c (← background.toConst)
    let mark := String.singleton Escape.mark
    return .text (mark ++ "[" ++ n.text ++ "m" ++ inText st ++ mark ++ "[0m")
  | _ => throw .missingMember

def twoPlaces (width : Nat) (v : Value) : GraphM String := do
  match v with
  | .text _ => throw .invalidValue
  | v => return Decimal.padLeft width (Decimal.fixed 2 (← (← v.toConst).toFloat?))

def ratio (v : Value) : GraphM Value := do
  let s ← twoPlaces 7 v
  let c ← v.toConst
  let color := if c.lt (.float 0.75) then "green"
    else if Const.lt (.float 1.15) c then "red" else "yellow"
  return .text (Escape.colored (s ++ "x") color)

def duration (t : Value) (width : Value) : GraphM Value := do
  let c ← t.toConst
  let w ← width.toInt
  if w < 0 then throw .invalidValue
  let scaled (k : Float) (unit : String) : GraphM Value := do
    let x ← Const.mul c (.float k)
    return .text ((← twoPlaces w.toNat (.ofConst x)) ++ unit)
  if Const.lt (.float 10) c then do
    return .text ((← twoPlaces w.toNat t) ++ "s ")
  else if Const.lt (.float (10 / 1e3)) c then scaled 1e3 "ms"
  else scaled 1e6 "us"

def leaves : Value → List Value := Value.fold fun v xs es => match v with
  | .list _ | .tuple _ => xs.flatten
  | .dict _ => es.flatMap (·.1)
  | .bytes b => b.map fun (x : UInt8) => .int x.toNat
  | v => [v]

def position (c : Char) (cs : List Char) : Int :=
  let i := cs.findIdx (· = c)
  if i < cs.length then i else -1

def bareText (s : String) : Result String :=
  let cs := s.toList
  match cs.head?, cs.getLast? with
  | some a, some b =>
    let inner := (cs.drop 1).dropLast
    .ok (if a = '(' && b = ')' && position '(' inner ≤ position ')' inner then String.ofList inner
      else s)
  | _, _ => .error .outOfRange

def ceilDiv (a b : Value) : GraphM Value := do
  let q ← neg (← floorDiv a (← neg b))
  match q with
  | .float x => return .int (← (Const.float x).toInt?)
  | q => return q

def roundUp (a b : Value) : GraphM Value := do
  mul (← floorDiv (← sub (← add a b) (.int 1)) b) b

def truncDiv (x y : Const) : Result Const := do
  if y.eq (.int 0) then return .int 0
  let q ← x.abs.floorDiv y.abs
  let negative := (← x.mul y).lt (.int 0)
  q.mul (.int (if negative then -1 else 1))

def merge (ds : List Value) : Result Value := do
  let entries ← ds.mapM fun d => match d with
    | .dict es => .ok es
    | _ => .error .missingMember
  let all := entries.flatten
  if !all.all fun (k, v) => isKey k && isKey v then throw .wrongType
  let pairs := all.foldl (fun (acc : List (Value × Value)) (k, v) =>
    if acc.any fun (l, w) => equal k l && equal v w then acc else acc ++ [(k, v)]) []
  let keys := pairs.foldl (fun (acc : List Value) (k, _) =>
    if acc.any (equal k) then acc else acc ++ [k]) []
  if pairs.length ≠ keys.length then throw (.bare .brokenContract)
  return .dict (all.foldl (fun (acc : List (Value × Value)) (k, v) =>
    if acc.any fun (l, _) => equal k l then
      acc.map fun (l, w) => if equal k l then (l, v) else (l, w)
    else acc ++ [(k, v)]) [])

variable (v : Value)

def size : Result Nat := do return (← items v).length

def entryAt (es : List (Value × Value)) (key : Value) : Result Value :=
  ((es.find? fun (k, _) => equal k key).map (·.2)).getDM (.error .missingKey)

def itemAt (i : Nat) : Result Value :=
  match v with
  | .dict es => entryAt es (.int i)
  | v => do (← items v)[i]?.getDM (.error .outOfRange)

def memberOf (name : String) : Result Value :=
  let function := Value.object "builtin_function_or_method" 0
  let oneOf (names : String) : Result Value :=
    if (names.splitOn " ").contains name then .ok function else .error .missingMember
  match v with
  | .list _ => oneOf "append clear copy count extend index insert pop remove reverse sort"
  | .tuple _ => oneOf "count index"
  | .text _ => oneOf ("capitalize casefold center count encode endswith find format index isalpha " ++
      "isdigit join lower lstrip replace rstrip split startswith strip title upper " ++
      "zfill")
  | .int n => match name with
    | "real" | "numerator" => .ok (.int n)
    | "imag" => .ok (.int 0)
    | "denominator" => .ok (.int 1)
    | _ => oneOf "bit_length bit_count conjugate to_bytes from_bytes as_integer_ratio"
  | .float x => match name with
    | "real" => .ok (.float x)
    | "imag" => .ok (.float 0)
    | _ => oneOf "hex is_integer conjugate as_integer_ratio fromhex"
  | _ => .error .missingMember

def child (k : String) : Result Value :=
  if !k.isEmpty && k.all Numeral.isNumeral then
    match Numeral.decimal? k with
    | some i => itemAt v i
    | none => .error .invalidValue
  else match v with
    | .dict es => entryAt es (.text k)
    | v => memberOf v k

/-- A text as a name: what is no letter, digit or underscore becomes its number. -/
def nameOf (s : String) : String :=
  (Escape.strip s).foldl (fun acc c =>
    if c.isAlphanum || c = '_' then acc.push c
    else
      let digits := (String.ofList (Nat.toDigits 16 c.toNat)).toUpper
      acc ++ (if digits.length < 2 then "0" ++ digits else digits)) ""

def halves : GraphM (Value × Value) := do
  return (← shiftRight v (.int 32), ← land v (.int 0xFFFFFFFF))

def known : List String :=
  ("prod dedup argsort all_same all_int colored colorize_float time_to_str ansistrip " ++
    "ansilen make_tuple flatten fully_flatten strip_parens ceildiv round_up round_down " ++
    "cdiv cmod lo32 hi32 data64 data64_le getbits i2u is_numpy_ndarray merge_dicts unwrap " ++
    "get_single_element get_child word_wrap pluralize polyN to_function_name getenv").splitOn " "

/-- A function called by its name. -/
def call (name : String) (args : List Value) : GraphM Value := do
  match name, args with
  | "prod", [x] => (← items x).foldlM mul (.int 1)
  | "dedup", [x] => return .list (← unique (← items x))
  | "argfix", xs =>
    match xs with
    | [.list ys] | [.tuple ys] => return .tuple ys
    | .list _ :: _ | .tuple _ :: _ =>
      let shown := (Value.tuple xs).shown
      throw (.invalid s!"bad arg {shown}")
    | xs => return .tuple xs
  | "argsort", [.list xs] => return .list (← order xs)
  | "argsort", [.tuple xs] => return .tuple (← order xs)
  | "argsort", [.text s] => return .text (Value.list (← order (← items (.text s)))).shown
  | "all_same", [x] =>
    let y :: ys ← items x | return .bool true
    return .bool ((y :: ys).all fun z => equal z y)
  | "all_int", [x] => return .bool ((← items x).all fun y => y.int?.isSome)
  | "colored", [st, color] => colored st color
  | "colored", [st, color, background] => colored st color background
  | "colorize_float", [x] => ratio x
  | "time_to_str", [t] => duration t (.int 8)
  | "time_to_str", [t, w] => duration t w
  | "ansistrip", [x] => return .text (Escape.strip (← text x))
  | "ansilen", [x] => return .int (Escape.length (← text x))
  | "make_tuple", [x, n] =>
    match x.int? with
    | some _ => return .tuple (copies (← n.toInt) [x])
    | none => return .tuple (← items x)
  | "flatten", [x] => return .list (← (← items x).mapM fun y => liftM (items y)).flatten
  | "fully_flatten", [x] => return .list (leaves x)
  | "strip_parens", [x] => return .text (← bareText (← text x))
  | "ceildiv", [a, b] => ceilDiv a b
  | "round_up", [a, b] => roundUp a b
  | "round_down", [a, b] => neg (← roundUp (← neg a) b)
  | "cdiv", [a, b] => return .ofConst (← truncDiv (← a.toConst) (← b.toConst))
  | "cmod", [a, b] =>
    let x ← a.toConst
    let y ← b.toConst
    return .ofConst (← x.sub (← (← truncDiv x y).mul y))
  | "lo32", [x] => return (← halves x).2
  | "hi32", [x] => return (← halves x).1
  | "data64", [x] =>
    let (high, low) ← halves x
    return .tuple [high, low]
  | "data64_le", [x] =>
    let (high, low) ← halves x
    return .tuple [low, high]
  | "getbits", [v, start, stop] =>
    let v ← v.toConst
    let start ← start.toConst
    let width ← (← (← stop.toConst).sub start).add (.int 1)
    let moved ← v.shiftRight start
    return .ofConst (← moved.land (← (← Const.shiftLeft (.int 1) width).sub (.int 1)))
  | "i2u", [bits, v] =>
    let c ← v.toConst
    if c.lt (.int 0) then return .ofConst (← (← Const.shiftLeft (.int 1) (← bits.toConst)).add c)
    return v
  | "is_numpy_ndarray", [x] => return .bool (match x with
    | .array .. => true
    | _ => false)
  | "merge_dicts", [x] => merge (← items x)
  | "unwrap", [x] => if x.isNone then throw (.broken "") else return x
  | "get_single_element", [x] =>
    if (← size x) ≠ 1 then
      let shown := inText x
      throw (.broken s!"{shown} must only have 1 element")
    itemAt x 0
  | "get_child", [x, key] =>
    let .text k := key | throw .missingMember
    (k.splitOn ".").foldlM (fun v k => liftM (child v k)) x
  | "word_wrap", x :: rest =>
    let width ← match rest with
      | [] => pure 80
      | [w] => w.toInt
      | _ => wrongType
    let s ← (Escape.wrap (← text x) width).getDM (throw (.bare .recursionLimit))
    return .text s
  | "pluralize", [st, n] =>
    let one := equal n (.int 1)
    return .text (inText n ++ " " ++ inText st ++ if one then "" else "s")
  | "polyN", [x, p] =>
    (← items p).foldlM (fun acc c => do add (← mul acc x) c) (.float 0)
  | "to_function_name", [x] => return .text (nameOf (← text x))
  | "getenv", [.text _] => return .int 0
  | "getenv", [.text _, v] => return v
  | _, _ =>
    if known.contains name then wrongType
    else throw .missingMember

end Functions

end LazyTensor
