import LazyTensor.Code.Dialect
import LazyTensor.Graph.Text

/-!
# Statements

The text of one node of a linear program in a dialect, given the texts of its sources.
-/

namespace LazyTensor.Statement

abbrev Texts := Std.HashMap Nat String

def look (r : Texts) (e : Expr) : Result String :=
  r[e.number]?.getDM (.error .missingKey)

def source (e : Expr) (i : Nat) : Result Expr :=
  e.src[i]?.getDM (.error .outOfRange)

def lookAt (r : Texts) (e : Expr) (i : Nat) : Result String := do look r (← source e i)

def stripParens (s : String) : String :=
  match s.toList with
  | '(' :: rest =>
    match rest.getLast?, rest.dropLast with
    | some ')', inner =>
      let place (c : Char) : Int := ((inner.findIdx? (· == c)).map fun n => (n : Int)).getD (-1)
      if place '(' ≤ place ')' then String.ofList inner else s
    | _, _ => s
  | _ => s

def isOf (ds : List DType) (d : DType) : Bool := ds.contains d || ds.contains d.scalar

variable (dl : Dialect)

/-- A constant as a language writes it. -/
def constant (x : Expr) : Result String := do
  let .const c := x.arg | .error .wrongType
  let d := x.dtype
  let inf : Float := 1.0 / 0.0
  let number := c.text
  if Const.eq c (.float inf) then return s!"({dl.castText d dl.infinity})"
  if Const.eq c (.float (-inf)) then return "(" ++ dl.castText d s!"-{dl.infinity}" ++ ")"
  let isNan := match c with
    | .float f => f.isNaN
    | _ => false
  if isOf DType.floats d && isNan then return s!"({dl.castText d dl.nan})"
  if isOf [.float] d then return number ++ "f"
  if isOf [.long] d then return number ++ "ll"
  if isOf [.ulong] d then return number ++ "ull"
  if isOf [.uint] d then return number ++ "u"
  if isOf [.bool] d then return if c.truthy then "1" else "0"
  if isOf [.bfloat16, .half] d then return "(" ++ dl.castText d (number ++ "f") ++ ")"
  if isOf [.uint8, .uint16] d then return "(" ++ dl.castText d (number ++ "u") ++ ")"
  if isOf [.int8, .int16] d then return s!"({dl.castText d number})"
  return number

/-- A template with texts in its gaps. -/
def fill (template : List Char) (xs : List String) : Result String := do
  return String.ofList (← go template 0)
where
  go : List Char → Nat → Result (List Char)
    | [], _ => .ok []
    | '\x7b' :: '\x7b' :: rest, n => return '\x7b' :: (← go rest n)
    | '\x7d' :: '\x7d' :: rest, n => return '\x7d' :: (← go rest n)
    | '\x7b' :: '\x7d' :: rest, n => do
      let some s := xs[n]? | .error .outOfRange
      return s.toList ++ (← go rest (n + 1))
    | '\x7b' :: d :: '\x7d' :: rest, n => do
      if d.isDigit then
        let some s := xs[d.toNat - '0'.toNat]? | .error .outOfRange
        return s.toList ++ (← go rest n)
      else .error .missingKey
    | '\x7b' :: _, _ => .error .invalidValue
    | '\x7d' :: _, _ => .error .invalidValue
    | c :: rest, n => return c :: (← go rest n)

def isChain : Op → Bool
  | .add | .mul | .xor | .or | .and => true
  | _ => false

/-- The address a load or store goes to, if it is behind a condition: what is dereferenced, and the
condition. -/
def gatedAddress? (e : Expr) : Option (Expr × Expr) :=
  let gateOf (a : Expr) : Option Expr := if a.is .index && a.src.length = 3 then a.src[2]? else none
  match e.src with
  | a :: _ =>
    match gateOf a with
    | some g => some (a, g)
    | none =>
      if a.is .cast then
        match a.src with
        | [b] => (gateOf b).map fun g => (a, g)
        | _ => none
      else none
  | [] => none

def nameArg (x : Expr) : Result String :=
  match x.arg with
  | .tuple (.text s :: _) => .ok s
  | .tuple (_ :: _) => .error .wrongType
  | .tuple [] => .error .outOfRange
  | _ => .error .wrongType

def special (x : Expr) : Result String := do
  let name ← nameArg x
  match name.toList.head?, name.toList.getLast? with
  | some k, some axis =>
    let some f := dl.position k | .error .missingKey
    let p ← f axis
    let some n := x.arg.items[1]? | .error .outOfRange
    return p ++ s!"; /* {n.bareText} */"
  | _, _ => .error .outOfRange

def laneLetters : String := "xyzwabcd"

def lane (r : Texts) (x : Expr) : Result String := do
  let a ← source x 0
  let v ← look r a
  let some lanes := x.arg.ints? | .error .wrongType
  let i :: _ := lanes | .error .outOfRange
  if a.dtype.count > dl.laneNames then return v ++ s!"[{i}]"
  let i := if i < 0 then i + 8 else i
  let some c := if i < 0 then none else laneLetters.toList[i.toNat]? | .error .outOfRange
  return v ++ s!".{String.singleton c}"

def matrix (r : Texts) (x : Expr) (more : String) : Result String := do
  let name ← nameArg x
  return s!"__{name}({← lookAt r x 0}, {← lookAt r x 1}, "
    ++ (← lookAt r x 2) ++ more ++ ")"

/-- A read or a write of an image. -/
def image? (r : Texts) (x : Expr) : Result (Option String) := do
  let isImageIndex (a : Expr) : Bool := a.is .index && (a.src[1]?).elim false fun i => i.dtype = .vec .int32 2
  match x.op, x.src with
  | .load, [a, alt] =>
    if x.dtype = .vec .float32 4 && isImageIndex a && a.src.length = 3 then
      return some (s!"({← lookAt r a 2}?read_imagef({← lookAt r a 0}, smp, "
        ++ (← lookAt r a 1) ++ s!"):{← look r alt})")
    return none
  | .load, [a] =>
    if x.dtype = .vec .float32 4 && isImageIndex a && a.src.length = 2 then
      return some s!"read_imagef({← lookAt r a 0}, smp, {← lookAt r a 1})"
    return none
  | .store, a :: v :: _ =>
    if isImageIndex a && a.src.length = 2 && v.dtype = .vec .float32 4 then
      return some (s!"write_imagef({← lookAt r a 0}, {← lookAt r a 1}, "
        ++ (← look r v) ++ ");")
    return none
  | _, _ => return none

/-- A node that a language writes in its own way. -/
def own? (t : Target) (dl : Dialect) (r : Texts) (x : Expr) : Result (Option String) := do
  let openclText : Result (Option String) := do
    if x.is .bitcast then
      return some s!"as_{dl.typeText x.dtype}({← lookAt r x 0})"
    image? r x
  match t with
  | .opencl | .qcom => openclText
  | .intel =>
    match x.op, x.src with
    | .cast, [a] =>
      if isOf [.bfloat16] x.dtype && isOf [.float] a.dtype then
        return some s!"intel_convert_bfloat16_as_ushort({← look r a})"
      if isOf [.float] x.dtype && isOf [.bfloat16] a.dtype then
        return some s!"intel_convert_as_bfloat16_float({← look r a})"
      openclText
    | _, _ => openclText
  | .metal =>
    if x.is .bitcast then
      return some s!"as_type<{dl.typeText x.dtype}>({← lookAt r x 0})"
    return none
  | .amd arch | .hip arch =>
    if x.is .wmma && arch.startsWith "gfx942" then return some (← matrix r x ", 0, 0, 0")
    return none
  | _ => return none

/-- A node that all languages write alike. -/
def common? (r : Texts) (x : Expr) : Result (Option String) := do
  match x.op with
  | .defineReg | .noop => return some (← lookAt r x 0)
  | .assign => return some ((← lookAt r x 0) ++ s!" = {← lookAt r x 1};")
  | .branch => return some s!"if ({← lookAt r x 0}) \x7b"
  | .endBranch | .endRange => return some "\x7d"
  | .wmma => return some (← matrix r x "")
  | .range =>
    let i ← look r x
    return some (s!"for ({dl.typeText x.dtype} {i} = 0; {i} < "
      ++ (← lookAt r x 0) ++ s!"; {i}++) \x7b")
  | .vectorize =>
    let items ← x.src.mapM (look r)
    return some (dl.vector (dl.typeText x.dtype) ++ dl.vectorOpen ++ ",".intercalate items
      ++ dl.vectorClose)
  | .cast =>
    let a ← lookAt r x 0
    if x.dtype.count > 1 && !x.dtype.isPtr && !x.dtype.isImage then
      return some s!"__builtin_convertvector({a}, {dl.typeText x.dtype})"
    return some s!"({dl.castText x.dtype a})"
  | .bitcast =>
    return some s!"(*(({dl.bufferBefore}{dl.typeText x.dtype}*)&{← lookAt r x 0}))"
  | .defineLocal =>
    return some (dl.sharedAlign ++ dl.sharedBefore ++ dl.typeText x.dtype.base ++ s!" {← look r x}"
      ++ s!"[{x.dtype.ptrSize}];")
  | .barrier => return some dl.barrier
  | .special => return some (← special dl x)
  | .const => return some (← constant dl x)
  | .index =>
    let buf :: i :: _ := x.src | return none
    let b ← look r buf
    let i' ← look r i
    return some (s!"({b}+" ++ (if i.arg == .op .add then stripParens i' else i') ++ ")")
  | .load =>
    let a :: rest := x.src | return none
    match gatedAddress? x, rest with
    | some (b, g), v :: _ =>
      return some s!"({← look r g}?*{← look r b}:{← look r v})"
    | _, _ => return some s!"*{← look r a}"
  | .store =>
    let a :: v :: _ := x.src | return none
    return some s!"*{← look r a} = {← look r v};"
  | .gep => return some (← lane dl r x)
  | .custom | .customi =>
    let .text s := x.arg | .error .missingMember
    return some (← fill s.toList (← x.src.mapM (look r)))
  | o =>
    if o.isAlu then
      let args ← x.src.mapM fun v => do
        let s ← look r v
        return if v.op == o && isChain o then stripParens s else s
      return some (← dl.apply o x.dtype args)
    return none

def text? (t : Target) (dl : Dialect) (r : Texts) (x : Expr) : Result (Option String) := do
  match ← own? t dl r x with
  | some s => return some s
  | none => common? dl r x

end LazyTensor.Statement
