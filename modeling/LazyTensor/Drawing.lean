import LazyTensor.Layout.OfExpr
import LazyTensor.Text.Escape
import LazyTensor.Text.Json

/-!
# Escapes and drawings

A text in which a backslash starts an escape, read as the characters it stands for.  The text is
taken as its bytes, each of which stands for the character of its number; a backslash before a
character that makes no escape stands for itself.
-/

namespace LazyTensor.Unescape

def hexNumber? (cs : List Char) : Option Nat :=
  cs.foldl (fun acc c => do return (← acc) * 16 + (← Json.hexValue? c)) (some 0)

def isOctal (c : Char) : Bool := '0' ≤ c && c ≤ '7'

def simple? (c : Char) : Option Char :=
  match c with
  | '\\' => some '\\'
  | '\'' => some '\''
  | '"' => some '"'
  | 'a' => some '\x07'
  | 'b' => some '\x08'
  | 't' => some '\t'
  | 'n' => some '\n'
  | 'v' => some '\x0b'
  | 'f' => some '\x0c'
  | 'r' => some '\r'
  | _ => none

def digits? (c : Char) : Option Nat :=
  match c with
  | 'x' => some 2
  | 'u' => some 4
  | 'U' => some 8
  | _ => none

def readChars : Nat → List Char → Result (List Char)
  | fuel + 1, '\\' :: c :: rest =>
    match simple? c with
    | some d => return d :: (← readChars fuel rest)
    | none =>
      if c = '\n' then readChars fuel rest
      else if isOctal c then do
        let more := (rest.take 2).takeWhile isOctal
        let n := (c :: more).foldl (fun a d => a * 8 + (d.toNat - '0'.toNat)) 0
        return Char.ofNat n :: (← readChars fuel (rest.drop more.length))
      else
        match digits? c with
        | some k =>
          match if (rest.take k).length = k then hexNumber? (rest.take k) else none with
          | some n => return Char.ofNat n :: (← readChars fuel (rest.drop k))
          | none => .error (.bare .badEncoding)
        | none => return '\\' :: c :: (← readChars fuel rest)
  | _, ['\\'] => .error (.bare .badEncoding)
  | fuel + 1, c :: rest => return c :: (← readChars fuel rest)
  | _, rest => .ok rest

def read (s : String) : Result String := do
  let cs := s.toUTF8.toList.map fun b => Char.ofNat b.toNat
  return String.ofList (← readChars (cs.length + 1) cs)

end LazyTensor.Unescape

/-!
## Drawing graphs

How the nodes of a graph are shown: each with a label, a color, and the nodes it comes from.
Devices, constants and serial numbers are not shown as nodes of their own, but as lines in the
labels of the nodes that use them.
-/

namespace LazyTensor.Drawing

structure Item where
  node : Expr
  label : String
  src : List Expr
  color : String

/-- The colour of a node, by its operation. -/
def color (op : Op) : String :=
  match op with
  | .load => "#ffc0c0"
  | .store => "#87CEEB"
  | .const | .vconst => "#e0e0e0"
  | .reduce => "#FF5B5B"
  | .defineGlobal => "#ffe0b0"
  | .defineLocal => "#ffe0d0"
  | .defineReg => "#f0ffe0"
  | .reduceAxis => "#FF6B6B"
  | .range => "#c8a0e0"
  | .assign => "#909090"
  | .barrier => "#ff8080"
  | .branch => "#c8b0c0"
  | .special => "#c0c0ff"
  | .index => "#e8ffa0"
  | .wmma => "#efefc0"
  | .view => "#C8F9D4"
  | .multi => "#f6ccff"
  | .kernel => "#3e7f55"
  | .threefry => "#ffff80"
  | .bufferView => "#E5EAFF"
  | .block => "#C4A484"
  | .blockEnd => "#C4A4A4"
  | .buffer => "#B0BDFF"
  | .copy => "#a040a0"
  | .fuse => "#FFa500"
  | .allreduce => "#ff40a0"
  | .gbarrier => "#FFC14D"
  | .mselect | .mstack => "#d040a0"
  | o => if o.isMovement then "#D8F9E4" else if o.isAlu then "#ffffc0" else "#ffffff"

def extent (d : Dim) : GraphM String :=
  match d with
  | .int n => return toString n
  | .sym e => e.render

def extents (ds : List Dim) : GraphM String := do
  return "(" ++ String.intercalate "," (← ds.mapM extent) ++ ")"

/-- A view in a label: extents, steps, the offset and the mask if there are any. -/
def viewText (v : View Dim) : GraphM String := do
  let offset ← if v.offset == 0 then pure "" else do pure (" / " ++ (← extent v.offset))
  let mask ← match v.mask with
    | none => pure ""
    | some ms =>
      let parts ← ms.mapM fun (b, e) => extents [b, e]
      pure ("\nMASK (" ++ String.intercalate "," parts ++ ")")
  return (← extents v.shape) ++ " / " ++ (← extents v.strides) ++ offset ++ mask

def argument (e : Expr) : GraphM String := do
  let plain ← Unescape.read e.arg.bareText
  let shown ← if e.is .view then do
      let some l ← e.layout? | throw (.broken "")
      do pure (String.intercalate "\n" (← l.mapM viewText))
    else pure plain
  if e.arg.isNone then return ""
  let s ← (Escape.wrap (shown.replace ":" "")).getDM (throw (.bare .recursionLimit))
  return "\n" ++ s

def realText (c : Const) : String :=
  match c with
  | .float x => Decimal.general 6 x
  | .int n => Decimal.general 6 (Binary64.ofInt n)
  | .bool b => if b then "1" else "0"

def hiddenText (user source : Expr) (i : Nat) : String :=
  match source.const? with
  | some c =>
    if source.is .const && user.dtype.isFloat then s!"\nCONST{i} " ++ realText c
    else s!"\n{source.op.name}{i} " ++ source.arg.bareText
  | none => s!"\n{source.op.name}{i} " ++ source.arg.bareText

def hidesShape (op : Op) : Bool :=
  [.view, .buffer, .kernel, .assign, .copy, .sink].contains op || op.isBufferOp

def shapeText (e : Expr) : GraphM String := do
  if hidesShape e.op then return ""
  try
    let some s ← e.shape? | return ""
    return "\n" ++ (← extents s)
  catch _ => return "\n<ISSUE GETTING SHAPE>"

def hidden (order : Array Expr) : Std.HashSet Nat :=
  let users := Expr.childTable order
  order.foldl (fun s u =>
    let s := if u.is .device || u.is .const || u.is .unique then s.insert u.number else s
    match u.op, u.src with
    | .const, a :: _ =>
      if ((users[a.number]?).getD #[]).all (·.is .const) then
        u.src.foldl (fun s x => s.insert x.number) s
      else s
    | _, _ => s) {}

/-- The text inside the box of a node. -/
def label (away : Std.HashSet Nat) (e : Expr) : GraphM String := do
  let arg ← argument e
  let type := if e.dtype = .void then "" else "\n" ++ e.dtype.text
  let lines := e.src.zipIdx.map fun (x, i) =>
    if away.contains x.number then hiddenText e x i else ""
  let shape ← shapeText e
  let origin ← if (← GraphM.setting .tracemeta) ≥ 2 && !(e.is .kernel) then
      match (← get).metadata[e.number]? with
      | some ms => pure ("\n" ++ tupleOf (ms.map Metadata.longText))
      | none => pure ""
    else pure ""
  return e.op.name ++ arg ++ type ++ String.join lines ++ shape ++ origin

def ofGraph (e : Expr) : GraphM (List Item) := do
  let order := e.toposort
  let away := hidden order
  (order.toList.filter fun u => !away.contains u.number).mapM fun u => do
    return ⟨u, ← label away u, u.src.filter fun x => !away.contains x.number, color u.op⟩

end LazyTensor.Drawing
