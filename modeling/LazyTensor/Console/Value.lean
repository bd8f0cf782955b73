import LazyTensor.Layout.Shard
import LazyTensor.Text.Json

/-!
# Values of requests and answers

A request holds values of many kinds; so does an answer.  `Value` is the sum of these kinds, with
its reading from documents and its writing to them.

In documents, numbers with a fraction stand as `f`, tuples as `t`, slices as `s`, element types as
`dt`, bytes as `b`, and so on: a record with one field that names the kind.
-/

namespace LazyTensor

/-- A value of a request or of an answer. -/
inductive Value where
  | null
  | bool (b : Bool)
  | int (n : Int)
  | float (x : Float)
  | text (s : String)
  | bytes (b : List UInt8)
  | list (xs : List Value)
  | tuple (xs : List Value)
  | dict (entries : List (Value × Value))
  | slice (start stop step : Value)
  | ellipsis
  | dtype (d : DType)
  | op (o : Op)
  | expr (e : Expr)
  | view (v : View Dim)
  | layout (l : Layout)
  | info (k : KernelInfo)
  | array (code : String) (shape : List Nat) (items : List Const)
  /-- Something that lives in the session: its kind and its number. -/
  | object (kind : String) (number : Nat)
  /-- A document that is already written. -/
  | done (j : Json)

abbrev Fields := List (String × Value)

namespace DType

private def takeNat (cs : List Char) : Option (Nat × List Char) :=
  match cs.takeWhile Char.isDigit with
  | [] => none
  | ds => some (ds.foldl (fun a c => a * 10 + (c.toNat - '0'.toNat)) 0, cs.dropWhile Char.isDigit)

private def takeInt (cs : List Char) : Option (Int × List Char) :=
  match cs with
  | '-' :: r => (takeNat r).map fun (n, r) => (-(n : Int), r)
  | r => (takeNat r).map fun (n, r) => ((n : Int), r)

def dropStart? (s : List Char) (start : String) : Option (List Char) :=
  let p := start.toList
  if s.take p.length = p then some (s.drop p.length) else none

def applySuffixes : Nat → DType → List Char → Result DType
  | _, d, [] => .ok d
  | 0, _, _ => .error .badInput
  | fuel + 1, d, cs =>
    if let some r := dropStart? cs ".vec(" then
      match takeNat r with
      | some (n, ')' :: r) => do applySuffixes fuel (← d.vec? n) r
      | _ => .error .badInput
    else if let some r := dropStart? cs ".ptr()" then do
      applySuffixes fuel (← d.ptr? (-1) false) r
    else if let some r := dropStart? cs ".ptr(" then
      match takeInt r with
      | some (n, ')' :: r) => do applySuffixes fuel (← d.ptr? n false) r
      | some (n, r) =>
        match dropStart? (r.filter (· ≠ ' ')) ",local)" with
        | some r => do applySuffixes fuel (← d.ptr? n true) r
        | none => .error .badInput
      | none => .error .badInput
    else if let some r := dropStart? cs ".scalar()" then applySuffixes fuel d.scalar r
    else if let some r := dropStart? cs ".base" then applySuffixes fuel d.base r
    else .error .badInput

def parse (s : String) : Result DType := do
  let cs := s.toList
  let image (half : Bool) (r : List Char) : Result DType := do
    let some (a, ',' :: r) := takeInt r | .error .badInput
    let some (b, ',' :: r) := takeInt r | .error .badInput
    let some (c, ')' :: r) := takeInt r | .error .badInput
    applySuffixes r.length (.image half [a, b, c] 1) r
  if let some r := dropStart? cs "imagef(" then image false (r.filter (· ≠ ' '))
  else if let some r := dropStart? cs "imageh(" then image true (r.filter (· ≠ ' '))
  else
    let name := cs.takeWhile (· ≠ '.')
    let some b := Scalar.ofName? (String.ofList name) | .error .missingMember
    let rest := cs.dropWhile (· ≠ '.')
    applySuffixes rest.length (.of b) rest

end DType

namespace Value

def bytesOfHex? (s : String) : Option (List UInt8) :=
  let rec go : List Char → Option (List UInt8)
    | [] => some []
    | a :: b :: r => do
      let x ← Json.hexValue? a
      let y ← Json.hexValue? b
      return UInt8.ofNat (16 * x + y) :: (← go r)
    | _ => none
  go s.toList

def bad : Failure := .bare .badInput

def floatOf (j : Json) : Result Float :=
  match j with
  | .dec x => .ok x
  | .int n => (Binary64.ofInt? n).getDM (.error .overflow)
  | .bool b => .ok (if b then 1.0 else 0.0)
  | .text "inf" => .ok (Binary64.infinity false)
  | .text "-inf" => .ok (Binary64.infinity true)
  | .text "nan" => .ok Binary64.nan
  | .text s => (Decimal.parse? s).getDM (.error .invalidValue)
  | _ => .error .wrongType

def opOf (s : String) : Result Op :=
  (Op.ofName? s).getDM (.error .missingKey)

def const? : Value → Option Const
  | .bool b => some (.bool b)
  | .int n => some (.int n)
  | .float x => some (.float x)
  | _ => none

def int? : Value → Option Int
  | .bool b => some (Const.ofBool b)
  | .int n => some n
  | _ => none

def items? : Value → Option (List Value)
  | .list xs | .tuple xs => some xs
  | _ => none

def dim? : Value → Option Dim
  | .expr e => some (.sym e)
  | v => v.int?.map Dim.int

def isNone : Value → Bool
  | .null => true
  | _ => false

def ofConst : Const → Value
  | .bool b => .bool b
  | .int n => .int n
  | .float x => .float x

def ofDim : Dim → Value
  | .int n => .int n
  | .sym e => .expr e

section

variable {α : Type} (f : Value → List α → List (α × α) → α)

mutual

/-- What comes of a value, with what has come of its items and of its entries. -/
def fold : Value → α
  | .list xs => f (.list xs) (foldAll xs) []
  | .tuple xs => f (.tuple xs) (foldAll xs) []
  | .dict es => f (.dict es) [] (foldEntries es)
  | .slice a b c => f (.slice a b c) [fold a, fold b, fold c] []
  | v => f v [] []

def foldAll : List Value → List α
  | [] => []
  | x :: xs => fold x :: foldAll xs

def foldEntries : List (Value × Value) → List (α × α)
  | [] => []
  | (k, v) :: es => (fold k, fold v) :: foldEntries es

end

end

def arg? : Value → Option Arg := fold fun v xs _ => match v with
  | .null => some .none
  | .bool b => some (.bool b)
  | .int n => some (.int n)
  | .float x => some (.float x)
  | .text s => some (.text s)
  | .bytes b => some (.bytes b)
  | .tuple _ => return .tuple (← xs.mapM id)
  | .dtype d => some (.dtype d)
  | .op o => some (.op o)
  | .expr e => some (.expr e)
  | .view v => some (.view v)
  | .layout l => some (.layout l)
  | .info k => some (.info k)
  | _ => none

def arg (v : Value) : Result Arg :=
  v.arg?.getDM (.error .wrongType)

def flatten : Nat → Json → Result (List Nat × List Json)
  | 0, _ => .error bad
  | fuel + 1, j =>
    match j with
    | .list xs => do
      let parts ← xs.mapM (flatten fuel)
      let inner := (parts.head?.map (·.1)).getD []
      if parts.all (·.1 == inner) then
        return (xs.length :: inner, parts.flatMap (·.2))
      else .error .invalidValue
    | j => .ok ([], [j])

def leaf : Json → Result Const
  | .bool b => .ok (.bool b)
  | .int n => .ok (.int n)
  | .dec x => .ok (.float x)
  | j@(.record _) =>
    match j.field? "f" with
    | some x => return .float (← floatOf x)
    | none => .error bad
  | .text s => return .float (← floatOf (.text s))
  | _ => .error bad

def ofJsonWith (expr : Json → GraphM Value) : Nat → Json → GraphM Value
  | 0, _ => throw bad
  | fuel + 1, j =>
    match j with
    | .null => return .null
    | .bool b => return .bool b
    | .int n => return .int n
    | .dec _ => throw bad
    | .text s => return .text s
    | .list xs => return .list (← xs.mapM (ofJsonWith expr fuel))
    | .record [(k, x)] =>
      match k, x with
      | "f", x => return .float (← floatOf x)
      | "t", .list xs => return .tuple (← xs.mapM (ofJsonWith expr fuel))
      | "s", .list [a, b, c] =>
        return .slice (← ofJsonWith expr fuel a) (← ofJsonWith expr fuel b) (← ofJsonWith expr fuel c)
      | "ellipsis", _ => return .ellipsis
      | "dt", .text s => return .dtype (← DType.parse s)
      | "x", x => expr x
      | "b", .text s =>
        match bytesOfHex? s with
        | some b => return .bytes b
        | none => throw bad
      | "d", .list es => do
        let es ← es.mapM (ofJsonWith expr fuel)
        let pairs ← es.mapM fun e => match e with
          | .list [a, b] => pure (a, b)
          | _ => throw bad
        return .dict pairs
      | "op", .text s => return .op (← opOf s)
      | "np", .list [.text code, nested] => do
        let (shape, leaves) ← flatten 64 nested
        return .array code shape (← leaves.mapM fun l => liftM (leaf l))
      | _, _ => throw bad
    | .record _ => throw bad

end Value

def nest {α : Type} (list : List α → α) : List Nat → List α → α
  | [], xs => xs.headD (list [])
  | [_], xs => list xs
  | n :: rest, xs =>
    let each := rest.foldl (· * ·) 1
    list ((List.range n).map fun i => nest list rest ((xs.drop (i * each)).take each))

def Value.nested (shape : List Int) (cs : List Const) : Value :=
  nest .list (shape.map Int.toNat) (cs.map .ofConst)

namespace Answer

def bits (x : Float) : String :=
  if x.isNaN then "nan" else Quoted.hexWidth 16 x.toBits.toNat

def float (x : Float) : Json := .record [("f", .text (bits x))]

def const : Const → Json
  | .bool b => .bool b
  | .int n => .int n
  | .float x => float x

def datum : Const → Json
  | .float x => .text (bits x)
  | c => const c

def dtype (d : DType) : Json := .record [("dt", .text d.short)]

def op (o : Op) : Json := .record [("op", .text o.name)]

def bytes (b : List UInt8) : Json := .record [("b", .text (Quoted.hex b))]

def object (kind : String) : Json := .record [("obj", .text kind)]

def dim : Dim → GraphM Json
  | .int n => return .int n
  | .sym e => return .record [("x", .text (← e.formula))]

def dims (ds : List Dim) : GraphM Json := do return .list (← ds.mapM dim)

def view (v : View Dim) : GraphM Json := do
  let mask ← match v.mask with
    | none => pure .null
    | some ms => pure (.list (← ms.mapM fun (a, b) => return .list [← dim a, ← dim b]))
  return .list [← dims v.shape, ← dims v.strides, ← dim v.offset, mask, .bool v.contiguous]

def views (l : Layout) : GraphM Json := do return .list (← l.mapM view)

def layout (l : Layout) : GraphM Json := do return .record [("st", ← views l)]

def info (k : KernelInfo) : Json :=
  .record [("ki", .list [.text k.name, .int k.localDims, .int k.upcasted, .bool k.dontUseLocals])]

mutual

def argDepth : Nat → Arg → GraphM Json
  | 0, _ => return .null
  | depth + 1, a =>
    match a with
    | .none => return .null
    | .const c => return const c
    | .text s => return .text s
    | .op o => return op o
    | .dtype d => return dtype d
    | .bytes b => return bytes b
    | .tuple xs => return .list (← xs.mapM (argDepth depth))
    | .expr e => return .record [("u", ← nodesDepth depth e.toposort)]
    | .layout l => layout l
    | .view v => return .record [("view", ← view v)]
    | .info k => return info k
    | .block _ => return object "BasicBlock"
    | .kernel ast _ => return .record [("kernel", ← nodesDepth depth ast.toposort)]

/-- The document of a sequence of nodes: sources by position, unique nodes by order. -/
def nodesDepth : Nat → Array Expr → GraphM Json
  | 0, _ => return .null
  | depth + 1, order => do
    let place : Std.HashMap Nat Nat :=
      order.toList.zipIdx.foldl (fun m (e, i) => m.insert e.number i) {}
    let mut count : Nat := 0
    let mut out : Array Json := #[]
    for e in order do
      let src := e.src.map fun s => match place[s.number]? with
        | some i => Json.int i
        | none => Json.int (-1)
      let mut arg : Json := .null
      if e.is .unique then
        arg := .int count
        count := count + 1
      else
        arg ← argDepth depth e.arg
      let base := [Json.text e.op.name, .text e.dtype.short, .list src, arg]
      let tag ← if e.tag.isNone then pure [] else pure [← argDepth depth e.tag]
      out := out.push (.list (base ++ tag))
    return .list out.toList

end

def arg (a : Arg) : GraphM Json := argDepth 32 a

def graph (e : Expr) : GraphM Json := nodesDepth 32 e.toposort

def program (es : List Expr) : GraphM Json := nodesDepth 32 es.toArray

def expr (e : Expr) : GraphM Json := do return .record [("u", ← graph e)]

def option {α : Type} (f : α → GraphM Json) : Option α → GraphM Json
  | some a => f a
  | none => return .null

end Answer

namespace Value

/-- The document of a value, from those of what is neither a list nor a record. -/
def jsonWith {m : Type → Type} [Monad m] (leaf : Value → m Json) : Value → m Json :=
  fold fun v xs es => match v with
    | .list _ | .tuple _ => return .list (← xs.mapM id)
    | .dict _ =>
      return .record [("d", .list (← es.mapM fun (k, v) => do return .list [← k, ← v]))]
    | v => leaf v

def json : Value → GraphM Json := jsonWith fun
  | .bool b => return .bool b
  | .int n => return .int n
  | .float x => return Answer.float x
  | .text s => return .text s
  | .bytes b => return Answer.bytes b
  | .slice .. => return Answer.object "slice"
  | .ellipsis => return Answer.object "ellipsis"
  | .dtype d => return Answer.dtype d
  | .op o => return Answer.op o
  | .expr e => Answer.expr e
  | .view v => return .record [("view", ← Answer.view v)]
  | .layout l => Answer.layout l
  | .info k => return Answer.info k
  | .array .. => return Answer.object "ndarray"
  | .object k _ => return Answer.object k
  | .done j => return j
  | _ => return .null

end Value

end LazyTensor
