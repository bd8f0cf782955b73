import LazyTensor.Console.DTypes
import LazyTensor.Tensor.Conv
import LazyTensor.Tensor.Keccak
import LazyTensor.Tensor.Loss
import LazyTensor.Tensor.Rearrange

/-!
# Arguments of calls

A request calls functions by name with arguments by position and by name.  A signature says which
parameters a function has; arguments are bound to them, and taken from the call as what the function
needs.
-/

namespace LazyTensor

namespace Value

def kindName : Value → String
  | .null => "NoneType"
  | .bool _ => "bool"
  | .int _ => "int"
  | .float _ => "float"
  | .text _ => "str"
  | .bytes _ => "bytes"
  | .list _ => "list"
  | .tuple _ => "tuple"
  | .dict _ => "dict"
  | .slice .. => "slice"
  | .ellipsis => "ellipsis"
  | .dtype _ => "DType"
  | .op _ => "Ops"
  | .expr _ => "UOp"
  | .view _ => "View"
  | .layout _ => "ShapeTracker"
  | .info _ => "KernelInfo"
  | .array .. => "ndarray"
  | .object k _ => k
  | .done _ => "object"

def shown : Value → String := fold fun v xs es => match v with
  | .null => "None"
  | .bool b => (Const.bool b).text
  | .int n => (Const.int n).text
  | .float x => (Const.float x).text
  | .text s => Quoted.text s
  | .list _ => listOf xs
  | .tuple _ => tupleOf xs
  | .dict _ => "\x7b" ++ String.intercalate ", " (es.map fun (k, v) => k ++ ": " ++ v) ++ "\x7d"
  | .slice .. => "slice" ++ tupleOf xs
  | .ellipsis => "Ellipsis"
  | .dtype d => d.text
  | .expr e => e.text
  | .op _ => "<Ops"
  | _ => "<object at"

def truthy : Value → Bool
  | .null => false
  | .bool b => b
  | .int n => n ≠ 0
  | .float x => x != 0
  | .text s => !s.isEmpty
  | .bytes b => !b.isEmpty
  | .list xs | .tuple xs => !xs.isEmpty
  | .dict es => !es.isEmpty
  | _ => true

def ofTensor (t : Tensor) : SessionM Value := do
  let t ← t.keep
  return .object "Tensor" (← t.placeOf)

variable (v : Value)

def toTensor : TensorM :=
  match v with
  | .object "Tensor" n => Tensor.atPlace n
  | _ => throw .missingMember

def optional {α : Type} (f : Value → SessionM α) : SessionM (Option α) := do
  if v.isNone then return none else return some (← f v)

def toTensor? : SessionM (Option Tensor) := v.optional toTensor

def isTensor : Value → Bool
  | .object "Tensor" _ => true
  | _ => false

def toTerm : SessionM Term :=
  match v with
  | .object "Tensor" n => return .tensor (← Tensor.atPlace n)
  | .expr e => return .symbol e
  | v => return v.const?.elim (.unusable v.shown) .number

def asDType : SessionM DType :=
  match v with
  | .dtype d => pure d
  | .text s => do
    let .dtype d ← DTypes.byName s | throw .missingMember
    return d
  | _ => throw .missingMember

def asDType? : SessionM (Option DType) := v.optional asDType

def asDevice? : SessionM (Option Arg) :=
  match v with
  | .null => return none
  | .text s => return some (.text s)
  | .list xs | .tuple xs => do
    let names ← xs.mapM fun x => match x with
      | .text s => pure (Arg.text s)
      | .null => pure Arg.none
      | _ => throw Failure.missingMember
    return some (.tuple names)
  | _ => throw .missingMember

def asTracked : Option Bool := if v.isNone then none else some v.truthy

def asAxis : SessionM Int :=
  v.int?.getDM (throw (Tensor.axisFailure v.kindName))

def asAxis? : SessionM (Option Int) := v.optional asAxis

def asAlong : SessionM Along :=
  match v with
  | .null => return .all
  | .list xs | .tuple xs => return .some (← xs.mapM asAxis)
  | v => return .one (← v.toInt)

def asAmount : SessionM Amount :=
  match v with
  | .list xs | .tuple xs => return .many (← xs.mapM fun x => liftM x.toInt) v.shown
  | v => return .one (← v.toInt)

def toNested : Value → Nested := fold fun v xs _ => match v with
  | .list _ => .list xs
  | .tuple _ => .tuple xs
  | .bool b => .leaf (.bool b)
  | .int n => .leaf (.int n)
  | .float x => .leaf (.float x)
  | v => .odd v.shown

def toSource (file? : Nat → Option String) : Source :=
  match v with
  | .null => .nothing
  | .bool b => .number (.bool b)
  | .int n => .number (.int n)
  | .float x => .number (.float x)
  | .expr e => .node e
  | .bytes b => .bytes ⟨b.toArray⟩
  | .list _ | .tuple _ => .nested v.toNested
  | .array type shape items => .array type shape items
  | .object "PosixPath" n => match file? n with
    | some p => .file p
    | none => .other
  | _ => .other

def spread (xs : List Value) : Result (List Value) :=
  match xs with
  | [.list ys] | [.tuple ys] => .ok ys
  | .list _ :: _ | .tuple _ :: _ => .error (.invalid s!"bad arg {(Value.tuple xs).shown}")
  | xs => .ok xs

def toDim? : SessionM (Option Dim) := v.optional fun v => v.toDim

def toBounds : SessionM (Option (Dim × Dim)) :=
  match v with
  | .null => return none
  | .tuple [a, b] => return some (← a.toDim, ← b.toDim)
  | .tuple _ => throw .invalidValue
  | _ => throw .wrongType

def toBound : Bound :=
  match v with
  | .null => .none
  | v => v.dim?.elim (.other v.shown) .dim

def toIndex : SessionM Index :=
  match v with
  | .null => return .newAxis
  | .ellipsis => return .gap
  | .slice a b c => return .slice a.toBound b.toBound c.toBound
  | .object "Tensor" n => return .tensor (← Tensor.atPlace n)
  | .list _ | .tuple _ => return .data v.toNested
  | v => return v.dim?.elim (.other v.kindName) .position

/-- What the axes are indexed by: a list of integers is one index, other lists are one for each. -/
def toIndices : SessionM (List Index) :=
  match v with
  | .list xs =>
    if xs.all fun x => x.int?.isSome then do return [← v.toIndex]
    else xs.mapM toIndex
  | .tuple xs => xs.mapM toIndex
  | v => return [← v.toIndex]

def toReduction : Reduction :=
  match v with
  | .text "mean" => .mean
  | .text "sum" => .sum
  | .text "none" => .none
  | v => .other v.shown

end Value

def Session.begin {α : Type} (x : SessionM α) (step : Float := 0) : GraphM α := do
  let store ← get
  set ({} : Store)
  let heap : Heap := { recycling := store.settings.on .lru, clock := { step } }
  let (r, s) := Session.run x (← read) { store, heap }
  set s.store
  liftM r

structure Parameter where
  name : String
  default? : Option Value := none

structure Signature where
  positional : List Parameter := []
  /-- Whether any number of further arguments is taken. -/
  rest : Bool := false
  named : List Parameter := []
  /-- Whether any other names are taken. -/
  open? : Bool := false

namespace Signature

def literal (s : String) : Value :=
  match s with
  | "true" => .bool true
  | "false" => .bool false
  | s =>
    s.toInt?.elim ((Decimal.parse? s).elim (.text s) .float) .int

/-- A parameter in its written form: a name, with a question mark if it may be absent, or with its
default. -/
def parameter (s : String) : Parameter :=
  match s.splitOn "=" with
  | [n, d] => { name := n, default? := some (literal d) }
  | _ =>
    if s.endsWith "?" then { name := (s.dropEnd 1).toString, default? := some .null }
    else { name := s }

/-- A signature in its written form: parameters with blanks between them, a star for further
arguments, two stars for further names. -/
def parse (s : String) : Signature :=
  (s.splitOn " ").foldl (fun sig w =>
    if w = "" then sig
    else if w = "**" then { sig with open? := true }
    else if w = "*" then { sig with rest := true }
    else if sig.rest then { sig with named := sig.named ++ [parameter w] }
    else { sig with positional := sig.positional ++ [parameter w] }) {}

end Signature

structure Call where
  values : Fields := []
  rest : List Value := []
  others : Fields := []

/-- Arguments given to the names that a signature has for them. -/
def Signature.bind (s : Signature) (args : List Value) (names : Fields) : Result Call := do
  let k := s.positional.length
  if args.length > k && !s.rest then throw .wrongType
  let given := (s.positional.zip args).map fun (p, v) => (p.name, v)
  let all := s.positional ++ s.named
  let (known, others) := names.partition fun (n, _) => all.any (·.name = n)
  if known.any fun (n, _) => given.any (·.1 = n) then throw .wrongType
  if !others.isEmpty && !s.open? then throw .wrongType
  let given := given ++ known
  let values ← all.mapM fun p =>
    match given.lookup p.name <|> p.default? with
    | some v => .ok (p.name, v)
    | none => .error Failure.wrongType
  return { values, rest := args.drop k, others }

namespace Call

variable (c : Call) (n : String)

def get : Value := (c.values.lookup n).getD .null

def fields (names : String) : Fields := (names.splitOn " ").map fun n => (n, c.get n)

def tensor : TensorM := (c.get n).toTensor

def self (c : Call) : TensorM := c.tensor "self"

def tensor? : SessionM (Option Tensor) := (c.get n).toTensor?

def term : SessionM Term := (c.get n).toTerm

def const : SessionM Const := do (c.get n).toConst

def int : SessionM Int := do (c.get n).toInt

def int? : SessionM (Option Int) := (c.get n).optional fun v => v.toInt

def dim : SessionM Dim := do (c.get n).toDim

def axis : SessionM Int := (c.get n).asAxis

def axis? : SessionM (Option Int) := (c.get n).asAxis?

def along : SessionM Along := (c.get n).asAlong

def flag : Bool := (c.get n).truthy

def dtype? : SessionM (Option DType) := (c.get n).asDType?

def amount : SessionM Amount := (c.get n).asAmount

def amount? : SessionM (Option Amount) := (c.get n).optional Value.asAmount

def text : SessionM String :=
  match c.get n with
  | .text s => pure s
  | _ => throw .missingMember

def spread : SessionM (List Value) :=
  liftM (Value.spread (c.get n :: c.rest))

def shape : SessionM (List Dim) := do
  (← Value.spread c.rest).mapM fun v => liftM v.toDim

def tensors : SessionM (List Tensor) :=
  (c.get n :: c.rest).mapM Value.toTensor

/-- What is wished of a new tensor, from names of their own; other names are refused. -/
def wish (also : List String := []) : SessionM Wish := do
  if c.others.any fun (n, _) => !(["device", "dtype", "requires_grad"] ++ also).contains n then
    throw .wrongType
  let other (n : String) : Value := (c.others.lookup n).getD .null
  return { device := ← (other "device").asDevice?, dtype := ← (other "dtype").asDType?
           tracked := (other "requires_grad").asTracked }

end Call

/-- What an argument of a name is read as.  The name of an integer says whether it counts axes. -/
class Reads (α : Type) where
  read : Call → String → SessionM α

namespace Reads

instance : Reads Tensor := ⟨Call.tensor⟩
instance : Reads Term := ⟨Call.term⟩
instance : Reads Const := ⟨Call.const⟩
instance : Reads Dim := ⟨Call.dim⟩
instance : Reads Along := ⟨Call.along⟩
instance : Reads Amount := ⟨Call.amount⟩
instance : Reads DType := ⟨fun c n => (c.get n).asDType⟩
instance : Reads Bool := ⟨fun c n => return c.flag n⟩
instance : Reads Reduction := ⟨fun c n => return (c.get n).toReduction⟩
instance : Reads (List Dim) := ⟨fun c _ => c.shape⟩
instance : Reads Wish := ⟨fun c _ => c.wish⟩

instance : Reads Int where
  read c n := if ["axis", "dim", "start_dim", "end_dim"].contains n then c.axis n else c.int n

instance {α : Type} [Reads α] : Reads (Option α) where
  read c n := do if (c.get n).isNone then return none else return some (← read c n)

end Reads

/-- What comes to a value when it is given arguments of some names, one after the other. -/
class Takes (β : Type) where
  give : β → List String → Call → SessionM Value

namespace Takes

instance : Takes TensorM := ⟨fun x _ _ => do Value.ofTensor (← x)⟩

instance : Takes (SessionM (Tensor × Tensor)) where
  give x _ _ := do
    let (a, b) ← x
    return .tuple [← Value.ofTensor a, ← Value.ofTensor b]

instance {α β : Type} [Reads α] [Takes β] : Takes (α → β) where
  give f ns c := do give (f (← Reads.read c (ns.headD ""))) ns.tail c

end Takes

structure Operation where
  name : String
  parameters : String
  run : Call → SessionM Value

namespace Operation

def function {β : Type} [Takes β] (name parameters : String) (f : β) : Operation :=
  let names := (Signature.parse parameters).positional.map (·.name)
  ⟨name, parameters, Takes.give f names⟩

def member {β : Type} [Takes β] (name parameters : String) (f : β) : Operation :=
  function name ("self " ++ parameters) f

variable (name parameters : String)

def tensor (f : Call → TensorM) : Operation :=
  ⟨name, parameters, fun c => do Value.ofTensor (← f c)⟩

def method (f : Tensor → Call → TensorM) : Operation :=
  tensor name ("self " ++ parameters) fun c => do f (← c.self) c

def tensors (f : Call → SessionM (List Tensor)) : Operation :=
  ⟨name, parameters, fun c => do return .tuple (← (← f c).mapM Value.ofTensor)⟩

end Operation

end LazyTensor
