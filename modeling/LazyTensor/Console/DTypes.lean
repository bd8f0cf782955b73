import LazyTensor.Console.Expression
import LazyTensor.DType.Support

/-!
# Questions about element types and elementwise arithmetic
-/

namespace LazyTensor.DTypes

/-- The element type of plain data: the greatest of its leaves, the fallback for floats if empty. -/
def ofValue (floatType intType : DType) : Nat → Value → GraphM DType
  | 0, _ => throw (.misused "Could not infer dtype of <class")
  | fuel + 1, v =>
    match v with
    | .float _ => return floatType
    | .int _ => return intType
    | .bool _ => return .bool
    | .list xs | .tuple xs => do
      let ds ← xs.mapM (ofValue floatType intType fuel)
      let d :: ds := ds | return floatType
      return ds.foldl (fun a b => if a.lt b then b else a) d
    | _ => throw (.misused "Could not infer dtype of <class")

def asConst (v : Value) (d : DType) : GraphM Value := do
  let one (x : Value) : GraphM Value := do return .ofConst (← (← x.toConst).ofDType? d)
  match v with
  | .tuple xs =>
    if xs.length ≠ d.count then
      throw (.broken s!"mismatch {(← v.arg).literal} {d.text}")
    return .tuple (← xs.mapM one)
  | v => one v

def packedFloat (v : Value) : GraphM Float := do
  let c ← v.const?.getDM (throw .badPacking)
  c.toFloat?

def fp8 : DType → Result Narrow.Fp8
  | .fp8e4m3 => .ok .e4m3
  | .fp8e5m2 => .ok .e5m2
  | _ => .error (.broken "Only for fp8s")

def families : List (String × List DType) :=
  [("floats", DType.floats), ("ints", DType.ints), ("uints", DType.uints), ("sints", DType.sints),
   ("fp8s", [.fp8e4m3, .fp8e5m2]), ("all", DType.floats ++ DType.ints ++ [.bool])]

def byName (s : String) : GraphM Value := do
  let s := s.toLower
  match Scalar.ofName? s with
  | some b => return .dtype (.of b)
  | none =>
    match families.lookup s with
    | some ds => return .tuple (ds.map .dtype)
    | none =>
      if s = "default_float" then return .dtype .float
      else if s = "default_int" then return .dtype .int
      else throw .missingMember

def hasRange : DType → Bool
  | .vec s 1 => s ≠ .void
  | _ => false

def answer (fn : String) (args : List Value) : GraphM Value := do
  let v (i : Nat) : GraphM Value := args[i]?.getDM wrongType
  let d (i : Nat) : GraphM DType := do (← v i).toDType
  match fn with
  | "repr" => return .text (← d 0).text
  | "itemsize" => return .int (← d 0).itemsize
  | "count" => return .int (← d 0).count
  | "vcount" => return .int (← d 0).lanes
  | "name" => return .text (← d 0).name
  | "fmt" => return match (← d 0).code? with
    | some c => .text (String.singleton c)
    | none => .null
  | "priority" => return .int (← d 0).priority
  | "base" => return .dtype (← d 0).base
  | "scalar" => return .dtype (← d 0).scalar
  | "nbytes" => return .int (← (← d 0).nbytes)
  | "min" => return .ofConst (Const.least (← d 0))
  | "max" => return .ofConst (Const.greatest (← d 0))
  | "vec" => return .dtype (← (← d 0).vec? (← (← v 1).toInt).toNat)
  | "ptr" =>
    let size ← if args.length > 1 then (← v 1).toInt else pure (-1)
    let shared ← if args.length > 2 then pure ((← v 2).const?.elim false Const.truthy) else pure false
    return .dtype (← (← d 0).ptr? size shared)
  | "lt" => return .bool ((← d 0).lt (← d 1))
  | "is" => return .bool ((← d 0) = (← d 1))
  | "is_float" => return .bool (← d 0).isFloat
  | "is_int" => return .bool (← d 0).isInt
  | "is_unsigned" => return .bool (← d 0).isUnsigned
  | "is_bool" => return .bool (← d 0).isBool
  | "from_py" => return .dtype (← ofValue .float .int 1000 (← v 0))
  | "as_const" => asConst (← v 0) (← d 1)
  | "finfo" =>
    let (a, b) ← (← d 0).floatInfo?
    return .tuple [.int a, .int b]
  | "fields" => return .dict ((Scalar.named.filter (·.1 ≠ "void")).map fun (n, s) =>
      (.text n, .dtype (.of s)))
  | "to_dtype" =>
    match ← v 0 with
    | .dtype d => return .dtype d
    | .text s => byName s
    | _ => throw .missingMember
  | "least_upper_dtype" => return .dtype (← DType.meet? (← args.mapM Value.toDType))
  | "least_upper_float" => return .dtype (← (← d 0).meetFloat? .float)
  | "sum_acc_dtype" => return .dtype (← (← d 0).sumType?)
  | "truncate" =>
    let t ← d 0
    if !hasRange t then throw .missingKey
    return .ofConst (← (← (← v 1).toConst).truncate t)
  | "truncate_fp16" => return .ofConst (← (← (← v 0).toConst).truncate .half)
  | "truncate_bf16" => return .ofConst (← (← (← v 0).toConst).truncate .bfloat16)
  | "float_to_fp8" =>
    let f ← fp8 (← d 1)
    return .int (Narrow.toFp8 f (← packedFloat (← v 0)))
  | "fp8_to_float" =>
    let f ← fp8 (← d 1)
    return .float (← (Narrow.ofFp8 f (← (← v 0).toInt).toNat).getDM (throw .badPacking))
  | "identity_element" => return .ofConst (← identityElement? (← (← v 0).toOp) (← d 1))
  | "is_dtype_supported" =>
    let device := match (args[1]? : Option Value) with
      | some (.text s) => s
      | _ => "PYTHON"
    return .bool ((← d 0).supportedOn device)
  | "canonicalize" =>
    match ← v 0 with
    | .text s => return .text (Device.canonical s)
    | .null => return .text "PYTHON"
    | _ => throw .missingMember
  | "sorted" =>
    let ds ← args.mapM Value.toDType
    return .list ((← Sorting.sort? (fun (a b : DType) => pure (a.lt b)) ds).map .dtype)
  | _ => badInput

def elementwise (op : Op) (d : DType) (args : List Value) (narrow : Bool) : GraphM Value := do
  if d.count > 1 then
    match ← op.evalArgs d (← args.mapM fun a => liftM a.arg) with
    | .tuple xs => return .tuple (xs.map fun x => match x with
      | .const c => .ofConst c
      | _ => .null)
    | _ => wrongType
  else
    let cs ← args.mapM Value.toConst
    return .ofConst (← if narrow then op.eval d cs else op.evalExact cs)

end LazyTensor.DTypes
