import LazyTensor.Console.Arguments

/-!
# Elementwise operations by name
-/

namespace LazyTensor.Operations

open Operation Tensor

def unaries : List (String × (Tensor → TensorM)) :=
  [ ("logical_not", lnot), ("neg", neg), ("__neg__", neg), ("contiguous", contiguous),
    ("fuse", fuse), ("contiguous_backward", contiguousBackward), ("detach", detach), ("log", log),
    ("log2", log2), ("exp", exp), ("exp2", exp2), ("relu", relu), ("sigmoid", sigmoid),
    ("sqrt", sqrt), ("rsqrt", rsqrt), ("sin", sin), ("cos", cos), ("tan", tan), ("asin", asin),
    ("acos", acos), ("atan", atan), ("trunc", trunc), ("ceil", ceil), ("floor", floor),
    ("round", round), ("isnan", isNan), ("isfinite", isFinite), ("square", square), ("sign", sign),
    ("abs", abs), ("reciprocal", reciprocal), ("swish", swish), ("silu", swish), ("relu6", relu6),
    ("hardswish", hardSwish), ("tanh", tanh), ("sinh", sinh), ("cosh", cosh), ("atanh", atanh),
    ("asinh", asinh), ("acosh", acosh), ("erf", erf), ("gelu", gelu), ("quick_gelu", quickGelu),
    ("mish", mish), ("softsign", softsign), ("bitwise_not", complement), ("__invert__", complement),
    ("_inverse", inverse), ("float", (·.cast .float)), ("half", (·.cast .half)),
    ("int", (·.cast .int)), ("bool", (·.cast .bool)) ]

def product (x : Tensor) (y : Term) (reverse : Bool) : TensorM :=
  match y with
  | .tensor t => x.matmul t reverse
  | _ => throw .missingMember

def arithmetic : List (String × (Tensor → Term → Bool → TensorM)) :=
  [ ("add", @add), ("sub", @sub), ("mul", @mul), ("mod", @mod), ("pow", @pow), ("lshift", @shl),
    ("rshift", @shr) ]

def bitwise : List (String × (Tensor → Term → Bool → TensorM)) :=
  [("and", @land), ("or", @lor), ("xor", @lxor)]

def comparisons : List (String × (Tensor → Term → TensorM)) :=
  [ ("maximum", maximum), ("minimum", minimum), ("ne", ne), ("eq", eq), ("__lt__", lt),
    ("__gt__", gt), ("__le__", le), ("__ge__", ge), ("__eq__", eq), ("__ne__", ne) ]

def binaries : List Operation :=
  (("idiv", @idiv) :: arithmetic ++ bitwise.map (Prod.map ("bitwise_" ++ ·) id)).map fun (n, f) =>
    member n "x reverse=false" f

def operators : List (String × (Tensor → Term → Bool → TensorM)) :=
  arithmetic ++ bitwise ++
    [("truediv", (·.div · ·)), ("floordiv", (·.div · · .floor)), ("matmul", product)]

/-- An operator stands between its operands, or has them the other way round, or changes the first
in place; only the remainder does not. -/
def operatorForms : List Operation :=
  operators.flatMap fun (n, f) =>
    let form (kind : String) (f : Tensor → Term → TensorM) := member s!"__{kind}{n}__" "x" f
    [form "" (f · · false), form "r" (f · · true)] ++
      if n = "mod" then [] else [form "i" fun x y => do x.assign (← f x y false)]

def rounding (v : Value) : Tensor.Rounding :=
  match v with
  | .null => .none
  | .text "trunc" => .trunc
  | .text "floor" => .floor
  | v => .other v.shown

/-- Operations that every number type has to offer in its own way, and tensors offer otherwise. -/
def missing (name parameters : String) : Operation :=
  ⟨name, parameters, fun _ => throw (.because .unsupported "")⟩

def shaped : List Operation :=
  [ method "div" "x reverse=false rounding_mode?" fun t c => do
      t.div (← c.term "x") (c.flag "reverse") (rounding (c.get "rounding_mode")),
    tensor "hardsigmoid" "self alpha? beta=0.5" fun c => do
      let alpha := (c.get "alpha").const?.getD (.float (1 / 6))
      (← c.self).hardSigmoid alpha (← c.const "beta"),
    member "elu" "alpha=1.0" elu, member "celu" "alpha=1.0" celu,
    member "selu" "alpha=1.67326 gamma=1.0507" selu, member "hardtanh" "min_val=-1 max_val=1" clamp,
    member "leaky_relu" "neg_slope=0.01" leakyRelu, member "softplus" "beta=1" softplus,
    member "isinf" "detect_positive=true detect_negative=true" @isInf, member "lerp" "end weight" lerp,
    member "clamp" "min_? max_?" clamp, member "clip" "min_? max_?" clamp,
    member "isclose" "other rtol=1e-05 atol=1e-08 equal_nan=false" isClose,
    member "copysign" "other" copySign, member "where" "x y" choose, member "cast" "dtype" Tensor.cast,
    method "masked_fill" "mask value" fun t c => do (← c.tensor "mask").choose (← c.term "value") t,
    method "bitcast" "dtype" fun t c => do
      if t.tracked = some true then throw (.misused "can't backprop through bitcast")
      t.bitcast (← (c.get "dtype").asDType),
    method "llvm_bf16_cast" "dtype" fun t c => do
      if t.dtype ≠ .bfloat16 then throw (.broken "")
      (← t.movedTo (some (.text "LLVM"))).cast (← (c.get "dtype").asDType),
    missing "alu" "self arg *", missing "const_like" "self b", missing "threefry" "self seed",
    ⟨"ufix", "self x", fun c => match c.get "x" with
      | v@(.object "Tensor" _) | v@(.expr _) => return v
      | _ => throw (.because .unsupported "")⟩,
    member "_broadcasted" "y reverse=false match_dtype=true"
      fun (x : Tensor) (y : Term) (reverse same : Bool) =>
        if same then x.matched y reverse else x.aligned y ]

def elementwise : List Operation :=
  unaries.map (fun (n, f) => member n "" f) ++ comparisons.map (fun (n, f) => member n "x" f) ++
    binaries ++ operatorForms ++ shaped

end LazyTensor.Operations
