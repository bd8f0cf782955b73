import LazyTensor.DType.Basic

/-!
# Where element types meet

Two element types meet at the least type that both convert to along the lattice below.  The lattice
has one arrow or two out of each type; `float64` is its top.
-/

namespace LazyTensor

/-- The types right above a type, in the order of promotion. -/
def Scalar.next : Scalar → List Scalar
  | .bool => [.int8, .uint8]
  | .int8 => [.int16]
  | .int16 => [.int32]
  | .int32 => [.int64]
  | .int64 => [.float16, .bfloat16]
  | .uint8 => [.int16, .uint16]
  | .uint16 => [.int32, .uint32]
  | .uint32 => [.int64, .uint64]
  | .uint64 => [.float16, .bfloat16]
  | .fp8e5m2 => [.float16, .bfloat16]
  | .fp8e4m3 => [.float16, .bfloat16]
  | .float16 => [.float32]
  | .bfloat16 => [.float32]
  | .float32 => [.float64]
  | .float64 | .void => []

/-- Whether the lattice has an arrow from one type to another, in at most `fuel` steps. -/
def Scalar.reaches (fuel : Nat) (a b : Scalar) : Bool :=
  match fuel with
  | 0 => a == b
  | fuel + 1 => a == b || a.next.any fun c => Scalar.reaches fuel c b

/-- All types a type converts to, from the least rank to the greatest.  The longest path of the
lattice has eight arrows. -/
def Scalar.above (a : Scalar) : List Scalar :=
  [Scalar.bool, .int8, .uint8, .int16, .uint16, .int32, .uint32, .int64, .uint64, .fp8e4m3,
   .fp8e5m2, .float16, .bfloat16, .float32, .float64].filter (a.reaches 9 ·)

def Scalar.meet? (ds : List Scalar) : Option Scalar :=
  match ds with
  | [] => none
  | d :: ds => d.above.find? fun c => ds.all fun e => e.above.contains c

namespace DType

/-- The least type that all the given ones convert to; an image wins over everything. -/
def meet? (ds : List DType) : Result DType :=
  match ds.find? isImage with
  | some d => .ok d
  | none =>
    if ds.isEmpty then .error .wrongType else
    match ds.mapM (m := Option) fun d =>
        match d with
        | .vec s 1 => if s = .void then none else some s
        | _ => none with
    | none => .error .missingKey
    | some ss =>
      match Scalar.meet? ss with
      | some s => .ok (of s)
      | none => .error .invalidValue

/-- The floating type an operation on this type computes in. -/
def meetFloat? (d fallback : DType) : Result DType :=
  if d.isFloat then .ok d else meet? [d, fallback]

def sumType? (d : DType) : Result DType :=
  if d.isUnsigned then meet? [d, uint]
  else if d.isInt || d = bool then meet? [d, int]
  else meet? [d, float]

def floatInfo? (d : DType) : Result (Int × Int) :=
  if !d.isFloat then .error (.invalid s!"{d.text} is not a floating point type") else
  match d with
  | half => .ok (5, 10)
  | bfloat16 => .ok (8, 7)
  | float => .ok (8, 23)
  | double => .ok (11, 52)
  | fp8e5m2 => .ok (5, 2)
  | fp8e4m3 => .ok (4, 3)
  | _ => .error .missingKey

end DType

end LazyTensor
