import LazyTensor.Failure
import LazyTensor.Number.Binary64

/-!
# Element types

The type of one element of a tensor, of a vector of such elements, of a pointer into a buffer of
them, or of an image.  Every value of `DType` has one spelling, so equality of types is equality of
values.
-/

namespace LazyTensor

/-- The element types, in the order in which they promote. -/
inductive Scalar where
  | void | bool
  | int8 | uint8 | int16 | uint16 | int32 | uint32 | int64 | uint64
  | fp8e4m3 | fp8e5m2 | float16 | bfloat16 | float32 | float64
  deriving DecidableEq, Repr, Hashable

namespace Scalar

/-- The rank of a type when two types meet; `void` is below all. -/
def priority : Scalar → Int
  | void => -1 | bool => 0 | int8 => 1 | uint8 => 2 | int16 => 3 | uint16 => 4 | int32 => 5
  | uint32 => 6 | int64 => 7 | uint64 => 8 | fp8e4m3 => 9 | fp8e5m2 => 10 | float16 => 11
  | bfloat16 => 12 | float32 => 13 | float64 => 14

def itemsize : Scalar → Nat
  | void => 0
  | bool | int8 | uint8 | fp8e4m3 | fp8e5m2 => 1
  | int16 | uint16 | float16 | bfloat16 => 2
  | int32 | uint32 | float32 => 4
  | int64 | uint64 | float64 => 8

def cName : Scalar → String
  | void => "void" | bool => "bool" | int8 => "signed char" | uint8 => "unsigned char"
  | int16 => "short" | uint16 => "unsigned short" | int32 => "int" | uint32 => "unsigned int"
  | int64 => "long" | uint64 => "unsigned long" | fp8e4m3 => "float8_e4m3"
  | fp8e5m2 => "float8_e5m2" | float16 => "half" | bfloat16 => "__bf16" | float32 => "float"
  | float64 => "double"

def shortName : Scalar → String
  | void => "void" | bool => "bool" | int8 => "char" | uint8 => "uchar" | int16 => "short"
  | uint16 => "ushort" | int32 => "int" | uint32 => "uint" | int64 => "long" | uint64 => "ulong"
  | fp8e4m3 => "fp8e4m3" | fp8e5m2 => "fp8e5m2" | float16 => "half" | bfloat16 => "bfloat16"
  | float32 => "float" | float64 => "double"

def code? : Scalar → Option Char
  | bool => some '?' | int8 => some 'b' | uint8 => some 'B' | int16 => some 'h'
  | uint16 => some 'H' | int32 => some 'i' | uint32 => some 'I' | int64 => some 'q'
  | uint64 => some 'Q' | float16 => some 'e' | float32 => some 'f' | float64 => some 'd'
  | void | fp8e4m3 | fp8e5m2 | bfloat16 => none

def isUnsigned : Scalar → Bool
  | uint8 | uint16 | uint32 | uint64 => true
  | _ => false

def isSigned : Scalar → Bool
  | int8 | int16 | int32 | int64 => true
  | _ => false

def isInt (s : Scalar) : Bool := s.isUnsigned || s.isSigned

def isFloat : Scalar → Bool
  | fp8e4m3 | fp8e5m2 | float16 | bfloat16 | float32 | float64 => true
  | _ => false

/-- All element types but `void`, by their long names, then the aliases. -/
def named : List (String × Scalar) :=
  [("bool", bool), ("int8", int8), ("uint8", uint8), ("int16", int16), ("uint16", uint16),
   ("int32", int32), ("uint32", uint32), ("int64", int64), ("uint64", uint64),
   ("fp8e4m3", fp8e4m3), ("fp8e5m2", fp8e5m2), ("float16", float16), ("bfloat16", bfloat16),
   ("float32", float32), ("float64", float64), ("half", float16), ("float", float32),
   ("double", float64), ("uchar", uint8), ("ushort", uint16), ("uint", uint32),
   ("ulong", uint64), ("char", int8), ("short", int16), ("int", int32), ("long", int64)]

def ofName? (s : String) : Option Scalar :=
  if s = "void" then some void else (named.find? (·.1 = s)).map (·.2)

/-- The number of values of an integer type is two to this power. -/
def bits (s : Scalar) : Nat := 8 * s.itemsize

end Scalar

/-- An element type: lanes of a scalar, a pointer into a buffer, or an image. -/
inductive DType where
  /-- `lanes` values of one scalar type; one lane is the scalar itself. -/
  | vec (scalar : Scalar) (lanes : Nat)
  /-- A pointer into a buffer of `size` elements (`-1` for no known size), `lanes` of them at once. -/
  | ptr (target : DType) (shared : Bool) (size : Int) (lanes : Nat)
  /-- A two-dimensional image of half or full precision. -/
  | image (half : Bool) (shape : List Int) (lanes : Nat)
  deriving DecidableEq, Repr, Hashable

namespace DType

@[match_pattern] abbrev void : DType := .vec .void 1
@[match_pattern] abbrev bool : DType := .vec .bool 1
@[match_pattern] abbrev int8 : DType := .vec .int8 1
@[match_pattern] abbrev uint8 : DType := .vec .uint8 1
@[match_pattern] abbrev int16 : DType := .vec .int16 1
@[match_pattern] abbrev uint16 : DType := .vec .uint16 1
@[match_pattern] abbrev int : DType := .vec .int32 1
@[match_pattern] abbrev uint : DType := .vec .uint32 1
@[match_pattern] abbrev long : DType := .vec .int64 1
@[match_pattern] abbrev ulong : DType := .vec .uint64 1
@[match_pattern] abbrev fp8e4m3 : DType := .vec .fp8e4m3 1
@[match_pattern] abbrev fp8e5m2 : DType := .vec .fp8e5m2 1
@[match_pattern] abbrev half : DType := .vec .float16 1
@[match_pattern] abbrev bfloat16 : DType := .vec .bfloat16 1
@[match_pattern] abbrev float : DType := .vec .float32 1
@[match_pattern] abbrev double : DType := .vec .float64 1

abbrev of (s : Scalar) : DType := .vec s 1

def volume (shape : List Int) : Int := shape.foldl (· * ·) 1

def uints : List DType := [uint8, uint16, uint, ulong]

def sints : List DType := [int8, int16, int, long]

def ints : List DType := uints ++ sints

def floats : List DType := [fp8e4m3, fp8e5m2, half, bfloat16, float, double]

/-- Lanes of the element a value of this type holds, or points to. -/
def count : DType → Nat
  | .vec _ n => n
  | .ptr t _ _ _ => t.count
  | .image .. => 1

/-- Lanes of the value itself: a pointer counts the pointers. -/
def lanes : DType → Nat
  | .vec _ n => n
  | .ptr _ _ _ n => n
  | .image _ _ n => n

def scalar : DType → DType
  | .vec s _ => .vec s 1
  | .ptr t l sz _ => .ptr t l sz 1
  | .image h shp _ => .image h shp 1

/-- What a pointer points to; an image is read as full-precision floats. -/
def base : DType → DType
  | .vec s n => .vec s n
  | .ptr t _ _ _ => t
  | .image .. => float

def itemsize : DType → Nat
  | .vec s n => s.itemsize * n
  | .ptr t _ _ _ => t.itemsize
  | .image h _ _ => if h then 2 else 4

def priority : DType → Int
  | .vec s _ => s.priority
  | .ptr t _ _ _ => t.priority
  | .image .. => 100

def code? : DType → Option Char
  | .vec s n => if n = 1 then s.code? else none
  | .ptr t _ _ _ => t.code?
  | .image h _ _ => some (if h then 'e' else 'f')

def name : DType → String
  | .vec s n => if n = 1 then s.cName else s.shortName ++ toString n
  | .ptr t _ _ _ => t.name
  | .image h _ _ => if h then "imageh" else "imagef"

def isPtr : DType → Bool
  | .vec .. => false
  | _ => true

def isImage : DType → Bool
  | .image .. => true
  | _ => false

def isFloat : DType → Bool
  | .vec s _ => s.isFloat
  | .ptr .. => false
  | .image .. => true

def isInt : DType → Bool
  | .vec s _ => s.isInt
  | _ => false

def isUnsigned : DType → Bool
  | .vec s _ => s.isUnsigned
  | _ => false

def isBool : DType → Bool
  | .vec .bool _ => true
  | _ => false

def scalar? : DType → Option Scalar
  | .vec s _ => some s
  | _ => none

def ptrSize : DType → Int
  | .vec .. => -1
  | .ptr _ _ sz _ => sz
  | .image _ shp _ => volume shp

def isShared : DType → Bool
  | .ptr _ l _ _ => l
  | _ => false

def tupleText (xs : List Int) : String :=
  match xs with
  | [x] => "(" ++ toString x ++ ",)"
  | xs => "(" ++ String.intercalate ", " (xs.map toString) ++ ")"

def short : DType → String
  | .vec s n => s.shortName ++ (if n > 1 then ".vec(" ++ toString n ++ ")" else "")
  | .ptr t l sz n =>
    t.short ++ ".ptr(" ++ toString sz ++ (if l then ", local=True" else "") ++ ")"
      ++ (if n ≠ 1 then ".vec(" ++ toString n ++ ")" else "")
  | .image h shp n =>
    (if h then "imageh" else "imagef") ++ "(" ++ tupleText shp ++ ")"
      ++ (if n ≠ 1 then ".vec(" ++ toString n ++ ")" else "")

def text (d : DType) : String := "dtypes." ++ d.short

/-- The type of `n` lanes of this one.  Lanes of lanes are refused; `void` has no lanes. -/
def vec? (d : DType) (n : Nat) : Result DType :=
  match d with
  | .vec s 1 => if n = 1 || s = .void then .ok d else .ok (.vec s n)
  | .ptr t l sz 1 => if n = 1 then .ok d else .ok (.ptr t l sz n)
  | .image h shp 1 => if n = 1 then .ok d else .ok (.image h shp n)
  | .vec .. => .error (.broken s!"can't vectorize {d.text} with size {n}")
  | _ => .error (.broken s!"can't vectorize ptr {d.text} with size {n}")

def ptr? (d : DType) (size : Int) (shared : Bool) : Result DType :=
  match d with
  | .vec .. => .ok (.ptr d shared size 1)
  | .ptr .. => .error (.misused "can't make a pointer from a pointer")
  | .image .. => if shared then .error (.broken "images can't be local") else .ok d

def nbytes (d : DType) : Result Int :=
  match d with
  | .vec .. => .error (.misused "only ptr types have nbytes")
  | _ => .ok (if d.ptrSize = -1 then 0 else d.ptrSize * d.itemsize)

def lt (a b : DType) : Bool :=
  if a.priority ≠ b.priority then a.priority < b.priority
  else if a.itemsize ≠ b.itemsize then a.itemsize < b.itemsize
  else if a.name ≠ b.name then a.name < b.name
  else if a.code? ≠ b.code? then (a.code?.getD ' ') < (b.code?.getD ' ')
  else a.count < b.count

end DType

end LazyTensor
