import LazyTensor.Graph.Expr
import LazyTensor.Graph.Target

/-!
# Dialects of C

Kernels are written in dialects of C that differ in spelling: how a kernel, a buffer, a vector, a
barrier and the position of a thread are written, what the types are called, and which functions
compute what.
-/

namespace LazyTensor

/-- What a language writes for types, names and operations. -/
structure Dialect where
  /-- What stands before the name of a kernel, given the number of threads of a group. -/
  opening : String → String := fun _ => "void"
  bufferBefore : String := ""
  bufferAfter : String := ""
  sharedAlign : String := ""
  sharedBefore : String := ""
  /-- Whether the spelling of shared memory belongs to pointer types too. -/
  sharedInTypes : Bool := true
  intArgument : String := "const int"
  barrier : String := ""
  /-- The position of a thread: by kind of position and axis. -/
  position : Char → Option (Char → Result String) := fun _ => none
  extraArguments : List String := []
  /-- What stands before the items of a vector, given the name of its type. -/
  vector : String → String := fun t => s!"({t})"
  vectorOpen : String := "("
  vectorClose : String := ")"
  /-- Vectors of more lanes than this are indexed by number. -/
  laneNames : Nat := 4
  typeNames : List (Scalar × String) := []
  infinity : String := "INFINITY"
  nan : String := "NAN"
  /-- The spelling of an elementwise operation on written operands of a type. -/
  apply : Op → DType → List String → Result String

namespace Dialect

private def unary (f : String → String) : List String → Result String
  | [x] => .ok (f x)
  | _ => .error .wrongType

private def binary (sign : String) : List String → Result String
  | [a, b] => .ok s!"({a}{sign}{b})"
  | _ => .error .wrongType

def general (o : Op) (_ : DType) (xs : List String) : Result String :=
  match o with
  | .sqrt => unary (fun x => s!"sqrt({x})") xs
  | .recip => unary (fun x => s!"(1/{x})") xs
  | .neg => unary (fun x => s!"-{x}") xs
  | .exp2 => unary (fun x => s!"exp2({x})") xs
  | .log2 => unary (fun x => s!"log2({x})") xs
  | .sin => unary (fun x => s!"sin({x})") xs
  | .and => binary "&" xs
  | .xor => binary "^" xs
  | .or => binary "|" xs
  | .add => binary "+" xs
  | .sub => binary "-" xs
  | .mul => binary "*" xs
  | .mod => binary "%" xs
  | .idiv => binary "/" xs
  | .cmpne => binary "!=" xs
  | .shr => binary ">>" xs
  | .shl => binary "<<" xs
  | .cmplt => binary "<" xs
  | .select =>
    match xs with
    | [a, b, c] => .ok s!"({a}?{b}:{c})"
    | _ => .error .wrongType
  | _ => .error .missingKey

def axisLetter (c : Char) : Result String :=
  if c.isDigit then .ok (String.singleton (Char.ofNat (120 + (c.toNat - '0'.toNat))))
  else .error .invalidValue

def clang : Dialect where
  bufferAfter := " restrict"
  vectorOpen := "\x7b"
  vectorClose := "\x7d"
  laneNames := 0
  infinity := "__builtin_inff()"
  nan := "__builtin_nanf(\"\")"
  typeNames := [(.bool, "_Bool"), (.float16, "__fp16")]
  apply o d xs :=
    match o with
    | .exp2 | .sin | .log2 => .error .missingKey
    | .sqrt =>
      unary (fun x => (if d = .double then "__builtin_sqrt(" else "__builtin_sqrtf(") ++ x ++ ")") xs
    | o => general o d xs

def opencl : Dialect where
  opening := fun _ => "__kernel void"
  bufferBefore := "__global "
  sharedAlign := "__attribute__ ((aligned (16))) "
  sharedBefore := "__local "
  barrier := "barrier(CLK_LOCAL_MEM_FENCE);"
  position := fun k =>
    match k with
    | 'g' => some fun x => .ok s!"get_group_id({x})"
    | 'l' => some fun x => .ok s!"get_local_id({x})"
    | 'i' => some fun x => .ok s!"get_global_id({x})"
    | _ => none
  typeNames := [(.int8, "char"), (.uint8, "uchar"), (.uint32, "uint"), (.uint16, "ushort"),
    (.uint64, "ulong"), (.bfloat16, "ushort")]
  apply := general

def intel : Dialect :=
  { opencl with opening := fun _ => "__attribute__((intel_reqd_sub_group_size(8)))\n__kernel void" }

def metal : Dialect where
  opening := fun _ => "kernel void"
  bufferBefore := "device "
  sharedBefore := "threadgroup __attribute__((aligned(16))) "
  intArgument := "constant int&"
  barrier := "threadgroup_barrier(mem_flags::mem_threadgroup);"
  vector := fun t => t
  position := fun k =>
    match k with
    | 'g' => some fun x => return s!"gid.{← axisLetter x}"
    | 'l' => some fun x => return s!"lid.{← axisLetter x}"
    | _ => none
  extraArguments := ["uint3 gid [[threadgroup_position_in_grid]]",
    "uint3 lid [[thread_position_in_threadgroup]]"]
  typeNames := [(.bfloat16, "bfloat")]
  apply o d xs :=
    match o with
    | .sin => unary (fun x => s!"precise::sin({x})") xs
    | o => general o d xs

private def isShort (d : DType) : Bool := d = .half || d = .bfloat16

def cuda : Dialect where
  opening := fun n => s!"extern \"C\" __global__ void __launch_bounds__({n})"
  sharedBefore := "__shared__ __align__(16) "
  sharedInTypes := false
  barrier := "__syncthreads();"
  vector := fun t => s!"make_{t}"
  laneNames := 8
  position := fun k =>
    match k with
    | 'g' => some fun x => return s!"blockIdx.{← axisLetter x}"
    | 'l' => some fun x => return s!"threadIdx.{← axisLetter x}"
    | 'i' => some fun x => do
      let a ← axisLetter x
      return s!"(blockIdx.{a}*blockDim.{a}+threadIdx.{a})"
    | _ => none
  typeNames := [(.bfloat16, "nv_bfloat16")]
  apply o d xs :=
    let short (name : String) : Result String := unary (fun x => name ++ s!"({x})") xs
    if isShort d then
      match o with
      | .sin => short "hsin"
      | .log2 => short "hlog2"
      | .exp2 => short "hexp2"
      | .sqrt => short "hsqrt"
      | .recip => short "hrcp"
      | o => general o d xs
    else general o d xs

private def libraryWidth (d : DType) : String :=
  if d = .half then "16" else if d = .double then "64" else "32"

def amdLibrary : String :=
  let line (name params result attr : String) : String :=
    "extern \"C\" __attribute__((device" ++ (if attr.isEmpty then "" else s!", {attr}") ++ ")) "
      ++ result ++ s!" {name}({params});"
  let positions := ["local_id", "group_id", "local_size"].map fun n =>
    line s!"__ockl_get_{n}" "unsigned int" "size_t" "const"
  let functions := [("float", "32"), ("double", "64"), ("half", "16")].flatMap fun (t, n) =>
    [("fmax", "const"), ("exp2", "pure"), ("log2", "pure"), ("sqrt", "const"), ("sin", "")].map
      fun (f, a) => line s!"__ocml_{f}_f{n}" (if f = "fmax" then t ++ s!", {t}" else t) t a
  "\n".intercalate (positions ++ functions)

def amd : Dialect where
  opening := fun n => amdLibrary
    ++ "\nextern \"C\" __attribute__((global)) void __attribute__((amdgpu_flat_work_group_size(1, "
    ++ n ++ ")))"
  sharedBefore := "__attribute__((shared, aligned(16)))"
  sharedInTypes := false
  barrier := "__builtin_amdgcn_fence(__ATOMIC_RELEASE, \"workgroup\");__builtin_amdgcn_s_barrier();"
    ++ "__builtin_amdgcn_fence(__ATOMIC_ACQUIRE, \"workgroup\");"
  vector := fun t => s!"make_{t}"
  position := fun k =>
    match k with
    | 'g' => some fun x => .ok s!"__ockl_get_group_id({x})"
    | 'l' => some fun x => .ok s!"__ockl_get_local_id({x})"
    | 'i' => some fun x =>
      .ok s!"(__ockl_get_group_id({x})*__ockl_get_local_size({x})+__ockl_get_local_id({x}))"
    | _ => none
  typeNames := [(.bfloat16, "hip_bfloat16")]
  apply o d xs :=
    let call (name : String) : Result String :=
      unary (fun x => s!"__ocml_{name}_f{libraryWidth d}({x})") xs
    match o with
    | .sin => call "sin"
    | .log2 => call "log2"
    | .exp2 => call "exp2"
    | .sqrt => call "sqrt"
    | o => general o d xs

def scalarText (dl : Dialect) (s : Scalar) : String := (dl.typeNames.lookup s).getD s.cName

def typeText (dl : Dialect) (d : DType) (mutable : Bool := true) : String :=
  match d with
  | .image .. => (if mutable then "write_only" else "read_only") ++ " image2d_t"
  | .ptr target shared _ _ =>
    (if shared && dl.sharedInTypes then dl.sharedBefore else dl.bufferBefore)
      ++ dl.typeText target ++ "*"
  | .vec s n =>
    if n > 1 then (dl.scalarText s).replace " " "_" ++ toString n else dl.scalarText s

def castText (dl : Dialect) (d : DType) (x : String) : String := s!"({dl.typeText d})({x})"

end Dialect

def Target.dialect? : Target → Option Dialect
  | .base | .machine => none
  | .clang => some .clang
  | .opencl | .qcom => some .opencl
  | .intel => some .intel
  | .metal => some .metal
  | .cuda _ | .nv _ => some .cuda
  | .amd _ | .hip _ => some .amd

end LazyTensor
