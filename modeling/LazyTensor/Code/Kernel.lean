import LazyTensor.Code.Statement
import LazyTensor.Layout.Extent
import LazyTensor.Symbolic.Lanes
import LazyTensor.Text.Escape

/-!
# Kernels as text

A linear program is written node by node: values that are used once, constants and addresses are
written where they are used, all others get a name.  What a dialect has to declare first stands
before the kernel.
-/

namespace LazyTensor.Code

/-- A name as an identifier: characters other than letters, digits and underscores by their code. -/
def identifier (s : String) : String :=
  String.join ((Escape.strip s).toList.map fun c =>
    if c.isAlphanum || c = '_' then String.singleton c
    else
      let h := (String.ofList (Nat.toDigits 16 c.toNat)).toUpper
      if h.length < 2 then s!"0{h}" else h)

structure Parameter where
  name : String
  dtype : DType
  written : Bool := false

/-- The state of writing: the texts of nodes, the parameters, the lines, how deep the next line
stands, and how many names of each kind there are. -/
structure Writer where
  texts : Statement.Texts := {}
  params : Array (Nat × Parameter) := #[]
  lines : Array String := #[]
  depth : Nat := 1
  used : List (String × Nat) := []
  name : String := "test"

def kindOf : Op → String
  | .wmma => "wmma"
  | .defineLocal => "temp"
  | .const => "const"
  | .cast | .bitcast | .vectorize => "cast"
  | .gep => "gep"
  | .noop => "precast"
  | .index => "bidx"
  | .defineReg => "acc"
  | .load => "val"
  | _ => "alu"

def isInline (u : Expr) (uses : Nat) : Bool :=
  (!(u.is .cast) || u.dtype.lanes = 1) &&
    (match u.op with
      | .const | .gep | .index | .customi => true
      | .vectorize | .cast | .bitcast => uses == 1
      | o => o.isAlu && o ≠ .select && uses == 1)

def markWritten (w : Writer) (a : Expr) : Result Writer :=
  (a.toposort.toList.filter fun x => x.is .defineGlobal).foldlM (fun w x =>
    match w.params.findIdx? fun p => p.1 = x.number with
    | some i => .ok { w with params := w.params.modify i fun p => (p.1, { p.2 with written := true }) }
    | none => .error .missingKey) w

def step (t : Target) (dl : Dialect) (uses : Std.HashMap Nat Nat) (w : Writer) (u : Expr) :
    Result Writer := do
  match u.op with
  | .sink =>
    match u.arg with
    | .info k => return { w with name := identifier k.name }
    | .none => return w
    | _ => .error .missingMember
  | .defineGlobal | .defineVar =>
    let n ← if u.is .defineVar then Statement.nameArg u else pure s!"data{u.arg.bareText}"
    return { w with
      texts := w.texts.insert u.number n
      params := w.params.push (u.number, ⟨n, u.dtype, false⟩) }
  | _ =>
    let w ← if u.is .store then markWritten w (← Statement.source u 0) else pure w
    let kind := kindOf u.op
    let count := (w.used.lookup kind).getD 0
    let name ← match u.op with
      | .special => Statement.nameArg u
      | .range => pure s!"ridx{u.arg.bareText}"
      | _ => pure (kind ++ toString count)
    let w := { w with texts := w.texts.insert u.number name }
    match ← Statement.text? t dl w.texts u with
    | none =>
      let shown := if u.src.isEmpty then "[]" else "[<Ops"
      .error (.broken s!"failed to render {u.op.text} {u.dtype.text} {shown} {u.arg.bareText}")
    | some l =>
      let w := if u.is .endBranch || u.is .endRange then { w with depth := w.depth - 1 } else w
      let w ← if isInline u ((uses[u.number]?).getD 0) then
          pure { w with texts := w.texts.insert u.number l }
        else
          let plain := u.is .range || u.is .assign || u.is .defineLocal || u.is .store || u.dtype = .void
          let w ← if u.is .assign then
              pure { w with texts := w.texts.insert u.number (← Statement.lookAt w.texts u 0) }
            else pure w
          let l := if plain then l else
            dl.typeText u.dtype ++ s!" {name} = {l}" ++ (if u.is .special then "" else ";")
          let lead := String.ofList (List.replicate (2 * w.depth) ' ')
          let named := !(u.is .special || u.is .range)
          pure { w with
            lines := w.lines.push (lead ++ l)
            used := if named then (kind, count + 1) :: w.used else w.used }
      return if u.is .branch || u.is .range then { w with depth := w.depth + 1 } else w

def body (t : Target) (dl : Dialect) (prog : List Expr) : Result Writer :=
  let uses : Std.HashMap Nat Nat := prog.foldl (fun m u =>
    u.src.foldl (fun m s => m.alter s.number fun n => some (n.getD 0 + 1)) m) {}
  prog.foldlM (step t dl uses) {}

variable (prog : List Expr)

def valueTypes : List DType :=
  (prog.filterMap fun u => if u.dtype.isPtr || u.dtype.isImage then none else some u.dtype).eraseDups

def matrices : List (List Arg) :=
  (prog.foldl (fun acc u =>
    if u.is .wmma && !(acc.contains u.arg) then acc ++ [u.arg] else acc) []).map Arg.items

def groupSize : GraphM Dim := do
  let sizes ← prog.filterMapM fun u => do
    if !(u.is .special) then return none
    let .tuple (.text n :: k :: _) := u.arg | throw Failure.wrongType
    if n.toList.head? = some 'l' then return some (k.dim?.getD 1) else return none
  Dim.prod sizes

variable (dl : Dialect)

def assemble (w : Writer) (prog : List Expr) (first : List String) : GraphM String := do
  let sampler := if w.params.any fun p => p.2.dtype.isImage then
    "const sampler_t smp = CLK_NORMALIZED_COORDS_FALSE | CLK_ADDRESS_CLAMP | CLK_FILTER_NEAREST;\n" else ""
  let param (p : Parameter) : String :=
    (if p.dtype.isPtr || p.dtype.isImage then dl.typeText p.dtype p.written ++ dl.bufferAfter
      else if p.dtype = .int then dl.intArgument else "None") ++ s!" {p.name}"
  let params := (w.params.toList.map fun p => param p.2) ++ dl.extraArguments
  let threads ← groupSize prog
  let text := dl.opening threads.text ++ s!" {w.name}(" ++ ", ".intercalate params ++ ") \x7b\n"
    ++ sampler ++ "\n".intercalate w.lines.toList ++ "\n\x7d"
  return if first.isEmpty then text else "\n".intercalate first ++ s!"\n{text}"

private def item {α : Type} (xs : List α) (i : Nat) : GraphM α :=
  xs[i]?.getDM (throw .invalidValue)

private def nameOf (m : List Arg) : GraphM String := do
  match ← item m 0 with
  | .text s => return s
  | a => return a.bareText

private def dimsOf (m : List Arg) : GraphM (List Int) := do
  (← item m 1).ints?.getDM (throw .wrongType)

private def typeOf (m : List Arg) (i : Nat) : GraphM DType := do
  let .dtype d ← item m i | throw .missingMember
  return d

def memberNames : List String := "xyzwabcdefghijkl".toList.map String.singleton

def clangFirst (prog : List Expr) : GraphM (List String) := do
  let vectors := (valueTypes prog).filterMap fun d =>
    if d.count > 1 then
      some (s!"typedef {dl.typeText d.scalar} {dl.typeText d} __attribute__((aligned("
        ++ toString (2 ^ d.itemsize.log2) ++ s!"),vector_size({d.itemsize})));")
    else none
  let functions ← (matrices prog).flatMapM fun m => do
    let name ← nameOf m
    let dims ← dimsOf m
    let n ← item dims 0
    let k ← item dims 1
    let d ← typeOf m 2
    let out := dl.typeText (← d.vec? (n * n).toNat)
    let a := dl.typeText (← d.vec? n.toNat)
    let b := dl.typeText (← d.vec? k.toNat)
    return [
      "#define AMX_SET(imm5) __asm(\"nop\\nnop\\nnop\\n.word (0x201000+(%0<<5)+%1)\" : : \"i\"(17), \"i\"(imm5) : \"memory\")",
      "#define AMX(op, gpr, btf) __asm(\".word (0x201000+(%0 << 5)+0%1-((0%1>>4)*6))\" : : \"i\"(op), \"r\"((unsigned long long)(gpr)+(btf)) : \"memory\")",
      s!"static {out} __{name}({a} data1, {b} data2, {out} data0)\x7b\n"
        ++ "  AMX_SET(0);\n  for(int ridx0 = 0; ridx0 < 16; ridx0++)\x7b AMX(4, (int *)(&data0), 0ull<<62 | (ridx0*4ull)<<56 | ridx0*64ull); \x7d\n"
        ++ "  AMX(0, (int *)(&data2), 0ull<<62); AMX(1, (int *)(&data1), 0ull<<62); AMX(12, 0, 0ull);\n"
        ++ "  for(int ridx0 = 0; ridx0 < 16; ridx0++)\x7b AMX(5, (int *)(&data0), 0ull<<62 | (ridx0*4ull)<<56 | ridx0*64ull); \x7d\n"
        ++ "  AMX_SET(1);\n  return data0;\n\x7d"]
  return vectors ++ functions

def openclFirst : List String :=
  if prog.any fun u => u.dtype.base = .half then ["#pragma OPENCL EXTENSION cl_khr_fp16 : enable"] else []

def intelFirst : GraphM (List String) :=
  (matrices prog).mapM fun m => do
    let name ← nameOf m
    let d ← typeOf m 2
    let out := (← typeOf m 3).name
    let (a, kind) := if d = .bfloat16 then ("ushort", "bf16") else (d.name, "f16")
    return out ++ s!"8 __{name}({a}16 a, {a}16 b, {out}8 c) \x7b\n"
      ++ s!"    return intel_sub_group_{kind}_{kind}"
      ++ "_matrix_mad_k16(as_int8(a), as_int8(b), c);\n\x7d"

def metalFirst (prog : List Expr) : GraphM (List String) := do
  let functions ← (matrices prog).mapM fun m => do
    let name ← nameOf m
    let d ← typeOf m 2
    let o ← typeOf m 3
    let out := dl.typeText (← o.vec? 2)
    let a := dl.typeText (← d.vec? 2)
    return out ++ s!" __{name}({a} a, {a} b, {out} c)\x7b\n"
      ++ s!"  simdgroup_{dl.typeText d}8x8 mat_a, mat_b; simdgroup_{dl.typeText o}8x8 mat_c;\n"
      ++ "  mat_a.thread_elements()[0] = a[0]; mat_b.thread_elements()[0] = b[0]; mat_c.thread_elements()[0] = c[0];\n"
      ++ "  mat_a.thread_elements()[1] = a[1]; mat_b.thread_elements()[1] = b[1]; mat_c.thread_elements()[1] = c[1];\n"
      ++ s!"  simdgroup_multiply_accumulate(mat_c, mat_a, mat_b, mat_c);\n  return {out}"
      ++ "(mat_c.thread_elements()[0], mat_c.thread_elements()[1]);\n\x7d"
  return ["#include <metal_stdlib>", "using namespace metal;"] ++ functions

private def readName (d : DType) : GraphM String :=
  if d = .float then pure "tf32" else if d = .half then pure "f16" else if d = .bfloat16 then pure "bf16"
  else throw .missingKey

private def writtenName (d : DType) : GraphM String :=
  if d = .float then pure "f32" else if d = .half then pure "f16" else throw .missingKey

def cudaFirst (prog : List Expr) : GraphM (List String) := do
  let used := valueTypes prog
  let includes :=
    (if used.any fun d => d.scalar = .half then ["#include <cuda_fp16.h>"] else [])
    ++ (if used.any fun d => d.scalar = .bfloat16 then ["#include <cuda_bf16.h>"] else [])
  let vectors := used.filterMap fun d =>
    if (d.count = 4 || d.count = 8) && (d.scalar = .half || d.scalar = .bfloat16) then
      let v := dl.typeText d
      let s := dl.typeText d.scalar
      let names := memberNames.take d.count
      let items := ", ".intercalate names
      let header := ", ".intercalate (names.map fun x => s ++ s!" {x}")
      some (s!"struct __align__({d.itemsize}) {v} \x7b {s} {items}; \x7d; __device__ "
        ++ v ++ s!" make_{v}({header}) \x7b {v} r=\x7b{items}\x7d; return r; \x7d")
    else none
  let functions ← (matrices prog).mapM fun m => do
    let name ← nameOf m
    let dims ← dimsOf m
    let n ← item dims 0
    let mm ← item dims 1
    let k ← item dims 2
    let d ← typeOf m 2
    let o ← typeOf m 3
    let spread := (← item m 6).items
    let sizes ← spread.mapM Lanes.volumeOf
    let types := [d, d, o]
    let names ← (types.zip sizes).mapM fun (t, s) => do return dl.typeText (← t.vec? s)
    let counts := (types.zip sizes).map fun (t, s) => s * t.itemsize / 4
    let na ← item counts 0
    let nb ← item counts 1
    let nc ← item counts 2
    let ops := (List.range (na + nb + nc)).map fun i => s!"%{i}"
    let group (xs : List String) : String := "\x7b" ++ ", ".intercalate xs ++ "\x7d"
    let regs (mark v : String) (n : Nat) : String :=
      ", ".intercalate ((List.range n).map fun i => s!"\"{mark}\"({v}_pk[{i}])")
    let inName ← readName d
    let outName ← writtenName o
    let a ← item names 0
    let b ← item names 1
    let c ← item names 2
    return s!"__device__ {c} __{name}({a} a, {b} b, {c} c)\x7b\n"
      ++ "  int *a_pk = (int *)(&a), *b_pk = (int *)(&b), *c_pk = (int *)(&c);\n"
      ++ s!"  asm(\"mma.sync.aligned.m{mm}n{n}k{k}.row.col."
      ++ outName ++ s!".{inName}.{inName}.{outName}\"\n"
      ++ "      \"" ++ group (ops.take nc) ++ ", " ++ group ((ops.drop nc).take na) ++ ",\"\n"
      ++ "      \"" ++ group (ops.drop (ops.length - nb)) ++ ", " ++ group (ops.take nc) ++ ";\"\n"
      ++ "    : " ++ regs "+r" "c" nc ++ "\n"
      ++ "    : " ++ regs "r" "a" na ++ ", " ++ regs "r" "b" nb ++ ");\n"
      ++ "  return c;\n\x7d"
  return ["#define INFINITY (__int_as_float(0x7f800000))", "#define NAN (__int_as_float(0x7fffffff))"]
    ++ includes ++ vectors ++ functions

def architecture (arch : String) : String := (arch.splitOn ":").headD arch

def amdFirst (arch : String) (prog : List Expr) : GraphM (List String) := do
  let used := valueTypes prog
  let short := if used.any fun d => d.scalar = .bfloat16 then ["typedef unsigned short hip_bfloat16;"] else []
  let vectors := used.filterMap fun d =>
    if d.count > 1 then
      let v := dl.typeText d
      let s := dl.typeText d.scalar
      let names := memberNames.take d.count
      some (s!"typedef {s} {v} __attribute__((ext_vector_type({d.count}"
        ++ s!")));\nstatic inline __attribute__((device)) {v} make_{v}("
        ++ ", ".intercalate (names.map fun x => s ++ s!" {x}") ++ ") \x7b return \x7b " ++ ", ".intercalate names
        ++ " \x7d; \x7d")
    else none
  let shortName (d : DType) : GraphM String :=
    if d = .bfloat16 then pure "bf16" else if d = .float then pure "f32" else if d = .half then pure "f16"
    else throw .missingKey
  let functions ← (matrices prog).mapM fun m => do
    let name ← nameOf m
    let d ← typeOf m 2
    let o ← typeOf m 3
    if architecture arch = "gfx942" then
      return s!"#define __{name} __builtin_amdgcn_mfma_f32_16x16x16"
        ++ (if d = .half then "f16" else "bf16_1k")
    if architecture arch = "gfx1201" then
      return s!"#define __{name} __builtin_amdgcn_wmma_{← shortName o}_16x16x16_"
        ++ (← shortName d) ++ "_w32_gfx12"
    if o = .float then
      return s!"#define __{name} __builtin_amdgcn_wmma_f32_16x16x16_"
        ++ (if d = .half then "f16" else "bf16") ++ "_w32"
    return s!"static inline __attribute__((device)) half8 __{name}(half16 a, half16 b, half8 c) \x7b\n"
      ++ "  half16 c_frag = \x7b\x7d; half8 d; for (int n = 0; n < 8; n++) \x7b c_frag[n*2] = c[n]; \x7d\n"
      ++ "  c_frag = __builtin_amdgcn_wmma_f16_16x16x16_f16_w32(a, b, c_frag, false);\n"
      ++ "  for (int n = 0; n < 8; n++) \x7b d[n] = c_frag[n*2]; \x7d return d;\n\x7d"
  return ["#define INFINITY (__builtin_inff())", "#define NAN (__builtin_nanf(\"\"))",
      "typedef long unsigned int size_t;", "#define half _Float16"]
    ++ short ++ vectors ++ functions

def checkClosed : GraphM Unit := do
  let inside : Std.HashSet Nat := prog.foldl (fun s e => s.insert e.number) {}
  for u in prog do
    for s in u.src do
      if !(inside.contains s.number) then throw .invalidValue

/-- The text of a program. -/
def write (t : Target) (prog : List Expr) : GraphM String := do
  match t.dialect? with
  | none =>
    if t = .machine then
      checkClosed prog
      return ""
    throw (.because .unsupported "needs a renderer")
  | some dl =>
    let w ← body t dl prog
    match t with
    | .clang =>
      let first ← clangFirst dl prog
      return "\n".intercalate first ++ s!"\n{← assemble dl w prog []}\n"
    | .opencl | .qcom => assemble dl w prog (openclFirst prog)
    | .intel => assemble dl w prog (openclFirst prog ++ (← intelFirst prog))
    | .metal => assemble dl w prog (← metalFirst dl prog)
    | .cuda _ | .nv _ => assemble dl w prog (← cudaFirst dl prog)
    | .amd arch | .hip arch => assemble dl w prog (← amdFirst dl arch prog)
    | _ => assemble dl w prog []

end LazyTensor.Code
