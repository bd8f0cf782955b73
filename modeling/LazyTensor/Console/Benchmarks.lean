import LazyTensor.Benchmark.Storage
import LazyTensor.Console.Functions
import LazyTensor.Object.Format

/-!
# Requests for benchmarks

A benchmark is asked for by its name and its sizes; the answer is what it gives.
-/

namespace LazyTensor.Benchmarks

open Benchmark

def numbers (cs : List Const) : Value := .list (cs.map .ofConst)

def size (j : Json) (k : String) : GraphM Nat := do
  return (← Request.int (← Request.need j "k") k).toNat

def hex (bs : List UInt8) : Value := .text (Quoted.hex bs)

variable (n : Nat)

/-- A formula of many variables: its forms, its bounds and a value, and facts on small formulas. -/
def symbolic : GraphM Value := do
  let e ← (← formula n).simplify
  let (lo, hi) ← e.bounds
  let v ← variableOf 0
  let c (k : Int) : ExprM := v.constLike (.int k)
  let rest ← (← v.alu .add [← c 5]).alu .mod [← c 3]
  let twice ← v.alu .add [v]
  let small ← (← v.alu .mul [← c 2]).alu .cmplt [← c 10]
  let factor ← (← v.alu .mul [← c 3]).constFactor
  return .list [.text (← e.render), .text e.text, .ofConst lo, .ofConst hi,
    .ofConst (← e.evaluate (← valuesOf n)), .ofConst factor, .text (← rest.render),
    .text (← twice.render), .text (← small.render), .int e.toposort.size,
    .int (Check.listing e.toposort.toList).length]

def described : List DType :=
  [.float, .half, .bfloat16, .of .int8, .int, .long, .uint8, .bool, .double]

def facts (d : DType) : GraphM (List Value) := do
  let name (d : DType) : Value := .text d.name
  let stored := if d.code?.isSome then [name d] else []
  let sample : Value := if d.isFloat then .float 3.7 else .int 3
  return [.text d.text, .text d.scalar.text, .int d.itemsize, .bool d.isFloat, .bool d.isInt,
    .bool d.isUnsigned, name (← d.sumType?), name (← d.meetFloat? .float),
    name (← DType.meet? [d, .float]), ← shown "ptr" [.dtype d], ← shown "vec" [.dtype d, .int 4]]
    ++ stored ++ [← DTypes.answer "truncate" [.dtype d, sample]]
where
  shown (fn : String) (args : List Value) : GraphM Value := do
    DTypes.answer "repr" [← DTypes.answer fn args]

def types : GraphM Value := do
  let narrowed ← (List.range n).mapM fun i => do
    let x : Value := .float ((Float.ofNat i - 50) / 50)
    let eight (d : DType) : GraphM Value := do
      DTypes.answer "fp8_to_float" [← DTypes.answer "float_to_fp8" [x, .dtype d], .dtype d]
    return [← DTypes.answer "truncate_fp16" [x], ← DTypes.answer "truncate_bf16" [x],
      ← eight .fp8e4m3, ← eight .fp8e5m2]
  let of ← described.mapM facts
  let image ← DType.parse "imagef(4,4,4)"
  let half ← DType.parse "imageh(2,2,4)"
  let end' : List Value := [.text DType.float.name, .text DType.half.name, .text image.text,
    ← facts.shown "vec" [.dtype image, .int 4], .text image.base.name, .text half.text,
    ← DTypes.answer "min" [.dtype (.of .int8)], ← DTypes.answer "max" [.dtype (.of .int8)],
    ← DTypes.answer "finfo" [.dtype .float], .text DType.float.name, .text DType.int.name,
    ← DTypes.answer "as_const" [.int 3, .dtype .float], .null, .bool true]
  return .list (narrowed.flatten ++ of.flatten ++ end')

def functions : GraphM Value := do
  let call := Functions.call
  let ints (ns : List Int) : Value := .list (ns.map .int)
  let count : Int := n
  let indices := List.range n
  let (third, others) := indices.partition (· % 3 = 0)
  let sizes ← indices.mapM fun _ => call "round_up" [.int 17, .int 4]
  let flat ← call "flatten" [.list (indices.map fun (i : Nat) => ints (List.replicate 4 (i : Int)))]
  let each ← indices.mapM fun (i : Nat) => do
    return [← call "getenv" [.text "X"], ← call "to_function_name" [.text s!"kernel-{i}!!"],
      ← call "word_wrap" [.text (String.ofList (List.replicate (20 + i % 5) 'x')), .int 8]]
  let bits := Value.int (2 ^ 32 + 5)
  let m : Metadata := { name := "name", caller := "caller" }
  let fixed : List Value := [← call "prod" [ints [2, 3, 4, 5]],
    ← call "dedup" [.list ((List.range (n + 1)).map fun i => .int ((i % 3 : Nat) + 1))],
    ← call "argfix" [.int 1, .int 2, .int 3], ← call "argfix" [ints [1, 2, 3]],
    ← call "argsort" [ints [3, 1, 2]], ← call "all_same" [ints [1, 1]],
    ← call "all_int" [ints [1, 2]], ← call "colored" [.text "hi", .text "red"],
    ← call "colorize_float" [.float 0.5], ← call "time_to_str" [.float 123e-6],
    ← call "ansistrip" [← call "colored" [.text "hi", .text "red"]],
    ← call "ansilen" [← call "colored" [.text "hi", .text "red"]],
    ← call "make_tuple" [.int 3, .int 2], ← call "flatten" [.list [ints [1, 2], ints [3]]],
    ← call "fully_flatten" [.list [ints [1, 2], .int 3]], ← call "strip_parens" [.text "(a+b)"],
    ← call "ceildiv" [.int 7, .int 3], ← call "round_up" [.int 5, .int 4],
    ← call "round_down" [.int 7, .int 4], ← call "cdiv" [.int (-7), .int 2],
    ← call "cmod" [.int (-7), .int 2], ← call "lo32" [bits], ← call "hi32" [bits],
    ← call "data64" [bits], ← call "data64_le" [bits],
    ← call "getbits" [.int 0xf, .int 0, .int 1], ← call "i2u" [.int 8, .int (-1)],
    ← call "is_numpy_ndarray" [ints [1]],
    ← call "merge_dicts" [.list [.dict [(.text "a", .int 1)], .dict [(.text "b", .int 2)]]],
    .list [ints [0, 2, 4], ints [1, 3, 5]], ← call "unwrap" [.int 5],
    ← call "get_single_element" [ints [7]],
    ← call "get_child" [.dict [(.text "a", .dict [(.text "b", .int 3)])], .text "a.b"],
    ← call "word_wrap" [.text (String.ofList (List.replicate 200 'a')), .int 40],
    ← call "pluralize" [.text "cat", .int count], ← call "getenv" [.text "X", .int 10],
    ← call "polyN" [.float 1, .list [.float 1, .float 2]], ← call "to_function_name" [.text "a-b c"],
    .text "/tmp/x", ← call "getenv" [.text "X"], .null, .int 4, .text m.text, .text m.longText,
    .bool true, ints [0, 1, 2, 3, 4], ints [0, 1, 2], .bytes (Stored.letters "abcd"),
    .bytes (Stored.letters "abcd"), .int 4, .text "LP_c_char_Array_2", .int 7, .float 3, .int 3]
  return .list (sizes ++ [.int third.length, .int others.length,
    .int ((← Plain.items flat).length)] ++ each.flatten ++ fixed)

def records : GraphM Value := do
  let f ← (Format.named? "Elf64_Ehdr").getDM (throw .missingMember)
  let first := (f.fields.head?.map (·.1)).getD ""
  let type := ((f.fieldFormat? "e_type").map (·.name)).getD ""
  let each := (List.range n).map fun (i : Nat) =>
    [Value.int (i % 8 : Nat), .text type, .text first, .int i]
  return .list ([.text "hello", .bytes (Stored.letters "w")] ++ each.flatten
    ++ [.int 3, .int 2, .text f.name])

def buffers : GraphM Value := do
  let name := Device.canonicalOr none
  let kind ← Device.open? name
  let each ← (List.range n).mapM fun i => do
    match (buffer i).run {} with
    | .ok (bs, bytes, size, out, a, b) _ =>
      return [hex bs, Value.int bytes, .int size, .int out, .bool a, .bool b]
    | .error f _ => throw f
  return .list ([.text name, .text (Device.canonical "python"), .text Device.default,
    .bool true, .bool false, .text kind.className] ++ each.flatten
    ++ [.text (Spec.text {}), .int 2])

def outcome (fn : String) (j : Json) : GraphM Value := do
  let row (k : String) (f : Nat → SessionM (List Const)) : GraphM Value := do
    return numbers (← Session.begin (f (← size j k)))
  match fn with
  | "elementwise_unary" => row "n_elem" unary
  | "elementwise_binary" => row "n_elem" binary
  | "reductions" => row "side" reductions
  | "matmul" =>
    let e ← Session.begin (matmul (← size j "dim"))
    return .nested e.shape e.items
  | "movement" =>
    let (shape, cs) ← Session.begin (movement (← size j "side"))
    return .list (.list (shape.map .int) :: cs.map .ofConst)
  | "indexing" => row "side" indexing
  | "backward" => row "dim" backward
  | "softmax" => row "cols" (softmax (← size j "rows"))
  | "losses" => row "batch" losses
  | "integer_ops" => row "n_elem" integers
  | "random" => row "n_elem" random
  | "tensor_creation" => row "side" creation
  | "renderers" =>
    return .list ((← Session.begin (kernelTexts (← size j "n_ops"))).map .int)
  | "safetensors_roundtrip" =>
    let (a, b, c, sums) ← Session.begin (weights (← size j "n_tensors"))
    return .list [.int a, .int b, .int c, numbers sums]
  | "gguf_tar" =>
    let (name, a, b) ← Session.begin (archives (← size j "n_tensors"))
    return .list [.text name, numbers a, numbers b]
  | "disk_tensor" =>
    let (a, b, n, m, bs) ← Session.begin (file (← size j "n_bytes"))
    return .list [.ofConst a, .ofConst b, .int n, .int m, hex bs]
  | "symbolic" => symbolic (← size j "n_vars")
  | "dtype_ops" => types (← size j "n_vals")
  | "helpers" => functions (← size j "n_items")
  | "libc_helpers" => records (← size j "n_structs")
  | "device_buffer" => buffers (← size j "n_bufs")
  | "viz_serialize" => throw .missingKey
  | _ => badInput

def answer (j : Json) : GraphM Json := do
  (← outcome (← Request.text j "fn") j).json

end LazyTensor.Benchmarks
