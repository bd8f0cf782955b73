import LazyTensor.Tensor.Bits
import LazyTensor.Tensor.Memory
import LazyTensor.Text.Json

/-!
# Weights in files

Two formats that hold named tensors one behind the other.  One has a document at its head with the
type, shape and place of every tensor.  The other has a table of typed values and a table of tensors,
whose elements may be packed into blocks with a common scale.
-/

namespace LazyTensor

open Session (traced)

namespace Weights

def slice (t : Tensor) (start : Int) (stop : Option Int) : TensorM :=
  traced "__getitem__" (t.index [.slice (.dim (.int start))
    (match stop with
      | some n => .dim (.int n)
      | none => .none) .none])

def readSlice (t : Tensor) (start stop : Int) : SessionM ByteArray := do
  let part ← slice t start (some stop)
  let x ← traced "data" part.elements
  let code := (x.dtype.base.code?).getD 'B'
  let bytes ← x.items.mapM fun c => liftM (Packing.pack code c)
  return ⟨bytes.flatten.toArray⟩

/-- All bytes of a tensor that is read as a file: it has one axis, of bytes. -/
def readAll (t : Tensor) : SessionM ByteArray := do
  let [n] ← t.shape | throw (.invalid "Tensor must be 1d and of dtype uint8!")
  if t.dtype ≠ .uint8 then throw (.invalid "Tensor must be 1d and of dtype uint8!")
  match n with
  | .int n => readSlice t 0 n
  | .sym _ => throw .wrongType

end Weights

namespace Safetensors

def types : List (String × DType) :=
  [("BOOL", .bool), ("I8", .of .int8), ("U8", .uint8), ("I16", .of .int16), ("U16", .uint16),
   ("I32", .int), ("U32", .uint), ("I64", .long), ("U64", .ulong), ("F16", .half),
   ("BF16", .bfloat16), ("F32", .float), ("F64", .double)]

def metadata (t : Tensor) : SessionM (Int × Json) := do
  let head ← Weights.readSlice t 0 8
  let start : Int := Packing.ofLittleEndian head.data.toList + 8
  let body ← Weights.readSlice t 8 start
  let s ← (String.fromUTF8? body).getDM (throw (.bare .badEncoding))
  let j ← (Json.parse? s).getDM (throw (.bare .badJson))
  return (start, j)

def field (j : Json) (k : String) : Result Json :=
  match j with
  | .record _ => (j.field? k).getDM (.error .missingKey)
  | _ => .error .wrongType

def tensor (data : Tensor) (j : Json) : TensorM := do
  let (a, b) ← match ← field j "data_offsets" with
    | .list (.int a :: .int b :: _) => pure (a, b)
    | .list (_ :: _ :: _) => throw .wrongType
    | .list _ => throw .outOfRange
    | _ => throw .wrongType
  let part ← Weights.slice data a (some b)
  let d ← match ← field j "dtype" with
    | .text s => (types.lookup s).getDM (throw .missingKey)
    | .list _ | .record _ => throw .wrongType
    | _ => throw .missingKey
  let x ← traced "bitcast" (part.bitcast d)
  let shape ← match ← field j "shape" with
    | .list ds => ds.mapM fun d => match d with
      | .int n => pure (Dim.int n)
      | _ => throw Failure.wrongType
    | .int n => pure [Dim.int n]
    | _ => throw .wrongType
  traced "reshape" (x.reshape shape)

def load (t : Tensor) : SessionM (List (String × Tensor)) := do
  let (start, j) ← metadata t
  let data ← Weights.slice t start none
  let .record fs := j | throw .missingMember
  (fs.filter (·.1 ≠ "__metadata__")).mapM fun (k, v) => do return (k, ← tensor data v)

end Safetensors

namespace Packed

variable (t : Tensor)

/-- Bytes cut into pieces of so many bits, the lowest first, as bytes of their own. -/
def cut (bits : Nat) : TensorM := do
  let count := 8 / bits
  let device ← t.device
  let powers ← (List.range count).mapM fun i =>
    Tensor.ofConst (.int (2 ^ (i * bits))) { device := some device, dtype := some t.dtype }
  let powers ← traced "stack" (Tensor.stack powers)
  let x ← traced "unsqueeze" (t.unsqueeze (-1))
  let x ← traced "expand" (x.expand ((← t.shape) ++ [.int count]))
  let x ← traced "idiv" (x.idiv powers)
  let x ← traced "bitwise_and" (x.land (.number (.int (2 ^ bits - 1))))
  let x ← traced "transpose" (x.transpose (-1) (-2))
  traced "flatten" (x.flatten (-2))

def columns (start stop : Option Int) : TensorM :=
  let bound (n : Option Int) : Bound := match n with
    | some n => .dim (.int n)
    | none => .none
  traced "__getitem__" (t.index [.slice .none .none .none, .slice (bound start) (bound stop) .none])

def scale (start stop : Option Int) : TensorM := do
  let x ← columns t start stop
  let x ← traced "bitcast" (x.bitcast .half)
  traced "cast" (x.cast .float)

def signed : TensorM := traced "bitcast" (t.bitcast (.of .int8))

/-- The elements of blocks with six bits each: four low bits, two high ones, a scale for sixteen of
them, and a scale for all. -/
def sixBits (blocks : Tensor) : TensorM := do
  let low ← traced "reshape" ((← columns blocks none (some 128)).reshape [.int (-1), 2, 64])
  let low ← cut low 4
  let high ← traced "reshape" ((← columns blocks (some 128) (some 192)).reshape [.int (-1), 2, 32])
  let high ← cut high 2
  let high ← traced "lshift" (high.shl 4)
  let scales ← signed (← columns blocks (some 192) (some 208))
  let scales ← traced "unsqueeze" (scales.unsqueeze (-1))
  let scales ← traced "expand" (scales.expand [.int (-1), 16, 16])
  let scales ← traced "reshape" (scales.reshape [.int (-1), 256])
  let d ← scale blocks (some (-2)) none
  let d ← traced "expand" (d.expand [.int (-1), 256])
  let both ← traced "bitwise_or" (low.lor high)
  let x ← traced "__sub__" ((← signed both).sub 32)
  let x ← traced "flatten" (x.flatten (-2))
  traced "__mul__" ((← traced "__mul__" (d.mul x)).mul scales)

/-- Elements of a kind, plain or in blocks with scales of their own. -/
def decode (count : Int) (kind : Int) : TensorM := do
  let plain : List (Int × DType) :=
    [(0, .float), (1, .half), (16, .of .int8), (17, .of .int16), (18, .int)]
  if let some d := plain.lookup kind then
    let part ← traced "__getitem__" (t.index [.slice .none (.dim (.int (d.itemsize * count))) .none])
    return ← traced "bitcast" (part.bitcast d)
  let blocked : List (Int × Int × Int) := [(2, 32, 18), (3, 32, 20), (14, 256, 210), (8, 32, 34)]
  let (elements, bytes) ← (blocked.lookup kind).getDM
    (throw (.invalid s!"GGML type '{kind}' is not supported!"))
  let used := Int.fdiv count elements * bytes
  let part ← traced "__getitem__" (t.index [.slice .none (.dim (.int used)) .none])
  let blocks ← traced "reshape" (part.reshape [.int (-1), .int bytes])
  if kind = 2 then
    let q ← cut (← columns blocks (some 2) none) 4
    let x ← traced "__sub__" ((← signed q).sub 8)
    let d ← scale blocks none (some 2)
    traced "__mul__" (x.mul d)
  else if kind = 3 then
    let d ← scale blocks (some 0) (some 2)
    let m ← scale blocks (some 2) (some 4)
    let q ← signed (← cut (← columns blocks (some 4) none) 4)
    traced "__add__" ((← traced "__mul__" (q.mul d)).add m)
  else if kind = 8 then
    let d ← scale blocks none (some 2)
    let q ← signed (← columns blocks (some 2) none)
    traced "__mul__" (d.mul q)
  else sixBits blocks

end Packed

inductive Entry where
  | const (c : Const)
  | bytes (b : List UInt8)
  | text (s : String)
  | list (xs : List Entry)

namespace Gguf

abbrev ReadM := StateT Nat (ReaderT ByteArray Result)

def take (n : Nat) : ReadM (List UInt8) := do
  let b ← read
  let i ← get
  let part := b.extract i (i + n)
  set (i + part.size)
  return part.data.toList

def packed (code : Char) : ReadM Const := do
  let bs ← take (Packing.size code)
  if bs.length ≠ Packing.size code then throw .badPacking
  liftM (Packing.unpack code bs)

def number (code : Char) : ReadM Int := do
  (← packed code).int?.getDM (throw .badPacking)

def text : ReadM String := do
  let n ← number 'Q'
  (String.fromUTF8? ⟨(← take n.toNat).toArray⟩).getDM (throw (.bare .badEncoding))

def codes : List (Int × Char) :=
  [(1, 'b'), (2, 'H'), (3, 'h'), (4, 'I'), (5, 'i'), (6, 'f'), (7, '?'), (10, 'Q'), (11, 'q'), (12, 'd')]

/-- Do something so often, with the results so far; the fuel is at least the number of times. -/
def repeated {α : Type} (x : α → ReadM α) : Nat → Nat → α → ReadM α
  | _, 0, a => return a
  | 0, _, _ => throw .badPacking
  | fuel + 1, n + 1, a => do repeated x fuel n (← x a)

def value : Nat → Int → ReadM Entry
  | 0, _ => throw (.bare .recursionLimit)
  | depth + 1, kind => do
    match kind with
    | 0 =>
      let bs ← take 1
      if bs.length ≠ 1 then throw .badPacking
      return .bytes bs
    | 8 => return .text (← text)
    | 9 =>
      let inner ← number 'i'
      if !([0, 8, 9].contains inner || (codes.lookup inner).isSome) then throw .missingKey
      let n ← number 'Q'
      let one (xs : List Entry) : ReadM (List Entry) := return xs ++ [← value depth inner]
      return .list (← repeated one ((← read).size + 1) n.toNat [])
    | kind =>
      let c ← (codes.lookup kind).getDM (throw .missingKey)
      return .const (← packed c)

structure Description where
  name : String
  extents : List Int
  kind : Int
  offset : Int

/-- The entries and the tensors that a file of weights describes. -/
def tables : ReadM (List (String × Entry) × List Description) := do
  let magic ← take 4
  let version ← number 'i'
  let tensors ← number 'q'
  let values ← number 'q'
  if magic ≠ [0x47, 0x47, 0x55, 0x46] || !(version = 2 || version = 3) then
    throw (.invalid "Invalid GGUF format!")
  let limit := (← read).size + 1
  let values ← repeated (fun es => do
    let k ← text
    let kind ← number 'i'
    return Entries.put es k (← value 64 kind)) limit values.toNat []
  let described ← repeated (fun ds => do
    let name ← text
    let n ← number 'I'
    let extents ← repeated (fun es => do return es ++ [← number 'Q']) limit n.toNat []
    let kind ← number 'i'
    let offset ← number 'Q'
    return ds ++ [⟨name, extents, kind, offset⟩]) limit tensors.toNat []
  return (values, described)

def load (t : Tensor) : SessionM (List (String × Entry) × List (String × Tensor)) := do
  let bytes ← Weights.readAll t
  let ((values, described), position) ← (tables.run 0).run bytes
  let alignment ← match values.lookup "general.alignment" with
    | none => pure 32
    | some (.const c) => c.int?.getDM (throw .wrongType)
    | some _ => throw .wrongType
  let start ← Shape.roundUp position alignment
  let tensors ← described.foldlM (fun acc d => do
    let part ← Weights.slice t (start + d.offset) none
    let x ← Packed.decode part (d.extents.foldl (· * ·) 1) d.kind
    if d.extents.isEmpty then throw .wrongType
    let x ← traced "reshape" (x.reshape (d.extents.reverse.map Dim.int))
    return Entries.put acc d.name x) []
  return (values, tensors)

end Gguf

end LazyTensor
