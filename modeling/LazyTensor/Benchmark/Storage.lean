import LazyTensor.Archive.Checkpoint
import LazyTensor.Benchmark.Tensors

/-!
# Benchmarks of stored data

Files are put together from sample data and read again, and buffers are filled and looked at.
-/

namespace LazyTensor

namespace Stored

def word (width n : Nat) : List UInt8 :=
  (List.range width).map fun i => (n / 256 ^ i % 256).toUInt8

def letters (s : String) : List UInt8 := s.toUTF8.data.toList

def floats (n : Nat) (x : Float) : List UInt8 :=
  (List.replicate n (word 4 x.toFloat32.toBits.toNat)).flatten

def safetensors (n : Nat) : ByteArray :=
  let entry (i : Nat) : String × Json :=
    (s!"t{i}", .record [("dtype", .text "F32"), ("shape", .list [.int 4, .int 4]),
      ("data_offsets", .list [.int (64 * i), .int (64 * (i + 1))])])
  let head := letters (Json.record ((List.range n).map entry)).write
  let data := (List.range n).flatMap fun i => floats 16 (Float.ofNat (i + 1))
  ⟨(word 8 head.length ++ head ++ data).toArray⟩

def counted (s : String) : List UInt8 := word 8 (letters s).length ++ letters s

def gguf (n : Nat) (name : String) : ByteArray :=
  let head := letters "GGUF" ++ word 4 3 ++ word 8 n ++ word 8 1
  let values := counted "general.name" ++ word 4 8 ++ counted name
  let described := (List.range n).flatMap fun i =>
    counted s!"t{i}" ++ word 4 1 ++ word 8 4 ++ word 4 0 ++ word 8 (32 * i)
  let front := head ++ values ++ described
  let data := (List.range n).flatMap fun i =>
    floats 4 (Float.ofNat i) ++ List.replicate 16 0
  ⟨(front ++ List.replicate ((32 - front.length % 32) % 32) 0 ++ data).toArray⟩

def field (width : Nat) (bs : List UInt8) : List UInt8 :=
  bs ++ List.replicate (width - bs.length) 0

def octal (width n : Nat) : List UInt8 :=
  let digits := Nat.toDigits 8 n
  letters (String.ofList (List.replicate (width - 1 - digits.length) '0' ++ digits)) ++ [0]

def header (name : String) (size : Nat) (checksum : List UInt8) : List UInt8 :=
  field 512 (field 100 (letters name) ++ octal 8 0o644 ++ octal 8 0 ++ octal 8 0 ++ octal 12 size
    ++ octal 12 0 ++ checksum ++ [48] ++ field 100 [] ++ letters "ustar" ++ [0] ++ letters "00")

def tar (members : List (String × List UInt8)) : ByteArray :=
  let one (m : String × List UInt8) : List UInt8 :=
    let blank := header m.1 m.2.length (List.replicate 8 32)
    let total := blank.foldl (fun a b => a + b.toNat) 0
    header m.1 m.2.length (octal 7 total ++ [32]) ++ m.2
      ++ List.replicate ((512 - m.2.length % 512) % 512) 0
  ⟨(members.flatMap one ++ List.replicate 1024 0).toArray⟩

end Stored

namespace Benchmark

def total (t : Tensor) : SessionM Const := do (← t.sum).item

/-- Named tensors written and read again: how many there are, how many are described, the bytes in
front of the description, and their sums. -/
def weights (n : Nat) : SessionM (Nat × Nat × Nat × List Const) := do
  let t ← Tensor.new (.bytes (Stored.safetensors n))
  let found ← Safetensors.load t
  let described := match (← Safetensors.metadata t).2 with
    | .record fs => fs.length
    | _ => 0
  return (found.length, described, 8, ← found.mapM fun (_, x) => total x)

/-- A packed file and an archive read again: the name in the one, and the sums of the parts of
both. -/
def archives (n : Nat) : SessionM (String × List Const × List Const) := do
  let (values, tensors) ← Gguf.load (← Tensor.new (.bytes (Stored.gguf n "hi")))
  let name := match values.lookup "general.name" with
    | some (.text s) => s
    | _ => ""
  let files := (List.range n).map fun i =>
    (s!"f{i}", (Sample.bytes 8 fun j => i + j).data.toList)
  let members ← TarFile.extract (← Tensor.new (.bytes (Stored.tar files)))
  return (name, ← tensors.mapM fun (_, x) => total x, ← members.mapM fun (_, x) => total x)

/-- Two files read as tensors: the sum of one, and the sum of the first half, the extent, the bytes
and the first bytes of the other. -/
def file (n : Nat) : SessionM (Const × Const × Int × Int × List UInt8) := do
  let read (path : String) (b : ByteArray) : TensorM := do
    Heap.putFile path b
    (← Tensor.new (.file path)).movedTo none
  let x ← read "a" (Sample.bytes n fun i => 7 * i)
  let y ← read "b" (Sample.bytes n fun i => 3 * i)
  let half ← y.index [Index.upTo (n / 2 : Nat)]
  let bytes ← y.bytes
  return (← total x, ← total half, n, bytes.size, bytes.data.toList.take 4)

/-- A buffer of ones: its first bytes, its bytes, its elements, and the bytes copied out. -/
def buffer (i : Nat) : HeapM (List UInt8 × Int × Int × Int × Bool × Bool) := do
  let size : Nat := 4 + i % 7
  let n ← Heap.add { (← Buffer.new Device.default size .float) with refs := 1 }
  Heap.allocate n
  Heap.copyIn n ⟨(Stored.floats size 1).toArray⟩
  let out ← Heap.copyOut n
  let b ← Heap.find n
  let h ← get
  return (out.data.toList.take 4, b.bytes, b.size, out.size, h.isAllocated n, h.isInitialized n)

end Benchmark

end LazyTensor
