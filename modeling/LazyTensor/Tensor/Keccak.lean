import LazyTensor.Tensor.Contract

/-!
# The sponge hash of rows of bytes

Each row is absorbed block by block into a state of 25 words; 24 rounds mix the state after every
block.
-/

namespace LazyTensor

structure Sponge where
  rate : Int
  suffix : Int

namespace Sponge

def named? : String → Option Sponge
  | "sha3_224" => some ⟨144, 6⟩
  | "sha3_256" => some ⟨136, 6⟩
  | "shake_128" => some ⟨168, 31⟩
  | _ => none

def rotations : List Nat :=
  [44, 43, 21, 14, 28, 20, 3, 45, 61, 1, 6, 25, 8, 18, 27, 36, 10, 15, 56, 62, 55, 39, 41, 2]

def order : List Nat :=
  [0, 6, 12, 18, 24, 3, 9, 10, 16, 22, 1, 7, 13, 19, 20, 4, 5, 11, 17, 23, 2, 8, 14, 15, 21]

def roundConstants : List Nat :=
  [1, 0x8082, 0x800000000000808a, 0x8000000080008000, 0x808b, 0x80000001, 0x8000000080008081,
   0x8000000000008009, 0x8a, 0x88, 0x80008009, 0x8000000a, 0x8000808b, 0x800000000000008b,
   0x8000000000008089, 0x8000000000008003, 0x8000000000008002, 0x8000000000000080, 0x800a,
   0x800000008000000a, 0x8000000080008081, 0x8000000000008080, 0x80000001, 0x8000000080008008]

def ending (s : Sponge) (width used padding : Int) : List (Int × Int) :=
  if padding = 1 then
    [(used, 0), (1, Const.bitwise Nat.xor s.suffix 0x80), (width - used - 1, 0)]
  else
    [(used, 0), (1, s.suffix), (width + s.rate - used - 202, 0), (1, 0x80), (200 - s.rate, 0)]

end Sponge

namespace Tensor

def words (device : Arg) (ns : List Nat) : TensorM := do
  stack (← ns.mapM fun (n : Nat) =>
    new (.number (.int n)) { device := some device, dtype := some .ulong })

/-- A round of the sponge on its state. -/
def spongeRound (left right constant state : Tensor) : TensorM := do
  let square : List Dim := [.int (-1), 5, 5]
  let p ← (← state.reshape square).transpose 2 1
  let columns ← (List.range 5).mapM fun (i : Nat) =>
    p.index [Index.whole, Index.whole, .position (.int i)]
  let parity ← match columns with
    | c :: cs => cs.foldlM (fun a (b : Tensor) => a.lxor b) c
    | [] => pure p
  let parity ← parity.roll [-1] [1]
  let turned ← (← parity.shl 1).lxor (← parity.shr 63)
  let mix ← (← parity.roll [2] [1]).lxor turned
  let mix ← (← mix.unsqueeze 2).expand [.int (-1), .int (-1), 5]
  let state ← state.lxor (← (← mix.transpose 2 1).flatten 1)
  let order := Nested.list (Sponge.order.map fun (n : Nat) => .leaf (.int n))
  let state ← state.index [Index.whole, .data order]
  let state ← (← state.mul left).lor (← state.idiv right)
  let state ← state.reshape square
  let next ← (← state.roll [-1] [2]).lxor (-1 : Int)
  let chi ← next.land (← state.roll [-2] [2])
  (← (← state.lxor chi).flatten 1).lxor constant

/-- The digest of each row by a sponge. -/
def keccak (t : Tensor) (s : Result Sponge) : TensorM := do
  let device ← t.device
  let left ← words device (0 :: Sponge.rotations.map fun n => 2 ^ n)
  let right ← words device (1 :: Sponge.rotations.map fun n => 2 ^ (64 - n))
  let constants ← Sponge.roundConstants.mapM fun n => do
    (← words device [n]).padFlat [0, 24]
  let s ← s
  let shape ← t.shape
  let front := shape.dropLast
  let rows ← (← t.bitcast .uint8).reshape [← Dim.prod front, .int (-1)]
  let last ← (← t.extent (-1)).int?.getDM (throw .wrongType)
  if s.rate = 0 then throw .divisionByZero
  let padding := s.rate - Int.fmod (last * (t.dtype.itemsize : Int)) s.rate
  let count ← rows.extent 0
  let data ← rows.padSome [none, some (0, .int padding)]
  let data ← data.reshape [count, .int (-1), .int s.rate]
  let data ← (← data.padSome [none, none, some (0, .int (200 - s.rate))]).flatten 1
  let width ← (← data.extent 1).int?.getDM (throw .wrongType)
  let runs := (s.ending width (width + s.rate - padding - 200) padding).filter fun (n, _) => n > 0
  let mask ← cat (← runs.mapM fun (n, v) => do
    let x ← new (.number (.int v)) (← data.beside (some .uint8) none)
    x.expand [.int n]) 0
  let data ← (← (← data.lxor mask).reshape [count, .int (-1), 200]).bitcast .ulong
  let start ← zeros [count, 25] { device := some device, dtype := some .ulong }
  let blocks ← (← data.extent 1).int?.getDM (throw .wrongType)
  let absorb (state : Tensor) (k : Nat) : TensorM := do
    let block ← (← data.index [Index.whole, .position (.int k)]).reshape [.int (-1), 25]
    constants.foldlM (fun st c => spongeRound left right c st) (← state.lxor block)
  let state ← (List.range blocks.toNat).foldlM absorb start
  let bytes ← state.bitcast .uint8
  let out ← bytes.index [Index.whole, Index.upTo (Int.fdiv (200 - s.rate) 2)]
  out.reshape (front ++ [.int (-1)])

end Tensor

end LazyTensor
