import LazyTensor.Graph.Target
import LazyTensor.Graph.Text

/-!
# Matrix units

Some targets multiply small matrices in one instruction of a group of threads.  A unit says how
large the matrices are, how many elements a thread holds of each, and how the axes are spread over
threads and elements.
-/

namespace LazyTensor

structure AxisOrder where
  threads : List Int
  elements : List Int
  deriving DecidableEq, Repr

structure MatrixUnit where
  /-- Columns and rows of the result, and the length of the sums. -/
  dims : Int × Int × Int
  threads : Int
  /-- How many elements of the operands and of the result a thread holds. -/
  perThread : Int × Int × Int
  input : DType
  output : DType
  /-- For each axis in turn, `u` or `l` (over elements or threads) and the dimension it is cut from. -/
  cuts : List String
  orders : List (Option AxisOrder) := [none, none]
  deriving Repr

namespace MatrixUnit

variable (m : MatrixUnit)

def reduceAxes : Result (List (Nat × Nat)) :=
  if m.dims.2.2 ≤ 0 then .error .invalidValue
  else .ok ((List.range m.dims.2.2.toNat.log2).map fun i => (i, 2))

def elementCuts : List String := m.cuts.filter fun s => s.toList.head? = some 'u'

def threadCuts : List String := m.cuts.filter fun s => s.toList.head? = some 'l'

def name (m : MatrixUnit) : String :=
  "_".intercalate (["WMMA"] ++ [m.dims.1, m.dims.2.1, m.dims.2.2].map toString
    ++ [m.input.name, m.output.name])

/-- The parts of a matrix unit fit together. -/
def check : Result Unit := do
  let reduced := (← m.reduceAxes).length
  let across := m.threadCuts.length
  let within := m.elementCuts.length
  let cutsText := tupleOf (m.cuts.map Quoted.text)
  if m.dims.1 * m.dims.2.1 ≠ 2 ^ (across + within) then
    throw (.broken s!"N({m.dims.1}) x M({m.dims.2.1}) != local({2 ^ across}) x upcast({2 ^ within}) with opts({cutsText})")
  if (2 : Int) ^ across ≠ m.threads then
    throw (.broken s!"{m.threads} threads construct the warp but found {2 ^ across} in {cutsText}")
  if (2 : Int) ^ within ≠ m.perThread.2.2 then
    throw (.broken s!"{m.perThread.2.2} elements from C are processed per thread but found {2 ^ within} in {cutsText}")
  if !(m.orders.all fun o => o.elim true fun o =>
      o.threads.length = across && o.elements.length = reduced + within) then
    throw (.broken s!"swizzle perm should be of len (({across})({reduced + within}))")

private def family (dims : Int × Int × Int) (threads : Int) (perThread : Int × Int × Int)
    (cuts : List String) (orders : List (Option AxisOrder)) (types : List (DType × DType)) :
    List MatrixUnit :=
  types.map fun (i, o) => { dims, threads, perThread, input := i, output := o, cuts, orders }

private def cudaCuts : List String := ["u0", "l0", "l0", "l1", "l1", "l1", "u1"]

def cuda75 : List MatrixUnit :=
  family (8, 16, 8) 32 (4, 2, 4) cudaCuts
    [some ⟨[6, 7, 2, 3, 4], [0, 1, 8, 5, 9]⟩, some ⟨[6, 7, 8, 0, 1], [2, 3, 4, 9, 5]⟩]
    [(.half, .float), (.half, .half)]

def cuda80 : List MatrixUnit :=
  family (8, 16, 16) 32 (8, 4, 4) cudaCuts
    [some ⟨[6, 7, 2, 3, 4], [0, 1, 9, 5, 10, 8]⟩, some ⟨[6, 7, 9, 0, 1], [2, 3, 4, 10, 5, 8]⟩]
    [(.half, .float), (.bfloat16, .float), (.half, .half)] ++ cuda75

def amd (arch : String) : List MatrixUnit :=
  match (arch.splitOn ":").headD arch with
  | "gfx942" =>
    family (16, 16, 16) 64 (4, 4, 4) ["l0", "l0", "l0", "l0", "u1", "u1", "l1", "l1"]
      [some ⟨[10, 11, 4, 5, 8, 9], [0, 1, 2, 3, 6, 7]⟩, some ⟨[0, 1, 2, 3, 8, 9], [4, 5, 10, 11, 6, 7]⟩]
      [(.half, .float), (.bfloat16, .float)]
  | "gfx1200" | "gfx1201" =>
    family (16, 16, 16) 32 (8, 8, 8) ["l0", "l0", "l0", "l0", "u1", "u1", "u1", "l1"]
      [some ⟨[9, 10, 11, 4, 7], [0, 1, 2, 3, 5, 6, 8]⟩, some ⟨[0, 1, 2, 3, 7], [4, 9, 10, 11, 5, 6, 8]⟩]
      [(.half, .float), (.half, .half), (.bfloat16, .float), (.bfloat16, .bfloat16)]
  | _ =>
    family (16, 16, 16) 32 (16, 16, 8) ["l0", "l0", "l0", "l0", "l1", "u1", "u1", "u1"]
      [some ⟨[4, 9, 10, 11, 0], [1, 2, 3, 5, 6, 7, 8]⟩, some ⟨[0, 1, 2, 3, 4], [9, 10, 11, 5, 6, 7, 8]⟩]
      [(.half, .float), (.half, .half), (.bfloat16, .float)]

def intel : List MatrixUnit :=
  family (8, 8, 16) 8 (16, 16, 8) ["l0", "l0", "l0", "u1", "u1", "u1"]
    [some ⟨[4, 5, 6], [0, 1, 2, 3, 7, 8, 9]⟩, some ⟨[0, 1, 2], [7, 8, 9, 3, 4, 5, 6]⟩]
    [(.half, .float)]

end MatrixUnit

def Target.matrixUnits : Target → List MatrixUnit
  | .intel => MatrixUnit.intel
  | .cuda g | .nv g =>
    if g ≥ 80 then MatrixUnit.cuda80 else if g ≥ 75 then MatrixUnit.cuda75 else []
  | .amd arch | .hip arch => MatrixUnit.amd arch
  | _ => []

end LazyTensor
