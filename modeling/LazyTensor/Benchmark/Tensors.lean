import LazyTensor.Tensor.Literal
import LazyTensor.Tensor.Loss

/-!
# Benchmarks of tensors

Each benchmark makes tensors from sample data, works on them, and gives elements or sums of the
results.  A rule gives the data at each position, so that every run sees the same.
-/

namespace LazyTensor

namespace Sample

def row (n : Nat) (f : Nat → Float) : TensorM :=
  Tensor.new (.nested (.list ((List.range n).map fun i => .leaf (.float (f i)))))

def integers (n : Nat) (f : Nat → Int) : TensorM :=
  Tensor.new (.nested (.list ((List.range n).map fun i => .leaf (.int (f i)))))

def grid (rows cols : Nat) (f : Nat → Nat → Float) (tracked : Option Bool := none) : TensorM :=
  Tensor.new (.nested (.list ((List.range rows).map fun i =>
    .list ((List.range cols).map fun j => .leaf (.float (f i j)))))) { tracked }

def wave (period : Nat) (offset : Int) (i : Nat) : Float :=
  Float.ofInt ((i % period : Nat) - offset)

def bytes (n : Nat) (f : Nat → Nat) : ByteArray :=
  ⟨((List.range n).map fun i => (f i).toUInt8).toArray⟩

end Sample

namespace Benchmark

def readings (ts : List TensorM) : SessionM (List Const) :=
  ts.mapM fun t => do (← t).item

variable (n : Nat)

def unary : SessionM (List Const) := do
  let x ← Sample.row n (Sample.wave 7 3)
  let y ← (← (← x.relu).sigmoid).tanh
  return (← (← (← y.reciprocal).sin).cos.bind (·.elements)).items

def binary : SessionM (List Const) := do
  let a ← Sample.row n (Sample.wave 5 (-1))
  let b ← Sample.row n (Sample.wave 3 (-1))
  let q ← (← (← a.add b).mul (← a.sub b)).div (← b.add 1)
  let s ← (← q.maximum b).minimum 5
  let r ← (← s.mul s).add (← a.mod 2)
  return (← (← r.lerp b 0.3).elements).items

def reductions (side : Nat) : SessionM (List Const) := do
  let x ← Sample.grid side side fun i j => Sample.wave 11 5 (i * side + j)
  readings [x.sum, x.mean, x.max, x.min, x.var, x.std, x.argmax none, x.argmin none,
    (do (← x.prod 0).sum), x.any, x.all]

def matmul (dim : Nat) : SessionM Elements := do
  let a ← Sample.grid dim dim fun i j => Sample.wave 4 0 (i + j)
  let b ← Sample.grid dim dim fun i j => Sample.wave 3 (-1) (i * j)
  (← a.matmul b).elements

/-- A square and its flipped transpose as two rows: their shape, sum and mean. -/
def movement (side : Nat) : SessionM (List Int × List Const) := do
  let x ← Sample.grid side side fun i j => Float.ofNat (i * side + j)
  let y ← Tensor.stack [← x.flatten, ← (← (← x.transpose 0 1).flip [0, 1]).flatten] 0
  return (← y.wholeShape, ← readings [y.sum, y.mean])

/-- Sums of parts of a square: every other row and column, the first row, and one element of each
row, and of the square with those replaced. -/
def indexing (side : Nat) : SessionM (List Const) := do
  let x ← Sample.grid side side fun i j => Float.ofNat (i * side + j)
  let places ← (← Sample.integers side fun i => side - 1 - i).reshape [.int side, .int 1]
  let even : Index := .slice .none .none (.dim 2)
  readings [(do (← x.index [even, even]).sum), (do (← x.index [.position 0]).sum),
    (do (← x.gather 1 places).sum),
    (do (← x.scatter 1 places (.inr (.float 99)) none).sum)]

def backward (dim : Nat) : SessionM (List Const) := do
  let x ← (← Sample.grid dim dim (fun i j => Sample.wave 4 2 (i + j)) (some true)).keep
  let w ← (← Sample.grid dim dim (fun i j => Sample.wave 3 1 (i * j)) (some true)).keep
  let y ← (← (← x.matmul w).relu).sum
  let _ ← y.backward none
  let grad (t : Tensor) : SessionM Const := do
    let some g ← t.grad? | throw .missingMember
    do (← g.sum).item
  return [← grad x, ← grad w, ← y.item]

/-- Weights along rows: their sum, the mean of their logarithms, and the sum of what they are
divided by. -/
def softmax (rows cols : Nat) : SessionM (List Const) := do
  let x ← Sample.grid rows cols fun i j => Sample.wave 7 3 (i * cols + j)
  readings [(do (← x.softmax).sum), (do (← x.logSoftmax).mean), (do (← x.logSumExp 1).sum)]

def classes : Nat := 5

def losses (batch : Nat) : SessionM (List Const) := do
  let x ← Sample.grid batch classes fun i j => Sample.wave 7 3 (i + j)
  let p ← Sample.grid batch classes fun i j => 0.1 + 0.05 * Sample.wave 3 0 (i + j)
  let label ← Sample.integers batch fun i => (i % classes : Nat)
  let hot ← (← label.oneHot classes).cast .float
  readings [x.sparseCrossEntropy label (.int (-1)) (.float 0) .mean,
    x.crossEntropy label .mean (.float 0.1),
    (do (← x.logSoftmax).nllLoss label none none .mean),
    p.binaryCrossEntropy hot .mean, x.binaryCrossEntropyLogits hot .mean]

def integers (n : Nat) : SessionM (List Const) := do
  let a ← Sample.integers n fun i => i
  let b ← Sample.integers n fun i => ((3 * i + 1) % 16 : Nat)
  let all : List TensorM := [a.land b, a.lor b, a.lxor b, a.complement,
    (do (← a.cast .uint).shl 2), (do (← a.cast .uint).shr 1),
    a.lt b, a.gt b, a.eq b, a.ne b, a.div 3 false .floor, a.mod 3, a.div b false .floor,
    (do (← a.gt 8).choose a b), a.lt 8]
  readings (all.map fun t => do (← t).sum)

def random : SessionM (List Const) := do
  Tensor.seed (.int 42)
  let shape : List Dim := [.int n]
  let a ← (← Tensor.rand shape).sum
  let a ← a.item
  let b ← (← (← Tensor.randn shape).sum).item
  let c ← (← (← Tensor.randint shape (.int 0) (.int 10)).sum).item
  let d ← (← (← Tensor.uniform shape (.float (-1)) (.float 1)).sum).item
  return [a, b, c, d]

def creation (side : Nat) : SessionM (List Const) := do
  return (← (← Tensor.randperm (.int side) .int {}).elements).items

/-! ## Graphs

Formulas of many variables are simplified and described, and kernels are written for many targets. -/

def variableOf (i : Nat) : ExprM := Expr.var s!"v{i}" (.int 0) (.int (10 + i))

/-- A formula: each variable is added before all is doubled, and taken away after. -/
def formula : ExprM := do
  (List.range (n - 1)).foldlM (fun e i => do
    let v ← variableOf (i + 1)
    let two ← e.constLike (.int 2)
    let doubled ← (← e.alu .add [v]).alu .mul [two]
    let less ← v.alu .mul [← v.constLike (.int (-1))]
    doubled.alu .add [less]) (← variableOf 0)

def valuesOf : GraphM (List (Expr × Int)) :=
  (List.range n).mapM fun i => do return (← variableOf i, ((i % 5 : Nat) : Int))

def targets : List Target :=
  [.clang, .opencl, .metal, .cuda 80, .amd "gfx1100", .hip "gfx1100", .nv 80, .intel]

/-- The lengths of the kernels that fill a square and add up its rows after some steps, for each
target. -/
def kernelTexts (steps : Nat) : SessionM (List Int) := do
  let start ← (← Tensor.ones [.int 4, .int 4]).contiguous
  let x ← (List.range steps).foldlM (fun x _ => do (← x.add 1).relu) start
  let y ← (← x.sum 1).keep
  let s ← Session.schedule [← y.placeOf]
  let kernels := s.tasks.filter fun t => t.ast.is .sink
  let lengths ← targets.mapM fun t => kernels.mapM fun k => do
    let p ← Program.ofKernel t k.ast
    return (p.text.length : Int)
  return lengths.flatten

end Benchmark

end LazyTensor
