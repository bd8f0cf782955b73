import LazyTensor.Graph.Op
import LazyTensor.DType.Basic

/-!
# Targets

The languages and machines that kernels are generated for, and what each can do.  A target is a
name; its abilities are functions of the name.
-/

namespace LazyTensor

/-- A language that programs are written in. -/
inductive Target where
  /-- No language at all: the abilities every target has. -/
  | base
  /-- Linear programs that the built-in machine runs. -/
  | machine
  | clang
  | opencl
  | intel
  | qcom
  | metal
  | cuda (generation : Nat)
  | nv (generation : Nat)
  | amd (arch : String)
  | hip (arch : String)
  deriving DecidableEq, Repr

namespace Target

/-- The operations that C-like languages write directly. -/
def cOps : List Op :=
  [.sqrt, .recip, .neg, .exp2, .log2, .sin, .and, .xor, .or, .add, .sub, .mul, .mod, .idiv, .cmpne,
   .shr, .shl, .cmplt, .select]

def ops : Target → List Op
  | base | machine => []
  | clang => cOps.filter fun o => o ≠ .exp2 && o ≠ .sin && o ≠ .log2
  | _ => cOps

def device : Target → String
  | base => ""
  | machine => "PYTHON"
  | clang => "CPU"
  | opencl | intel => "GPU"
  | qcom => "QCOM"
  | metal => "METAL"
  | cuda _ => "CUDA"
  | nv _ => "NV"
  | amd _ => "AMD"
  | hip _ => "HIP"

def hasLocal : Target → Bool
  | clang => false
  | _ => true

end Target

end LazyTensor
