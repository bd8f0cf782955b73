import LazyTensor.DType.Support
import LazyTensor.Graph.Target

/-!
# Names of devices

A device is named by its kind, and optionally by a number or a path after a colon.  Small letters
in the kind do not matter, and the number zero may be left out.
-/

namespace LazyTensor.Device

inductive Kind where
  | machine
  | host
  | array
  | disk
  deriving DecidableEq, Repr

namespace Kind

def canView : Kind → Bool
  | host | disk => true
  | machine | array => false

def canShow : Kind → Bool
  | host | disk | array => true
  | machine => false

def target : Kind → Target
  | machine => .machine
  | host => .clang
  | array | disk => .base

def className : Kind → String
  | machine => "PythonDevice"
  | host => "CPUDevice"
  | array => "NpyDevice"
  | disk => "DiskDevice"

end Kind

def parts (name : String) : String × String :=
  let cs := name.toList
  (String.ofList (cs.takeWhile (· ≠ ':')), String.ofList (cs.dropWhile (· ≠ ':')))

def default : String := "PYTHON"

def canonicalOr (name : Option String) : String := canonical (name.getD default)

def modules : List String := ["CPU", "DISK", "METAL", "NPY", "PYTHON"]

def candidates : List String :=
  ["METAL", "AMD", "NV", "CUDA", "QCOM", "GPU", "CPU", "LLVM", "DSP", "WEBGPU"]

def open? (name : String) : Result Kind :=
  match (parts (canonical name)).1 with
  | "PYTHON" => .ok .machine
  | "CPU" => .ok .host
  | "NPY" => .ok .array
  | "DISK" => .ok .disk
  | "METAL" => .error (.bare .osFailure)
  | _ => .error (.bare .missingModule)

def available (candidates : List String) : List String :=
  candidates.filter fun d => match open? d with
    | .ok _ => true
    | .error _ => false

/-- The default device for switches by name: the one switched on, else the first available one; with
it, whether the choice is noted for programs started later. -/
def choose (switches : String → Int) (candidates : List String) : Result (String × Bool) :=
  let chosen := modules.filter fun d => d ≠ "DISK" && d ≠ "NPY" && switches d = 1
  match chosen with
  | [d] => .ok (d, false)
  | [] =>
    match available candidates with
    | d :: _ => .ok (d, true)
    | [] => .error (.misused "no usable devices")
  | ds =>
    let names := String.intercalate ", " (ds.map fun d => s!"'{d}'")
    .error (.broken s!"multiple devices set in env: [{names}]")

end LazyTensor.Device
