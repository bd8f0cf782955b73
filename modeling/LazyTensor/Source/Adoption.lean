import LazyTensor.Source.Statistics

/-!
# Adopting files of a neighbour

Files of a neighbouring project are copied here one after the other; where they import from the
neighbour, they import from here afterwards.  A file that is missing ends the work.
-/

namespace LazyTensor

structure FileTree where
  files : List (List String × String) := []
  folders : List (List String) := [[]]

namespace FileTree

variable (t : FileTree) (p : List String)

def isFile : Bool := t.files.any (·.1 == p)

def isFolder : Bool :=
  (t.folders.any fun q => q.take p.length == p) ||
    t.files.any fun (q, _) => p.length < q.length && q.take p.length == p

def isBlocked : Bool :=
  (List.range p.length).any fun n => t.isFile (p.take n)

def read : Result String :=
  match t.files.find? (·.1 == p) with
  | some (_, s) => .ok s
  | none =>
    if t.isFolder p then .error (.bare .isDirectory)
    else if t.isBlocked p then .error (.bare .notDirectory)
    else .error (.bare .missingFile)

def addFolder : Result FileTree :=
  if t.isFile p then .error (.bare .fileExists)
  else if t.isBlocked p then .error (.bare .notDirectory)
  else .ok { t with folders := p :: t.folders }

def write (s : String) : Result FileTree :=
  if t.isFolder p then .error (.bare .isDirectory)
  else if t.isFile p then
    .ok { t with files := t.files.map fun (q, old) => if q == p then (q, s) else (q, old) }
  else .ok { t with files := t.files ++ [(p, s)] }

end FileTree

namespace Adoption

/-- The names on the way along a path from a directory; two points lead back. -/
def walk (start : List String) (path : String) : List String :=
  let step (here : List String) (n : String) : List String :=
    if n = "" || n = "." then here else if n = ".." then here.dropLast else here ++ [n]
  let start := if path.startsWith "/" then [] else start
  (path.splitOn "/").foldl step start

def rename (text : String) : String :=
  ((text.replace "from tinygrad " "from testgrad ").replace "from tinygrad." "from testgrad.").replace
    "import tinygrad." "import testgrad."

structure Work where
  tree : FileTree
  printed : String := ""

def copy (source target : List String) (path : String) : EStateM Failure Work Unit := do
  modify fun w => { w with printed := w.printed ++ "importing " ++ path ++ "\n" }
  let ofExcept {α : Type} (x : Result α) : EStateM Failure Work α := match x with
    | .ok a => pure a
    | .error f => throw f
  let text ← ofExcept ((← get).tree.read (walk source path))
  let text := rename (String.ofList (Statistics.plainEnds text.toList))
  let place := walk target path
  let tree ← ofExcept ((← get).tree.addFolder place.dropLast)
  modify fun w => { w with tree }
  let tree ← ofExcept (tree.write place text)
  modify fun w => { w with tree }

def usual : List String :=
  ["dtype.py", "helpers.py", "gradient.py", "device.py", "__init__.py", "kernelize/grouper.py",
   "runtime/ops_cpu.py", "runtime/ops_python.py", "runtime/ops_npy.py", "runtime/ops_disk.py",
   "runtime/ops_metal.py", "runtime/support/elf.py", "renderer/__init__.py", "renderer/cstyle.py",
   "runtime/autogen/libc.py", "nn/__init__.py", "nn/optim.py", "nn/state.py", "nn/datasets.py",
   "uop/__init__.py", "uop/mathtraits.py", "uop/upat.py", "uop/symbolic.py", "uop/spec.py",
   "uop/transcendental.py", "shape/view.py", "viz/serve.py", "viz/index.html", "viz/js/index.js",
   "viz/js/worker.js", "codegen/devectorizer.py", "codegen/expander.py", "codegen/linearize.py",
   "engine/realize.py"]

def usualTests : List String :=
  ["test_ops.py", "test_tiny.py", "test_arange.py", "test_schedule.py", "test_outerworld_range.py",
   "unit/test_disk_tensor.py", "unit/test_simple_schedule.py"]

def run (wanted : List String) : EStateM Failure Work Unit := do
  let library := ["tinygrad", "tinygrad"]
  for f in if wanted.isEmpty then usual else wanted do copy library ["work", "testgrad"] f
  for f in if wanted.isEmpty then usualTests else [] do
    copy ["tinygrad", "test"] ["work", "test"] f

end Adoption

end LazyTensor
