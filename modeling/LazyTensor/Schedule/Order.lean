import LazyTensor.Graph.Waits
import LazyTensor.Schedule.Kernels

/-!
# The order of kernels

A graph of kernels becomes a list of tasks: a kernel comes after all kernels that write what it
reads, and otherwise as early as it was met.
-/

namespace LazyTensor

/-- A kernel with its memories, the one it writes first. -/
structure Task where
  ast : Expr
  buffers : List Memory

/-- Tasks in order, and the values of the variables they are open in. -/
structure Schedule where
  tasks : List Task := []
  values : List (Expr × Int) := []

def Waits.store (w : Waits) (u : Expr) : GraphM Waits := do
  let k ← u.nth 1
  k.src.foldlM (fun w s => do
    match s.op with
    | .store => return w.read (← s.nth 1) k
    | .buffer | .bind | .bufferView => return w
    | o => throw (Failure.misused s!"input to kernel must be STORE, BUFFER, or BIND, not {o.text}"))
    (w.meet k)

namespace Schedule

/-- The last value of each variable, in the order in which the variables come. -/
def lastValues (vs : List (Expr × Int)) : List (Expr × Int) :=
  (Expr.dedup (vs.map (·.1))).filterMap fun v => vs.reverse.find? (·.1 == v)

def taskOf (k : Expr) : GraphM (Task × List (Expr × Int)) := do
  let buffers ← (k.src.filter fun s => !(s.is .bind)).mapM fun s => do (← s.bufferNode).memory
  let values ← (k.src.filter fun s => s.is .bind).mapM Expr.unbind
  let .kernel ast _ := k.arg | throw .missingMember
  return (⟨ast, buffers⟩, lastValues values)

def drain : Nat → List Expr → Waits → List Task → List (Expr × Int) → GraphM Schedule
  | fuel + 1, k :: queue, w, tasks, values => do
    let (task, own) ← taskOf k
    let (ready, w) := w.finish k
    drain fuel (queue ++ ready) w (tasks ++ [task]) (values ++ own)
  | _, _, _, tasks, values => return ⟨tasks, ← Layout.mergeValues values⟩

def ofGraph (sink : Expr) : GraphM Schedule := do
  let w ← sink.toposort.foldlM (fun w u => if u.is .store then Waits.store w u else pure w)
    ({} : Waits)
  drain (w.nodes.size + 1) w.ready w [] []

end Schedule

end LazyTensor
