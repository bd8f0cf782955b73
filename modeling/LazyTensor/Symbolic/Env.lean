import LazyTensor.Layout.OfExpr
import LazyTensor.Symbolic.Algebra

/-!
# The services of the builder

Building nodes needs layouts of nodes and simplification of extents; both build nodes themselves.
The knot is tied by levels: at level zero neither is available, and a level offers both as computed
with the level below.
-/

namespace LazyTensor

def Env.level : Nat → Env
  | 0 =>
    { simplify := fun _ => throw (Failure.bare .recursionLimit)
      layout := fun _ => throw (Failure.bare .recursionLimit) }
  | n + 1 =>
    { simplify := fun e => (Algebra.rules.apply e).run (Env.level n)
      layout := fun e => e.computeLayout.run (Env.level n) }

def Env.deep : Env := Env.level 200

/-- Run a computation on a store; the store survives a failure. -/
def GraphM.runOn {α : Type} (x : GraphM α) (s : Store) : Result α × Store :=
  match (x.run Env.deep).run s with
  | .ok a s => (.ok a, s)
  | .error f s => (.error f, s)

end LazyTensor
