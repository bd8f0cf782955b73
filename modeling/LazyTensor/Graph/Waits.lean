import Std.Data.HashMap
import LazyTensor.Graph.Expr

/-!
# Nodes that wait for others

Nodes are put in order by counting: a node is ready when all that it waits for is done.
-/

namespace LazyTensor

/-- Who waits for whom: the nodes in the order in which they were met, for every node those that
read what it writes, and how many writes it waits for. -/
structure Waits where
  nodes : Array Expr := #[]
  readers : Std.HashMap Nat (Array Expr) := {}
  pending : Std.HashMap Nat Nat := {}

namespace Waits

variable (w : Waits)

def left (n : Nat) : Nat := (w.pending[n]?).getD 0

def after (n : Nat) : List Expr := ((w.readers[n]?).getD #[]).toList

def meet (k : Expr) : Waits :=
  if w.pending.contains k.number then w
  else { w with nodes := w.nodes.push k, pending := w.pending.insert k.number 0 }

def read (writer reader : Expr) : Waits :=
  { w with
    readers := w.readers.insert writer.number (((w.readers[writer.number]?).getD #[]).push reader)
    pending := w.pending.insert reader.number (w.left reader.number + 1) }

/-- A node has one write less to wait for, and joins those that are ready if it was the last. -/
def settle (r : List Expr × Waits) (x : Expr) : List Expr × Waits :=
  let n := r.2.left x.number - 1
  (if n = 0 then r.1 ++ [x] else r.1, { r.2 with pending := r.2.pending.insert x.number n })

/-- The nodes with nothing more to wait for, among those that waited for one that is done, and the
rest that is waited for. -/
def finish (k : Expr) : List Expr × Waits := (w.after k.number).foldl settle ([], w)

def ready : List Expr := w.nodes.toList.filter fun k => w.left k.number = 0

end Waits

end LazyTensor
