import Std.Data.HashMap
import Std.Data.HashSet
import LazyTensor.Graph.Expr

/-!
# Walks over graphs

The nodes of a graph in an order in which sources come before the nodes that use them.
-/

namespace LazyTensor

/-- Nodes in the order in which they were finished, and the set of their numbers. -/
structure Sorted where
  order : Array Expr := #[]
  seen : Std.HashSet Nat := {}

def Sorted.push (s : Sorted) (e : Expr) : Sorted := ⟨s.order.push e, s.seen.insert e.number⟩

/-- A walk under way: the nodes that are still to be looked at, the next one first, each with
whether it comes back after its sources; and the nodes that are finished. -/
structure Walk where
  stack : List (Expr × Bool)
  done : Sorted := {}

namespace Walk

/-- One turn of a walk.  A finished node is passed over.  A node that comes back is finished, and
one that comes up for the first time, if the test lets it through, is put back below its sources. -/
def step (gate : Expr → Bool) (w : Walk) : Walk :=
  match w.stack with
  | [] => w
  | (e, back) :: rest =>
    if w.done.seen.contains e.number then ⟨rest, w.done⟩
    else if back then ⟨rest, w.done.push e⟩
    else if gate e then ⟨e.src.map (·, false) ++ (e, true) :: rest, w.done⟩
    else ⟨rest, w.done⟩

/-- What is left to do: a node weighs more than its sources and itself when it comes back. -/
noncomputable def work (stack : List (Expr × Bool)) : Nat :=
  stack.foldr (fun v n => (if v.2 then 1 else 2 * sizeOf v.1) + n) 0

theorem work_first (e : Expr) (stack : List (Expr × Bool)) :
    work ((e, false) :: stack) = 2 * sizeOf e + work stack := rfl

theorem work_back (e : Expr) (stack : List (Expr × Bool)) :
    work ((e, true) :: stack) = 1 + work stack := rfl

theorem work_append_lt (es : List Expr) (stack : List (Expr × Bool)) :
    work (es.map (·, false) ++ stack) < 2 * sizeOf es + work stack := by
  induction es with
  | nil => simp
  | cons e es ih =>
    rw [List.map_cons, List.cons_append, work_first, List.cons.sizeOf_spec]
    omega

/-- Every turn leaves less to do. -/
theorem work_step_lt (gate : Expr → Bool) {w : Walk} (h : ¬w.stack.isEmpty) :
    work (w.step gate).stack < work w.stack := by
  obtain ⟨_ | ⟨⟨e, back⟩, rest⟩, s⟩ := w
  · simp at h
  have hsize : sizeOf e.src < sizeOf e := by
    cases e
    simp only [Expr.src, Expr.mk.sizeOf_spec]
    omega
  have hpop : work rest < work ((e, back) :: rest) := by
    cases back
    · rw [work_first]
      omega
    · rw [work_back]
      omega
  simp only [step]
  split
  · exact hpop
  split
  · exact hpop
  split
  · next hback _ =>
    obtain rfl : back = false := by simpa using hback
    refine Nat.lt_of_lt_of_le (work_append_lt e.src ((e, true) :: rest)) ?_
    rw [work_first, work_back]
    omega
  · exact hpop

/-- The walk to its end. -/
def run (gate : Expr → Bool) (w : Walk) : Sorted :=
  if w.stack.isEmpty then w.done else (w.step gate).run gate
termination_by work w.stack
decreasing_by exact work_step_lt gate ‹_›

end Walk

namespace Expr

variable (e : Expr)

/-- The nodes below and with a node that a test lets through, sources first, and their numbers. -/
def sortedGated (gate : Expr → Bool) : Sorted := Walk.run gate { stack := [(e, false)] }

/-- The nodes below and with a node that a test lets through, sources first. -/
def toposortGated (gate : Expr → Bool) : Array Expr := (e.sortedGated gate).order

/-- All nodes below and with a node, sources first, and their numbers. -/
def sorted : Sorted := e.sortedGated fun _ => true

/-- All nodes below and with a node, sources first. -/
def toposort : Array Expr := e.sorted.order

mutual

/-- Visit a node: itself first, then its sources, unless it is an end. -/
def visitInto (isEnd : Expr → Bool) : Expr → Sorted → Sorted
  | .mk n op d src arg tag, s =>
    if s.seen.contains n then s
    else
      let s := s.push (.mk n op d src arg tag)
      if isEnd (.mk n op d src arg tag) then s else visitAll isEnd src s

def visitAll (isEnd : Expr → Bool) : List Expr → Sorted → Sorted
  | [], s => s
  | e :: rest, s => visitAll isEnd rest (visitInto isEnd e s)

end

/-- The nodes with and below a node down to some ends, every node before its sources. -/
def preorder (isEnd : Expr → Bool) : Array Expr := (visitInto isEnd e {}).order

def reaches (e x : Expr) : Bool :=
  (e.sortedGated fun n => n.number ≥ x.number).seen.contains x.number

def dedup (es : List Expr) : List Expr :=
  let step (acc : Array Expr × Std.HashSet Nat) (e : Expr) : Array Expr × Std.HashSet Nat :=
    if acc.2.contains e.number then acc else (acc.1.push e, acc.2.insert e.number)
  (es.foldl step (#[], {})).1.toList

mutual

/-- What is below each node, nearest first, remembered by number. -/
def parentsInto : Expr → Std.HashMap Nat (List Expr) → Std.HashMap Nat (List Expr)
  | .mk n _ _ src _ _, m =>
    if m.contains n then m
    else
      let m := parentsAll src m
      m.insert n (dedup (src ++ src.flatMap fun s => (m[s.number]?).getD []))

def parentsAll : List Expr → Std.HashMap Nat (List Expr) → Std.HashMap Nat (List Expr)
  | [], m => m
  | e :: rest, m => parentsAll rest (parentsInto e m)

end

/-- Every node below a node: its sources, then what is below each of them. -/
def parents : List Expr := ((parentsInto e {})[e.number]?).getD []

/-- The nodes that use each node of a graph, by the number of the node used. -/
def childTable (order : Array Expr) : Std.HashMap Nat (Array Expr) :=
  order.foldl (fun m u =>
    u.src.foldl (fun m s => m.alter s.number fun c =>
      let c := c.getD #[]
      some (if c.contains u then c else c.push u)) (m.insertIfNew u.number #[])) {}

def children : List (Expr × List Expr) :=
  let order := e.toposort
  let table := childTable order
  order.toList.map fun u => (u, ((table[u.number]?).getD #[]).toList)

/-- The operands of a nest of one operation, left to right. -/
def split (e : Expr) (op : Op) : List Expr :=
  match e with
  | .mk n o d src arg tag =>
    if o = op then src.attach.flatMap fun ⟨s, _⟩ => s.split op else [.mk n o d src arg tag]
termination_by e

/-- The variables of a graph: bound ones as bindings, the others as themselves. -/
def vars : List Expr :=
  let order := e.toposort.toList
  let bound := order.filter fun x => x.is .bind && x.src0.is .defineVar
  let bases := bound.map src0
  bound ++ order.filter fun x => x.is .defineVar && !bases.contains x

end Expr

end LazyTensor
