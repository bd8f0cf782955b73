import Mathlib
import LazyTensor.Graph.Waits

/-!
# Counting what nodes wait for

A table has, for every node, how many writes it waits for and which nodes read what it writes; a node
that reads another several times is counted as often on both sides.  So the counts go down to zero
exactly when all that a node reads is written.

## Main results

* `Waits.foldl_settle`: which nodes become ready when one is done.
* `Waits.Drains.step`: one more node is done.
-/

namespace LazyTensor

open List LazyTensor.Expr

namespace Waits

/-! ## Who waits for whom -/

variable {w : Waits} {ks : List Expr} {E : List (Nat × Nat)}

/-- The tables of a list of reads, once some nodes are done: each node waits for the writes of
those that are not. -/
structure Tracks (w : Waits) (ks : List Expr) (E : List (Nat × Nat)) (done : List Nat) : Prop where
  after : ∀ n, (w.after n).map number = (E.filter (·.1 = n)).map (·.2)
  known : ∀ n, ∀ x ∈ w.after n, x ∈ ks
  left : ∀ n, w.left n = E.countP fun e => e.2 = n ∧ e.1 ∉ done

/-- The tables after a list of nodes was met, some of them more than once. -/
structure Met (w : Waits) (ks : List Expr) (E : List (Nat × Nat)) : Prop where
  tracks : w.Tracks ks E []
  pending : ∀ n, n ∈ w.pending ↔ n ∈ ks.map number
  mem : ∀ n, n ∈ w.nodes.toList.map number ↔ n ∈ ks.map number
  nodup : (w.nodes.toList.map number).Nodup
  sub : ∀ k ∈ w.nodes.toList, k ∈ ks

theorem Met.empty : ({} : Waits).Met [] [] :=
  ⟨⟨by simp [after], by simp [after], by simp [left]⟩, by simp, by simp, by simp, by simp⟩

theorem Met.meet (h : w.Met ks E) (k : Expr) : (w.meet k).Met (ks ++ [k]) E := by
  obtain ⟨⟨hafter, hknown, hleft⟩, hpending, hmem, hnodup, hsub⟩ := h
  have hknown' : ∀ n, ∀ x ∈ w.after n, x ∈ ks ++ [k] := fun n x hx => by simp [hknown n x hx]
  unfold Waits.meet
  split
  · next hk =>
    have hk : k.number ∈ ks.map number := (hpending _).mp hk
    have happ : ∀ n, n ∈ (ks ++ [k]).map number ↔ n ∈ ks.map number := by
      intro n
      simp only [map_append, mem_append, map_cons, map_nil, mem_singleton]
      exact or_iff_left_of_imp fun h => h ▸ hk
    exact ⟨⟨hafter, hknown', hleft⟩, fun n => (hpending n).trans (happ n).symm,
      fun n => (hmem n).trans (happ n).symm, hnodup, fun x hx => by simp [hsub x hx]⟩
  · next hk =>
    have hk : k.number ∉ w.pending := hk
    refine ⟨⟨hafter, hknown', fun n => ?_⟩, fun n => ?_, fun n => ?_, ?_, fun x hx => ?_⟩
    · rw [← hleft n, left, left, Std.HashMap.getElem?_insert]
      split
      · next hn =>
        obtain rfl := beq_iff_eq.mp hn
        rw [Std.HashMap.getElem?_eq_none hk]
        rfl
      · rfl
    · rw [Std.HashMap.mem_insert, hpending]
      simp [or_comm, @eq_comm _ n]
    · simp only [Array.toList_push, map_append, mem_append, hmem]
    · rw [Array.toList_push, map_append, nodup_append]
      refine ⟨hnodup, by simp, fun a ha b hb => ?_⟩
      obtain rfl : b = k.number := by simpa using hb
      rintro rfl
      exact hk ((hpending _).mpr ((hmem _).mp ha))
    · rw [Array.toList_push] at hx
      obtain hx | hx := mem_append.mp hx
      · simp [hsub x hx]
      · simp [mem_singleton.mp hx]

theorem Met.read (h : w.Met ks E) {k : Expr} (hk : k ∈ ks) (a : Expr) :
    (w.read a k).Met ks (E ++ [(a.number, k.number)]) := by
  have hafter (n : Nat) : (w.read a k).after n = w.after n ++ if a.number = n then [k] else [] := by
    rw [after, after, Waits.read, Std.HashMap.getElem?_insert]
    by_cases hn : a.number = n <;> simp [hn]
  have hleft (n : Nat) : (w.read a k).left n = w.left n + if k.number = n then 1 else 0 := by
    rw [left, Waits.read, Std.HashMap.getElem?_insert]
    by_cases hn : k.number = n <;> simp [hn, left]
  refine ⟨⟨fun n => ?_, fun n x hx => ?_, fun n => ?_⟩, fun n => ?_, h.mem, h.nodup, h.sub⟩
  · rw [hafter, map_append, h.tracks.after]
    by_cases hn : a.number = n <;> simp [hn]
  · rw [hafter] at hx
    obtain hx | hx := mem_append.mp hx
    · exact h.tracks.known n x hx
    · obtain ⟨-, rfl⟩ : a.number = n ∧ x = k := by simpa using hx
      exact hk
  · rw [hleft, h.tracks.left, countP_append, countP_singleton]
    simp
  · change n ∈ w.pending.insert _ _ ↔ _
    rw [Std.HashMap.mem_insert, h.pending]
    refine or_iff_right_of_imp fun hn => ?_
    obtain rfl := beq_iff_eq.mp hn
    exact mem_map_of_mem hk

/-! ## What becomes ready -/

theorem left_settle (ready : List Expr) (w : Waits) (x : Expr) (n : Nat) :
    (settle (ready, w) x).2.left n = if x.number = n then w.left n - 1 else w.left n := by
  rw [left, settle, Std.HashMap.getElem?_insert]
  by_cases hn : x.number = n <;> simp [hn, left]

/-- Kernels with a write less to wait for, each as often as it is listed: those for which it was the
last are ready. -/
theorem foldl_settle (xs ready : List Expr) (w : Waits)
    (hle : ∀ n, (xs.map number).count n ≤ w.left n) :
    ∃ new w', xs.foldl settle (ready, w) = (ready ++ new, w') ∧ w'.readers = w.readers ∧
      (∀ n, w'.left n = w.left n - (xs.map number).count n) ∧
      (new.map number).Nodup ∧ (∀ x ∈ new, x ∈ xs) ∧
      ∀ n, n ∈ new.map number ↔
        n ∈ xs.map number ∧ w.left n = (xs.map number).count n := by
  induction xs generalizing ready w with
  | nil => exact ⟨[], w, by simp⟩
  | cons x xs ih =>
    have hcount (n : Nat) : ((x :: xs).map number).count n =
        (xs.map number).count n + if x.number = n then 1 else 0 := by
      simp [count_cons]
    have hx := hle x.number
    rw [hcount, if_pos rfl] at hx
    obtain ⟨new, w', hrun, hreaders, hleft, hnodup, hsub, hnew⟩ :=
      ih (settle (ready, w) x).1 (settle (ready, w) x).2 fun n => by
        have := hle n
        rw [hcount] at this
        rw [left_settle]
        split_ifs at this ⊢ <;> omega
    have hleft' (n : Nat) : w'.left n = w.left n - ((x :: xs).map number).count n := by
      rw [hleft, left_settle, hcount]
      split_ifs <;> omega
    have hmem (n : Nat) : n ∈ xs.map number ↔ 0 < (xs.map number).count n :=
      count_pos_iff.symm
    simp only [left_settle] at hnew
    by_cases hlast : w.left x.number - 1 = 0
    · have hready : (settle (ready, w) x).1 = ready ++ [x] := if_pos hlast
      have hnot : x.number ∉ xs.map number := by
        rw [hmem]
        omega
      refine ⟨x :: new, w', ?_, hreaders, hleft', ?_, ?_, fun n => ?_⟩
      · rw [foldl_cons, append_cons, ← hready]
        exact hrun
      · exact nodup_cons.mpr ⟨fun h => hnot ((hnew _).mp h).1, hnodup⟩
      · simp only [mem_cons, forall_eq_or_imp, true_or, true_and]
        exact fun y hy => .inr (hsub y hy)
      · rw [map_cons, mem_cons, hnew, hcount, map_cons, mem_cons]
        by_cases hn : n = x.number
        · subst hn
          simp only [true_or, true_and, reduceIte, true_iff]
          omega
        · simp [hn, Ne.symm hn]
    · have hready : (settle (ready, w) x).1 = ready := if_neg hlast
      refine ⟨new, w', ?_, hreaders, hleft', hnodup, fun y hy => by simp [hsub y hy], fun n => ?_⟩
      · rw [foldl_cons]
        exact hrun.trans (by rw [hready])
      · rw [hnew, hcount, map_cons, mem_cons, hmem]
        by_cases hn : n = x.number
        · subst hn
          simp only [reduceIte, true_or, true_and]
          omega
        · simp [hn, Ne.symm hn]

/-- The reads of a node that are open, before and after one more node is done. -/
theorem countP_done (E : List (Nat × Nat)) {done : List Nat} {k : Nat} (hk : k ∉ done) (n : Nat) :
    E.countP (fun e => e.2 = n ∧ e.1 ∉ done) =
      E.countP (fun e => e.2 = n ∧ e.1 ∉ done ++ [k]) +
        ((E.filter (·.1 = k)).map (·.2)).count n := by
  induction E with
  | nil => rfl
  | cons e E ih =>
    rw [countP_cons, countP_cons, ih]
    by_cases hread : e.1 = k
    · rw [filter_cons_of_pos (by simpa using hread), map_cons, count_cons]
      generalize E.countP _ = rest
      by_cases hn : e.2 = n <;> simp [hread, hn, hk]
      omega
    · rw [filter_cons_of_neg (by simpa using hread)]
      generalize E.countP _ = rest
      simp only [mem_append, mem_singleton, hread, or_false]
      omega

/-! ## The queue -/

/-- The nodes that are done and those in the queue: these wait for nothing more, and each comes
after those whose writes it reads. -/
structure Drains (ks : List Expr) (E : List (Nat × Nat)) (done queue : List Expr) (w : Waits) :
    Prop where
  tracks : w.Tracks ks E (done.map number)
  nodup : ((done ++ queue).map number).Nodup
  sub : ∀ k ∈ done ++ queue, k ∈ ks
  ready : ∀ k ∈ ks, w.left k.number = 0 ↔ k.number ∈ (done ++ queue).map number
  order : ∀ as k bs, done = as ++ k :: bs → ∀ e ∈ E, e.2 = k.number → e.1 ∈ as.map number

section Queue

variable {ks done queue : List Expr} {E : List (Nat × Nat)} {w : Waits} {k : Expr}

theorem Met.drains (h : w.Met ks E) :
    Drains ks E [] w.ready w := by
  refine ⟨h.tracks, ?_, fun k hk => ?_, fun k hk => ?_, by simp⟩
  · exact h.nodup.sublist (List.Sublist.map _ filter_sublist)
  · exact h.sub k (mem_of_mem_filter hk)
  · rw [nil_append, mem_map]
    constructor
    · intro hleft
      obtain ⟨x, hx, hn⟩ := mem_map.mp ((h.mem _).mpr (mem_map_of_mem hk))
      refine ⟨x, mem_filter.mpr ⟨hx, ?_⟩, hn⟩
      rw [hn]
      exact decide_eq_true hleft
    · rintro ⟨x, hx, hn⟩
      rw [← hn]
      exact of_decide_eq_true (mem_filter.mp hx).2

/-- **One more node is done.** -/
theorem Drains.step (h : Drains ks E done (k :: queue) w) :
    Drains ks E (done ++ [k]) (queue ++ (w.finish k).1) (w.finish k).2 := by
  have hk : k.number ∉ done.map number := by
    have := h.nodup
    rw [map_append, map_cons, nodup_append] at this
    exact fun hmem => this.2.2 _ hmem _ (by simp) rfl
  have hsplit := countP_done E hk
  simp only [← h.tracks.left, ← h.tracks.after] at hsplit
  obtain ⟨new, w', hrun, hreaders, hleft, hnodup, hsub, hnew⟩ :=
    foldl_settle (w.after k.number) [] w fun n => by
      have := hsplit n
      omega
  have hfinish : w.finish k = (new, w') := hrun
  rw [hfinish]
  have hafter (n : Nat) : w'.after n = w.after n := by rw [after, after, hreaders]
  have hqueue : (done ++ [k] ++ (queue ++ new)) = done ++ k :: queue ++ new := by simp
  -- what becomes ready had waited
  have hfresh : ∀ x ∈ new, x.number ∉ (done ++ k :: queue).map number := by
    intro x hx hmem
    obtain ⟨hafter, hcount⟩ := (hnew _).mp (mem_map_of_mem hx)
    have hzero := (h.ready x (h.tracks.known _ x (hsub x hx))).mpr hmem
    have := count_pos_iff.mpr hafter
    omega
  refine ⟨⟨fun n => ?_, fun n x hx => ?_, fun n => ?_⟩, ?_, fun x hx => ?_, fun x hx => ?_, ?_⟩
  · rw [hafter, h.tracks.after]
  · exact h.tracks.known n x (hafter n ▸ hx)
  · rw [hleft, hsplit, map_append]
    exact Nat.add_sub_cancel ..
  · rw [hqueue, map_append, nodup_append]
    refine ⟨h.nodup, hnodup, fun a ha b hb => ?_⟩
    obtain ⟨x, hx, rfl⟩ := mem_map.mp hb
    rintro rfl
    exact hfresh x hx ha
  · rw [hqueue] at hx
    obtain hx | hx := mem_append.mp hx
    · exact h.sub x hx
    · exact h.tracks.known _ x (hsub x hx)
  · rw [hqueue, map_append, mem_append, ← h.ready x hx, hnew, hleft, ← count_pos_iff]
    have := hsplit x.number
    omega
  · intro as x bs hdone e he hx
    obtain rfl | ⟨bs, y, rfl⟩ := bs.eq_nil_or_concat
    · obtain ⟨rfl, rfl⟩ : done = as ∧ k = x := by simpa using hdone
      -- nothing that it reads is open
      have hzero := (h.ready k (h.sub k (by simp))).mpr (by simp)
      rw [h.tracks.left, countP_eq_zero] at hzero
      simpa [hx] using hzero e he
    · rw [concat_eq_append, ← cons_append, ← append_assoc] at hdone
      exact h.order as x bs (append_inj_left' hdone rfl) e he hx

/-- The queue cannot hold more nodes than were met. -/
theorem Drains.length_le (h : Drains ks E done queue w) {ns : List Nat}
    (hns : ∀ k ∈ ks, k.number ∈ ns) : (done ++ queue).length ≤ ns.length := by
  rw [← length_map (f := number)]
  refine (h.nodup.subperm fun n hn => ?_).length_le
  obtain ⟨k, hk, rfl⟩ := mem_map.mp hn
  exact hns k (h.sub k hk)

end Queue

end Waits

end LazyTensor
