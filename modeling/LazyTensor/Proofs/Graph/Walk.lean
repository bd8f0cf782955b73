import LazyTensor.Graph.Traverse
import LazyTensor.Proofs.Graph.Sharing

/-!
# What a walk over a graph lists

A walk starts at a node and goes on to the sources of every node that a test lets through.  It
remembers the numbers of the nodes it has finished, so its list is right for graphs in which numbers
tell the nodes apart.  A node can be on the stack of a walk several times, to come up or to come
back; yet whatever lies below a node waits until the node is finished, so the walk does what a
recursion on sources does.

## Main results

* `Walk.run_eq_sortInto`: the walk with a stack is the recursion.
* `Expr.mem_toposortGated_iff`: a walk lists the nodes that its start leads to.
* `Expr.nodup_toposortGated`: it lists each of them once.
* `Expr.toposort_sourcesFirst`: it finishes sources first.
* `Expr.gated_walk_sorts`: a walk sorts what its start leads to.
-/

namespace LazyTensor

namespace Expr

/-- A node reaches another through sources, sources of sources and so on. -/
def Reaches : Expr → Expr → Prop := Relation.ReflTransGen fun e x => x ∈ e.src

/-- A node leads to another through nodes that a test lets through, both ends included. -/
def Leads (gate : Expr → Bool) (e k : Expr) : Prop :=
  gate e = true ∧ Relation.ReflTransGen (fun a b => b ∈ a.src ∧ gate b = true) e k

/-- The numbers of the nodes that a node reaches tell them apart. -/
def Distinct (e : Expr) : Prop :=
  ∀ ⦃x y⦄, e.Reaches x → e.Reaches y → x.number = y.number → x = y

variable {gate : Expr → Bool} {e x k : Expr}

theorem sizeOf_src_lt (hx : x ∈ e.src) : sizeOf x < sizeOf e := by
  cases e with
  | mk n op d src arg tag =>
    have : sizeOf x < sizeOf src := List.sizeOf_lt_of_mem hx
    simp only [mk.sizeOf_spec]
    omega

/-- What holds of a node once it holds of its sources holds of every node. -/
theorem src_induction {motive : Expr → Prop} (h : ∀ e, (∀ x ∈ e.src, motive x) → motive e)
    (e : Expr) : motive e :=
  h e fun x _ => src_induction h x
termination_by sizeOf e
decreasing_by exact sizeOf_src_lt ‹_›

@[refl] theorem Reaches.refl (e : Expr) : e.Reaches e := Relation.ReflTransGen.refl

theorem Reaches.of_src (hx : x ∈ e.src) (h : x.Reaches k) : e.Reaches k :=
  Relation.ReflTransGen.head hx h

theorem Reaches.sizeOf_le (h : e.Reaches k) : sizeOf k ≤ sizeOf e := by
  induction h with
  | refl => rfl
  | tail _ hx ih => exact (sizeOf_src_lt hx).le.trans ih

/-- A node is not below itself. -/
theorem not_reaches_of_src (hx : x ∈ e.src) : ¬x.Reaches e := fun h =>
  absurd h.sizeOf_le (sizeOf_src_lt hx).not_ge

theorem Distinct.src (he : e.Distinct) (hx : x ∈ e.src) : x.Distinct := fun _ _ ha hb =>
  he (.of_src hx ha) (.of_src hx hb)

/-- A list that has the sources of its nodes has all that its nodes reach. -/
theorem Reaches.mem_of_closed {nodes : List Expr} (h : e.Reaches k)
    (closed : ∀ y ∈ nodes, ∀ x ∈ y.src, x ∈ nodes) (he : e ∈ nodes) : k ∈ nodes := by
  induction h with
  | refl => exact he
  | tail _ hx ih => exact closed _ ih _ hx

/-- The nodes of a graph that is listed in full tell themselves apart. -/
theorem distinct_of_listed (nodes : List Expr) (he : e ∈ nodes)
    (closed : ∀ y ∈ nodes, ∀ x ∈ y.src, x ∈ nodes) (hnodes : (nodes.map number).Nodup) :
    e.Distinct := fun _ _ hx hy =>
  List.inj_on_of_nodup_map hnodes (hx.mem_of_closed closed he) (hy.mem_of_closed closed he)

theorem Leads.reaches (h : e.Leads gate k) : e.Reaches k :=
  h.2.lift id fun _ _ h => h.1

theorem Leads.passes (h : e.Leads gate k) : gate k = true := by
  obtain ⟨he, h⟩ := h
  cases h with
  | refl => exact he
  | tail _ hk => exact hk.2

theorem Leads.refl (h : gate e = true) : e.Leads gate e := ⟨h, .refl⟩

theorem Leads.of_src (he : gate e = true) (hx : x ∈ e.src) (h : x.Leads gate k) : e.Leads gate k :=
  ⟨he, .head ⟨hx, h.1⟩ h.2⟩

@[simp] theorem leads_true : e.Leads (fun _ => true) k ↔ e.Reaches k := by
  simp [Leads, Reaches]

end Expr

namespace Store.Sound

variable {s : Store} {e k : Expr}

theorem holds_of_reaches (hs : s.Sound) (he : s.Holds e) (h : e.Reaches k) : s.Holds k := by
  induction h with
  | refl => exact he
  | tail _ hx ih => exact hs.src ih hx

theorem distinct (hs : s.Sound) (he : s.Holds e) : e.Distinct := fun _ _ hx hy =>
  hs.eq_of_number (hs.holds_of_reaches he hx) (hs.holds_of_reaches he hy)

end Store.Sound

/-! ## The list of a walk -/

namespace Sorted

/-- A list of finished nodes as a walk leaves it: its numbers are those remembered and differ, and
the sources of a finished node are finished where the test lets them through. -/
structure Proper (gate : Expr → Bool) (s : Sorted) : Prop where
  seen_iff : ∀ n, n ∈ s.seen ↔ ∃ x ∈ s.order, x.number = n
  distinct : (s.order.toList.map Expr.number).Nodup
  closed : ∀ x ∈ s.order, ∀ y ∈ x.src, gate y = true → y.number ∈ s.seen

/-- What a walk adds to a list of finished nodes: it keeps them, finishes the nodes it starts from
and lists only nodes that these lead to. -/
structure Grows (gate : Expr → Bool) (es : List Expr) (s t : Sorted) : Prop where
  proper : t.Proper gate
  kept : ∀ n ∈ s.seen, n ∈ t.seen
  finished : ∀ e ∈ es, gate e = true → e.number ∈ t.seen
  listed : ∀ x ∈ t.order, x ∈ s.order ∨ ∃ e ∈ es, e.Leads gate x

variable {gate : Expr → Bool} {s t u : Sorted} {e : Expr} {es : List Expr}

theorem Proper.empty (gate : Expr → Bool) : ({} : Sorted).Proper gate :=
  ⟨by simp, by simp, by simp⟩

theorem Proper.grows_nil (hs : s.Proper gate) : Grows gate [] s s :=
  ⟨hs, fun _ h => h, by simp, fun _ h => .inl h⟩

theorem Grows.cons (hst : Grows gate [e] s t) (htu : Grows gate es t u) :
    Grows gate (e :: es) s u where
  proper := htu.proper
  kept n h := htu.kept n (hst.kept n h)
  finished x hx hg := by
    obtain rfl | hx := List.mem_cons.mp hx
    · exact htu.kept _ (hst.finished x (by simp) hg)
    · exact htu.finished x hx hg
  listed x hx := by
    rcases htu.listed x hx with hx | ⟨y, hy, hl⟩
    · rcases hst.listed x hx with hx | ⟨y, hy, hl⟩
      · exact .inl hx
      · exact .inr ⟨y, by simp_all, hl⟩
    · exact .inr ⟨y, by simp [hy], hl⟩

/-- No node below a node has its number, since it would be the node itself. -/
theorem Grows.fresh (hst : Grows gate e.src s t) (hnew : e.number ∉ s.seen) (hs : s.Proper gate)
    (he : e.Distinct) : e.number ∉ t.seen := by
  intro h
  obtain ⟨x, hx, hn⟩ := (hst.proper.seen_iff _).mp h
  rcases hst.listed x hx with hx | ⟨y, hy, hl⟩
  · exact hnew ((hs.seen_iff _).mpr ⟨x, hx, hn⟩)
  · obtain rfl := he (.of_src hy hl.reaches) (.refl e) hn
    exact Expr.not_reaches_of_src hy hl.reaches

theorem Grows.push (hst : Grows gate e.src s t) (hg : gate e = true) (hnew : e.number ∉ s.seen)
    (hs : s.Proper gate) (he : e.Distinct) : Grows gate [e] s (t.push e) := by
  have hfresh : e.number ∉ t.seen := hst.fresh hnew hs he
  constructor
  · constructor
    · intro n
      rw [Sorted.push, Std.HashSet.mem_insert, hst.proper.seen_iff, beq_iff_eq]
      simp only [Array.mem_push, or_and_right, exists_or, exists_eq_left]
      exact or_comm
    · have hd := hst.proper.distinct
      have hnot : ∀ x ∈ t.order, ¬x.number = e.number := fun x hx h =>
        hfresh ((hst.proper.seen_iff _).mpr ⟨x, hx, h⟩)
      simpa [Sorted.push, List.nodup_append, hd] using hnot
    · intro x hx y hy hgy
      rcases Array.mem_push.mp hx with hx | rfl
      · exact Std.HashSet.mem_insert.mpr (.inr (hst.proper.closed x hx y hy hgy))
      · exact Std.HashSet.mem_insert.mpr (.inr (hst.finished y hy hgy))
  · exact fun n h => Std.HashSet.mem_insert.mpr (.inr (hst.kept n h))
  · intro x hx _
    obtain rfl := List.mem_singleton.mp hx
    exact Std.HashSet.mem_insert_self
  · intro x hx
    rcases Array.mem_push.mp hx with hx | rfl
    · rcases hst.listed x hx with hx | ⟨y, hy, hl⟩
      · exact .inl hx
      · exact .inr ⟨e, by simp, .of_src hg hy hl⟩
    · exact .inr ⟨x, by simp, .refl hg⟩

end Sorted

namespace Expr

mutual

/-- The walk as a recursion: the sources first, if the test lets the node through, then itself. -/
def sortInto (gate : Expr → Bool) : Expr → Sorted → Sorted
  | .mk n op d src arg tag, s =>
    if s.seen.contains n then s
    else if gate (.mk n op d src arg tag) then
      (sortAll gate src s).push (.mk n op d src arg tag)
    else s

/-- The walk from the nodes of a list, one after another. -/
def sortAll (gate : Expr → Bool) : List Expr → Sorted → Sorted
  | [], s => s
  | e :: rest, s => sortAll gate rest (sortInto gate e s)

end

variable {gate : Expr → Bool} {e k : Expr} {s : Sorted}

theorem sortInto_of_seen (h : e.number ∈ s.seen) : e.sortInto gate s = s := by
  cases e
  exact if_pos (Std.HashSet.contains_iff_mem.mpr h)

theorem sortInto_of_refused (h : gate e = false) : e.sortInto gate s = s := by
  cases e
  rw [sortInto, if_neg (by simp [h] : ¬gate _ = true), ite_self]

theorem sortInto_of_passed (hn : e.number ∉ s.seen) (hg : gate e = true) :
    e.sortInto gate s = (sortAll gate e.src s).push e := by
  cases e
  exact (if_neg (mt Std.HashSet.contains_iff_mem.mp hn)).trans (if_pos hg)

/-- The walk from the nodes of a list, where the walk from each of them is right. -/
theorem grows_sortAll {xs : List Expr} (hxs : ∀ x ∈ xs, ∀ s : Sorted, s.Proper gate →
    s.Grows gate [x] (x.sortInto gate s)) (hs : s.Proper gate) :
    s.Grows gate xs (sortAll gate xs s) := by
  induction xs generalizing s with
  | nil => exact hs.grows_nil
  | cons x xs ih =>
    have hx := hxs x (by simp) s hs
    exact hx.cons (ih (fun y hy => hxs y (by simp [hy])) hx.proper)

/-- The walk from a node finishes it and what it leads to. -/
theorem grows_sortInto (e : Expr) : e.Distinct → ∀ s : Sorted, s.Proper gate →
    s.Grows gate [e] (e.sortInto gate s) := by
  induction e using src_induction with
  | h e ih =>
    intro he s hs
    by_cases hn : e.number ∈ s.seen
    · rw [sortInto_of_seen hn]
      exact ⟨hs, fun _ h => h, by simpa using fun _ => hn, fun _ h => .inl h⟩
    cases hg : gate e with
    | false =>
      rw [sortInto_of_refused hg]
      exact ⟨hs, fun _ h => h, by simp [hg], fun _ h => .inl h⟩
    | true =>
      rw [sortInto_of_passed hn hg]
      exact .push (grows_sortAll (fun x hx => ih x hx (he.src hx)) hs) hg hn hs he

end Expr

/-! ### The stack -/

namespace Walk

open LazyTensor.Expr

variable {gate : Expr → Bool} {e : Expr} {back : Bool} {rest : List (Expr × Bool)} {s : Sorted}

theorem run_nil : run gate ⟨[], s⟩ = s := by
  rw [run]
  exact if_pos rfl

theorem run_cons : run gate ⟨(e, back) :: rest, s⟩ = run gate
    (if s.seen.contains e.number then ⟨rest, s⟩
    else if back then ⟨rest, s.push e⟩
    else if gate e then ⟨e.src.map (·, false) ++ (e, true) :: rest, s⟩
    else ⟨rest, s⟩) := by
  rw [run]
  exact if_neg (by simp)

theorem run_of_seen (h : e.number ∈ s.seen) :
    run gate ⟨(e, back) :: rest, s⟩ = run gate ⟨rest, s⟩ := by
  rw [run_cons, if_pos (Std.HashSet.contains_iff_mem.mpr h)]

theorem run_back (h : e.number ∉ s.seen) :
    run gate ⟨(e, true) :: rest, s⟩ = run gate ⟨rest, s.push e⟩ := by
  rw [run_cons, if_neg (mt Std.HashSet.contains_iff_mem.mp h), if_pos rfl]

theorem run_of_refused (hg : gate e = false) :
    run gate ⟨(e, false) :: rest, s⟩ = run gate ⟨rest, s⟩ := by
  simp [run_cons, hg]

theorem run_of_passed (h : e.number ∉ s.seen) (hg : gate e = true) :
    run gate ⟨(e, false) :: rest, s⟩ =
      run gate ⟨e.src.map (·, false) ++ (e, true) :: rest, s⟩ := by
  rw [run_cons, if_neg (mt Std.HashSet.contains_iff_mem.mp h), if_neg (by simp), if_pos hg]

/-- What comes up for the first time is finished, one node after another, before what lies below it
on the stack is looked at, where this holds of each node by itself. -/
theorem run_map_append {xs : List Expr} (hd : ∀ x ∈ xs, x.Distinct)
    (hxs : ∀ x ∈ xs, ∀ rest (s : Sorted), s.Proper gate →
      run gate ⟨(x, false) :: rest, s⟩ = run gate ⟨rest, x.sortInto gate s⟩)
    (hs : s.Proper gate) :
    run gate ⟨xs.map (·, false) ++ rest, s⟩ = run gate ⟨rest, sortAll gate xs s⟩ := by
  induction xs generalizing s with
  | nil => rfl
  | cons x xs ih =>
    rw [List.map_cons, List.cons_append, hxs x (by simp) _ s hs, sortAll]
    exact ih (fun y hy => hd y (by simp [hy])) (fun y hy => hxs y (by simp [hy]))
      (grows_sortInto x (hd x (by simp)) s hs).proper

/-- **A node is finished before what lies below it on the stack**, with all that it leads to. -/
theorem run_cons_eq (e : Expr) : e.Distinct → ∀ rest (s : Sorted), s.Proper gate →
    run gate ⟨(e, false) :: rest, s⟩ = run gate ⟨rest, e.sortInto gate s⟩ := by
  induction e using src_induction with
  | h e ih =>
    intro he rest s hs
    by_cases hn : e.number ∈ s.seen
    · rw [run_of_seen hn, sortInto_of_seen hn]
    cases hg : gate e with
    | false => rw [run_of_refused hg, sortInto_of_refused hg]
    | true =>
      -- the node comes back when its sources are finished, and none of them was the node itself
      have hsrc := grows_sortAll (fun x hx => grows_sortInto x (he.src hx)) hs
      rw [run_of_passed hn hg, run_map_append (fun x hx => he.src hx)
        (fun x hx => ih x hx (he.src hx)) hs, run_back (hsrc.fresh hn hs he),
        sortInto_of_passed hn hg]

/-- **The walk with a stack is the recursion** on graphs in which numbers tell the nodes apart. -/
theorem run_eq_sortInto (he : e.Distinct) (hs : s.Proper gate) :
    run gate ⟨[(e, false)], s⟩ = e.sortInto gate s := by
  rw [run_cons_eq e he [] s hs, run_nil]

end Walk

namespace Expr

variable {gate : Expr → Bool} {e k : Expr} {s : Sorted}

theorem sortedGated_eq (he : e.Distinct) : e.sortedGated gate = e.sortInto gate {} :=
  Walk.run_eq_sortInto he (.empty gate)

theorem grows_sortedGated (he : e.Distinct) :
    ({} : Sorted).Grows gate [e] (e.sortedGated gate) := by
  rw [sortedGated_eq he]
  exact grows_sortInto e he {} (.empty gate)

/-- **A walk lists what its start leads to** through the nodes that the test lets through. -/
theorem mem_toposortGated_iff (he : e.Distinct) :
    k ∈ e.toposortGated gate ↔ e.Leads gate k := by
  have grown : ({} : Sorted).Grows gate [e] (e.sortedGated gate) := grows_sortedGated he
  constructor
  · intro hk
    rcases grown.listed k hk with hk | ⟨y, hy, hl⟩
    · simp at hk
    · rwa [List.mem_singleton.mp hy] at hl
  · rintro ⟨hg, hk⟩
    -- a finished number belongs to the one node that has it
    have listed : ∀ x, e.Reaches x → x.number ∈ (e.sortedGated gate).seen →
        x ∈ e.toposortGated gate := by
      intro x hx hn
      obtain ⟨y, hy, hyx⟩ := (grown.proper.seen_iff _).mp hn
      rcases grown.listed y hy with hy' | ⟨z, hz, hl⟩
      · simp at hy'
      · obtain rfl := List.mem_singleton.mp hz
        obtain rfl := he hl.reaches hx hyx
        exact hy
    induction hk with
    | refl => exact listed e (.refl e) (grown.finished e (by simp) hg)
    | @tail b c hb hc ih =>
      have hbe : e.Reaches b := Leads.reaches ⟨hg, hb⟩
      exact listed c (Relation.ReflTransGen.tail hbe hc.1)
        (grown.proper.closed b ih c hc.1 hc.2)

/-- A walk lists each number once. -/
theorem nodup_toposortGated (he : e.Distinct) :
    ((e.toposortGated gate).toList.map number).Nodup :=
  (grows_sortedGated he).proper.distinct

theorem mem_toposort_iff (he : e.Distinct) : k ∈ e.toposort ↔ e.Reaches k :=
  (mem_toposortGated_iff he).trans leads_true

theorem nodup_toposort (he : e.Distinct) : (e.toposort.toList.map number).Nodup :=
  nodup_toposortGated he

/-! ## Sources come first -/

open List

/-- The sources of every node of a list that a test lets through come before it. -/
inductive SourcesFirst (gate : Expr → Bool) : List Expr → Prop
  | nil : SourcesFirst gate []
  | snoc {es : List Expr} {e : Expr} (hes : SourcesFirst gate es)
      (he : ∀ x ∈ e.src, gate x = true → ∃ y ∈ es, y.number = x.number) :
      SourcesFirst gate (es ++ [e])

theorem sortAll_sourcesFirst {xs : List Expr}
    (hxs : ∀ x ∈ xs, x.Distinct ∧ ∀ s : Sorted, s.Proper gate →
      SourcesFirst gate s.order.toList → SourcesFirst gate (x.sortInto gate s).order.toList)
    {s : Sorted} (hs : s.Proper gate) (h : SourcesFirst gate s.order.toList) :
    SourcesFirst gate (sortAll gate xs s).order.toList := by
  induction xs generalizing s with
  | nil => exact h
  | cons x xs ih =>
    obtain ⟨hd, hx⟩ := hxs x (by simp)
    exact ih (fun y hy => hxs y (by simp [hy])) (grows_sortInto x hd s hs).proper (hx s hs h)

theorem sortInto_sourcesFirst (e : Expr) (hd : e.Distinct) : ∀ s : Sorted,
    s.Proper gate → SourcesFirst gate s.order.toList →
      SourcesFirst gate (e.sortInto gate s).order.toList := by
  induction e using src_induction with
  | h e ih =>
    intro s hs h
    by_cases hn : e.number ∈ s.seen
    · rwa [sortInto_of_seen hn]
    cases hg : gate e with
    | false => rwa [sortInto_of_refused hg]
    | true =>
      rw [sortInto_of_passed hn hg, Sorted.push, Array.toList_push]
      refine .snoc (sortAll_sourcesFirst (fun x hx => ⟨hd.src hx, ih x hx (hd.src hx)⟩) hs h) ?_
      have grown := grows_sortAll (fun x hx => grows_sortInto x (hd.src hx)) hs
      intro x hx hgx
      obtain ⟨y, hy, hn⟩ := (grown.proper.seen_iff _).mp (grown.finished x hx hgx)
      exact ⟨y, hy.val, hn⟩

/-- **A walk finishes sources first.** -/
theorem toposort_sourcesFirst {e : Expr} (hd : e.Distinct) :
    SourcesFirst gate (e.toposortGated gate).toList := by
  rw [toposortGated, sortedGated_eq hd]
  exact sortInto_sourcesFirst e hd {} (.empty _) .nil

/-- Every node of a list comes after those of its sources that are in the list. -/
def Ordered (es : List Expr) : Prop :=
  ∀ as k bs, es = as ++ k :: bs → ∀ x ∈ k.src, x.number ∈ es.map number → x.number ∈ as.map number

theorem ordered_iff_take {es : List Expr} : Ordered es ↔ ∀ i (h : i < es.length), ∀ x ∈ es[i].src,
    x.number ∈ es.map number → x.number ∈ (es.take i).map number := by
  refine ⟨fun h i hi => h (es.take i) es[i] (es.drop (i + 1)) (by simp), fun h as k bs hes => ?_⟩
  subst hes
  simpa using h as.length (by simp)

instance : DecidablePred Ordered := fun _ => decidable_of_iff _ ordered_iff_take.symm

theorem SourcesFirst.before {as bs : List Expr} (h : SourcesFirst gate (as ++ e :: bs)) :
    ∀ x ∈ e.src, gate x = true → x.number ∈ as.map number := by
  induction bs using reverseRecOn with
  | nil =>
    generalize hes : as ++ [e] = es at h
    cases h with
    | nil => simp at hes
    | snoc _ he =>
      obtain ⟨rfl, rfl⟩ := append_singleton_inj.mp hes
      exact fun x hx hg => mem_map.mpr (he x hx hg)
  | append_singleton bs b ih =>
    generalize hes : as ++ e :: (bs ++ [b]) = es at h
    rw [← cons_append, ← append_assoc] at hes
    cases h with
    | nil => simp at hes
    | snoc h _ =>
      obtain ⟨rfl, -⟩ := append_singleton_inj.mp hes
      exact ih h

/-- **A walk sorts.**  It lists what its start leads to through nodes that the test lets through, each
once and after those of its sources that are listed. -/
theorem gated_walk_sorts (he : e.Distinct) (gate : Expr → Bool) :
    (∀ k, k ∈ e.toposortGated gate ↔ e.Leads gate k) ∧
      ((e.toposortGated gate).toList.map number).Nodup ∧
      Ordered (e.toposortGated gate).toList := by
  have hmem (k : Expr) : k ∈ e.toposortGated gate ↔ e.Leads gate k := mem_toposortGated_iff he
  refine ⟨hmem, nodup_toposortGated he, fun as u bs hlist x hx hlisted => ?_⟩
  have hu : e.Leads gate u := (hmem u).mp (Array.mem_def.mpr (by simp [hlist]))
  -- a source whose number is listed is the node listed
  obtain ⟨y, hy, hyx⟩ := mem_map.mp hlisted
  have hy : e.Leads gate y := (hmem y).mp (Array.mem_def.mpr hy)
  obtain rfl := he hy.reaches (hu.reaches.tail hx) hyx
  exact (hlist ▸ toposort_sourcesFirst he).before y hx hy.passes

/-! ### Lists without repeated nodes -/

/-- What a list without repeated nodes keeps of another: nodes of it, one for every number. -/
structure Kept (es : List Expr) (acc : Array Expr × Std.HashSet Nat) : Prop where
  seen_iff : ∀ n, n ∈ acc.2 ↔ ∃ x ∈ acc.1, x.number = n
  nodup : (acc.1.toList.map number).Nodup
  sub : ∀ x ∈ acc.1, x ∈ es
  all : ∀ x ∈ es, x.number ∈ acc.2

theorem Kept.snoc {es : List Expr} {acc : Array Expr × Std.HashSet Nat} (h : Kept es acc) (e : Expr) :
    Kept (es ++ [e]) (if acc.2.contains e.number then acc
      else (acc.1.push e, acc.2.insert e.number)) := by
  split
  · rename_i hseen
    refine ⟨h.seen_iff, h.nodup, fun x hx => by simp [h.sub x hx], fun x hx => ?_⟩
    rcases mem_append.mp hx with hx | hx
    · exact h.all x hx
    · rw [mem_singleton.mp hx]
      exact Std.HashSet.contains_iff_mem.mp hseen
  · rename_i hseen
    constructor
    · intro n
      rw [Std.HashSet.mem_insert, h.seen_iff, beq_iff_eq]
      simp only [Array.mem_push, or_and_right, exists_or, exists_eq_left]
      exact or_comm
    · have hnodup := h.nodup
      have hnew : ∀ x ∈ acc.1, ¬x.number = e.number := fun x hx hn =>
        hseen (Std.HashSet.contains_iff_mem.mpr ((h.seen_iff _).mpr ⟨x, hx, hn⟩))
      simpa [nodup_append, hnodup] using hnew
    · intro x hx
      rcases Array.mem_push.mp hx with hx | rfl
      · simp [h.sub x hx]
      · simp
    · intro x hx
      rw [Std.HashSet.mem_insert]
      rcases mem_append.mp hx with hx | hx
      · exact .inr (h.all x hx)
      · exact .inl (by simp [mem_singleton.mp hx])

theorem kept_dedup (es : List Expr) : Kept es (es.foldl (fun acc e =>
    if acc.2.contains e.number then acc else (acc.1.push e, acc.2.insert e.number)) (#[], {})) := by
  induction es using reverseRecOn with
  | nil => exact ⟨by simp, by simp, by simp, by simp⟩
  | append_singleton es e ih =>
    rw [foldl_append, foldl_cons, foldl_nil]
    exact ih.snoc e

/-- **Repetitions are left out**: where numbers tell the nodes of a list apart, each stays once. -/
theorem dedup_spec {es : List Expr} (hd : ∀ x ∈ es, ∀ y ∈ es, x.number = y.number → x = y) :
    ((dedup es).map number).Nodup ∧ ∀ x, x ∈ dedup es ↔ x ∈ es := by
  have kept := kept_dedup es
  refine ⟨kept.nodup, fun x => ⟨fun hx => kept.sub x (Array.mem_def.mpr hx), fun hx => ?_⟩⟩
  obtain ⟨y, hy, hn⟩ := (kept.seen_iff _).mp (kept.all x hx)
  rw [← hd y (kept.sub y hy) x hx hn]
  exact hy.val

/-! ### A diamond -/

namespace Diamond

def base : Expr := .mk 0 .const .int [] (.int 4) .none

def bottom : Expr := .mk 1 .range .int [base] (.int 0) .none

def side (n : Nat) : Expr := .mk n .add .int [bottom, bottom] (.int n) .none

def top : Expr := .mk 4 .mul .int [side 2, side 3] .none .none

/-- The walk from the top of a diamond that stops below its bottom. -/
theorem gated_walk_sorts_diamond : top.Distinct ∧
    (top.toposortGated fun x => !x.is .const).toList.map number = [1, 2, 3, 4] ∧
    (∀ k, k ∈ top.toposortGated (fun x => !x.is .const) ↔ top.Leads (fun x => !x.is .const) k) ∧
    Ordered (top.toposortGated fun x => !x.is .const).toList := by
  have hd : top.Distinct :=
    distinct_of_listed [top, side 2, side 3, bottom, base] (by simp)
      (by simp [top, side, bottom, base, src]) (by decide)
  obtain ⟨hmem, -, hordered⟩ := gated_walk_sorts hd fun x => !x.is .const
  exact ⟨hd, by cbv, hmem, hordered⟩

end Diamond

end Expr

end LazyTensor
