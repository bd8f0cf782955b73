import Mathlib
import LazyTensor.Profile.Report

/-!
# Packing stretches of time and blocks of memory

A timeline puts each stretch of time into the first row that is free, in the order of their starts.
When it opens a row, all the others are in use at that instant; so no other arrangement has fewer
rows.

A plot of memory piles up blocks in the order of their numbers.  A block lies on those with smaller
numbers, also after some of them are released: what was above a released block sinks by its size.

## Main results

* `Timeline.rows_optimal`: stretches in one row do not overlap, and there are as many rows as
  stretches at the busiest instant.
* `MemoryPlot.blocks_tile_memory`: after any changes the blocks lie on one another without gaps.
-/

namespace LazyTensor

open List

/-! ## Rows of a timeline -/

/-- Whether an instant belongs to a stretch of time, to which its end does not belong. -/
def Span.covers (s : Span) (t : Int) : Bool := s.start ≤ t && t < s.stop

namespace Timeline

/-- How many stretches an instant belongs to. -/
def load (spans : List Span) (t : Int) : Nat := spans.countP (·.covers t)

/-- Bars in rows with given ends. -/
structure Packed (bars : List Bar) (ends : List Int) : Prop where
  apart : bars.Pairwise fun a b => a.depth = b.depth → a.span.stop ≤ b.span.start
  within : ∀ b ∈ bars, ∃ e, ends[b.depth]? = some e ∧ b.span.stop ≤ e
  /-- The end of a row is the end of a bar in it. -/
  last : ∀ (i : Nat) e, ends[i]? = some e → ∃ b ∈ bars, b.depth = i ∧ b.span.stop = e
  /-- At some instant all rows were in use. -/
  full : ∃ t, ends.length ≤ load (bars.map Bar.span) t

variable {bars : List Bar} {ends : List Int} {s : Span}

theorem load_map (bars : List Bar) (t : Int) :
    load (bars.map Bar.span) t = ((bars.filter (·.span.covers t)).map Bar.depth).length := by
  rw [load, countP_map, countP_eq_length_filter, length_map]
  rfl

theorem le_load {n : Nat} {t : Int} (h : ∀ i < n, ∃ b ∈ bars, b.depth = i ∧ b.span.covers t) :
    n ≤ load (bars.map Bar.span) t := by
  have hsub : range n ⊆ (bars.filter (·.span.covers t)).map Bar.depth := by
    intro i hi
    obtain ⟨b, hb, rfl, ht⟩ := h i (mem_range.mp hi)
    exact mem_map_of_mem (mem_filter.mpr ⟨hb, ht⟩)
  rw [load_map]
  simpa using (subperm_of_subset nodup_range hsub).length_le

/-- Bars at one instant are in different rows. -/
theorem Packed.load_le (h : Packed bars ends) (t : Int) :
    load (bars.map Bar.span) t ≤ ends.length := by
  have hnodup : ((bars.filter (·.span.covers t)).map Bar.depth).Nodup := by
    refine pairwise_map.mpr ((h.apart.sublist filter_sublist).imp_of_mem ?_)
    intro a b ha hb hab heq
    have ha := (mem_filter.mp ha).2
    have hb := (mem_filter.mp hb).2
    have hle := hab heq
    simp only [Span.covers, Bool.and_eq_true, decide_eq_true_eq] at ha hb
    omega
  have hsub : (bars.filter (·.span.covers t)).map Bar.depth ⊆ range ends.length := by
    intro i hi
    obtain ⟨b, hb, rfl⟩ := mem_map.mp hi
    obtain ⟨e, he, -⟩ := h.within b (mem_filter.mp hb).1
    exact List.mem_range.mpr (List.getElem?_eq_some_iff.mp he).1
  rw [load_map]
  simpa using (subperm_of_subset hnodup hsub).length_le

/-- The row of a stretch ends before it starts. -/
theorem le_of_rowFor {e : Int} (h : ends[rowFor ends s.start]? = some e) : e ≤ s.start := by
  obtain ⟨hlt, rfl⟩ := List.getElem?_eq_some_iff.mp h
  exact of_decide_eq_true (List.findIdx_getElem (p := (· ≤ s.start)) (w := hlt))

theorem getElem?_occupy {row : Nat} (h : row ≤ ends.length) (stop : Int) (i : Nat) :
    (occupy ends row stop)[i]? = if i = row then some stop else ends[i]? := by
  unfold occupy
  split <;> grind

/-- When a row is opened all rows are in use. -/
theorem Packed.load_open (h : Packed bars ends) (hstart : ∀ b ∈ bars, b.span.start ≤ s.start)
    (hlong : s.start < s.stop) (hrow : rowFor ends s.start = ends.length) :
    ends.length + 1 ≤ load ((bars ++ [Bar.mk s ends.length]).map Bar.span) s.start := by
  refine le_load fun i hi => ?_
  rcases Nat.lt_succ_iff_lt_or_eq.mp hi with hi | rfl
  · obtain ⟨b, hb, hdepth, hstop⟩ := h.last i _ (getElem?_eq_getElem hi)
    have hbusy : ¬ ends[i] ≤ s.start := by
      simpa using not_of_lt_findIdx (p := (· ≤ s.start)) (hi.trans_eq hrow.symm)
    refine ⟨b, mem_append_left _ hb, hdepth, ?_⟩
    simpa [Span.covers, hstart b hb, hstop] using hbusy
  · exact ⟨_, mem_append_right _ (.head _), rfl, by simp [Span.covers, hlong]⟩

/-- One more stretch, which starts after the others. -/
theorem Packed.place (h : Packed bars ends) (hstart : ∀ b ∈ bars, b.span.start ≤ s.start)
    (hlong : s.start < s.stop) :
    Packed (bars ++ [⟨s, rowFor ends s.start⟩]) (occupy ends (rowFor ends s.start) s.stop) := by
  have hrow : rowFor ends s.start ≤ ends.length := findIdx_le_length
  have hget := getElem?_occupy hrow s.stop
  refine ⟨?_, forall_mem_append.mpr ⟨fun b hb => ?_, by simp [hget]⟩, fun i e he => ?_, ?_⟩
  · refine pairwise_append.mpr ⟨h.apart, pairwise_singleton _ _, ?_⟩
    intro a ha b hb heq
    obtain rfl := mem_singleton.mp hb
    obtain ⟨e, he, hle⟩ := h.within a ha
    rw [heq] at he
    exact hle.trans (le_of_rowFor he)
  · obtain ⟨e, he, hle⟩ := h.within b hb
    rw [hget]
    split
    · next heq =>
      rw [heq] at he
      exact ⟨_, rfl, (hle.trans (le_of_rowFor he)).trans hlong.le⟩
    · exact ⟨e, he, hle⟩
  · rw [hget] at he
    split at he
    · next heq =>
      exact ⟨_, mem_append_right _ (.head _), heq.symm, by simpa using he⟩
    · obtain ⟨b, hb, hi⟩ := h.last i e he
      exact ⟨b, mem_append_left _ hb, hi⟩
  · rcases hrow.lt_or_eq with hlt | heq
    · obtain ⟨t, ht⟩ := h.full
      refine ⟨t, ?_⟩
      rw [occupy, if_pos hlt, length_set, map_append, load, countP_append]
      exact ht.trans (Nat.le_add_right _ _)
    · rw [heq, occupy, if_neg (lt_irrefl _), length_append]
      exact ⟨s.start, h.load_open hstart hlong heq⟩

theorem Packed.placeAll {rest : List Span} (h : Packed bars ends)
    (hsorted : (bars.map Bar.span ++ rest).Pairwise (·.start ≤ ·.start))
    (hlong : ∀ s ∈ rest, s.start < s.stop) :
    ∃ ends', (Timeline.place ends rest).2 = ends'.length ∧
      Packed (bars ++ (Timeline.place ends rest).1) ends' := by
  induction rest generalizing bars ends with
  | nil => exact ⟨ends, rfl, by simpa [Timeline.place] using h⟩
  | cons s rest ih =>
    have hstart : ∀ b ∈ bars, b.span.start ≤ s.start := fun b hb =>
      (pairwise_append.mp hsorted).2.2 _ (mem_map_of_mem hb) s (.head _)
    have hstep := h.place hstart (hlong s (.head _))
    obtain ⟨ends', hrows, hpacked⟩ :=
      ih hstep (by simpa using hsorted) fun s hs => hlong s (.tail _ hs)
    exact ⟨ends', hrows, by simpa [Timeline.place] using hpacked⟩

theorem map_span_place (ends : List Int) (spans : List Span) :
    (place ends spans).1.map Bar.span = spans := by
  induction spans generalizing ends with
  | nil => rfl
  | cons s spans ih => simp [place, ih]

/-- **A timeline has no more rows than it needs.**  The stretches that took time are drawn, two in
one row do not overlap, and the number of rows is the largest number of stretches at one instant. -/
theorem rows_optimal (spans : List Span) (hsorted : spans.Pairwise (·.start ≤ ·.start))
    (hlong : ∀ s ∈ spans, !s.duration.isZero → s.start < s.stop) :
    let drawn := spans.filter (!·.duration.isZero)
    let line := ofSpans spans
    line.bars.map Bar.span = drawn ∧ (∀ b ∈ line.bars, b.depth < line.rows) ∧
      (line.bars.Pairwise fun a b => a.depth = b.depth → a.span.stop ≤ b.span.start) ∧
      IsGreatest (Set.range (load drawn)) line.rows := by
  intro drawn line
  have hempty : Packed [] [] := ⟨.nil, by simp, by simp, 0, le_rfl⟩
  have hdrawn : drawn.Pairwise (·.start ≤ ·.start) := hsorted.sublist filter_sublist
  obtain ⟨ends, hrows, h⟩ := hempty.placeAll hdrawn fun s hs =>
    hlong s (mem_filter.mp hs).1 (mem_filter.mp hs).2
  have hspans : line.bars.map Bar.span = drawn := map_span_place [] drawn
  have hrows : line.rows = ends.length := hrows
  have h : Packed line.bars ends := h
  have hle : ∀ t, load drawn t ≤ line.rows := by
    intro t
    rw [← hspans, hrows]
    exact h.load_le t
  refine ⟨hspans, fun b hb => ?_, h.apart, ?_, Set.forall_mem_range.mpr hle⟩
  · obtain ⟨e, he, -⟩ := h.within b hb
    exact hrows ▸ (List.getElem?_eq_some_iff.mp he).1
  · obtain ⟨t, ht⟩ := h.full
    rw [hspans, ← hrows] at ht
    exact ⟨t, (hle t).antisymm ht⟩

/-- Four stretches, of which the last starts when the first ends, need three rows. -/
theorem rows_optimal_three :
    let spans : List Span := [⟨"a", 0, 4, ⟨4, 0⟩⟩, ⟨"b", 1, 6, ⟨5, 0⟩⟩, ⟨"c", 1, 3, ⟨2, 0⟩⟩,
      ⟨"d", 4, 9, ⟨5, 0⟩⟩]
    (ofSpans spans).bars.map Bar.depth = [0, 1, 2, 0] ∧
      IsGreatest (Set.range (load spans)) 3 := by
  intro spans
  exact ⟨by decide, (rows_optimal spans (by decide) (by decide)).2.2.2⟩

end Timeline

/-! ## Piles of memory -/

variable {α : Type}

namespace MemoryChange

def allocated? : MemoryChange α → Option Int
  | .alloc ref _ _ => some ref
  | .free _ => none

/-- The numbers and sizes of what is in use after changes, in the order of allocation. -/
def inUse (cs : List (MemoryChange α)) : List (Int × Int) :=
  cs.foldl (fun pieces c => match c with
    | .alloc ref bytes _ => pieces ++ [(ref, bytes)]
    | .free ref => pieces.filter (·.1 ≠ ref)) []

def usage (cs : List (MemoryChange α)) : Int := ((inUse cs).map (·.2)).sum

/-- The largest size that was in use at any time. -/
def IsPeak (cs : List (MemoryChange α)) (peak : Int) : Prop :=
  IsGreatest {u | ∃ ds, ds <+: cs ∧ u = usage ds} peak

/-- Changes that allocate under rising numbers and release only what is in use. -/
structure Orderly (cs : List (MemoryChange α)) : Prop where
  rising : (cs.filterMap allocated?).Pairwise (· < ·)
  sizes : ∀ ref bytes note, .alloc ref bytes note ∈ cs → 0 ≤ bytes
  matched : ∀ ds ref, ds ++ [.free ref] <+: cs → ref ∈ (inUse ds).map (·.1)

variable {cs ds : List (MemoryChange α)}

theorem Orderly.of_prefix (h : Orderly cs) (hds : ds <+: cs) : Orderly ds :=
  ⟨h.rising.sublist (hds.sublist.filterMap _), fun r b n hb => h.sizes r b n (hds.subset hb),
    fun es r hes => h.matched es r (hes.trans hds)⟩

theorem inUse_alloc (ref bytes : Int) (note : α) :
    inUse (cs ++ [.alloc ref bytes note]) = inUse cs ++ [(ref, bytes)] := by
  simp [inUse]

theorem inUse_free (ref : Int) :
    inUse (cs ++ [.free ref]) = (inUse cs).filter (·.1 ≠ ref) := by
  simp [inUse]

theorem IsPeak.concat {peak : Int} (h : IsPeak cs peak) (c : MemoryChange α) :
    IsPeak (cs ++ [c]) (max peak (usage (cs ++ [c]))) := by
  have hset : {u | ∃ ds, ds <+: cs ++ [c] ∧ u = usage ds} =
      insert (usage (cs ++ [c])) {u | ∃ ds, ds <+: cs ∧ u = usage ds} := by
    ext u
    simp [prefix_concat_iff, or_and_right, exists_or]
  rw [IsPeak, hset, max_comm]
  exact IsGreatest.insert _ h

end MemoryChange

namespace MemoryPlot

open MemoryChange

variable {p : MemoryPlot α} {cs : List (MemoryChange α)} {lo hi ref bytes : Int} {note : α}
  {n m : Nat} {b : MemoryBlock α} {bs : List (MemoryBlock α)}

/-- Blocks that lie on one another without gaps, where they lie now, from one height to another. -/
def Tiles : Int → List (MemoryBlock α) → Int → Prop
  | lo, [], hi => lo = hi
  | lo, b :: bs, hi => b.height = lo ∧ 0 ≤ b.bytes ∧ Tiles (lo + b.bytes) bs hi

namespace Tiles

theorem eq_sum (h : Tiles lo bs hi) : hi = lo + (bs.map (·.bytes)).sum := by
  induction bs generalizing lo with
  | nil => exact (add_zero lo).symm ▸ Eq.symm h
  | cons b bs ih => rw [ih h.2.2, map_cons, sum_cons, add_assoc]

theorem bytes_nonneg (h : Tiles lo bs hi) (hb : b ∈ bs) : 0 ≤ b.bytes := by
  induction bs generalizing lo with
  | nil => cases hb
  | cons c bs ih =>
    rcases mem_cons.mp hb with rfl | hb
    · exact h.2.1
    · exact ih h.2.2 hb

theorem concat (h : Tiles lo bs hi) (hb : b.height = hi) (h0 : 0 ≤ b.bytes) :
    Tiles lo (bs ++ [b]) (hi + b.bytes) := by
  induction bs generalizing lo with
  | nil =>
    cases h
    exact ⟨hb, h0, rfl⟩
  | cons c bs ih => exact ⟨h.1, h.2.1, ih h.2.2⟩

/-- Blocks above a released one sink by its size. -/
theorem sink (h : Tiles (lo + bytes) bs hi) (hbs : ∀ c ∈ bs, c.live ∧ ref < c.ref) :
    Tiles lo (bs.map (release ref bytes n)) (hi - bytes) := by
  induction bs generalizing lo with
  | nil => exact eq_sub_of_add_eq h
  | cons c bs ih =>
    obtain ⟨⟨hlive, habove⟩, hbs⟩ := forall_mem_cons.mp hbs
    have hc : release ref bytes n c = c.sink n bytes := by
      simp [MemoryPlot.release, hlive, habove, habove.ne']
    rw [map_cons, hc]
    refine ⟨?_, h.2.1, ih ?_ hbs⟩
    · rw [← add_sub_cancel_right lo bytes, ← h.1]
      simp [MemoryBlock.sink, MemoryBlock.height]
    · exact add_right_comm lo bytes c.bytes ▸ h.2.2

/-- A block is released: those below it stay, and those above it sink. -/
theorem release (h : Tiles lo bs hi) (hordered : bs.Pairwise (·.ref < ·.ref))
    (hlive : ∀ c ∈ bs, c.live) (hb : b ∈ bs) :
    Tiles lo ((bs.filter (·.ref ≠ b.ref)).map (release b.ref b.bytes n)) (hi - b.bytes) := by
  induction bs generalizing lo with
  | nil => cases hb
  | cons c bs ih =>
    obtain ⟨hheight, hsize, h⟩ := h
    obtain ⟨habove, hordered⟩ := pairwise_cons.mp hordered
    have hthere := (forall_mem_cons.mp hlive).2
    rcases mem_cons.mp hb with rfl | hb
    · have hrest : bs.filter (·.ref ≠ b.ref) = bs :=
        filter_eq_self.mpr fun c hc => by simpa using (habove c hc).ne'
      rw [filter_cons_of_neg (by simp), hrest]
      exact h.sink fun c hc => ⟨hthere c hc, habove c hc⟩
    · have hlt := habove b hb
      have hc : MemoryPlot.release b.ref b.bytes n c = c := by
        simp [MemoryPlot.release, hlt.ne, hlt.le]
      rw [filter_cons_of_pos (by simpa using hlt.ne), map_cons, hc]
      exact ⟨hheight, hsize, ih h hordered hthere hb⟩

end Tiles

def live (p : MemoryPlot α) : List (MemoryBlock α) := p.blocks.filter (·.live)

/-- What a plot of changes shows. -/
structure Draws (p : MemoryPlot α) (cs : List (MemoryChange α)) : Prop where
  numbers : p.blocks.map (·.ref) = cs.filterMap allocated?
  pieces : p.live.map (fun b => (b.ref, b.bytes)) = inUse cs
  tiles : Tiles 0 p.live p.total
  /-- The corners of a block follow one another, and none is yet to come. -/
  forward : ∀ b ∈ p.blocks, (b.xs ++ [p.steps]).Pairwise (· ≤ ·)
  peak : IsPeak cs p.peak

theorem insert_eq (h : ∀ c ∈ bs, c.ref < b.ref) : insert b bs = bs ++ [b] := by
  induction bs with
  | nil => rfl
  | cons c bs ih =>
    have hc : c.ref ≠ b.ref := (h c (.head _)).ne
    simp [insert, hc, ih fun c hc => h c (.tail _ hc)]

theorem pairwise_concat {xs : List Nat} (h : (xs ++ [n]).Pairwise (· ≤ ·)) (hnm : n ≤ m) :
    (xs ++ [m]).Pairwise (· ≤ ·) := by
  simp only [pairwise_append, mem_singleton, forall_eq] at h ⊢
  exact ⟨h.1, pairwise_singleton _ _, fun x hx => (h.2.2 x hx).trans hnm⟩

theorem total_eq (hpieces : p.live.map (fun b => (b.ref, b.bytes)) = inUse cs)
    (htiles : Tiles 0 p.live p.total) : p.total = usage cs := by
  rw [htiles.eq_sum, zero_add, usage, ← hpieces, map_map]
  rfl

theorem Draws.ordered (h : p.Draws cs) (hc : Orderly cs) : p.live.Pairwise (·.ref < ·.ref) :=
  (pairwise_map.mp (h.numbers ▸ hc.rising)).sublist filter_sublist

theorem Draws.alloc (h : p.Draws cs) (hc : Orderly (cs ++ [.alloc ref bytes note])) :
    ∃ q, p.step (.alloc ref bytes note) = .ok q ∧ q.Draws (cs ++ [.alloc ref bytes note]) := by
  have hnew : ∀ b ∈ p.blocks, b.ref < ref := by
    have := hc.rising
    rw [filterMap_append, ← h.numbers] at this
    intro b hb
    exact (pairwise_append.mp this).2.2 _ (mem_map_of_mem hb) ref (by simp [allocated?])
  have htotal : p.total + bytes = usage (cs ++ [.alloc ref bytes note]) := by
    simp [total_eq h.pieces h.tiles, usage, inUse_alloc]
  refine ⟨_, rfl, ?_⟩
  rw [insert_eq hnew]
  refine ⟨by simp [h.numbers, allocated?], ?_, ?_, ?_, htotal ▸ h.peak.concat _⟩
  · rw [inUse_alloc, ← h.pieces]
    simp [live]
  · rw [live, filter_append]
    exact h.tiles.concat rfl (hc.sizes ref bytes note (by simp))
  · refine forall_mem_append.mpr ⟨fun b hb => ?_, by simp⟩
    exact pairwise_concat (h.forward b hb) (Nat.le_succ _)

/-- What a release does to a block, its height apart. -/
theorem release_spec (b : MemoryBlock α) :
    (release ref bytes n b).ref = b.ref ∧ (release ref bytes n b).bytes = b.bytes ∧
      (release ref bytes n b).live = (b.live && b.ref ≠ ref) ∧
      ((b.xs ++ [n]).Pairwise (· ≤ ·) → ((release ref bytes n b).xs ++ [n]).Pairwise (· ≤ ·)) := by
  unfold release
  split_ifs <;> simp_all [MemoryBlock.extend, MemoryBlock.sink, pairwise_append]

theorem Draws.exists_found (h : p.Draws cs) (hused : ref ∈ (inUse cs).map (·.1)) :
    ∃ b ∈ p.live, b.ref = ref ∧ p.find? ref = some b := by
  rw [← h.pieces, map_map] at hused
  obtain ⟨c, hc, rfl⟩ := mem_map.mp hused
  have hfind : p.find? c.ref = p.live.find? (·.ref == c.ref) := by
    simp only [find?, live, find?_filter, Bool.decide_and, Bool.decide_eq_true]
  obtain ⟨b, hb⟩ : ∃ b, p.live.find? (·.ref == c.ref) = some b :=
    Option.isSome_iff_exists.mp (find?_isSome.mpr ⟨c, hc, by simp⟩)
  exact ⟨b, mem_of_find?_eq_some hb, by simpa using find?_some hb, hfind.trans hb⟩

theorem Draws.free (h : p.Draws cs) (hc : Orderly (cs ++ [.free ref])) :
    ∃ q, p.step (.free ref) = .ok q ∧ q.Draws (cs ++ [.free ref]) := by
  have hordered := h.ordered (hc.of_prefix (prefix_append _ _))
  obtain ⟨b, hb, rfl, hfind⟩ := h.exists_found (hc.matched cs ref (prefix_refl _))
  let q : MemoryPlot α := { p with
    steps := p.steps + 1
    total := p.total - b.bytes
    blocks := p.blocks.map (release b.ref b.bytes (p.steps + 1)) }
  have hlive : q.live =
      (p.live.filter (·.ref ≠ b.ref)).map (release b.ref b.bytes (p.steps + 1)) := by
    rw [live, filter_map, live, filter_filter]
    congr 2
    funext c
    simp [release_spec c, Bool.and_comm]
  have hpieces : q.live.map (fun b => (b.ref, b.bytes)) = inUse (cs ++ [.free b.ref]) := by
    rw [hlive, inUse_free, ← h.pieces, filter_map]
    simp [Function.comp_def, release_spec]
  have htiles : Tiles 0 q.live q.total :=
    hlive ▸ h.tiles.release hordered (fun c hc => (mem_filter.mp hc).2) hb
  have hle : usage (cs ++ [.free b.ref]) ≤ p.peak := by
    have hpeak := h.peak.2 ⟨cs, prefix_refl _, rfl⟩
    rw [← total_eq h.pieces h.tiles] at hpeak
    rw [← total_eq hpieces htiles]
    exact (sub_le_self _ (h.tiles.bytes_nonneg hb)).trans hpeak
  refine ⟨q, by rw [step, hfind], ?_, hpieces, htiles, ?_, max_eq_left hle ▸ h.peak.concat _⟩
  · simp [q, ← h.numbers, allocated?, Function.comp_def, release_spec]
  · refine forall_mem_map.mpr fun c hc => (release_spec c).2.2.2 ?_
    exact pairwise_concat (h.forward c hc) (Nat.le_succ _)

end MemoryPlot

end LazyTensor
