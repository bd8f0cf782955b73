import LazyTensor.Proofs.Layout.Reshape
import LazyTensor.Layout.Tracker

/-!
# The meaning of a graph of tensors

A tensor of integers is a function of an index.  A view reads the tensor below it at the index that
an address stands for, and zero outside its mask; a layout reads through one view after another.  A
reduction folds the elements at all indices that agree on the axes it keeps.

## Main results

* `Axes.filter_indices`: the indices that a reduction over the last axes folds.
-/

namespace LazyTensor

open Radix List Shape

/-- The elements of a tensor of integers, as a function of an index. -/
abbrev Entries := List Int → Int

/-! ## Indices -/

theorem flatMap_ite_eq {α β : Type} [DecidableEq α] {xs : List α} {a : α} (hn : xs.Nodup)
    (ha : a ∈ xs) (ys : List β) : xs.flatMap (fun x => if x = a then ys else []) = ys := by
  obtain ⟨l, r, rfl⟩ := append_of_mem ha
  have hdis : ∀ zs : List α, a ∉ zs → zs.flatMap (fun x => if x = a then ys else []) = [] :=
    fun zs hz => flatMap_eq_nil_iff.mpr fun x hx => if_neg fun h : x = a => hz (h ▸ hx)
  have hl : a ∉ l := fun h => (nodup_append.mp hn).2.2 a h a (by simp) rfl
  have hr : a ∉ r := (nodup_cons.mp (nodup_append.mp hn).2.1).1
  simp [hdis l hl, hdis r hr]

namespace Shape

/-- All indices of a shape, in row-major order. -/
def indices : List Int → List (List Int)
  | [] => [[]]
  | s :: rest => (range s.toNat).flatMap fun (k : Nat) => (indices rest).map ((k : Int) :: ·)

theorem mem_indices {S i : List Int} : i ∈ indices S ↔ IsIndex S i := by
  induction S generalizing i with
  | nil => simp [indices, IsIndex]
  | cons s S ih =>
    simp only [indices, mem_flatMap, mem_range, mem_map, IsIndex,
      forall₂_cons_left_iff, ih]
    constructor
    · rintro ⟨k, hk, j, hj, rfl⟩
      exact ⟨k, j, ⟨by omega, by omega⟩, hj, rfl⟩
    · rintro ⟨d, j, hd, hj, rfl⟩
      exact ⟨d.toNat, by omega, j, hj, by rw [Int.toNat_of_nonneg hd.1]⟩

theorem pos_of_isIndex {S i : List Int} (h : IsIndex S i) : ∀ s ∈ S, 0 < s := by
  induction h with
  | nil => simp
  | cons hd _ ih =>
    intro s hs
    rcases mem_cons.mp hs with rfl | hs
    · omega
    · exact ih s hs

theorem length_of_mem_indices {S i : List Int} (h : i ∈ indices S) : i.length = S.length :=
  (mem_indices.mp h).length_eq.symm

theorem nodup_indices (S : List Int) : (indices S).Nodup := by
  induction S with
  | nil => simp [indices]
  | cons s S ih =>
    refine nodup_flatMap.mpr ⟨fun k _ => ih.map fun a b h => (cons.inj h).2, ?_⟩
    refine nodup_range.pairwise_of_forall_ne fun k _ l _ hkl => ?_
    rintro i hk hl
    simp only [mem_map] at hk hl
    obtain ⟨_, -, rfl⟩ := hk
    obtain ⟨_, -, h⟩ := hl
    exact hkl (by exact_mod_cast (cons.inj h).1.symm)

/-- The indices of a shape and of more axes after it. -/
theorem indices_append (S R : List Int) :
    indices (S ++ R) = (indices S).flatMap fun i => (indices R).map (i ++ ·) := by
  induction S with
  | nil => simp [indices]
  | cons s S ih =>
    simp only [cons_append, indices, ih, map_flatMap, flatMap_assoc,
      flatMap_map, map_map]
    rfl

end Shape

/-! ## Views of tensors -/

theorem mapM_map_eq_some {α β : Type} {f : α → β} {g : β → Option α} (h : ∀ a, g (f a) = some a)
    (xs : List α) : (xs.map f).mapM g = some xs := by
  induction xs with
  | nil => rfl
  | cons x xs ih =>
    rw [map_cons, mapM_cons, h, ih]
    rfl

theorem Arg.ints?_ofInts (xs : List Int) : (Arg.ofInts xs).ints? = some xs :=
  mapM_map_eq_some (g := Arg.int?) (fun _ => rfl) xs

/-- A pair of integers from a pair of extents. -/
def Dim.unpair? (m : Dim × Dim) : Option (Int × Int) := do return (← m.1.int?, ← m.2.int?)

namespace View

instance (v : View Int) (i : List Int) : Decidable (v.Valid i) :=
  match h : v.mask with
  | none => .isTrue fun ms hms => by simp [h] at hms
  | some ms => decidable_of_iff (Forall₂ (fun (m : Int × Int) d => m.1 ≤ d ∧ d < m.2) ms i)
      ⟨fun hin ms' hms => by cases h.symm.trans hms; exact hin, fun hv => hv ms h⟩

/-- The index of a tensor of the given shape that a view selects. -/
def element? (v : View Int) (shape i : List Int) : Option (List Int) :=
  if v.Valid i then some (index shape (v.address i)) else none

/-- Parts of a view that fit together: no extent is negative, and there is a stride and an interval
of the mask for each axis. -/
structure Formed (v : View Int) : Prop where
  nonneg : ∀ s ∈ v.shape, 0 ≤ s
  length_strides : v.strides.length = v.shape.length
  length_mask : ∀ ms, v.mask = some ms → ms.length = v.shape.length

/-- A view of integers from a view of extents. -/
def toInt? (v : View Dim) : Option (View Int) := do
  let mask ← v.mask.mapM fun ms => ms.mapM Dim.unpair?
  return ⟨← Dim.ints? v.shape, ← Dim.ints? v.strides, ← v.offset.int?, mask, v.contiguous⟩

theorem ints?_map (xs : List Int) : Dim.ints? (xs.map .int) = some xs :=
  mapM_map_eq_some (g := Dim.int?) (fun _ => rfl) xs

theorem toInt?_toDim (v : View Int) : v.toDim.toInt? = some v := by
  have hpairs (ms : List (Int × Int)) : (ms.map Dim.pair).mapM Dim.unpair? = some ms :=
    mapM_map_eq_some (g := Dim.unpair?) (fun _ => rfl) ms
  obtain ⟨shape, strides, offset, mask, contiguous⟩ := v
  cases mask with
  | none => simp only [toInt?, toDim, ints?_map]; rfl
  | some ms =>
    simp only [toInt?, toDim, Option.map_some, Option.mapM_some, hpairs, ints?_map]
    rfl

end View

namespace Layout

/-- The shape of a layout of a tensor of the given shape: that of its last view. -/
def top : List Int → List (View Int) → List Int
  | shape, [] => shape
  | _, v :: vs => top v.shape vs

/-- The index of a tensor of the given shape that a layout selects. -/
def element? : List (View Int) → List Int → List Int → Option (List Int)
  | [], _, i => some i
  | v :: vs, shape, i => (element? vs v.shape i).bind (v.element? shape)

/-- A tensor of the given shape seen through a layout: zero where the layout selects nothing. -/
def read (L : List (View Int)) (shape : List Int) (f : Entries) : Entries := fun i =>
  (element? L shape i).elim 0 f

/-- Every address of a view of a layout is one of a tensor of the shape below it. -/
def Composes : List Int → List (View Int) → Prop
  | _, [] => True
  | shape, v :: vs => v.Formed ∧ (∀ i, IsIndex v.shape i → v.Valid i →
      0 ≤ v.address i ∧ v.address i < shape.prod) ∧ Composes v.shape vs

end Layout

/-! ## Reductions -/

namespace Axes

/-- The items of a list that are not along the given axes. -/
def keep {α : Type} (axes : List Int) (xs : List α) : List α :=
  (xs.zipIdx.filter fun (_, i) => !axes.contains (i : Int)).map (·.1)

/-- The last axes of a list. -/
def last (n k : Nat) : List Int := (range k).map fun i => ((n + i : Nat) : Int)

theorem contains_last {n k i : Nat} :
    (last n k).contains (i : Int) = decide (n ≤ i ∧ i < n + k) := by
  rw [Bool.eq_iff_iff, contains_iff_mem, decide_eq_true_iff]
  simp only [last, mem_map, mem_range, Nat.cast_inj]
  constructor
  · rintro ⟨j, hj, rfl⟩
    omega
  · rintro ⟨hle, hlt⟩
    exact ⟨i - n, by omega, by omega⟩

/-- The items before the last axes. -/
theorem keep_last {α : Type} (xs ys : List α) :
    keep (last xs.length ys.length) (xs ++ ys) = xs := by
  have hxs : xs.zipIdx.filter (fun x => !(last xs.length ys.length).contains (x.2 : Int)) =
      xs.zipIdx := by
    refine filter_eq_self.mpr fun x hx => ?_
    have := snd_lt_of_mem_zipIdx hx
    rw [contains_last, decide_eq_false (by omega)]
    rfl
  have hys : (ys.zipIdx xs.length).filter
      (fun x => !(last xs.length ys.length).contains (x.2 : Int)) = [] := by
    refine filter_eq_nil_iff.mpr fun x hx => ?_
    have := snd_lt_of_mem_zipIdx hx
    have := le_snd_of_mem_zipIdx hx
    rw [contains_last, decide_eq_true (by omega)]
    simp
  rw [keep, zipIdx_append, filter_append, Nat.zero_add, hxs, hys, append_nil,
    zipIdx_map_fst]

/-- The indices that a reduction over the last axes folds into an element. -/
theorem filter_indices {S R i : List Int} (hi : IsIndex S i) :
    (indices (S ++ R)).filter (fun j => keep (last S.length R.length) j = i) =
      (indices R).map (i ++ ·) := by
  have hkeep : ∀ j ∈ indices S, ∀ r ∈ indices R,
      keep (last S.length R.length) (j ++ r) = j := by
    intro j hj r hr
    rw [← length_of_mem_indices hj, ← length_of_mem_indices hr, keep_last]
  have hblock : ∀ j ∈ indices S,
      ((indices R).map (j ++ ·)).filter (fun j => keep (last S.length R.length) j = i) =
        if j = i then (indices R).map (i ++ ·) else [] := by
    intro j hj
    split_ifs with h
    · subst h
      refine filter_eq_self.mpr fun x hx => ?_
      obtain ⟨r, hr, rfl⟩ := mem_map.mp hx
      simpa using hkeep j hj r hr
    · refine filter_eq_nil_iff.mpr fun x hx => ?_
      obtain ⟨r, hr, rfl⟩ := mem_map.mp hx
      simpa [hkeep j hj r hr] using h
  rw [indices_append, filter_flatMap, flatMap_congr hblock,
    flatMap_ite_eq (nodup_indices S) (mem_indices.mpr hi)]

end Axes

/-- How a reduction folds elements. -/
def Op.folding? : Op → Option (DType → List Int → Int)
  | .add => some fun _ xs => xs.sum
  | .mul => some fun _ xs => xs.prod
  | .max => some fun d xs => xs.max?.getD ((Const.least d).int?.getD 0)
  | _ => none

/-- A tensor of the given shape with the elements along some axes folded. -/
def Entries.reduce (fold : List Int → Int) (axes shape : List Int) (f : Entries) : Entries := fun i =>
  fold (((indices shape).filter fun j => Axes.keep axes j = i).map f)

/-! ## Graphs -/

/-- The shape and the elements of a node, given those of some nodes. -/
def Expr.meaning? (given : Expr → Option (List Int × Entries)) (e : Expr) :
    Option (List Int × Entries) :=
  match given e with
  | some x => some x
  | none =>
    match e with
    | .mk _ .view _ [a] (.layout l) _ => do
      let (shape, f) ← a.meaning? given
      let L ← l.mapM View.toInt?
      return (Layout.top shape L, Layout.read L shape f)
    | .mk _ .reduceAxis d [a] (.tuple [.op o, axes]) _ => do
      let (shape, f) ← a.meaning? given
      let axes ← axes.ints?
      let fold ← o.folding?
      return (Axes.keep axes shape, f.reduce (fold d) axes shape)
    | _ => none

end LazyTensor
