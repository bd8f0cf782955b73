import LazyTensor.Proofs.Layout.Blocks
import LazyTensor.Proofs.Layout.MaskReshape

/-!
# Reshaping a view

A reshaped view shows the same elements in the same order: at every position of the array the new
view is inside its mask exactly when the old one is, and then both have the same address.

## Main results

* `View.reshape_keeps_elements`: at every position, old and new view agree.
-/

namespace LazyTensor

open Radix GraphM List Shape Dim

variable {shape strides S : List Int} {M : List (Int × Int)} {v : View Int} {env : Env} {st : Store}

namespace Shape

/-- The index of a position, in row-major order. -/
def index (shape : List Int) (p : Int) : List Int := (digits shape.reverse p).reverse

theorem isIndex_index (h : ∀ s ∈ shape, 0 < s) (p : Int) : IsIndex shape (index shape p) := by
  have := isIndex_digits (S := shape.reverse) (by simpa using h) p
  simpa [index, IsIndex] using rel_reverse this

theorem dot_index (h : strides.length = shape.length) (p : Int) :
    dot strides (index shape p) = dot strides.reverse (digits shape.reverse p) := by
  rw [index, ← dot_reverse (by simp [h]), reverse_reverse]

/-- `Shape.unravel` gives the index of a position. -/
theorem unravel_int (h : ∀ s ∈ shape, 0 < s) (p : Int) :
    unravel (shape.map .int) (.int p) = pure ((index shape p).map int) := by
  have hfold : ∀ (S : List Int) (acc : Int) (is : List Int), (∀ s ∈ S, 0 < s) → 0 < acc →
      (S.map int).foldlM (fun (x : Dim × List Dim) d => do
        let i ← (← (int p).div x.1).mod d
        return (← x.1.mul d, i :: x.2)) (.int acc, is.map int) =
      (pure (.int (acc * S.prod), ((digits S (p / acc)).reverse ++ is).map int) :
        GraphM (Dim × List Dim)) := by
    intro S
    induction S with
    | nil => simp
    | cons s S ih =>
      intro acc is hS hacc
      have hs : 0 < s := hS s (by simp)
      have := ih (acc * s) (p / acc % s :: is) (fun t ht => hS t (by simp [ht])) (mul_pos hacc hs)
      simp only [map_cons, foldlM_cons, div_int _ hacc, pure_bind, mod_int _ hs,
        mul_int] at this ⊢
      rw [this, ← Int.ediv_ediv_of_nonneg hacc.le, prod_cons, digits_cons]
      simp [mul_assoc]
  have := hfold shape.reverse 1 [] (by simpa using h) one_pos
  simp only [map_reverse, Int.ediv_one, append_nil] at this
  unfold unravel
  simp only [ofNat_eq, Nat.cast_one]
  refine (congrArg (· >>= fun x => pure x.2) this).trans ?_
  simp [index]

end Shape

namespace Axis

def ofLists : List Int → List Int → List (Int × Int) → List Axis
  | s :: S, t :: T, m :: M => ⟨s, t, m⟩ :: ofLists S T M
  | _, _, _ => []

theorem map_ofLists {T : List Int} (hT : T.length = S.length) (hM : M.length = S.length) :
    (ofLists S T M).map size = S ∧ (ofLists S T M).map stride = T ∧
      (ofLists S T M).map mask = M := by
  induction S generalizing T M with
  | nil =>
    have hT : T = [] := length_eq_zero_iff.mp hT
    have hM : M = [] := length_eq_zero_iff.mp hM
    simp [hT, hM, ofLists]
  | cons s S ih =>
    obtain ⟨t, T, rfl⟩ := exists_cons_of_length_eq_add_one hT
    obtain ⟨m, M, rfl⟩ := exists_cons_of_length_eq_add_one hM
    simpa [ofLists] using ih (by simpa using hT) (by simpa using hM)

/-- What holds of sizes and strides, masks and sizes, and masks and strides holds of the axes. -/
theorem forall_ofLists {P : Int → Int → Prop} {Q R : Int × Int → Int → Prop} {T : List Int}
    (hP : Forall₂ P S T) (hQ : Forall₂ Q M S) (hR : Forall₂ R M T) :
    ∀ a ∈ ofLists S T M, P a.size a.stride ∧ Q a.mask a.size ∧ R a.mask a.stride := by
  induction hP generalizing M with
  | nil => simp [ofLists]
  | cons hp _ ih =>
    cases hQ with
    | cons hq hQ =>
      cases hR with
      | cons hr hR =>
        intro a ha
        rcases mem_cons.mp ha with rfl | ha
        · exact ⟨hp, hq, hr⟩
        · exact ih hQ hR a ha

end Axis

namespace View

/-- The mask of a view, given or hiding nothing. -/
def window (v : View Int) : List (Int × Int) := v.mask.getD (v.shape.map fun s => (0, s))

def axes (v : View Int) : List Axis := Axis.ofLists v.shape v.strides v.window

/-- The positions of a view inside its mask. -/
def positions (v : View Int) : Set Int := box v.shape.reverse v.window.reverse

section Canonical

variable (hv : v.Canonical)

include hv

theorem Canonical.length_strides : v.strides.length = v.shape.length := hv.unit.length_eq.symm

theorem Canonical.pos (h0 : 0 ∉ v.shape) : ∀ s ∈ v.shape, 0 < s := by
  intro s hs
  have := hv.nonneg s hs
  have hne : s ≠ 0 := fun h => h0 (h ▸ hs)
  omega

theorem Canonical.length_window : v.window.length = v.shape.length := by
  unfold window
  cases hm : v.mask with
  | none => simp
  | some ms =>
    rcases hv.mask ms hm with ⟨-, rfl, -⟩ | ⟨hw, -⟩
    · simp
    · exact hw.length_eq

theorem Canonical.axes_size : v.axes.map Axis.size = v.shape :=
  (Axis.map_ofLists hv.length_strides hv.length_window).1

theorem Canonical.axes_stride : v.axes.map Axis.stride = v.strides :=
  (Axis.map_ofLists hv.length_strides hv.length_window).2.1

theorem Canonical.axes_mask : v.axes.map Axis.mask = v.window :=
  (Axis.map_ofLists hv.length_strides hv.length_window).2.2

theorem Canonical.inside_axes : inside v.axes = v.positions := by
  rw [inside, hv.axes_size, hv.axes_mask, positions]

/-- A position is valid exactly when it is inside. -/
theorem Canonical.valid_index (h0 : 0 ∉ v.shape) (p : Int) :
    v.Valid (index v.shape p) ↔ p ∈ v.positions := by
  have hpos := hv.pos h0
  cases hm : v.mask with
  | none =>
    have hin := inside_full (isIndex_index hpos p)
    rw [index, ← inside_reverse, reverse_reverse] at hin
    simp only [Valid, hm, positions, window, Option.getD_none]
    exact iff_of_true (by simp) hin
  | some ms =>
    simp only [Valid, hm, Option.some.injEq, forall_eq', positions, window, Option.getD_some]
    rw [index, ← inside_reverse, reverse_reverse]
    rfl

theorem Canonical.address_index (p : Int) :
    v.address (index v.shape p) =
      v.offset + dot v.strides.reverse (digits v.shape.reverse p) := by
  rw [address, dot_index hv.length_strides]

theorem Canonical.axes_full (hm : v.mask = none) : ∀ a ∈ v.axes, a.mask = (0, a.size) := by
  have hfull : Forall₂ (fun m s => m = (0, s)) v.window v.shape := by
    simp [window, hm, forall₂_map_left_iff, forall₂_same]
  have hany : Forall₂ (fun (_ : Int × Int) (_ : Int) => True) v.window v.strides :=
    forall₂_iff_get.mpr ⟨hv.length_window.trans hv.length_strides.symm, by simp⟩
  exact fun a ha => (Axis.forall_ofLists hv.unit hfull hany a ha).2.1

theorem Canonical.axes_unit : ∀ a ∈ v.axes, a.size = 1 → a.stride = 0 := by
  have hany : ∀ {xs : List Int}, xs.length = v.window.length →
      Forall₂ (fun (_ : Int × Int) (_ : Int) => True) v.window xs :=
    fun h => forall₂_iff_get.mpr ⟨h.symm, by simp⟩
  exact fun a ha => (Axis.forall_ofLists hv.unit (hany hv.length_window.symm)
    (hany (hv.length_strides.trans hv.length_window.symm)) a ha).1

theorem Canonical.axes_canonical (h0 : 0 ∉ v.shape) :
    ∀ a ∈ v.axes, a.Canonical (∃ ms, v.mask = some ms ∧ ms = v.shape.map fun _ => (0, 0)) := by
  have hpos := hv.pos h0
  intro a ha
  have hsize : 0 < a.size := hpos _ (hv.axes_size ▸ mem_map_of_mem ha)
  have hunit := hv.axes_unit a ha
  cases hm : v.mask with
  | none =>
    have hmask := hv.axes_full hm a ha
    refine ⟨hsize, hunit, .inr ⟨by simp [hmask], by simp [hmask, hsize], by simp [hmask], ?_⟩⟩
    intro hp
    simp only [IsPoint, hmask] at hp
    exact hunit (by omega)
  | some ms =>
    have hwin : v.window = ms := by simp [window, hm]
    rcases hv.mask ms hm with ⟨-, hms, hst⟩ | ⟨hw, hp⟩
    · have hzero : Forall₂ (fun m (_ : Int) => m = (0, 0)) v.window v.shape := by
        rw [hwin, hms, forall₂_map_left_iff]
        simp [forall₂_same]
      have hstride : Forall₂ (fun (_ : Int × Int) st => st = 0) v.window v.strides := by
        rw [hwin, hms, hst, forall₂_map_left_iff, forall₂_map_right_iff]
        simp [forall₂_same]
      obtain ⟨-, hmask, hst⟩ := Axis.forall_ofLists hv.unit hzero hstride a ha
      exact ⟨hsize, hunit, .inl ⟨⟨ms, rfl, hms⟩, hmask, hst⟩⟩
    · rw [← hwin] at hw hp
      obtain ⟨-, hmask, hst⟩ := Axis.forall_ofLists hv.unit hw hp a ha
      exact ⟨hsize, hunit, .inr ⟨hmask.1, hmask.2.1, hmask.2.2, hst⟩⟩

theorem Canonical.maskOf_axes : Shape.MaskOf v.mask v.axes := by
  cases hm : v.mask with
  | none =>
    exact .inr ⟨rfl, hv.axes_full hm⟩
  | some ms =>
    left
    rw [hv.axes_mask]
    simp [window, hm]

end Canonical

end View

/-! ## The first position inside a mask -/

namespace Radix

theorem isIndex_starts (h : View.Window M S) : IsIndex S (M.map Prod.fst) := by
  induction h with
  | nil => exact .nil
  | cons hd _ ih => exact .cons ⟨hd.1, by omega⟩ ih

theorem inside_starts (h : View.Window M S) : Inside M (M.map Prod.fst) := by
  induction h with
  | nil => exact .nil
  | cons hd _ ih => exact .cons ⟨le_rfl, hd.2.1⟩ ih

/-- The position of the first index inside a mask. -/
def first (S : List Int) (M : List (Int × Int)) : Int := ofDigits S (M.map Prod.fst)

theorem digits_first (h : View.Window M S) :
    digits S (first S M) = M.map Prod.fst := digits_ofDigits (isIndex_starts h)

theorem first_mem_box (h : View.Window M S) : first S M ∈ box S M := by
  rw [mem_box, digits_first h]
  exact inside_starts h

/-- No position inside comes before the first. -/
theorem first_le (h : View.Window M S) {p : Int} (hp0 : 0 ≤ p) (hp1 : p < S.prod) (hp : p ∈ box S M)
    :
    first S M ≤ p := by
  have hpos := View.Window.pos h
  rw [← ofDigits_digits hpos hp0 hp1]
  refine ofDigits_mono hpos ?_ (by simpa using h.length_eq)
  rw [forall₂_map_left_iff]
  exact Forall₂.imp (fun _ _ hd => hd.1) hp

/-- Masks with the same positions inside have the same first position. -/
theorem first_eq {M' : List (Int × Int)} {S' : List Int} (h : View.Window M S)
    (h' : View.Window M' S') (hprod : S.prod = S'.prod) (hbox : box S M = box S' M') :
    first S M = first S' M' := by
  have hi := isIndex_starts h
  have hi' := isIndex_starts h'
  apply le_antisymm
  · refine first_le h (ofDigits_nonneg hi') ?_ ?_
    · rw [hprod]
      exact ofDigits_lt hi'
    · rw [hbox]
      exact first_mem_box h'
  · refine first_le h' (ofDigits_nonneg hi) ?_ ?_
    · rw [← hprod]
      exact ofDigits_lt hi
    · rw [← hbox]
      exact first_mem_box h

end Radix

/-! ## Reshaping -/

namespace View

@[simp] theorem canonical_shape (shape strides : List Int) (offset : Int)
    (mask : Option (List (Int × Int))) : (canonical shape strides offset mask).shape = shape := by
  unfold canonical
  split_ifs
  · rfl
  · cases mask with
    | none => rfl
    | some ms =>
      dsimp only
      split_ifs <;> rfl

/-- A view shows the elements of another, in the same order. -/
def Shows (w v : View Int) : Prop :=
  ∀ p, 0 ≤ p → p < v.shape.prod →
    (w.Valid (index w.shape p) ↔ v.Valid (index v.shape p)) ∧
      (v.Valid (index v.shape p) →
        w.address (index w.shape p) = v.address (index v.shape p))

theorem maskOffset_int (ms : List (Int × Int)) (strides : List Int) :
    maskOffset (ms.map pair) (strides.map .int) =
      pure (.int (dot (ms.map Prod.fst) strides)) := by
  have hzip : ((ms.map pair).zip (strides.map int)).mapM (fun x => x.1.1.mul x.2) =
      (pure ((zipWith (· * ·) (ms.map Prod.fst) strides).map int) : GraphM _) := by
    have hmul : ∀ x ∈ ms.zip strides, (fun x : (Dim × Dim) × Dim => x.1.1.mul x.2)
        (Prod.map pair int x) = pure (int (x.1.1 * x.2)) := fun x _ => rfl
    rw [zip_map, mapM_map_eq_pure hmul]
    congr 1
    clear hmul
    induction ms generalizing strides with
    | nil => simp
    | cons m ms ih => cases strides with
      | nil => simp
      | cons st strides => simpa using ih strides
  unfold maskOffset
  rw [hzip, pure_bind, sum_int]
  rfl

theorem Canonical.mergeDims (hv : v.Canonical) (h0 : 0 ∉ v.shape) : ∃ rs : List (AxisBlock × Int),
      mergeDims v.toDim.shape v.toDim.strides v.toDim.mask =
        pure (rs.map fun b => b.1.toMerged).reverse ∧
      (∀ q, dot v.strides.reverse (digits v.shape.reverse q) = move rs q) ∧
      Fits v.positions 1 rs := by
  cases haxes : v.axes with
  | nil =>
    have hshape : v.shape = [] := by rw [← hv.axes_size, haxes]; rfl
    have hstrides : v.strides = [] := by rw [← hv.axes_stride, haxes]; rfl
    refine ⟨[], ?_, fun q => by simp [hshape, hstrides, move], trivial⟩
    simp [Shape.mergeDims, hshape]
  | cons a axes =>
    have hcanon := hv.axes_canonical h0
    have hmask := hv.maskOf_axes
    rw [haxes] at hcanon hmask
    obtain ⟨rs, hblocks, hmove, hfits⟩ := joinAll_spec hcanon
    have hmerge := mergeDims_int hmask
    rw [← haxes, hv.axes_size, hv.axes_stride] at hmerge hmove
    rw [← haxes, hv.inside_axes] at hfits
    refine ⟨rs, ?_, hmove, hfits⟩
    simp only [toDim_shape, toDim_strides, toDim_mask]
    rw [hmerge]
    have : (rs.map fun b => b.1.toMerged) = (rs.map Prod.fst).map AxisBlock.toMerged := by
      rw [map_map]
      rfl
    rw [this, hblocks, map_reverse, reverse_reverse]

/-- New strides and a new mask with the same positions inside show the same elements, once the
offset is moved by the difference of the two addresses of the first position. -/
theorem shows_canonical (hv : v.Canonical) (h0 : 0 ∉ v.shape) (hw : Window v.window v.shape)
    (hM : Window M shape) (hprod : shape.prod = v.shape.prod)
    (hbox : v.positions = box shape.reverse M.reverse) (hlen : strides.length = shape.length)
    (hmove : ∀ x ∈ v.positions, ∀ y ∈ v.positions,
      dot v.strides.reverse (digits v.shape.reverse x) -
        dot strides.reverse (digits shape.reverse x) =
      dot v.strides.reverse (digits v.shape.reverse y) -
        dot strides.reverse (digits shape.reverse y)) :
    (canonical shape strides (v.offset + (dot (v.window.map Prod.fst) v.strides -
      dot (M.map Prod.fst) strides)) (some M)).Shows v := by
  intro p hp0 hp1
  have hi := isIndex_index hM.pos p
  have hvalid : Inside M (index shape p) ↔ p ∈ v.positions := by
    rw [hbox, index, ← inside_reverse, reverse_reverse]
    rfl
  rw [canonical_shape, hv.valid_index h0,
    valid_canonical hi fun ms hms => by cases hms; exact hM.length_eq]
  refine ⟨by simpa using hvalid, fun hp => ?_⟩
  rw [address_canonical hi fun ms hms => by cases hms; exact hvalid.mpr hp, hv.address_index,
    dot_index hlen]
  -- both addresses are known at the first position
  have hw' : Window v.window.reverse v.shape.reverse := rel_reverse hw
  have hM' : Window M.reverse shape.reverse := rel_reverse hM
  have hfirst : first v.shape.reverse v.window.reverse = first shape.reverse M.reverse :=
    first_eq hw' hM' (by rw [prod_reverse, prod_reverse, hprod]) hbox
  have hconst := hmove p hp _ (first_mem_box hw')
  rw [digits_first hw', hfirst, digits_first hM', map_reverse, map_reverse,
    dot_reverse (by simp [hv.length_strides, hw.length_eq]),
    dot_reverse (by simp [hlen, hM.length_eq])] at hconst
  rw [dot_comm (v.window.map Prod.fst), dot_comm (M.map Prod.fst)]
  linarith

theorem firstOffset_int (v : View Int) :
    v.toDim.firstOffset = pure (.int (dot (v.window.map Prod.fst) v.strides)) := by
  unfold firstOffset window
  cases hm : v.mask with
  | none =>
    have hzero : ∀ (xs ys : List Int), dot (xs.map fun _ => 0) ys = 0 := by
      intro xs
      induction xs with
      | nil => simp
      | cons x xs ih =>
        intro ys
        cases ys with
        | nil => simp
        | cons y ys => rw [map_cons, dot_cons, ih, zero_mul, zero_add]
    simp only [toDim_mask, hm, Option.map_none, Option.getD_none, map_map]
    rw [show Prod.fst ∘ (fun s : Int => ((0 : Int), s)) = fun _ => 0 from rfl, hzero]
    rfl
  | some ms =>
    simp only [toDim_mask, hm, Option.map_some, Option.getD_some]
    cases ms with
    | nil => rfl
    | cons m ms => exact maskOffset_int (m :: ms) v.strides

/-- The view with new strides and a new mask, at the address of the first position. -/
theorem moved_eq (hnn : ∀ s ∈ shape, 0 ≤ s) (hlen : strides.length = shape.length)
    (hM : M.length = shape.length) : (do
      let before ← v.toDim.firstOffset
      let after ← maskOffset (M.map pair) (strides.map .int)
      let extra ← before.sub after
      return some (← create (shape.map .int) (some (strides.map .int))
        (← v.toDim.offset.add extra) (some (M.map pair)))) =
    (pure (some (canonical shape strides (v.offset + (dot (v.window.map Prod.fst) v.strides -
      dot (M.map Prod.fst) strides)) (some M)).toDim) : GraphM (Option (View Dim))) := by
  have hcreate := @create_eq shape strides (v.offset + (dot (v.window.map Prod.fst) v.strides -
      dot (M.map Prod.fst) strides)) (some M) hnn hlen (fun ms hms => by cases hms; exact hM)
  rw [Option.map_some] at hcreate
  simp only [firstOffset_int, maskOffset_int, pure_bind, sub_int, toDim_offset, add_int,
    hcreate]

/-- The strides found for the new axes, with none for those left over. -/
theorem dot_padded {sts C rest : List Int} (hlen : sts.length = C.length)
    (hC : ∀ e ∈ C, 0 < e) (n : Nat) (x : Int) :
    dot (sts ++ replicate n 0) (digits (C ++ rest) x) = dot sts (digits C x) := by
  have hzero : ∀ (n : Nat) (ys : List Int), dot (replicate n 0) ys = 0 := by
    intro n
    induction n with
    | zero => simp
    | succ n ih =>
      intro ys
      cases ys with
      | nil => simp
      | cons y ys => rw [replicate_succ, dot_cons, ih, zero_mul, zero_add]
  rw [digits_append hC, dot_append (by simp [hlen]), hzero, add_zero]

theorem window_full (h : ∀ s ∈ shape, 0 < s) : Window (shape.map fun s => (0, s)) shape := by
  rw [Window, forall₂_map_left_iff, forall₂_same]
  exact fun s hs => ⟨le_rfl, h s hs, le_rfl⟩

theorem box_full (h : ∀ s ∈ S, 0 < s) : box S (S.map fun s => (0, s)) = Set.univ := by
  ext p
  exact iff_of_true (inside_full (isIndex_digits h p)) trivial

/-- What a mask of a new shape says of the positions of a view: the same, or nothing is inside. -/
def Carries (v : View Int) (shape : List Int) (M : List (Int × Int)) : Prop :=
  Window v.window v.shape ∧ Window M shape ∧ v.positions = box shape.reverse M.reverse ∨
    v.positions = ∅ ∧ M.length = shape.length ∧ ∃ m ∈ M, m.2 ≤ m.1

theorem positions_eq_empty (h : ∃ m ∈ v.window, m.2 ≤ m.1) : v.positions = ∅ := by
  ext p
  refine iff_of_false ?_ id
  apply not_inside_of_empty
  simpa using h

theorem Canonical.reshapeMask (hv : v.Canonical) (h0 : 0 ∉ v.shape) (hshape : ∀ s ∈ shape, 0 < s)
    (hprod : shape.prod = v.shape.prod) (hne : (∃ m ∈ v.window, m.2 ≤ m.1) → shape ≠ []) :
    Ensures False env st (reshapeMask? v.toDim.mask v.toDim.shape (shape.map .int))
      fun r st' => st' = st ∧ ∀ m, r = some m → ∃ M : List (Int × Int), m = M.map pair ∧
        Carries v shape M := by
  have hpos := hv.pos h0
  simp only [toDim_mask, toDim_shape]
  cases hm : v.mask with
  | none =>
    have hwin : v.window = v.shape.map fun s => (0, s) := by simp [window, hm]
    refine .pure ⟨rfl, fun m hr => ?_⟩
    cases hr
    refine ⟨shape.map fun s => (0, s), by simp [pair], .inl ⟨?_, window_full hshape, ?_⟩⟩
    · rw [hwin]
      exact window_full hpos
    · rw [positions, hwin, ← map_reverse, ← map_reverse, box_full (by simpa using hpos),
        box_full (by simpa using hshape)]
  | some ms =>
    have hwin : v.window = ms := by simp [window, hm]
    rcases hv.mask ms hm with ⟨hnil, rfl, -⟩ | ⟨hw, -⟩
    · have hempty : ∃ m ∈ v.window, m.2 ≤ m.1 := by
        obtain ⟨s, shape', hs⟩ := exists_cons_of_ne_nil hnil
        exact ⟨(0, 0), by simp [hwin, hs], le_rfl⟩
      refine (reshapeMask_hidden hpos hnil hshape (hne hempty) hprod).mono ?_
      rintro r st' ⟨hst, hr⟩
      refine ⟨hst, fun m hm => ?_⟩
      obtain ⟨M, rfl, hlen, hM⟩ := hr m hm
      exact ⟨M, rfl, .inr ⟨positions_eq_empty hempty, hlen, hM⟩⟩
    · refine (reshapeMask_window hw hshape hprod).mono ?_
      rintro r st' ⟨hst, hr⟩
      refine ⟨hst, fun m hm => ?_⟩
      obtain ⟨M, rfl, hM, hbox⟩ := hr m hm
      refine ⟨M, rfl, .inl ⟨hwin ▸ hw, hM, ?_⟩⟩
      rw [positions, hwin]
      exact Set.ext hbox

/-- Where nothing is inside, a view with nothing inside shows the same. -/
theorem shows_hidden (hv : v.Canonical) (h0 : 0 ∉ v.shape) (hempty : v.positions = ∅) {offset : Int}
    (hshape : ∀ s ∈ shape, 0 < s) (hM : M.length = shape.length) (hnone : ∃ m ∈ M, m.2 ≤ m.1) :
    (canonical shape strides offset (some M)).Shows v := by
  intro p hp0 hp1
  have hv' : ¬v.Valid (index v.shape p) := by
    rw [hv.valid_index h0, hempty]
    exact id
  rw [canonical_shape, valid_canonical (isIndex_index hshape p)
    fun ms hms => by cases hms; exact hM]
  refine ⟨iff_of_false ?_ hv', fun h => absurd h hv'⟩
  intro h
  exact not_inside_of_empty hnone (h M rfl)

/-- **A view that is not dense shows the same elements under a new shape.** -/
theorem reshapeBlocks_spec (hv : v.Canonical) (h0 : 0 ∉ v.shape) (hshape : ∀ s ∈ shape, 0 < s)
    (hprod : shape.prod = v.shape.prod) (hne : (∃ m ∈ v.window, m.2 ≤ m.1) → shape ≠ []) :
    Ensures False env st (v.toDim.reshapeBlocks? (shape.map .int)) fun r st' => st' = st ∧
      ∀ w, r = some w → ∃ w' : View Int, w = w'.toDim ∧ w'.shape = shape ∧ w'.Canonical ∧
        w'.Shows v := by
  obtain ⟨rs, hmerge, hmove, hfits⟩ := hv.mergeDims h0
  have hpos := hv.pos h0
  have hnn : ∀ s ∈ shape, 0 ≤ s := fun s hs => (hshape s hs).le
  have hT : ∀ e ∈ [] ++ shape.reverse, 0 < e := by simpa using hshape
  unfold reshapeBlocks?
  rw [hmerge, pure_bind, reverse_reverse, ← map_reverse, length_map]
  refine .bind ((splitBlocks_spec hT (N := []) hfits _ (by simp) []).mono ?_)
  rintro res st' ⟨rfl, hres⟩
  match res with
  | none => exact .pure ⟨rfl, fun w hw => by cases hw⟩
  | some out =>
    obtain ⟨C, sts, rest, hnew, hlen, rfl, hconst⟩ := hres out rfl
    -- the new strides, outermost first
    obtain ⟨strides, hstrides⟩ : ∃ strides, strides =
      replicate (shape.length - sts.length) 0 ++ sts.reverse := ⟨_, rfl⟩
    have hrev : strides.reverse = sts ++ replicate (shape.length - sts.length) 0 := by
      simp [hstrides]
    have hC : ∀ e ∈ C, 0 < e := fun e he => hT e (by simp [hnew, he])
    have hslen : strides.length = shape.length := by
      have := congrArg length hnew
      simp only [length_reverse, length_append] at this
      simp only [hstrides, length_append, length_replicate, length_reverse]
      omega
    have hdims : replicate (shape.length - (sts.reverse.map int ++ []).length) (0 : Dim) ++
        (sts.reverse.map int ++ []) = strides.map int := by
      simp [hstrides]
    have hmoves : ∀ M, v.positions = box shape.reverse M → M.length = shape.length →
        ∀ x ∈ v.positions, ∀ y ∈ v.positions,
          dot v.strides.reverse (digits v.shape.reverse x) -
              dot strides.reverse (digits shape.reverse x) =
            dot v.strides.reverse (digits v.shape.reverse y) -
              dot strides.reverse (digits shape.reverse y) := by
      intro M hM hMlen x hx y hy
      have := hconst M hM (by simpa using hMlen) x hx y hy
      rw [hmove, hmove, hrev, hnew, dot_padded hlen hC, dot_padded hlen hC]
      simpa using this
    dsimp only
    rw [hdims]
    refine .bind ((hv.reshapeMask h0 hshape hprod hne).mono ?_)
    rintro res st'' ⟨rfl, hmask⟩
    match res with
    | none => exact .pure ⟨rfl, fun w hw => by cases hw⟩
    | some m =>
      obtain ⟨M, rfl, hcarries⟩ := hmask m rfl
      have hMlen : M.length = shape.length := by
        rcases hcarries with ⟨-, hM, -⟩ | ⟨-, hM, -⟩
        · exact hM.length_eq
        · exact hM
      dsimp only
      rw [moved_eq hnn hslen hMlen]
      refine .pure ⟨rfl, fun w hw => ?_⟩
      cases hw
      refine ⟨_, rfl, canonical_shape .., ?_, ?_⟩
      · refine canonical_canonical hnn hslen fun ms hms => ?_
        cases hms
        rcases hcarries with ⟨-, hM, -⟩ | ⟨-, -, hM⟩
        · exact ⟨hMlen, .inr hM⟩
        · exact ⟨hMlen, .inl hM⟩
      · rcases hcarries with ⟨hw, hM, hbox⟩ | ⟨hempty, -, hM⟩
        · exact shows_canonical hv h0 hw hM hprod hbox hslen
            (hmoves M.reverse hbox (by simpa using hMlen))
        · exact shows_hidden hv h0 hempty hshape hMlen hM

end View

/-! ## Dense views -/

namespace Shape

theorem index_cons {s : Int} {rest : List Int} (h : ∀ t ∈ rest, 0 < t) (p : Int) :
    index (s :: rest) p = p / rest.prod % s :: index rest p := by
  rw [index, reverse_cons, digits_append (by simpa using h), reverse_append,
    prod_reverse]
  rfl

theorem dot_weights_index (h : ∀ s ∈ shape, 0 < s) (p : Int) :
    dot (weights shape) (index shape p) = p % shape.prod := by
  induction shape with
  | nil => simp [weights]
  | cons s rest ih =>
    have hrest : ∀ t ∈ rest, 0 < t := fun t ht => h t (by simp [ht])
    rw [index_cons hrest, weights, dot_cons, ih hrest, prod_cons, mul_comm s,
      emod_mul_eq (prod_pos hrest)]
    ring

/-- A position of a dense array is its own address. -/
theorem dot_dense_index (h : ∀ s ∈ shape, 0 < s) {p : Int} (hp0 : 0 ≤ p) (hp1 : p < shape.prod) :
    dot (dense shape) (index shape p) = p := by
  rw [dense_eq, View.dot_unit (isIndex_index h p), dot_weights_index h, Int.emod_eq_of_lt hp0 hp1]

end Shape

namespace View

theorem canonical_dense (hnn : ∀ s ∈ shape, 0 ≤ s) :
    (canonical shape (dense shape) 0 none).Canonical :=
  canonical_canonical hnn (length_dense shape) fun ms h => by cases h

theorem Canonical.address_of_contiguous (hv : v.Canonical) (h0 : 0 ∉ v.shape)
    (hc : v.contiguous = true) {p : Int} (hp0 : 0 ≤ p) (hp1 : p < v.shape.prod) :
    v.Valid (index v.shape p) ∧ v.address (index v.shape p) = p := by
  obtain ⟨hoff, hmask, hst⟩ := hv.dense hc
  refine ⟨by simp [Valid, hmask], ?_⟩
  rw [address, hoff, hst h0, dot_dense_index (hv.pos h0) hp0 hp1, zero_add]

/-- Dense arrays of the same size have the same elements. -/
theorem shows_dense (hv : v.Canonical) (h0 : 0 ∉ v.shape) (hc : v.contiguous = true)
    (hshape : ∀ s ∈ shape, 0 < s) (hprod : shape.prod = v.shape.prod) :
    (canonical shape (dense shape) 0 none).Shows v := by
  intro p hp0 hp1
  have hi := isIndex_index hshape p
  obtain ⟨hvalid, haddr⟩ := hv.address_of_contiguous h0 hc hp0 hp1
  have hnone : ∀ ms : List (Int × Int), none = some ms → Inside ms (index shape p) := by
    intro ms h
    cases h
  rw [canonical_shape, valid_canonical hi (by simp), address_canonical hi hnone, haddr, zero_add]
  exact ⟨iff_of_true hnone hvalid, fun _ => dot_dense_index hshape hp0 (hprod ▸ hp1)⟩

theorem pos_of_prod_ne_zero (hnn : ∀ s ∈ shape, 0 ≤ s) (hprod : shape.prod ≠ 0) :
    ∀ s ∈ shape, 0 < s := by
  intro s hs
  have hne : s ≠ 0 := fun h => hprod (prod_eq_zero (h ▸ hs))
  have := hnn s hs
  omega

/-- A shape is refused only if an extent is negative or the number of elements is another. -/
theorem checkReshape_spec :
    Ensures (¬((∀ s ∈ shape, 0 ≤ s) ∧ shape.prod = v.shape.prod)) env st
      (v.toDim.checkReshape (shape.map .int)) fun _ st' => st' = st ∧
      (∀ s ∈ shape, 0 ≤ s) ∧ shape.prod = v.shape.prod := by
  have hall : allM (shape.map .int) (fun x => do (← x.ge 0).holds) =
      pure (decide (∀ s ∈ shape, 0 ≤ s)) := by
    rw [allM_map_eq_pure (q := fun s => decide (s ≥ 0)) fun s _ => by simp]
    congr 1
    rw [Bool.eq_iff_iff]
    simp
  unfold checkReshape
  rw [hall, pure_bind, toDim_shape, allInt_int, prod_int, prod_int, pure_bind, pure_bind]
  refine .ite (fun hneg => .bind (.throw fun h => ?_)) fun hnn => ?_
  · obtain ⟨x, hx, hlt⟩ : ∃ x ∈ shape, x < 0 := by simpa using hneg
    exact absurd (h.1 x hx) (not_le.mpr hlt)
  rw [if_pos rfl, ne_int, pure_bind, resolve_known, pure_bind]
  refine .ite (fun hne => .throw fun h => ?_) fun hprod => .pure ⟨rfl, ?_, ?_⟩
  · simp [h.2] at hne
  · simpa using hnn
  · have : v.shape.prod = shape.prod := by simpa using hprod
    exact this.symm

/-- A canonical mask that leaves nothing of some axis is that of the view of nothing. -/
theorem Canonical.hidden_of_empty (hv : v.Canonical) (h0 : 0 ∉ v.shape)
    (h : ∃ m ∈ v.window, m.2 ≤ m.1) :
    v.shape ≠ [] ∧ v.mask = some (v.shape.map fun _ => (0, 0)) := by
  obtain ⟨m, hm, hle⟩ := h
  have not_window : ¬Window v.window v.shape := fun hw =>
    not_inside_of_empty ⟨m, hm, hle⟩ (inside_starts hw)
  cases hmask : v.mask with
  | none =>
    refine absurd ?_ not_window
    rw [window, hmask]
    exact window_full (hv.pos h0)
  | some ms =>
    rcases hv.mask ms hmask with ⟨hne, rfl, -⟩ | ⟨hw, -⟩
    · exact ⟨hne, rfl⟩
    · refine absurd ?_ not_window
      rw [window, hmask]
      exact hw

theorem Shows.refl (v : View Int) : v.Shows v := fun _ _ _ => ⟨Iff.rfl, fun _ => rfl⟩

/-- **A reshaped view shows the same elements**, and only a shape of another size, or one with a
negative extent, is refused. -/
theorem reshape_spec (hv : v.Canonical) (shape : List Int) :
    Ensures (¬((∀ s ∈ shape, 0 ≤ s) ∧ shape.prod = v.shape.prod)) env st
      (v.toDim.reshape? (shape.map .int)) fun r st' => st' = st ∧
      ∀ w, r = some w → shape.prod = v.shape.prod ∧
        ∃ w' : View Int, w = w'.toDim ∧ w'.shape = shape ∧ w'.Canonical ∧ w'.Shows v := by
  unfold reshape?
  simp only [toDim_shape, map_int_beq, ofNat_eq, Nat.cast_zero, contains_int,
    allInt_int, Bool.not_true, Bool.and_false, Bool.false_eq_true, if_false, toDim_contiguous]
  refine .ite (fun heq => ?_) fun hneq => ?_
  · refine .pure ⟨rfl, fun w hw => ?_⟩
    cases hw
    have heq : v.shape = shape := of_decide_eq_true heq
    exact ⟨by rw [heq], v, rfl, heq, hv, Shows.refl v⟩
  refine .bind (checkReshape_spec.mono ?_)
  rintro - st' ⟨rfl, hnn, hprod⟩
  have hdense := create_dense hnn
  simp only [ofNat_eq, Nat.cast_zero] at hdense
  rw [hdense]
  refine .ite (fun h0 => ?_) fun h0 => ?_
  · -- there are no positions
    refine .pure ⟨rfl, fun w hw => ?_⟩
    cases hw
    refine ⟨hprod, _, rfl, canonical_shape .., canonical_dense hnn, fun p hp0 hp1 => ?_⟩
    rw [prod_eq_zero (of_decide_eq_true h0)] at hp1
    omega
  have h0 : 0 ∉ v.shape := by simpa using h0
  have hshape := pos_of_prod_ne_zero hnn (hprod ▸ (prod_pos (hv.pos h0)).ne')
  refine .ite (fun _ => .pure ⟨rfl, fun w hw => by cases hw⟩) fun hhidden => ?_
  refine .ite (fun hc => ?_) fun hc => ?_
  · refine .pure ⟨rfl, fun w hw => ?_⟩
    cases hw
    exact ⟨hprod, _, rfl, canonical_shape .., canonical_dense hnn,
      shows_dense hv h0 hc hshape hprod⟩
  · refine ((reshapeBlocks_spec hv h0 hshape hprod ?_).weaken False.elim).mono
      fun r st' ⟨hst, h⟩ => ⟨hst, fun w hw => ⟨hprod, h w hw⟩⟩
    rintro hempty rfl
    obtain ⟨hne, hmask⟩ := hv.hidden_of_empty h0 hempty
    obtain ⟨s, rest, hs⟩ := exists_cons_of_ne_nil hne
    apply hhidden
    simp [hmask, hs, pair]

theorem Parts.shape_view (a : Parts) : a.view.shape = a.shape := canonical_shape ..

/-- What `View.create` returns is reshaped, and shows the same elements. -/
theorem Parts.reshape_spec (a : Parts) (shape : List Int) :
    Ensures (¬((∀ s ∈ shape, 0 ≤ s) ∧ shape.prod = a.shape.prod)) env st
      (do (← a.create).reshape? (shape.map .int)) fun r st' => st' = st ∧
        ∀ w, r = some w → shape.prod = a.shape.prod ∧
          ∃ w' : View Int, w = w'.toDim ∧ w'.shape = shape ∧ w'.Canonical ∧ w'.Shows a.view := by
  rw [a.create_view, pure_bind, ← a.shape_view]
  exact View.reshape_spec a.canonical_view shape

/-- **Reshaping changes no element.**  Where a view is reshaped, the index of a position in the new
shape is inside the new mask exactly when its index in the old shape is inside the old one, and then
both have the same address. -/
theorem reshape_keeps_elements {v : View Int} (hv : v.Canonical) (shape : List Int) {env : Env}
    {st st' : Store} {w : View Dim}
    (hrun : v.toDim.reshape? (shape.map .int) env st = .ok (some w) st') :
    ∃ w' : View Int, w = w'.toDim ∧ w'.shape = shape ∧ ∀ p, 0 ≤ p → p < v.shape.prod →
      ∃ i j : List Int, Shape.unravel (shape.map .int) (.int p) = pure (i.map Dim.int) ∧
        Shape.unravel (v.shape.map .int) (.int p) = pure (j.map Dim.int) ∧
        (w'.Valid i ↔ v.Valid j) ∧ (v.Valid j → w'.address i = v.address j) := by
  obtain ⟨-, h⟩ := (reshape_spec hv shape).of_ok hrun
  obtain ⟨hprod, w', rfl, rfl, hw, hshows⟩ := h w rfl
  refine ⟨w', rfl, rfl, fun p h0 h1 => ?_⟩
  have hne : v.shape.prod ≠ 0 := by omega
  obtain ⟨hvalid, haddress⟩ := hshows p h0 h1
  exact ⟨_, _, Shape.unravel_int (pos_of_prod_ne_zero hw.nonneg (hprod ▸ hne)) p,
    Shape.unravel_int (pos_of_prod_ne_zero hv.nonneg hne) p, hvalid, haddress⟩

/-- A view that walks its first axis backwards, with two axes cut and one pinned by its mask. -/
def pinned : View Int := ⟨[4, 3, 2], [-2, 0, 1], 10, some [(2, 4), (1, 2), (0, 2)], false⟩

theorem canonical_pinned : pinned.Canonical where
  nonneg := by decide
  unit := by simp [pinned]
  empty h := absurd h (by decide)
  dense h := by cases h
  mask ms h := by
    cases h
    exact .window (by simp [Window, pinned]) (by simp [IsPoint, pinned])

/-- The backward axis of `pinned` splits in two, and its other axes join. -/
theorem reshape_keeps_elements_pinned :
    ∃ w' : View Int, pinned.toDim.reshape? ([2, 2, 6].map .int) ⟨pure, fun _ => pure none⟩ {} =
        .ok (some w'.toDim) {} ∧
      w'.shape = [2, 2, 6] ∧ ∀ p, 0 ≤ p → p < 24 →
        ∃ i j : List Int, Shape.unravel ([2, 2, 6].map .int) (.int p) = pure (i.map Dim.int) ∧
          Shape.unravel ([4, 3, 2].map .int) (.int p) = pure (j.map Dim.int) ∧
          (w'.Valid i ↔ pinned.Valid j) ∧ (pinned.Valid j → w'.address i = pinned.address j) := by
  have hrun : ∃ w, pinned.toDim.reshape? ([2, 2, 6].map .int) ⟨pure, fun _ => pure none⟩ {} =
      .ok (some w) {} := ⟨_, rfl⟩
  obtain ⟨w, hrun⟩ := hrun
  obtain ⟨w', rfl, hshape, h⟩ := reshape_keeps_elements canonical_pinned [2, 2, 6] hrun
  exact ⟨w', hrun, hshape, h⟩

end View

end LazyTensor
