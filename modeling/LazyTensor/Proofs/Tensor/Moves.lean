import LazyTensor.Proofs.Tensor.Meaning

/-!
# Movements of views

A movement gives a tensor a new shape, and each index of that shape the index below it that it
stands for, or none.  Most movements act on each axis by itself.  A movement of a view of integers
gives a view that selects, at each index, what the view selects at the index below, and fails for an
argument that stands for no movement.

## Main results

* `View.movements_follow_indices`: the movements of views, and what they refuse.
-/

namespace LazyTensor

open Radix GraphM List Dim

/-! ## Movements -/

/-- A movement of a tensor: a shape, and the index below of an index of that shape, unless there is
none. -/
structure Movement where
  shape : List Int
  source : List Int → Option (List Int)

namespace Movement

variable {α β : Type}

/-- The index below, axis by axis. -/
def each (f : α → Int → Option Int) : List α → List Int → Option (List Int)
  | [], [] => some []
  | z :: zs, d :: ds => (f z d).bind fun x => (each f zs ds).map (x :: ·)
  | _, _ => none

theorem each_cons_eq_some {f : α → Int → Option Int} {z : α} {zs : List α} {d : Int}
    {ds j : List Int} : each f (z :: zs) (d :: ds) = some j ↔
      ∃ x js, f z d = some x ∧ each f zs ds = some js ∧ j = x :: js := by
  simp only [each, Option.bind_eq_some_iff, Option.map_eq_some_iff]
  grind

theorem each_map {f : β → Int → Option Int} {g : α → β} (zs : List α) (i : List Int) :
    each f (zs.map g) i = each (fun z => f (g z)) zs i := by
  induction zs generalizing i with
  | nil => cases i <;> rfl
  | cons z zs ih =>
    cases i with
    | nil => rfl
    | cons d ds => simp only [map_cons, each, ih]

theorem each_self {f : α → Int → Option Int} {size : α → Int} {zs : List α} {i : List Int}
    (h : ∀ z ∈ zs, ∀ d, 0 ≤ d → d < size z → f z d = some d) (hi : IsIndex (zs.map size) i) :
    each f zs i = some i := by
  induction zs generalizing i with
  | nil =>
    cases hi
    rfl
  | cons z zs ih =>
    obtain ⟨d, ds, hd, hds, rfl⟩ := forall₂_cons_left_iff.mp hi
    rw [each, h z (by simp) d hd.1 hd.2, ih (fun z hz => h z (by simp [hz])) hds]
    rfl

/-- A kind of movement along each axis: the arguments it admits for an axis, the size it gives the
axis, and the index below. -/
structure Kind (β : Type) where
  admits : Int × β → Bool
  size : Int × β → Int
  source : Int × β → Int → Option Int

/-- The movement of a kind with an argument for each axis. -/
def Kind.along? (k : Kind β) (S : List Int) (xs : List β) : Option Movement :=
  if xs.length = S.length ∧ (S.zip xs).all k.admits then
    some ⟨(S.zip xs).map k.size, each k.source (S.zip xs)⟩
  else none

variable {k : Kind β} {S : List Int} {xs : List β} {m : Movement}

theorem Kind.along?_eq_some : k.along? S xs = some m ↔
    (xs.length = S.length ∧ ∀ z ∈ S.zip xs, k.admits z = true) ∧
      m = ⟨(S.zip xs).map k.size, each k.source (S.zip xs)⟩ := by
  rw [along?, Option.ite_none_right_eq_some, all_eq_true, Option.some.injEq, eq_comm (a := m)]

theorem Kind.exists_along (hlen : xs.length = S.length)
    (h : ∀ z ∈ S.zip xs, k.admits z = true) : ∃ m, k.along? S xs = some m :=
  ⟨_, along?_eq_some.mpr ⟨⟨hlen, h⟩, rfl⟩⟩

/-- The indices below are indices of a shape. -/
def Into (m : Movement) (S : List Int) : Prop :=
  ∀ i j, IsIndex m.shape i → m.source i = some j → IsIndex S j

/-- A kind of movement gives sizes, and indices below of the indices of these sizes. -/
def Kind.Lawful (k : Kind β) : Prop :=
  ∀ z, k.admits z = true → 0 ≤ z.1 → 0 ≤ k.size z ∧
    ∀ d x, 0 ≤ d → d < k.size z → k.source z d = some x → 0 ≤ x ∧ x < z.1

theorem Kind.Lawful.into (hk : k.Lawful) (hS : ∀ s ∈ S, 0 ≤ s) (hm : k.along? S xs = some m) :
    (∀ s ∈ m.shape, 0 ≤ s) ∧ m.Into S := by
  obtain ⟨⟨hlen, hadms⟩, rfl⟩ := along?_eq_some.mp hm
  clear hm
  induction S generalizing xs with
  | nil =>
    refine ⟨by simp, fun i j hi hj => ?_⟩
    cases hi
    cases hj
    exact .nil
  | cons s S ih =>
    obtain ⟨x, xs, rfl⟩ := exists_cons_of_length_eq_add_one hlen
    simp only [zip_cons_cons, mem_cons, forall_eq_or_imp] at hadms hS
    obtain ⟨hsize, hsource⟩ := hk (s, x) hadms.1 hS.1
    obtain ⟨hsizes, hsources⟩ := ih hS.2 (by simpa using hlen) hadms.2
    refine ⟨by simpa using ⟨hsize, by simpa using hsizes⟩, fun i j hi hj => ?_⟩
    obtain ⟨d, ds, hd, hds, rfl⟩ := forall₂_cons_left_iff.mp hi
    obtain ⟨y, ys, hy, hys, rfl⟩ := each_cons_eq_some.mp hj
    exact .cons (hsource d y hd.1 hd.2 hy) (hsources ds ys hds hys)

/-- Zeros before and after. -/
def padding : Kind (Int × Int) :=
  ⟨fun (_, b, e) => 0 ≤ b ∧ 0 ≤ e, fun (s, b, e) => s + b + e,
    fun (s, b, _) d => if b ≤ d ∧ d < s + b then some (d - b) else none⟩

/-- A part. -/
def shrinking : Kind (Int × Int) :=
  ⟨fun (s, b, e) => 0 ≤ b ∧ b ≤ e ∧ e ≤ s, fun (_, b, e) => e - b, fun (_, b, _) d => some (d + b)⟩

/-- Backwards, where the flag says so. -/
def flipping : Kind Bool :=
  ⟨fun _ => true, fun (s, _) => s, fun (s, f) d => some (if f then s - 1 - d else d)⟩

/-- An axis of size one repeated. -/
def expanding : Kind Int :=
  ⟨fun (s, n) => 0 ≤ n ∧ (s = n ∨ s = 1), fun (_, n) => n,
    fun (s, _) d => some (if s = 1 then 0 else d)⟩

theorem lawful_padding : padding.Lawful := by
  rintro ⟨s, b, e⟩ h hs
  simp only [padding, decide_eq_true_iff] at h
  refine ⟨by simp only [padding]; omega, fun d x _ _ hx => ?_⟩
  simp only [padding, Option.ite_none_right_eq_some, Option.some.injEq] at hx
  omega

theorem lawful_shrinking : shrinking.Lawful := by
  rintro ⟨s, b, e⟩ h hs
  simp only [shrinking, decide_eq_true_iff] at h
  refine ⟨by simp only [shrinking]; omega, fun d x _ hd hx => ?_⟩
  simp only [shrinking, Option.some.injEq] at hx hd
  omega

theorem lawful_flipping : flipping.Lawful := by
  rintro ⟨s, f⟩ - hs
  refine ⟨hs, fun d x _ hd hx => ?_⟩
  simp only [flipping, Option.some.injEq] at hx hd
  split at hx <;> omega

theorem lawful_expanding : expanding.Lawful := by
  rintro ⟨s, n⟩ h hs
  simp only [expanding, decide_eq_true_iff] at h
  refine ⟨h.1, fun d x _ hd hx => ?_⟩
  simp only [expanding, Option.some.injEq] at hx hd
  split at hx <;> omega

/-- The axes of a list of `n` axes in another order. -/
def Reorders (axes : List Int) (n : Nat) : Prop := axes.Perm ((range n).map Int.ofNat)

instance (axes : List Int) (n : Nat) : Decidable (Reorders axes n) :=
  inferInstanceAs (Decidable (List.Perm _ _))

/-- The index along the old axes of an index along axes in another order. -/
def unorder (axes i : List Int) : List Int :=
  (range axes.length).map fun (k : Nat) => i.getD (axes.idxOf (k : Int)) 0

/-- The axes in another order. -/
def reordering (S axes : List Int) : Movement :=
  ⟨axes.map (View.axisOf S), fun i => some (unorder axes i)⟩

theorem axisOf_natCast {γ : Type} [Inhabited γ] (xs : List γ) (k : Nat) :
    View.axisOf xs (k : Int) = xs.getD k default := by
  rw [View.axisOf, if_neg (by omega), Int.toNat_natCast]

theorem map_axisOf_range {γ : Type} [Inhabited γ] (xs : List γ) :
    ((range xs.length).map Int.ofNat).map (View.axisOf xs) = xs := by
  refine ext_getElem (by simp) fun k h _ => ?_
  have hk : k < xs.length := by simpa using h
  simp [axisOf_natCast, hk]

section Reorders

variable {γ δ : Type} [Inhabited γ] [Inhabited δ] {axes : List Int} {n : Nat}

theorem Reorders.length_eq (h : Reorders axes n) : axes.length = n := by
  simpa using List.Perm.length_eq h

theorem Reorders.nodup (h : Reorders axes n) : axes.Nodup :=
  (List.Perm.nodup_iff h).mpr (nodup_range.map Int.ofNat_injective)

theorem Reorders.exists_natCast (h : Reorders axes n) {a : Int} (ha : a ∈ axes) :
    ∃ k < n, a = (k : Int) := by
  obtain ⟨k, hk, rfl⟩ := mem_map.mp ((List.Perm.mem_iff h).mp ha)
  exact ⟨k, mem_range.mp hk, rfl⟩

theorem Reorders.nonneg {S : List Int} (h : Reorders axes S.length) (hS : ∀ s ∈ S, 0 ≤ s) :
    ∀ s ∈ axes.map (View.axisOf S), 0 ≤ s := by
  intro s hs
  obtain ⟨a, ha, rfl⟩ := mem_map.mp hs
  obtain ⟨k, hk, rfl⟩ := h.exists_natCast ha
  simpa [axisOf_natCast, hk] using hS _ (getElem_mem hk)

theorem Reorders.map_axisOf (h : Reorders axes n) {xs : List γ} (hxs : xs.length = n) (f : γ → δ) :
    axes.map (View.axisOf (xs.map f)) = (axes.map (View.axisOf xs)).map f := by
  rw [map_map]
  refine map_congr_left fun a ha => ?_
  obtain ⟨k, hk, rfl⟩ := h.exists_natCast ha
  simp [axisOf_natCast, hxs ▸ hk]

theorem Reorders.mergeSort_eq (h : Reorders axes n) :
    axes.mergeSort (· ≤ ·) = (range n).map Int.ofNat := by
  refine List.Perm.eq_of_pairwise (fun _ _ _ _ => le_antisymm) ?_ ?_ ((mergeSort_perm ..).trans h)
  · simpa using @pairwise_mergeSort _ (fun a b : Int => decide (a ≤ b))
      (by simpa using fun _ _ _ => le_trans) (by simpa using le_total) axes
  · rw [pairwise_map]
    exact pairwise_lt_range.imp fun h => Int.ofNat_le.mpr h.le

/-- What holds item by item holds in any order. -/
theorem Reorders.forall₂_iff (h : Reorders axes n) {R : γ → δ → Prop} {xs : List γ} {ys : List δ}
    (hxs : xs.length = n) (hys : ys.length = n) :
    Forall₂ R (axes.map (View.axisOf xs)) (axes.map (View.axisOf ys)) ↔ Forall₂ R xs ys := by
  conv_rhs => rw [← map_axisOf_range xs, ← map_axisOf_range ys, hxs, hys]
  rw [forall₂_map_left_iff, forall₂_map_right_iff, forall₂_same,
    forall₂_map_left_iff, forall₂_map_right_iff, forall₂_same]
  exact forall_congr' fun a => imp_congr_left (List.Perm.mem_iff h)

/-- Sums of products do not depend on the order. -/
theorem Reorders.dot_eq (h : Reorders axes n) {xs ys : List Int} (hxs : xs.length = n)
    (hys : ys.length = n) : dot (axes.map (View.axisOf xs)) (axes.map (View.axisOf ys)) = dot xs ys := by
  conv_rhs => rw [← map_axisOf_range xs, ← map_axisOf_range ys, hxs, hys]
  simp only [dot, zipWith_map, zipWith_self]
  exact (List.Perm.map _ h).sum_eq

/-- The index along the old axes is the one that gives the index along the new. -/
theorem Reorders.unorder_eq_iff (h : Reorders axes n) {i j : List Int} (hi : i.length = n)
    (hj : j.length = n) : unorder axes i = j ↔ axes.map (View.axisOf j) = i := by
  have hlen := h.length_eq
  constructor
  · rintro rfl
    refine ext_getElem (by simp [hlen, hi]) fun p hp hpi => ?_
    have hp : p < axes.length := by simpa using hp
    obtain ⟨k, hk, hpk⟩ := h.exists_natCast (getElem_mem hp)
    have hidx : axes.idxOf (k : Int) = p := by rw [← hpk, h.nodup.idxOf_getElem p hp]
    simp [hpk, axisOf_natCast, unorder, hlen, hk, hidx, hpi]
  · rintro rfl
    refine ext_getElem (by simp [unorder, hlen, hj]) fun k hk hkj => ?_
    have hmem : (k : Int) ∈ axes :=
      (List.Perm.mem_iff h).mpr (mem_map.mpr ⟨k, mem_range.mpr (hj ▸ hkj), rfl⟩)
    have hidx : axes.idxOf (k : Int) < axes.length := idxOf_lt_length_of_mem hmem
    simp [unorder, hidx, axisOf_natCast, hkj]

theorem Reorders.into {S : List Int} (h : Reorders axes S.length) : (reordering S axes).Into S := by
  rintro i _ hi ⟨⟩
  have hil : i.length = S.length := by rw [← hi.length_eq, reordering, length_map, h.length_eq]
  have hjl : (unorder axes i).length = S.length := by simp [unorder, h.length_eq]
  rw [← (h.unorder_eq_iff hil hjl).mp rfl] at hi
  exact (h.forall₂_iff rfl hjl).mp hi

end Reorders

end Movement

/-! ## Views that select the same below -/

namespace View

open Movement

/-- The address of an index inside a view. -/
def position? (v : View Int) (i : List Int) : Option Int :=
  if v.Valid i then some (v.address i) else none

/-- A view that selects, at each index, what another does at the index below. -/
structure Moved (m : Movement) (v w : View Int) : Prop where
  canonical : w.Canonical
  shape : w.shape = m.shape
  position : ∀ i, IsIndex m.shape i → w.position? i = (m.source i).bind v.position?

variable {v : View Int} {mask : Option (List (Int × Int))} {S i : List Int}

theorem inside_getD_iff (hi : IsIndex S i) :
    Inside (mask.getD (S.map fun s => (0, s))) i ↔ ∀ ms, mask = some ms → Inside ms i := by
  cases mask with
  | none => simpa using inside_full hi
  | some ms => simp

theorem position?_canonical {st : List Int} {o : Int} (hi : IsIndex S i)
    (hmask : (mask.getD (S.map fun s => (0, s))).length = S.length) {x : Option Int}
    (hin : Inside (mask.getD (S.map fun s => (0, s))) i → x = some (o + dot st i))
    (hout : ¬Inside (mask.getD (S.map fun s => (0, s))) i → x = none) :
    (canonical S st o mask).position? i = x := by
  have hlen : ∀ ms, mask = some ms → ms.length = S.length := by
    rintro ms rfl
    exact hmask
  have hvalid := (@valid_canonical S st i o mask hi hlen).trans
    (inside_getD_iff hi).symm
  by_cases h : Inside (mask.getD (S.map fun s => (0, s))) i
  · rw [position?, if_pos (hvalid.mpr h), hin h, address_canonical hi ((inside_getD_iff hi).mp h)]
  · rw [position?, if_neg (mt hvalid.mp h), hout h]

theorem valid_iff_window (hi : IsIndex v.shape i) :
    v.Valid i ↔ Inside v.window i := (inside_getD_iff hi).symm

/-- The mask of a canonical view lies inside its axes. -/
theorem Canonical.axes_bounds (hv : v.Canonical) :
    ∀ a ∈ v.axes, 0 ≤ a.size ∧ 0 ≤ a.mask.1 ∧ a.mask.2 ≤ a.size := by
  intro a ha
  have hsize : 0 ≤ a.size := hv.nonneg _ (hv.axes_size ▸ mem_map_of_mem ha)
  by_cases h0 : 0 ∈ v.shape
  · rw [hv.axes_full (hv.empty h0).2 a ha]
    exact ⟨hsize, le_rfl, le_rfl⟩
  · obtain ⟨-, -, ⟨-, hmask, -⟩ | ⟨h1, -, h2, -⟩⟩ := hv.axes_canonical h0 a ha
    · rw [hmask]
      exact ⟨hsize, le_rfl, hsize⟩
    · exact ⟨hsize, h1, h2⟩

/-! ### One axis at a time -/

section Steps

variable {β : Type} (k : Movement.Kind β)

/-- A stride, a move of the offset and an interval of the mask that follow a kind of movement along
an axis. -/
structure Step (z : Axis × β) (st c : Int) (m : Int × Int) : Prop where
  bounds : 0 ≤ m.1 ∧ m.2 ≤ k.size (z.1.size, z.2)
  inside : ∀ d, 0 ≤ d → d < k.size (z.1.size, z.2) → (m.1 ≤ d ∧ d < m.2 ↔
    ∃ x, k.source (z.1.size, z.2) d = some x ∧ z.1.mask.1 ≤ x ∧ x < z.1.mask.2)
  address : ∀ d x, k.source (z.1.size, z.2) d = some x → c + st * d = z.1.stride * x

variable {k} {zs : List (Axis × β)} {st c : Axis × β → Int} {m : Axis × β → Int × Int}

theorem inside_each (h : ∀ z ∈ zs, Step k z (st z) (c z) (m z))
    (hi : IsIndex (zs.map fun z => k.size (z.1.size, z.2)) i) :
    Inside (zs.map m) i ↔ ∃ j, each (fun z => k.source (z.1.size, z.2)) zs i = some j ∧
      Inside (zs.map fun z => z.1.mask) j := by
  induction zs generalizing i with
  | nil =>
    cases hi
    simp [each]
  | cons z zs ih =>
    obtain ⟨d, ds, hd, hds, rfl⟩ := forall₂_cons_left_iff.mp hi
    have hz := (h z (by simp)).inside d hd.1 hd.2
    rw [map_cons, inside_cons, hz, ih (fun z hz => h z (by simp [hz])) hds]
    constructor
    · rintro ⟨⟨x, hx, hin⟩, js, hjs, hins⟩
      exact ⟨x :: js, each_cons_eq_some.mpr ⟨x, js, hx, hjs, rfl⟩, inside_cons.mpr ⟨hin, hins⟩⟩
    · rintro ⟨j, hj, hin⟩
      obtain ⟨x, js, hx, hjs, rfl⟩ := each_cons_eq_some.mp hj
      exact ⟨⟨x, hx, (inside_cons.mp hin).1⟩, js, hjs, (inside_cons.mp hin).2⟩

theorem dot_each (h : ∀ z ∈ zs, Step k z (st z) (c z) (m z)) {j : List Int}
    (hj : each (fun z => k.source (z.1.size, z.2)) zs i = some j) :
    (zs.map c).sum + dot (zs.map st) i = dot (zs.map fun z => z.1.stride) j := by
  induction zs generalizing i j with
  | nil =>
    cases i <;> cases hj
    rfl
  | cons z zs ih =>
    cases i with
    | nil => cases hj
    | cons d ds =>
      obtain ⟨x, js, hx, hjs, rfl⟩ := each_cons_eq_some.mp hj
      have hz := (h z (by simp)).address d x hx
      have hzs := ih (fun z hz => h z (by simp [hz])) hjs
      simp only [map_cons, sum_cons, dot_cons]
      linarith

end Steps

section Steps

variable {β : Type} {k : Movement.Kind β} {mv : Movement}

/-- The axes of a view with the arguments of a kind of movement. -/
structure Along (k : Movement.Kind β) (v : View Int) (xs : List β) (mv : Movement)
    (zs : List (Axis × β)) : Prop where
  eq : mv = ⟨zs.map fun z => k.size (z.1.size, z.2),
    each (fun z => k.source (z.1.size, z.2)) zs⟩
  args : xs = zs.map fun z => z.2
  shape : v.shape = zs.map fun z => z.1.size
  strides : v.strides = zs.map fun z => z.1.stride
  window : v.window = zs.map fun z => z.1.mask
  axis : ∀ z ∈ zs, z.1 ∈ v.axes
  admits : ∀ z ∈ zs, k.admits (z.1.size, z.2) = true

theorem Canonical.exists_along (hv : v.Canonical) {xs : List β}
    (hm : k.along? v.shape xs = some mv) : ∃ zs, Along k v xs mv zs := by
  obtain ⟨⟨hlen, hadms⟩, rfl⟩ := Movement.Kind.along?_eq_some.mp hm
  have haxes : xs.length = v.axes.length := by rw [hlen, ← hv.axes_size, length_map]
  have hmap {γ : Type} (f : Axis → γ) : v.axes.map f = (v.axes.zip xs).map fun z => f z.1 := by
    have := congrArg (map f) (map_fst_zip haxes.ge)
    rwa [map_map, eq_comm] at this
  have hzip : v.shape.zip xs = (v.axes.zip xs).map fun z => (z.1.size, z.2) := by
    rw [← hv.axes_size, zip_map_left]
    rfl
  refine ⟨v.axes.zip xs, ?_, (map_snd_zip haxes.le).symm, hmap _ ▸ hv.axes_size.symm,
    hmap _ ▸ hv.axes_stride.symm, hmap _ ▸ hv.axes_mask.symm, fun z hz => (of_mem_zip hz).1,
    fun z hz => hadms _ ?_⟩
  · rw [hzip, map_map, funext (each_map _)]
    rfl
  · rw [hzip]
    exact mem_map_of_mem hz

/-- **A kind of movement of a view**, from what it does along each axis. -/
theorem create_moved {xs : List β} {zs : List (Axis × β)} (hv : v.Canonical) (hk : k.Lawful)
    (hm : k.along? v.shape xs = some mv) (hz : Along k v xs mv zs) {st c : Axis × β → Int}
    {m : Axis × β → Int × Int} (h : ∀ z ∈ zs, Step k z (st z) (c z) (m z))
    {mask : Option (List (Int × Int))}
    (hmask : mask.getD (zs.map fun z => (0, k.size (z.1.size, z.2))) = zs.map m) :
    ∃ w, create ((zs.map fun z => k.size (z.1.size, z.2)).map .int) (some ((zs.map st).map .int))
        (.int (v.offset + (zs.map c).sum)) (mask.map (·.map pair)) = pure (toDim w) ∧
      Moved mv v w := by
  obtain ⟨hnn, hinto⟩ := hk.into hv.nonneg hm
  obtain ⟨rfl, -, -, hstrides, hwindow, -, -⟩ := hz
  dsimp only at hnn hinto ⊢
  have hms : ∀ ms, mask = some ms → Masks ms (zs.map fun z => k.size (z.1.size, z.2)) := by
    rintro ms rfl
    rw [Option.getD_some] at hmask
    rw [hmask]
    refine masks_of_bounds ?_
    rw [forall₂_map_left_iff, forall₂_map_right_iff, forall₂_same]
    exact fun z hz => (h z hz).bounds
  refine ⟨_, create_eq hnn (by simp) fun ms hms' => (hms ms hms').1,
    canonical_canonical hnn (by simp) hms, canonical_shape .., fun i hi => ?_⟩
  have hinside := inside_each h hi
  refine position?_canonical hi ?_ ?_ ?_ <;> rw [map_map, Function.comp_def, hmask]
  · simp
  · intro hin
    obtain ⟨j, hj, hinj⟩ := hinside.mp hin
    rw [← hwindow] at hinj
    have hdot := dot_each h hj
    rw [← hstrides] at hdot
    simp only [hj, Option.bind_some, position?, (valid_iff_window (hinto i j hi hj)).mpr hinj,
      if_true, address, add_assoc, hdot]
  · intro hout
    refine Option.bind_eq_none_iff.mpr fun j hj => if_neg fun hvalid => hout (hinside.mpr ⟨j, hj, ?_⟩)
    rw [← hwindow]
    exact (valid_iff_window (hinto i j hi hj)).mp hvalid

end Steps

/-! ### Padding and shrinking -/

section Resize

variable {α : Type} (zs : List α) (a : α → Axis) (x : α → Int × Int)

/-- What is left of the mask of an axis in a part of it. -/
def cut (m x : Int × Int) : Int × Int :=
  (max 0 (min (m.1 - x.1) (x.2 - x.1)), max 0 (min (m.2 - x.1) (x.2 - x.1)))

theorem mapM_begins : ((zs.map fun z => int (a z).stride).zip (zs.map fun z => pair (x z))).mapM
    (fun (s, b, _) => s.mul b) =
      (pure ((zs.map fun z => (a z).stride * (x z).1).map .int) : GraphM _) := by
  rw [zip_map', map_map]
  exact mapM_map_eq_pure fun z _ => mul_int _ _

theorem mapM_lengths : (zs.map fun z => pair (x z)).mapM (fun (b, e) => e.sub b) =
    (pure ((zs.map fun z => (x z).2 - (x z).1).map .int) : GraphM _) := by
  rw [map_map]
  exact mapM_map_eq_pure fun z _ => sub_int _ _

theorem mapM_cut : ((zs.map fun z => pair (a z).mask).zip (zs.map fun z => pair (x z))).mapM
    (fun ((mx, my), ax, ay) => do
      let w ← ay.sub ax
      let b ← largest [0, ← smallest [← mx.sub ax, w]]
      let w ← ay.sub ax
      let e ← largest [0, ← smallest [← my.sub ax, w]]
      return (b, e)) =
    (pure (zs.map fun z => pair (cut (a z).mask (x z))) : GraphM _) := by
  rw [zip_map']
  exact mapM_map_eq_pure fun z _ => rfl

theorem mapM_meet (f g : α → Int × Int) :
    ((zs.map fun z => pair (f z)).zip (zs.map fun z => pair (g z))).mapM
      (fun ((b1, e1), b2, e2) => do return (← largest [b1, b2], ← smallest [e1, e2])) =
    (pure (zs.map fun z => pair (max (f z).1 (g z).1, min (f z).2 (g z).2)) : GraphM _) := by
  rw [zip_map']
  exact mapM_map_eq_pure fun z _ => rfl

theorem resize_int (hst : v.strides = zs.map fun z => (a z).stride)
    (hw : v.window = zs.map fun z => (a z).mask) (new : Option (α → Int × Int)) :
    ∃ mask, v.toDim.resize (zs.map fun z => pair (x z))
        (new.map fun f => zs.map fun z => pair (f z)) =
      create ((zs.map fun z => (x z).2 - (x z).1).map .int) (some ((zs.map fun z => (a z).stride).map .int))
        (.int (v.offset + (zs.map fun z => (a z).stride * (x z).1).sum)) (mask.map (·.map pair)) ∧
      (v.mask = none → mask = new.map fun f => zs.map f) ∧
      (v.mask ≠ none → ∀ full, full.length = zs.length → mask.getD full =
        zs.map fun z => new.elim (cut (a z).mask (x z)) fun f =>
          (max (cut (a z).mask (x z)).1 (f z).1, min (cut (a z).mask (x z)).2 (f z).2)) := by
  have hstrides : v.toDim.strides = zs.map fun z => int (a z).stride := by
    rw [toDim_strides, hst, map_map]
    rfl
  have hshape := mapM_lengths zs x
  unfold resize
  rw [hstrides, mapM_begins, pure_bind, sum_int, pure_bind]
  cases hm : v.mask with
  | none =>
    refine ⟨new.map fun f => zs.map f, ?_, fun _ => rfl, fun h => absurd rfl h⟩
    rw [toDim_mask, hm]
    simp only [Option.map_none, pure_bind, hshape, toDim_offset, add_int]
    cases new <;> simp [Function.comp_def]
  | some ms =>
    have hms : ms = zs.map fun z => (a z).mask := by rw [← hw, window, hm, Option.getD_some]
    have hcut := mapM_cut zs a x
    have hboth := mapM_meet zs fun z => cut (a z).mask (x z)
    rw [toDim_mask, hm, hms, Option.map_some, map_map]
    cases zs with
    | nil =>
      refine ⟨new.map fun _ => [], ?_, by simp, fun _ full hfull => ?_⟩
      · cases new <;> rfl
      · rw [length_eq_zero_iff.mp hfull]
        cases new <;> rfl
    | cons z zs =>
      refine ⟨some ((z :: zs).map fun z => new.elim (cut (a z).mask (x z)) fun f =>
        (max (cut (a z).mask (x z)).1 (f z).1, min (cut (a z).mask (x z)).2 (f z).2)), ?_, by simp,
        fun _ _ _ => rfl⟩
      simp only [map_cons, Function.comp_def] at hcut hboth hshape ⊢
      cases new <;>
        simp only [Option.map_none, Option.map_some, hcut, hboth, pure_bind, hshape, toDim_offset,
          add_int, map_cons, map_map] <;>
        rfl

end Resize

/-- A choice among the items of a list that neither fails nor looks at the store. -/
theorem filterMapM_map_eq_pure {α β γ : Type} {xs : List α} {f : α → β} {p : β → GraphM (Option γ)}
    {q : α → Option γ} (h : ∀ x ∈ xs, p (f x) = pure (q x)) :
    (xs.map f).filterMapM p = pure (xs.filterMap q) := by
  induction xs with
  | nil => simp
  | cons x xs ih =>
    rw [map_cons, filterMapM_cons, h x (by simp), ih fun y hy => h y (by simp [hy]),
      filterMap_cons, pure_bind]
    cases q x <;> simp

/-- A loop that only checks its items. -/
theorem forIn_checks {α : Type} {xs : List α} {f : α → PUnit → GraphM (ForInStep PUnit)}
    (h : ∀ x ∈ xs, f x ⟨⟩ = pure (.yield ⟨⟩)) : forIn xs PUnit.unit f = pure ⟨⟩ := by
  induction xs with
  | nil => rfl
  | cons x xs ih =>
    rw [forIn_cons, h x (by simp), pure_bind]
    exact ih fun y hy => h y (by simp [hy])

/-- After a loop that checks its items, every item has passed. -/
theorem ensures_checks {α β : Type} {env : Env} {s : Store} {xs : List α} {g : α → β}
    {P : α → Prop} {f : β → PUnit → GraphM (ForInStep PUnit)}
    (h : ∀ x ∈ xs, ∀ s, Ensures True env s (f (g x) ⟨⟩) fun r _ => r = .yield ⟨⟩ ∧ P x) :
    Ensures True env s (forIn (xs.map g) PUnit.unit f) fun _ _ => ∀ x ∈ xs, P x := by
  induction xs generalizing s with
  | nil => exact .pure (by simp)
  | cons x xs ih =>
    rw [map_cons, forIn_cons]
    refine .bind ((h x (by simp) s).mono ?_)
    rintro _ t ⟨rfl, hx⟩
    refine (ih fun y hy => h y (by simp [hy])).mono fun _ _ hxs => ?_
    simpa using ⟨hx, hxs⟩

section Moves

variable {mv : Movement}

theorem shrink_eq_resize {α : Type} (zs : List α) (a : α → Axis) (x : α → Int × Int)
    (hshape : v.shape = zs.map fun z => (a z).size)
    (h : ∀ z ∈ zs, 0 ≤ (x z).1 ∧ (x z).1 ≤ (x z).2 ∧ (x z).2 ≤ (a z).size) :
    v.toDim.shrink (zs.map fun z => pair (x z)) =
      v.toDim.resize (zs.map fun z => pair (x z)) none := by
  unfold shrink
  rw [if_neg (by simp [hshape])]
  dsimp only
  rw [forIn_checks, pure_bind]
  rw [toDim_shape, hshape, map_map, zip_map']
  intro y hy
  obtain ⟨z, hz, rfl⟩ := mem_map.mp hy
  simp [pair, h z hz]

/-- **A part of a view.** -/
theorem shrink_spec (hv : v.Canonical) {xs : List (Int × Int)}
    (hm : shrinking.along? v.shape xs = some mv) :
    ∃ w, v.toDim.shrink (xs.map pair) = pure (toDim w) ∧ Moved mv v w := by
  obtain ⟨zs, hz⟩ := hv.exists_along hm
  have hadm : ∀ z ∈ zs, 0 ≤ z.2.1 ∧ z.2.1 ≤ z.2.2 ∧ z.2.2 ≤ z.1.size := fun z hmem => by
    simpa only [shrinking, decide_eq_true_iff] using hz.admits z hmem
  have hxs : xs.map pair = zs.map fun z => pair z.2 := by
    rw [hz.args, map_map]
    rfl
  have hcheck := shrink_eq_resize zs Prod.fst Prod.snd hz.shape hadm
  have hsteps : ∀ z ∈ zs, Step shrinking z z.1.stride (z.1.stride * z.2.1)
      (cut z.1.mask z.2) := by
    rintro ⟨⟨s, t, m⟩, b, e⟩ hmem
    have hb := hadm _ hmem
    dsimp only at hb
    refine ⟨?_, fun d h0 h1 => ?_, fun d x hx => ?_⟩
    · simp only [cut, shrinking]
      omega
    · simp only [cut, shrinking, Option.some.injEq, exists_eq_left'] at h1 ⊢
      omega
    · cases hx
      ring
  obtain ⟨mask, hrun, hnone, hsome⟩ := resize_int zs Prod.fst Prod.snd hz.strides hz.window none
  have hmask : mask.getD (zs.map fun z => (0, z.2.2 - z.2.1)) = zs.map fun z => cut z.1.mask z.2 := by
    cases hmask : v.mask with
    | none =>
      rw [hnone hmask]
      refine map_congr_left fun z hmem => ?_
      have := hadm z hmem
      simp only [cut, hv.axes_full hmask _ (hz.axis z hmem), Prod.mk.injEq]
      omega
    | some ms => exact hsome (by simp [hmask]) _ (by simp)
  obtain ⟨w, hw, hmoved⟩ := create_moved hv lawful_shrinking hm hz hsteps hmask
  exact ⟨w, by rw [hxs, hcheck]; exact hrun.trans hw, hmoved⟩

section Pads

variable (zs : List (Axis × Int × Int))

theorem anyM_pads : (zs.map fun z => pair z.2).anyM (fun (b, e) => do
    if ← b.differs 0 then return true
    e.differs 0) = (pure (zs.any fun z => z.2.1 ≠ 0 ∨ z.2.2 ≠ 0) : GraphM Bool) := by
  refine anyM_map_eq_pure fun z _ => ?_
  by_cases h : z.2.1 = 0 <;> simp [pair, h]

theorem mapM_padded : (zs.map fun z => (int z.1.size, pair z.2)).mapM
    (fun (s, b, e) => do return (← b.neg, ← s.add e)) =
    (pure (zs.map fun z => pair (-z.2.1, z.1.size + z.2.2)) : GraphM _) :=
  mapM_map_eq_pure fun _ _ => rfl

theorem mapM_unpadded : (zs.map fun z => (int z.1.size, pair z.2)).mapM
    (fun (s, b, _) => do return (b, ← s.add b)) =
    (pure (zs.map fun z => pair (z.2.1, z.1.size + z.2.1)) : GraphM _) :=
  mapM_map_eq_pure fun _ _ => rfl

end Pads

/-- **A view with zeros around it.** -/
theorem pad_spec (hv : v.Canonical) {xs : List (Int × Int)}
    (hm : padding.along? v.shape xs = some mv) :
    ∃ w, v.toDim.pad (xs.map pair) = pure (toDim w) ∧ Moved mv v w := by
  obtain ⟨zs, hz⟩ := hv.exists_along hm
  have hadm : ∀ z ∈ zs, 0 ≤ z.2.1 ∧ 0 ≤ z.2.2 := fun z hmem => by
    simpa only [padding, decide_eq_true_iff] using hz.admits z hmem
  have hxs : xs.map pair = zs.map fun z => pair z.2 := by
    rw [hz.args, map_map]
    rfl
  have hzip : v.toDim.shape.zip (xs.map pair) =
      zs.map fun z => (int z.1.size, pair z.2) := by
    rw [toDim_shape, hz.shape, hxs, map_map, zip_map']
    rfl
  unfold pad
  rw [if_neg (by simp [hz.args, hz.shape])]
  dsimp only
  rw [forIn_checks, pure_bind, hxs, anyM_pads, pure_bind, ← hxs, hzip]
  · cases hnonzero : zs.any fun z => z.2.1 ≠ 0 ∨ z.2.2 ≠ 0 with
    | true =>
      obtain ⟨mask, hrun, hnone, hsome⟩ := resize_int zs Prod.fst
        (fun z => (-z.2.1, z.1.size + z.2.2)) hz.strides hz.window
        (some fun z => (z.2.1, z.1.size + z.2.1))
      have hmask : mask.getD (zs.map fun z => (0, z.1.size + z.2.1 + z.2.2)) = zs.map fun z =>
          (max (cut z.1.mask (-z.2.1, z.1.size + z.2.2)).1 z.2.1,
            min (cut z.1.mask (-z.2.1, z.1.size + z.2.2)).2 (z.1.size + z.2.1)) := by
        cases hmask : v.mask with
        | none =>
          rw [hnone hmask]
          refine map_congr_left fun z hmem => ?_
          have := hadm z hmem
          have := (hv.axes_bounds _ (hz.axis z hmem)).1
          simp only [cut, hv.axes_full hmask _ (hz.axis z hmem), Prod.mk.injEq]
          omega
        | some ms => exact hsome (by simp [hmask]) _ (by simp)
      have hsteps : ∀ z ∈ zs, Step padding z z.1.stride (z.1.stride * -z.2.1)
          (max (cut z.1.mask (-z.2.1, z.1.size + z.2.2)).1 z.2.1,
            min (cut z.1.mask (-z.2.1, z.1.size + z.2.2)).2 (z.1.size + z.2.1)) := by
        rintro ⟨⟨s, t, m⟩, b, e⟩ hmem
        obtain ⟨hb, he⟩ := hadm _ hmem
        dsimp only at hb he
        refine ⟨?_, fun d h0 h1 => ?_, fun d x hx => ?_⟩
        · simp only [cut, padding]
          omega
        · simp only [cut, padding, Option.ite_none_right_eq_some, Option.some.injEq] at h1 ⊢
          exact ⟨fun h => ⟨d - b, by omega⟩, by rintro ⟨x, hx⟩; omega⟩
        · simp only [padding, Option.ite_none_right_eq_some, Option.some.injEq] at hx
          rw [← hx.2]
          ring
      have hsize : (zs.map fun z => z.1.size + z.2.2 - -z.2.1) =
          zs.map fun z => z.1.size + z.2.1 + z.2.2 := map_congr_left fun z _ => by ring
      rw [hsize] at hrun
      obtain ⟨w, hw, hmoved⟩ := create_moved hv lawful_padding hm hz hsteps hmask
      rw [Bool.not_true, if_neg Bool.false_ne_true, mapM_padded, pure_bind, mapM_unpadded, pure_bind]
      exact ⟨w, hrun.trans hw, hmoved⟩
    | false =>
      -- nothing is added
      have hzero : ∀ z ∈ zs, z.2.1 = 0 ∧ z.2.2 = 0 := fun z hmem => by
        simpa using any_eq_false.mp hnonzero z hmem
      refine ⟨v, rfl, hv, ?_, fun i hi => ?_⟩
      · rw [hz.eq, hz.shape]
        exact map_congr_left fun z hmem => by simp [padding, hzero z hmem]
      · rw [hz.eq] at hi ⊢
        dsimp only
        rw [each_self (fun z hmem d h0 h1 => ?_) hi, Option.bind_some]
        simp only [padding, hzero z hmem, add_zero, sub_zero] at h1 ⊢
        exact if_pos ⟨h0, h1⟩
  · intro x hx
    rw [hxs] at hx
    obtain ⟨z, hmem, rfl⟩ := mem_map.mp hx
    simp [pair, hadm z hmem]

/-- The mask of an axis that may be backwards. -/
def turned (z : Axis × Bool) : Int × Int :=
  if z.2 then (z.1.size - z.1.mask.2, z.1.size - z.1.mask.1) else z.1.mask

section Turns

variable (zs : List (Axis × Bool))

theorem filterMapM_ends : ((zs.map fun z => (int z.1.size, int z.1.stride, z.2)).filterMapM
    fun (s, z, f) => do if f then return some (← (← s.sub 1).mul z) else return none) =
    (pure ((zs.filterMap fun z => if z.2 then some ((z.1.size - 1) * z.1.stride) else none).map
      int) : GraphM _) := by
  rw [map_filterMap]
  refine filterMapM_map_eq_pure fun z _ => ?_
  cases z.2 <;> simp

theorem mapM_turned (hw : v.window = zs.map fun z => z.1.mask) :
    (v.toDim.mask.mapM fun ms => (ms.zip (zs.map fun z => (int z.1.size, z.2))).mapM
      fun ((b, e), s, f) => do if f then return (← s.sub e, ← s.sub b) else return (b, e)) =
    (pure ((v.mask.map fun _ => zs.map turned).map (·.map pair)) : GraphM _) := by
  cases hm : v.mask with
  | none => simp [hm]
  | some ms =>
    have hms : ms = zs.map fun z => z.1.mask := by rw [← hw, window, hm, Option.getD_some]
    rw [toDim_mask, hm, hms, Option.map_some, map_map, Option.mapM_some, zip_map',
      mapM_map_eq_pure (q := fun z => pair (turned z)), Option.map_some, Option.map_some,
      map_map]
    · rfl
    · intro z _
      cases h : z.2 <;> simp [h, turned, pair]

theorem mapM_backwards : ((zs.map fun z => (int z.1.stride, z.2)).mapM fun (z, f) =>
    if f then z.neg else pure z) = (pure ((zs.map fun z =>
      if z.2 then -z.1.stride else z.1.stride).map int) : GraphM _) := by
  rw [map_map]
  refine mapM_map_eq_pure fun z _ => ?_
  cases h : z.2 <;> simp [h]

end Turns

/-- **A view with some axes backwards.** -/
theorem flip_spec (hv : v.Canonical) {xs : List Bool}
    (hm : flipping.along? v.shape xs = some mv) :
    ∃ w, v.toDim.flip xs = pure (toDim w) ∧ Moved mv v w := by
  obtain ⟨zs, hz⟩ := hv.exists_along hm
  have hsteps : ∀ z ∈ zs, Step flipping z
      (if z.2 then -z.1.stride else z.1.stride)
      (if z.2 then (z.1.size - 1) * z.1.stride else 0)
      (turned z) := by
    rintro ⟨⟨s, t, m⟩, f⟩ hmem
    have hbounds := hv.axes_bounds _ (hz.axis _ hmem)
    dsimp only at hbounds
    refine ⟨?_, fun d h0 h1 => ?_, fun d x hx => ?_⟩
    · simp only [flipping, turned]
      split_ifs <;> omega
    · simp only [flipping, turned, Option.some.injEq, exists_eq_left'] at h1 ⊢
      split_ifs <;> omega
    · simp only [flipping, Option.some.injEq] at hx
      split_ifs at hx ⊢ <;> subst hx <;> ring
  have hsum : (zs.filterMap fun z => if z.2 then some ((z.1.size - 1) * z.1.stride) else none).sum =
      (zs.map fun z => if z.2 then (z.1.size - 1) * z.1.stride else 0).sum := by
    clear * -
    induction zs with
    | nil => rfl
    | cons z zs ih => cases h : z.2 <;> simp [h, ih]
  have hwindow : (v.mask.map fun _ => zs.map turned).getD (zs.map fun z => (0, z.1.size)) =
      zs.map turned := by
    cases hmask : v.mask with
    | none =>
      refine map_congr_left fun z hmem => ?_
      simp [turned, hv.axes_full hmask _ (hz.axis z hmem)]
    | some ms => rfl
  obtain ⟨w, hw, hmoved⟩ := create_moved hv lawful_flipping hm hz hsteps hwindow
  refine ⟨w, ?_, hmoved⟩
  rw [← hw, flip, hz.args, toDim_shape, toDim_strides, hz.shape, hz.strides, map_map, map_map,
    zip_map', zip_map', zip_map']
  simp only [Function.comp_def]
  rw [filterMapM_ends, pure_bind, sum_int, pure_bind, mapM_turned zs hz.window, pure_bind,
    mapM_backwards, pure_bind, hsum, toDim_offset, add_int, pure_bind]
  simp only [map_map, Function.comp_def]
  rfl

/-- The mask of an axis that may be repeated. -/
def stretched (z : Axis × Int) : Int × Int :=
  if z.1.size = z.2 then z.1.mask else if z.1.mask = (0, 1) then (0, z.2) else (0, 0)

section Stretches

variable {zs : List (Axis × Int)}

theorem all_stretches (h : ∀ z ∈ zs, z.1.size = z.2 ∨ z.1.size = 1) :
    (zs.map fun z => (int z.1.size, int z.2)).all (fun (s, n) => s == n || s == 1) = true := by
  rw [all_map, all_eq_true]
  intro z hmem
  simpa using h z hmem

theorem mapM_stretched (h : ∀ z ∈ zs, z.1.size = z.2 ∨ z.1.size = 1) :
    (((zs.map fun z => pair z.1.mask).zip (zs.map fun z =>
      (int z.1.size, int z.2))).mapM fun (m, s, n) => do
        if ← s.differs n then
          if s == 1 then return if m == ((0 : Dim), (1 : Dim)) then ((0 : Dim), n) else (0, 0)
        return m) = (pure (zs.map fun z => pair (stretched z)) : GraphM _) := by
  rw [zip_map']
  refine mapM_map_eq_pure fun z hmem => ?_
  obtain ⟨⟨s, t, a, b⟩, n⟩ := z
  have hn := h _ hmem
  dsimp only at hn
  have hbeq (a b : Int) : ((int a, int b) == (int 0, int 1)) =
      decide (a = 0 ∧ b = 1) := by
    rw [Bool.decide_and]
    rfl
  by_cases h : s = n
  · simp [stretched, pair, h]
  · obtain rfl := hn.resolve_left h
    by_cases h' : a = 0 ∧ b = 1 <;> simp [stretched, pair, h, h', hbeq]

end Stretches

/-- **A view with axes of size one repeated.** -/
theorem expand_spec (hv : v.Canonical) {xs : List Int}
    (hm : expanding.along? v.shape xs = some mv) :
    ∃ w, v.toDim.expand (xs.map int) = pure (toDim w) ∧ Moved mv v w := by
  obtain ⟨zs, hz⟩ := hv.exists_along hm
  have hadm : ∀ z ∈ zs, 0 ≤ z.2 ∧ (z.1.size = z.2 ∨ z.1.size = 1) := fun z hmem => by
    simpa only [expanding, decide_eq_true_iff] using hz.admits z hmem
  have hsteps : ∀ z ∈ zs, Step expanding z z.1.stride 0 (stretched z) := by
    rintro ⟨⟨s, t, m⟩, n⟩ hmem
    have hn := hadm _ hmem
    have hbounds := hv.axes_bounds _ (hz.axis _ hmem)
    have hunit := hv.axes_unit _ (hz.axis _ hmem)
    dsimp only at hn hbounds hunit
    refine ⟨?_, fun d h0 h1 => ?_, fun d x hx => ?_⟩
    · simp only [expanding, stretched]
      split_ifs <;> omega
    · obtain ⟨m1, m2⟩ := m
      simp only [expanding, stretched, Option.some.injEq, exists_eq_left',
        Prod.mk.injEq] at h1 hbounds ⊢
      split_ifs <;> omega
    · simp only [expanding, Option.some.injEq] at hx
      split_ifs at hx with h
      · rw [hunit h]
        ring
      · rw [hx, zero_add]
  have hshape : v.toDim.shape.zip (xs.map .int) = zs.map fun z => (int z.1.size, int z.2) := by
    rw [toDim_shape, hz.shape, hz.args, map_map, map_map, zip_map']
    rfl
  have hcreate : ∀ mask : Option (List (Int × Int)),
      mask.getD (zs.map fun z => (0, z.2)) = zs.map stretched →
        ∃ w, create (xs.map .int) (some v.toDim.strides) v.toDim.offset (mask.map (·.map pair)) =
          pure (toDim w) ∧ Moved mv v w := by
    intro mask hmask
    have := create_moved hv lawful_expanding hm hz hsteps hmask
    rw [map_const', sum_replicate, smul_zero, add_zero] at this
    rw [toDim_strides, hz.strides, hz.args]
    exact this
  have hmasks := mapM_stretched fun z hmem => (hadm z hmem).2
  unfold expand
  rw [if_neg (by simp [hz.args, hz.shape]), if_neg (by
    rw [hshape, all_stretches fun z hmem => (hadm z hmem).2]
    decide), toDim_shape, ofNat_eq,
    Nat.cast_zero, contains_int]
  by_cases h0 : 0 ∈ v.shape
  · -- there are no indices
    have hnn := (lawful_expanding.into hv.nonneg hm).1
    have hxs : mv.shape = xs := by rw [hz.eq, hz.args]; rfl
    rw [if_pos (by simpa using h0), ← hxs]
    refine ⟨_, create_dense hnn, canonical_dense hnn, canonical_shape .., fun i hi => ?_⟩
    rw [hz.shape] at h0
    obtain ⟨z, hmem, hzero⟩ := mem_map.mp h0
    refine absurd ?_ (not_mem_zero_of_isIndex hi)
    rw [hxs, hz.args]
    have := hadm z hmem
    exact mem_map.mpr ⟨z, hmem, by omega⟩
  · rw [if_neg (by simpa using h0), ← toDim_shape, hshape, toDim_mask]
    cases hmask : v.mask with
    | none =>
      refine hcreate none (map_congr_left fun z hmem => ?_)
      have hfull := hv.axes_full hmask _ (hz.axis z hmem)
      obtain ⟨-, h | h⟩ := hadm z hmem
      · simp [stretched, hfull, h]
      · by_cases h' : z.1.size = z.2 <;> simp [stretched, hfull, h', ← h]
    | some ms =>
      have hms : ms = zs.map fun z => z.1.mask := by rw [← hz.window, window, hmask, Option.getD_some]
      rw [hms, Option.map_some, map_map]
      clear hsteps hshape hz
      cases zs with
      | nil => exact hcreate none rfl
      | cons z zs =>
        simp only [map_cons, Function.comp_def, ofNat_eq, Nat.cast_zero,
          Nat.cast_one] at hmasks ⊢
        rw [hmasks, pure_bind, pure_bind]
        simpa [Function.comp_def] using hcreate (some ((z :: zs).map stretched)) rfl

/-- **A view with its axes in another order.** -/
theorem permute_spec (hv : v.Canonical) {axes : List Int}
    (h : Movement.Reorders axes v.shape.length) :
    ∃ w, v.toDim.permute axes = pure (toDim w) ∧ Moved (.reordering v.shape axes) v w := by
  have hlen := h.length_eq
  have hnn := h.nonneg hv.nonneg
  have hmask : ∀ ms, v.mask = some ms → ms.length = v.shape.length ∧
      Masks (axes.map (axisOf ms)) (axes.map (axisOf v.shape)) := by
    intro ms hms
    have hw : v.window = ms := by rw [window, hms, Option.getD_some]
    have hl := hw ▸ hv.length_window
    refine ⟨hl, masks_of_bounds ((h.forall₂_iff hl rfl).mpr ?_)⟩
    rw [← hw, ← hv.axes_mask, ← hv.axes_size, forall₂_map_left_iff, forall₂_map_right_iff,
      forall₂_same]
    exact fun a ha => (hv.axes_bounds a ha).2
  have hms : ∀ ms, v.mask.map (fun ms => axes.map (axisOf ms)) = some ms →
      Masks ms (axes.map (axisOf v.shape)) := by
    intro ms h
    obtain ⟨ms', hms', rfl⟩ := Option.map_eq_some_iff.mp h
    exact (hmask ms' hms').2
  refine ⟨canonical (axes.map (axisOf v.shape)) (axes.map (axisOf v.strides)) v.offset
    (v.mask.map fun ms => axes.map (axisOf ms)), ?_, canonical_canonical hnn (by simp) hms,
    canonical_shape .., fun i hi => ?_⟩
  · rw [← create_eq hnn (by simp) fun ms h => (hms ms h).1, permute, if_neg]
    · rw [toDim_shape, toDim_strides, h.map_axisOf rfl, h.map_axisOf hv.length_strides, toDim_mask]
      cases hm : v.mask with
      | none => rfl
      | some ms => rw [Option.map_some, Option.map_some, h.map_axisOf (hmask ms hm).1]; rfl
    · simp [h.mergeSort_eq]
  · have hil : i.length = v.shape.length := by
      rw [← hi.length_eq, reordering, length_map, hlen]
    obtain ⟨j, hj⟩ : ∃ j, unorder axes i = j := ⟨_, rfl⟩
    have hjl : j.length = v.shape.length := by rw [← hj, unorder]; simp [hlen]
    obtain rfl := (h.unorder_eq_iff hil hjl).mp hj
    dsimp only [reordering] at hi
    change _ = (some (unorder axes _)).bind _
    rw [hj, Option.bind_some]
    have hinside : (∀ ms, v.mask.map (fun ms => axes.map (axisOf ms)) = some ms →
        Inside ms (axes.map (axisOf j))) ↔ v.Valid j := by
      cases hm : v.mask with
      | none => simp [Valid, hm]
      | some ms =>
        simp only [Valid, hm, Option.map_some, Option.some.injEq, forall_eq']
        exact h.forall₂_iff (hmask ms hm).1 hjl
    have hvalid := (@valid_canonical _ (axes.map (axisOf v.strides)) _ v.offset _ hi
      fun ms h => (hms ms h).1).trans hinside
    by_cases hin : v.Valid j
    · rw [position?, position?, if_pos hin, if_pos (hvalid.mpr hin),
        address_canonical hi (hinside.mpr hin), h.dot_eq hv.length_strides hjl, address]
    · rw [position?, position?, if_neg hin, if_neg (mt hvalid.mp hin)]

end Moves

/-! ### What movements refuse -/

section Refusals

variable {env : Env} {s : Store}

theorem pad_accepts (xs : List (Int × Int)) :
    Ensures True env s (v.toDim.pad (xs.map pair))
      fun _ _ => ∃ m, padding.along? v.shape xs = some m := by
  unfold pad
  refine .ite (fun _ => .bind (.throw trivial)) fun hlen => ?_
  refine .bind ((ensures_checks (P := fun x => 0 ≤ x.1 ∧ 0 ≤ x.2) ?_).mono fun _ _ hxs => ?_)
  · rintro ⟨b, e⟩ - s
    refine .ite (fun _ => .bind (.throw trivial)) fun h => .pure ⟨rfl, ?_⟩
    simpa using h
  · refine .of_forall fun _ _ _ => Movement.Kind.exists_along (by simpa using hlen) fun z hz => ?_
    simpa [padding] using hxs z.2 (of_mem_zip hz).2

theorem shrink_accepts (xs : List (Int × Int)) :
    Ensures True env s (v.toDim.shrink (xs.map pair))
      fun _ _ => ∃ m, shrinking.along? v.shape xs = some m := by
  unfold shrink
  refine .ite (fun _ => .bind (.throw trivial)) fun hlen => ?_
  rw [toDim_shape, zip_map]
  refine .bind ((ensures_checks (P := fun z => 0 ≤ z.2.1 ∧ z.2.1 ≤ z.2.2 ∧ z.2.2 ≤ z.1) ?_).mono
    fun _ _ hxs => ?_)
  · rintro ⟨s, b, e⟩ - t
    refine .ite (fun _ => .bind (.throw trivial)) fun h => .pure ⟨rfl, ?_⟩
    simpa [and_assoc] using h
  · refine .of_forall fun _ _ _ => Movement.Kind.exists_along (by simpa using hlen) fun z hz => ?_
    simpa [shrinking] using hxs z hz

theorem create_accepts {S : List Int} {st : Option (List Dim)} {o : Dim}
    {mask : Option (List (Dim × Dim))} :
    Ensures True env s (create (S.map .int) st o mask) fun _ _ => ∀ s ∈ S, 0 ≤ s := by
  unfold create
  rw [allM_map_eq_pure (q := fun s => decide (s ≥ 0)) fun s _ => by simp, pure_bind]
  refine .ite (fun _ => .bind (.throw trivial)) fun h => .of_forall fun _ _ _ => ?_
  simpa using h

theorem expand_accepts (xs : List Int) : Ensures True env s (v.toDim.expand (xs.map .int))
    fun _ _ => ∃ m, expanding.along? v.shape xs = some m := by
  unfold expand
  refine .ite (fun _ => .bind (.throw trivial)) fun hlen => ?_
  refine .ite (fun _ => .bind (.throw trivial)) fun hall => ?_
  have hok (hnn : ∀ n ∈ xs, 0 ≤ n) : ∃ m, expanding.along? v.shape xs = some m := by
    refine Movement.Kind.exists_along (by simpa using hlen) fun z hz => ?_
    rw [Bool.not_eq_true, Bool.not_eq_false', toDim_shape, zip_map, all_map,
      all_eq_true] at hall
    simpa [expanding, hnn z.2 (of_mem_zip hz).2] using hall z hz
  refine .ite (fun _ => create_accepts.mono fun _ _ => hok) fun _ => ?_
  split
  all_goals exact .bind (.of_forall fun _ _ _ => create_accepts.mono fun _ _ => hok)

theorem permute_accepts (axes : List Int) : Ensures True env s (v.toDim.permute axes)
    fun _ _ => Movement.Reorders axes v.shape.length := by
  unfold permute
  refine .ite (fun _ => .bind (.throw trivial)) fun h => .of_forall fun _ _ _ => ?_
  have h : axes.mergeSort (· ≤ ·) = (range v.shape.length).map Int.ofNat := by simpa using h
  rw [Movement.Reorders, ← h]
  exact (mergeSort_perm ..).symm

end Refusals

/-- A computation gives a view that is moved as a movement says, or fails where there is none. -/
structure Follows (m? : Option Movement) (v : View Int) (x : GraphM (View Dim)) : Prop where
  moves : ∀ m, m? = some m → m.Into v.shape ∧ ∃ w, x = pure (toDim w) ∧ Moved m v w
  refuses : m? = none → ∀ env s w t, x env s ≠ .ok w t

theorem Follows.of_kind {β : Type} {k : Movement.Kind β} (hk : k.Lawful) {v : View Int}
    (hv : v.Canonical) {xs : List β} {x : GraphM (View Dim)}
    (hmoves : ∀ m, k.along? v.shape xs = some m → ∃ w, x = pure (toDim w) ∧ Moved m v w)
    (haccepts : ∀ env s, Ensures True env s x fun _ _ => ∃ m, k.along? v.shape xs = some m) :
    Follows (k.along? v.shape xs) v x := by
  refine ⟨fun m hm => ⟨(hk.into hv.nonneg hm).2, hmoves m hm⟩, fun hnone env s w t hrun => ?_⟩
  obtain ⟨m, hm⟩ := (haccepts env s).of_ok hrun
  rw [hnone] at hm
  cases hm

section Canonical

variable {v : View Int} (hv : v.Canonical)

include hv

theorem Canonical.follows_pad (xs : List (Int × Int)) :
    Follows (Movement.padding.along? v.shape xs) v (v.toDim.pad (xs.map Dim.pair)) :=
  .of_kind Movement.lawful_padding hv (fun _ => pad_spec hv) fun _ _ => pad_accepts xs

theorem Canonical.follows_shrink (xs : List (Int × Int)) :
    Follows (Movement.shrinking.along? v.shape xs) v (v.toDim.shrink (xs.map Dim.pair)) :=
  .of_kind Movement.lawful_shrinking hv (fun _ => shrink_spec hv) fun _ _ => shrink_accepts xs

theorem Canonical.follows_expand (xs : List Int) :
    Follows (Movement.expanding.along? v.shape xs) v (v.toDim.expand (xs.map .int)) :=
  .of_kind Movement.lawful_expanding hv (fun _ => expand_spec hv) fun _ _ => expand_accepts xs

theorem Canonical.follows_permute (xs : List Int) :
    Follows (if Movement.Reorders xs v.shape.length then some (.reordering v.shape xs) else none) v
      (v.toDim.permute xs) := by
  refine ⟨fun m hm => ?_, fun hnone env s w t hrun => ?_⟩
  · obtain ⟨h, ⟨⟩⟩ := Option.ite_none_right_eq_some.mp hm
    exact ⟨h.into, permute_spec hv h⟩
  · rw [if_pos ((permute_accepts xs).of_ok hrun)] at hnone
    cases hnone

theorem Canonical.follows_flip {flags : List Bool} (hlen : flags.length = v.shape.length) :
    Follows (Movement.flipping.along? v.shape flags) v (v.toDim.flip flags) :=
  .of_kind Movement.lawful_flipping hv (fun _ => flip_spec hv) fun _ _ =>
    .of_forall fun _ _ _ => Movement.Kind.exists_along hlen fun _ _ => rfl

end Canonical

/-- What `View.create` returns is moved as its indices are. -/
theorem Parts.follows (a : Parts) :
    (∀ xs : List (Int × Int),
      Follows (Movement.padding.along? a.shape xs) a.view (do (← a.create).pad (xs.map Dim.pair)) ∧
      Follows (Movement.shrinking.along? a.shape xs) a.view
        (do (← a.create).shrink (xs.map Dim.pair))) ∧
    (∀ xs : List Int,
      Follows (Movement.expanding.along? a.shape xs) a.view (do (← a.create).expand (xs.map .int)) ∧
      Follows (if Movement.Reorders xs a.shape.length then some (.reordering a.shape xs) else none)
        a.view (do (← a.create).permute xs)) ∧
    ∀ flags : List Bool, flags.length = a.shape.length →
      Follows (Movement.flipping.along? a.shape flags) a.view (do (← a.create).flip flags) := by
  have hv := a.canonical_view
  simp only [a.create_view, pure_bind, ← a.shape_view]
  exact ⟨fun xs => ⟨hv.follows_pad xs, hv.follows_shrink xs⟩,
    fun xs => ⟨hv.follows_expand xs, hv.follows_permute xs⟩, fun _ => hv.follows_flip⟩

/-- **Movements of views are their maps of indices.**  Padding, shrinking, expanding, reordering and
flipping a canonical view give a canonical view of the moved shape that is valid at an index exactly
when the index below is there and the view is valid at it, and that has the same address there. -/
theorem movements_follow_indices {v : View Int} (hv : v.Canonical) :
    (∀ xs : List (Int × Int),
      Follows (Movement.padding.along? v.shape xs) v (v.toDim.pad (xs.map Dim.pair)) ∧
      Follows (Movement.shrinking.along? v.shape xs) v (v.toDim.shrink (xs.map Dim.pair))) ∧
    (∀ xs : List Int,
      Follows (Movement.expanding.along? v.shape xs) v (v.toDim.expand (xs.map .int)) ∧
      Follows (if Movement.Reorders xs v.shape.length then some (.reordering v.shape xs) else none) v
        (v.toDim.permute xs)) ∧
    ∀ flags : List Bool, flags.length = v.shape.length →
      Follows (Movement.flipping.along? v.shape flags) v (v.toDim.flip flags) := by
  refine ⟨fun xs => ⟨?_, ?_⟩, fun xs => ⟨?_, ?_⟩, fun flags hlen => ?_⟩
  · exact hv.follows_pad xs
  · exact hv.follows_shrink xs
  · exact hv.follows_expand xs
  · exact hv.follows_permute xs
  · exact hv.follows_flip hlen

/-- Padding in front of the backward axis of `pinned`, and one pad too few. -/
theorem movements_follow_indices_pinned :
    pinned.Canonical ∧
      (∃ m, Movement.padding.along? pinned.shape [(1, 0), (0, 0), (0, 2)] = some m ∧
        m.shape = [5, 3, 4] ∧ m.source [4, 1, 1] = some [3, 1, 1] ∧ m.source [0, 1, 1] = none ∧
        ∃ w, pinned.toDim.pad ([(1, 0), (0, 0), (0, 2)].map Dim.pair) = pure (toDim w) ∧
          w.position? [4, 1, 1] = some 5 ∧ w.position? [0, 1, 1] = none) ∧
      ∀ env s w t, pinned.toDim.pad ([(1, 0), (0, 0)].map Dim.pair) env s ≠ .ok w t := by
  have hfollows := (movements_follow_indices canonical_pinned).1
  obtain ⟨-, w, hw, hmoved⟩ := (hfollows [(1, 0), (0, 0), (0, 2)]).1.moves _ rfl
  refine ⟨canonical_pinned, ⟨_, rfl, rfl, rfl, rfl, w, hw, ?_, ?_⟩,
    (hfollows [(1, 0), (0, 0)]).1.refuses rfl⟩
  · rw [hmoved.position _ (by simp [IsIndex, pinned, Movement.padding])]
    decide
  · rw [hmoved.position _ (by simp [IsIndex, pinned, Movement.padding])]
    rfl

end View

end LazyTensor
