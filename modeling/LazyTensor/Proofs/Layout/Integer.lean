import LazyTensor.Proofs.Ensures
import LazyTensor.Proofs.Layout.Radix
import LazyTensor.Layout.View

/-!
# Views with integer extents

On integers the arithmetic of extents is integer arithmetic, and a computation on extents neither
looks at the store nor changes it.  A view of integers means two functions of an index: whether the
index is inside, and the address it has.  `View.create` brings shape, strides, offset and mask to a
canonical form with the same meaning.

## Main results

* `View.create_eq`: `View.create` on integers gives the canonical form.
* `View.valid_canonical`, `View.address_canonical`: the canonical form has the same meaning.
* `View.canonical_canonical`: the canonical form is canonical.
-/

namespace LazyTensor

open Radix List Dim

/-! ## Arithmetic -/

namespace Dim

variable (a b : Int)

@[simp] theorem ofNat_eq (n : Nat) : (OfNat.ofNat n : Dim) = .int n := rfl

@[simp] theorem int_beq_int : (int a == int b) = (a == b) := rfl

@[simp] theorem add_int : (int a).add (.int b) = pure (.int (a + b)) := rfl

@[simp] theorem sub_int : (int a).sub (.int b) = pure (.int (a - b)) := rfl

@[simp] theorem mul_int : (int a).mul (.int b) = pure (.int (a * b)) := rfl

@[simp] theorem neg_int : (int a).neg = pure (.int (-a)) := rfl

@[simp] theorem simplify_int : (int a).simplify = pure (.int a) := rfl

@[simp] theorem upper_int : (int a).upper = pure (.int a) := rfl

@[simp] theorem lt_int : (int a).lt (.int b) = pure (.known (a < b)) := rfl

@[simp] theorem gt_int : (int a).gt (.int b) = pure (.known (a > b)) := rfl

@[simp] theorem le_int : (int a).le (.int b) = pure (.known (a ≤ b)) := rfl

@[simp] theorem ge_int : (int a).ge (.int b) = pure (.known (a ≥ b)) := rfl

@[simp] theorem ne_int : (int a).ne (.int b) = pure (.known (a ≠ b)) := rfl

@[simp] theorem resolve_known (b d : Bool) : (Test.known b).resolve d = pure b := rfl

@[simp] theorem holds_known (b : Bool) : (Test.known b).holds = pure b := rfl

@[simp] theorem differs_int (d : Bool) :
    (int a).differs (.int b) d = pure (decide (a ≠ b)) := rfl

theorem nonzero_int {b : Int} (hb : 0 < b) : nonzero (.int a) (.int b) = pure () := by
  unfold nonzero
  split
  · rename_i h
    cases h
    exact absurd hb (lt_irrefl 0)
  · rfl

/-- Quotients of integers go to the floor. -/
@[simp] theorem div_int {b : Int} (hb : 0 < b) :
    (int a).div (.int b) = pure (.int (a / b)) := by
  simp [div, nonzero_int a hb, bin, Int.fdiv_eq_ediv_of_nonneg _ hb.le]

@[simp] theorem mod_int {b : Int} (hb : 0 < b) :
    (int a).mod (.int b) = pure (.int (a % b)) := by
  simp [mod, nonzero_int a hb, bin, Int.fmod_eq_emod_of_nonneg _ hb.le]

@[simp] theorem largest_int : largest [.int a, .int b] = pure (.int (max a b)) := rfl

@[simp] theorem smallest_int : smallest [.int a, .int b] = pure (.int (min a b)) := rfl

theorem foldlM_add_int (xs : List Int) : (xs.map int).foldlM add (.int a) =
    pure (.int (a + xs.sum)) := by
  induction xs generalizing a with
  | nil => simp
  | cons x xs ih => simp [ih, add_assoc]

@[simp] theorem sum_int (xs : List Int) : sum (xs.map int) = pure (.int xs.sum) := by
  simp [sum, foldlM_add_int]

theorem foldlM_mul_int (xs : List Int) : (xs.map int).foldlM mul (.int a) =
    pure (.int (a * xs.prod)) := by
  induction xs generalizing a with
  | nil => simp
  | cons x xs ih => simp [ih, mul_assoc]

@[simp] theorem prod_int (xs : List Int) : prod (xs.map int) = pure (.int xs.prod) := by
  simp [prod, foldlM_mul_int]

@[simp] theorem allInt_int (xs : List Int) : allInt (xs.map int) = true := by
  simp [allInt, isInt]

theorem int_injective : Function.Injective int := fun _ _ h => by cases h; rfl

@[simp] theorem map_int_beq (xs ys : List Int) :
    (xs.map int == ys.map int) = decide (xs = ys) := by
  induction xs generalizing ys with
  | nil => cases ys <;> rfl
  | cons x xs ih => cases ys with
    | nil => rfl
    | cons y ys =>
      simp only [map_cons, cons_beq_cons, int_beq_int, ih, cons.injEq]
      by_cases h : x = y <;> simp [h]

@[simp] theorem contains_int (xs : List Int) (x : Int) :
    (xs.map int).contains (.int x) = decide (x ∈ xs) := by
  induction xs with
  | nil => rfl
  | cons y xs ih =>
    simp only [map_cons, contains_cons, ih, int_beq_int, mem_cons]
    by_cases h : x = y <;> simp [h]

def pair (m : Int × Int) : Dim × Dim := (.int m.1, .int m.2)

end Dim

/-- A computation for each item of a list that neither fails nor looks at the store. -/
theorem mapM_map_eq_pure {α β γ : Type} {xs : List α} {f : α → β} {p : β → GraphM γ} {q : α → γ}
    (h : ∀ x ∈ xs, p (f x) = pure (q x)) : (xs.map f).mapM p = pure (xs.map q) := by
  induction xs with
  | nil => simp
  | cons x xs ih =>
    rw [map_cons, mapM_cons, h x (by simp), ih fun y hy => h y (by simp [hy])]
    simp

theorem anyM_map_eq_pure {α β : Type} {xs : List α} {f : α → β} {p : β → GraphM Bool}
    {q : α → Bool} (h : ∀ x ∈ xs, p (f x) = pure (q x)) : (xs.map f).anyM p = pure (xs.any q) := by
  induction xs with
  | nil => rfl
  | cons x xs ih =>
    have ih := ih fun y hy => h y (by simp [hy])
    simp only [map_cons, anyM, h x (by simp), pure_bind, any_cons]
    cases q x <;> simp [ih]

/-! ## Meaning -/

namespace View

@[simps] def toDim (v : View Int) : View Dim :=
  ⟨v.shape.map .int, v.strides.map .int, .int v.offset, v.mask.map (·.map pair), v.contiguous⟩

/-- An index inside the mask of a view. -/
def Valid (v : View Int) (i : List Int) : Prop := ∀ ms, v.mask = some ms → Inside ms i

def address (v : View Int) (i : List Int) : Int := v.offset + dot v.strides i

end View

namespace Shape

/-- The strides of a dense array, none along axes of size one. -/
def dense : List Int → List Int
  | [] => []
  | s :: rest => (if s = 1 then 0 else rest.prod) :: dense rest

@[simp] theorem length_dense (shape : List Int) : (dense shape).length = shape.length := by
  induction shape with
  | nil => rfl
  | cons s rest ih => simp [dense, ih]

/-- Running products of the sizes of inner axes. -/
def weights : List Int → List Int
  | [] => []
  | _ :: rest => rest.prod :: weights rest

theorem dense_eq (shape : List Int) :
    dense shape = zipWith (fun s st => if s = 1 then 0 else st) shape (weights shape) := by
  induction shape with
  | nil => rfl
  | cons s rest ih => simp [dense, weights, ih]

theorem zipWith_dense (shape : List Int) :
    zipWith (fun s st => if s = 1 then 0 else st) shape (dense shape) = dense shape := by
  induction shape with
  | nil => rfl
  | cons s rest ih =>
    simp only [dense, zipWith_cons_cons, ih]
    by_cases h : s = 1 <;> simp [h]

theorem canonicalStrides_int (shape strides : List Int) :
    canonicalStrides (shape.map .int) (strides.map .int) =
      (zipWith (fun s st => if s = 1 then 0 else st) shape strides).map int := by
  induction shape generalizing strides with
  | nil => rfl
  | cons s rest ih => cases strides with
    | nil => rfl
    | cons st strides =>
      have := ih strides
      unfold canonicalStrides at this ⊢
      simp only [map_cons, zip_cons_cons, zipWith_cons_cons, this]
      by_cases h : s = 1 <;> simp [h]

/-- The running products of a list, last first, that the strides of a dense array are made from. -/
theorem foldlM_weights (r : List Int) :
    (r.map int).foldlM (fun (x : Dim × List Dim) d => do
      let y ← x.1.mul d
      return (y, y :: x.2)) ((1 : Dim), [(1 : Dim)]) =
    (pure ((.int r.prod), ((r.reverse.prod :: weights r.reverse).map int)) : GraphM _) := by
  induction r using reverseRecOn with
  | nil => rfl
  | append_singleton r d ih =>
    rw [map_append, foldlM_append, ih]
    simp [weights, mul_comm]

theorem strides_int (shape : List Int) :
    strides (shape.map .int) = pure ((dense shape).map int) := by
  cases shape with
  | nil => rfl
  | cons s rest =>
    have hfold := foldlM_weights rest.reverse
    simp only [reverse_reverse, map_reverse] at hfold
    simp only [strides, map_cons]
    rw [hfold, dense_eq]
    have := canonicalStrides_int (s :: rest) (weights (s :: rest))
    simp only [map_cons, weights] at this
    simp [weights, this]

end Shape

/-! ## Canonical form -/

namespace View

variable {shape strides i : List Int} {offset : Int} {ms : List (Int × Int)}
  {mask : Option (List (Int × Int))}

/-- Whether a mask hides nothing of a shape. -/
def Full (ms : List (Int × Int)) (shape : List Int) : Prop := ms = shape.map fun s => (0, s)

instance (ms : List (Int × Int)) (shape : List Int) : Decidable (Full ms shape) :=
  inferInstanceAs (Decidable (_ = _))

/-- Whether at most one index of an axis is inside the mask. -/
def IsPoint (m : Int × Int) : Prop := m.2 ≤ m.1 + 1

instance (m : Int × Int) : Decidable (IsPoint m) := inferInstanceAs (Decidable (_ ≤ _))

def unmasked (shape strides : List Int) (offset : Int) : View Int :=
  ⟨shape, strides, offset, none, offset = 0 ∧ strides = Shape.dense shape⟩

def hidden (shape : List Int) : View Int :=
  ⟨shape, shape.map fun _ => 0, 0, some (shape.map fun _ => (0, 0)), false⟩

/-- The view with a mask, its strides along single indices moved to the offset. -/
def masked (shape strides : List Int) (offset : Int) (ms : List (Int × Int)) : View Int :=
  ⟨shape, zipWith (fun m st => if IsPoint m then 0 else st) ms strides,
    offset + (zipWith (fun m st => if IsPoint m then st * m.1 else 0) ms strides).sum,
    some ms, false⟩

/-- The canonical form of a view: no stride along axes with a single index, no mask that hides
nothing, and nothing at all of an empty array. -/
def canonical (shape strides : List Int) (offset : Int) (mask : Option (List (Int × Int))) :
    View Int :=
  let strides := zipWith (fun s st => if s = 1 then 0 else st) shape strides
  if 0 ∈ shape then ⟨shape, shape.map fun _ => 0, 0, none, true⟩
  else match mask with
    | none => unmasked shape strides offset
    | some ms =>
      if Full ms shape then unmasked shape strides offset
      else if ∃ m ∈ ms, m.2 ≤ m.1 then hidden shape
      else masked shape strides offset ms

theorem allM_map_eq_pure {xs : List Int} {p : Dim → GraphM Bool} {q : Int → Bool}
    (h : ∀ x ∈ xs, p (.int x) = pure (q x)) : allM (xs.map .int) p = pure (xs.all q) := by
  induction xs with
  | nil => rfl
  | cons x xs ih =>
    have ih := ih fun y hy => h y (by simp [hy])
    unfold allM at ih ⊢
    rw [map_cons, forIn_cons, h x (by simp)]
    cases hq : q x <;> simp_all

theorem full_iff (hlen : ms.length = shape.length) :
    ((ms.map pair).zip (shape.map int)).all (fun x => x.1.1 == 0 && x.1.2 == x.2) =
      decide (Full ms shape) := by
  induction ms generalizing shape with
  | nil => cases shape with
    | nil => rfl
    | cons s shape => simp at hlen
  | cons m ms ih => cases shape with
    | nil => simp at hlen
    | cons s shape =>
      have := @ih shape (by simpa using hlen)
      obtain ⟨b, e⟩ := m
      rw [Bool.eq_iff_iff]
      simp only [map_cons, zip_cons_cons, all_cons, this, Bool.and_eq_true,
        decide_eq_true_iff]
      simp [Full, pair]

theorem initialStrides_int (hlen : strides.length = shape.length) :
    initialStrides (shape.map .int) (some (strides.map .int)) =
      pure ((zipWith (fun s st => if s = 1 then 0 else st) shape strides).map .int) := by
  cases strides with
  | nil =>
    have : shape = [] := length_eq_zero_iff.mp (by simpa using hlen.symm)
    subst this
    rfl
  | cons st strides =>
    have := Shape.canonicalStrides_int shape (st :: strides)
    simp only [map_cons] at this
    simp only [initialStrides, map_cons, this]

theorem mapM_simplify (xs : List Int) :
    (xs.map int).mapM simplify = pure (xs.map int) :=
  mapM_map_eq_pure fun x _ => simplify_int x

theorem finish_none (shape strides : List Int) (offset : Int) :
    finish (shape.map .int) (strides.map .int) (.int offset) none =
      pure (unmasked shape strides offset).toDim := by
  unfold finish
  simp only [simplify_int, pure_bind, mapM_simplify, Shape.strides_int, map_int_beq]
  simp only [unmasked, toDim, Bool.decide_and, Option.isNone_none, Bool.and_true]
  rfl

theorem finish_some (shape strides : List Int) (offset : Int) (ms : List (Int × Int)) :
    finish (shape.map .int) (strides.map .int) (.int offset) (some (ms.map pair)) =
      pure (View.mk shape strides offset (some ms) false).toDim := by
  unfold finish
  simp only [simplify_int, pure_bind, mapM_simplify, Shape.strides_int]
  simp [toDim]

theorem mapM_points (ms : List (Int × Int)) :
    (ms.map pair).mapM (fun x => do return !(← (← (← x.1.add 1).lt x.2).resolve)) =
      (pure (ms.map fun m => decide (IsPoint m)) : GraphM (List Bool)) := by
  apply mapM_map_eq_pure
  rintro ⟨b, e⟩ -
  simp only [pair, ofNat_eq, Nat.cast_one, add_int, pure_bind, lt_int,
    resolve_known, IsPoint, ← decide_not, not_lt]
  rfl

theorem anyM_empty (ms : List (Int × Int)) :
    (ms.map pair).anyM (fun x => do return !(← (← x.1.lt x.2).resolve)) =
      (pure (decide (∃ m ∈ ms, m.2 ≤ m.1)) : GraphM Bool) := by
  rw [anyM_map_eq_pure (q := fun m => decide (m.2 ≤ m.1))]
  · congr 1
    rw [Bool.eq_iff_iff]
    simp
  · rintro ⟨b, e⟩ -
    simp [pair, ← decide_not]

theorem mapM_moves (points : List Bool) (strides : List Int) (ms : List (Int × Int)) :
    (points.zip ((strides.map int).zip (ms.map pair))).mapM
      (fun x => if x.1 then x.2.1.mul x.2.2.1 else pure (0 : Dim)) =
    pure (((points.zip (strides.zip ms)).map fun x => if x.1 then x.2.1 * x.2.2.1 else 0).map
      int) := by
  rw [zip_map, zip_map_right, map_map]
  apply mapM_map_eq_pure
  rintro ⟨p, st, b, e⟩ -
  cases p <;> simp [pair]

theorem zip_points_strides (strides : List Int) (ms : List (Int × Int)) :
    (((strides.map int).zip (ms.map fun m => decide (IsPoint m))).map fun x =>
      if x.2 then (0 : Dim) else x.1) =
    (zipWith (fun m st => if IsPoint m then 0 else st) ms strides).map int := by
  rw [zip_map, map_map, map_zipWith, zipWith_comm, ← map_uncurry_zip_eq_zipWith]
  refine map_congr_left fun x _ => ?_
  by_cases h : IsPoint x.2 <;> simp [h, Function.uncurry]

theorem zip_points_moves (strides : List Int) (ms : List (Int × Int)) :
    (((ms.map fun m => decide (IsPoint m)).zip (strides.zip ms)).map fun x =>
      if x.1 then x.2.1 * x.2.2.1 else 0) =
    zipWith (fun m st => if IsPoint m then st * m.1 else 0) ms strides := by
  induction ms generalizing strides with
  | nil => simp
  | cons m ms ih => cases strides with
    | nil => simp
    | cons st strides =>
      have := ih strides
      simp only [map_cons, zip_cons_cons, zipWith_cons_cons, this]
      by_cases h : IsPoint m <;> simp [h]

theorem zipWith_not_point (hlen : ms.length = strides.length) (h : ∀ m ∈ ms, ¬IsPoint m) :
    zipWith (fun m st => if IsPoint m then 0 else st) ms strides = strides ∧
      (zipWith (fun m st => if IsPoint m then st * m.1 else 0) ms strides).sum = 0 := by
  induction ms generalizing strides with
  | nil =>
    have : strides = [] := length_eq_zero_iff.mp hlen.symm
    simp [this]
  | cons m ms ih => cases strides with
    | nil => simp at hlen
    | cons st strides =>
      have := ih (by simpa using hlen) fun m' hm' => h m' (by simp [hm'])
      simp [h m (by simp), this]

theorem zip_zero_strides {points : List Bool} (hlen : points.length = shape.length) :
    (((shape.map int).map fun _ => (0 : Dim)).zip points).map
      (fun x => if x.2 then (0 : Dim) else x.1) = (shape.map fun _ => (0 : Int)).map int := by
  rw [map_map, zip_map_left, map_map]
  simp [Function.comp_def, hlen]

theorem zip_zero_moves (shape : List Int) (points : List Bool) :
    (((points.zip ((shape.map fun _ => (0 : Int)).zip (shape.map fun _ => ((0 : Int), (0 : Int))))).map
      fun x => if x.1 then x.2.1 * x.2.2.1 else 0)).sum = 0 := by
  apply sum_eq_zero
  intro x hx
  obtain ⟨⟨p, st, b, e⟩, hmem, rfl⟩ := mem_map.mp hx
  have hb := (of_mem_zip (of_mem_zip hmem).2).1
  have hst : st = 0 := by
    obtain ⟨_, -, h⟩ := mem_map.mp hb
    exact h.symm
  simp [hst]

/-- The parts of a view whose mask hides something on integers. -/
theorem withoutPoints_int (hlen : strides.length = shape.length) (hms : ms.length = shape.length) :
    withoutPoints (shape.map .int) (strides.map .int) (.int offset) (ms.map pair) =
      (let v := if ∃ m ∈ ms, m.2 ≤ m.1 then hidden shape else masked shape strides offset ms
       pure (v.strides.map .int, .int v.offset, (v.mask.getD []).map pair)) := by
  unfold withoutPoints
  simp only [mapM_points, anyM_empty, pure_bind]
  by_cases hpoint : ∃ m ∈ ms, IsPoint m
  · have hcontains : (ms.map fun m => decide (IsPoint m)).contains true = true := by
      simpa using hpoint
    simp only [hcontains, Bool.not_true, Bool.false_eq_true, if_false]
    by_cases hempty : ∃ m ∈ ms, m.2 ≤ m.1
    · have hzero : (shape.map int).map (fun _ => (0 : Dim)) =
          (shape.map fun _ => (0 : Int)).map int := by
        rw [map_map, map_map]
        rfl
      have hpair : (shape.map int).map (fun _ => ((0 : Dim), (0 : Dim))) =
          (shape.map fun _ => ((0 : Int), (0 : Int))).map pair := by
        rw [map_map, map_map]
        rfl
      simp only [hempty, decide_true, if_true, hidden, Option.getD_some,
        @zip_zero_strides shape (ms.map fun m => decide (IsPoint m)) (by simpa using hms)]
      rw [hzero, hpair, mapM_moves]
      simp only [pure_bind, sum_int, zip_zero_moves]
      rfl
    · simp only [hempty, decide_false, Bool.false_eq_true, if_false, masked, mapM_moves, pure_bind,
        sum_int, add_int, zip_points_strides, zip_points_moves, Option.getD_some]
  · have hcontains : (ms.map fun m => decide (IsPoint m)).contains true = false := by
      simpa using hpoint
    have hempty : ¬∃ m ∈ ms, m.2 ≤ m.1 := by
      rintro ⟨m, hm, hle⟩
      exact hpoint ⟨m, hm, by unfold IsPoint; omega⟩
    obtain ⟨hstrides, hsum⟩ := zipWith_not_point (hms.trans hlen.symm)
      fun m hm hp => hpoint ⟨m, hm, hp⟩
    simp only [hcontains, Bool.not_false, if_true, hempty, if_false, masked, Option.getD_some,
      hstrides, hsum, add_zero]

/-- `View.create` on integers gives the canonical form. -/
theorem create_eq (hnn : ∀ s ∈ shape, 0 ≤ s) (hlen : strides.length = shape.length)
    (hmask : ∀ ms, mask = some ms → ms.length = shape.length) :
    create (shape.map .int) (some (strides.map .int)) (.int offset)
      (mask.map (·.map pair)) = pure (canonical shape strides offset mask).toDim := by
  have hall : allM (shape.map .int) (fun s => do (← s.ge 0).resolve) = pure true := by
    rw [allM_map_eq_pure (q := fun s => decide (s ≥ 0)) fun s _ => by simp]
    congr 1
    simpa using hnn
  unfold create
  rw [hall, initialStrides_int hlen]
  simp only [pure_bind, Bool.not_true, Bool.false_eq_true, if_false, ofNat_eq, Nat.cast_zero,
    contains_int, canonical]
  by_cases h0 : 0 ∈ shape
  · simp only [h0, decide_true, if_true, toDim, map_map, Option.map_none]
    rfl
  · simp only [h0, decide_false, Bool.false_eq_true, if_false]
    cases mask with
    | none => exact finish_none ..
    | some ms =>
      have hms := hmask ms rfl
      have hfull := full_iff hms
      simp only [ofNat_eq, Nat.cast_zero] at hfull
      simp only [Option.map_some, Option.filter, hfull]
      by_cases hf : Full ms shape
      · simp only [hf, decide_true, Bool.not_true, Bool.false_eq_true, if_false, if_true]
        exact finish_none ..
      · simp only [hf, decide_false, Bool.not_false, if_true, if_false]
        rw [withoutPoints_int (by simp [hlen]) hms]
        simp only [pure_bind]
        split
        · exact finish_some ..
        · exact finish_some ..

/-- `View.create` of a shape alone gives a dense array. -/
theorem create_dense (hnn : ∀ s ∈ shape, 0 ≤ s) :
    create (shape.map .int) = pure (canonical shape (Shape.dense shape) 0 none).toDim := by
  have hst : initialStrides (shape.map .int) none =
      initialStrides (shape.map .int) (some ((Shape.dense shape).map .int)) := by
    rw [initialStrides_int (Shape.length_dense shape)]
    simp only [initialStrides, Shape.strides_int]
    congr 2
    exact (Shape.zipWith_dense shape).symm
  have := @create_eq shape (Shape.dense shape) 0 none hnn (Shape.length_dense shape) (by simp)
  simp only [create, Option.map_none, ← hst] at this ⊢
  exact this

/-! ## The canonical form keeps the meaning -/

theorem inside_full (hi : IsIndex shape i) : Inside (shape.map fun s => (0, s)) i := by
  induction hi with
  | nil => exact .nil
  | cons hd _ ih => exact .cons hd ih

theorem not_mem_zero_of_isIndex (hi : IsIndex shape i) : 0 ∉ shape := by
  induction hi with
  | nil => simp
  | cons hd _ ih =>
    simp only [mem_cons, not_or]
    exact ⟨by omega, ih⟩

theorem not_inside_of_empty (h : ∃ m ∈ ms, m.2 ≤ m.1) : ¬Inside ms i := by
  intro hin
  induction hin with
  | nil => simp at h
  | cons hd _ ih =>
    rcases h with ⟨m, hm, hle⟩
    rcases mem_cons.mp hm with rfl | hm
    · omega
    · exact ih ⟨m, hm, hle⟩

/-- An index of a shape is inside the canonical form exactly when it is inside the mask. -/
theorem valid_canonical (hi : IsIndex shape i)
    (hmask : ∀ ms, mask = some ms → ms.length = shape.length) :
    (canonical shape strides offset mask).Valid i ↔ ∀ ms, mask = some ms → Inside ms i := by
  have h0 : 0 ∉ shape := not_mem_zero_of_isIndex hi
  cases mask with
  | none => simp [canonical, h0, Valid, unmasked]
  | some ms =>
    simp only [canonical, h0, if_false]
    by_cases hf : Full ms shape
    · have hin : Inside ms i := hf ▸ inside_full hi
      simp [hf, Valid, unmasked, hin]
    · simp only [hf, if_false]
      by_cases hempty : ∃ m ∈ ms, m.2 ≤ m.1
      · have hnot : ¬Inside (shape.map fun _ => (0, 0)) i := by
          apply not_inside_of_empty
          obtain ⟨m, hm, -⟩ := hempty
          have hpos : 0 < shape.length := by
            rw [← hmask ms rfl]
            exact length_pos_of_mem hm
          exact ⟨(0, 0), by simpa using ne_nil_of_length_pos hpos, le_rfl⟩
        simp only [hempty, if_true, Valid, hidden, Option.some.injEq, forall_eq', hnot,
          not_inside_of_empty hempty]
      · simp [hempty, Valid, masked]

theorem dot_unit (hi : IsIndex shape i) :
    dot (zipWith (fun s st => if s = 1 then 0 else st) shape strides) i = dot strides i := by
  induction hi generalizing strides with
  | nil => simp
  | @cons s d _ _ hd _ ih => cases strides with
    | nil => simp
    | cons st strides =>
      simp only [zipWith_cons_cons, dot_cons, ih]
      by_cases h : s = 1
      · have : d = 0 := by omega
        simp [h, this]
      · simp [h]

theorem dot_points (hi : Inside ms i) :
    (zipWith (fun m st => if IsPoint m then st * m.1 else 0) ms strides).sum +
      dot (zipWith (fun m st => if IsPoint m then 0 else st) ms strides) i =
    dot strides i := by
  induction hi generalizing strides with
  | nil => simp
  | @cons m d _ _ hd _ ih => cases strides with
    | nil => simp
    | cons st strides =>
      have ih := @ih strides
      simp only [zipWith_cons_cons, dot_cons, sum_cons]
      by_cases h : IsPoint m
      · have : d = m.1 := by
          unfold IsPoint at h
          omega
        simp only [h, if_true, this]
        linarith
      · simp only [h, if_false]
        linarith

/-- An index inside the canonical form has the address the parts give it. -/
theorem address_canonical (hi : IsIndex shape i) (hmask : ∀ ms, mask = some ms → Inside ms i) :
    (canonical shape strides offset mask).address i = offset + dot strides i := by
  have h0 : 0 ∉ shape := not_mem_zero_of_isIndex hi
  cases mask with
  | none => simp [canonical, h0, address, unmasked, dot_unit hi]
  | some ms =>
    have hin := hmask ms rfl
    have hempty : ¬∃ m ∈ ms, m.2 ≤ m.1 := fun h => not_inside_of_empty h hin
    simp only [canonical, h0, if_false, hempty]
    by_cases hf : Full ms shape
    · simp [hf, address, unmasked, dot_unit hi]
    · simp only [hf, if_false, address, masked]
      rw [add_assoc, dot_points hin, dot_unit hi]

/-! ## Views in canonical form -/

/-- A mask that leaves a part of every axis, inside a shape. -/
def Window (ms : List (Int × Int)) (shape : List Int) : Prop :=
  Forall₂ (fun m s => 0 ≤ m.1 ∧ m.1 < m.2 ∧ m.2 ≤ s) ms shape

/-- A mask in canonical form: it hides everything, and nothing has a stride; or it leaves a part of
every axis, and axes with a single index have no stride. -/
inductive CanonicalMask (shape strides : List Int) (ms : List (Int × Int)) : Prop where
  | hidden (ne : shape ≠ []) (mask : ms = shape.map fun _ => (0, 0))
      (strides : strides = shape.map fun _ => 0)
  | window (mask : Window ms shape)
      (points : Forall₂ (fun m st => IsPoint m → st = 0) ms strides)

structure Canonical (v : View Int) : Prop where
  nonneg : ∀ s ∈ v.shape, 0 ≤ s
  unit : Forall₂ (fun s st => s = 1 → st = 0) v.shape v.strides
  empty : 0 ∈ v.shape → v.contiguous = true ∧ v.mask = none
  dense : v.contiguous = true → v.offset = 0 ∧ v.mask = none ∧
    (0 ∉ v.shape → v.strides = Shape.dense v.shape)
  mask : ∀ ms, v.mask = some ms → CanonicalMask v.shape v.strides ms

/-- Where strides are dropped there are none. -/
theorem forall₂_dropped {β : Type} {p : β → Prop} [DecidablePred p] {xs : List β}
    (hlen : strides.length = xs.length) : Forall₂ (fun x st => p x → st = 0) xs
      (zipWith (fun x st => if p x then 0 else st) xs strides) := by
  induction xs generalizing strides with
  | nil => simp
  | cons x xs ih => cases strides with
    | nil => simp at hlen
    | cons st strides => exact .cons (fun h => if_pos h) (ih (by simpa using hlen))

theorem forall₂_unit_zero (shape : List Int) :
    Forall₂ (fun s st => s = 1 → st = 0) shape (shape.map fun _ => (0 : Int)) :=
  forall₂_map_right_iff.mpr (forall₂_same.mpr fun _ _ _ => rfl)

theorem canonical_unmasked (hnn : ∀ s ∈ shape, 0 ≤ s) (h0 : 0 ∉ shape)
    (hunit : Forall₂ (fun s st => s = 1 → st = 0) shape strides) :
    (unmasked shape strides offset).Canonical where
  nonneg := hnn
  unit := hunit
  empty h := absurd h h0
  dense h := by
    obtain ⟨hoff, hst⟩ := of_decide_eq_true h
    exact ⟨hoff, rfl, fun _ => hst⟩
  mask ms h := by cases h

theorem canonical_hidden (hnn : ∀ s ∈ shape, 0 ≤ s) (h0 : 0 ∉ shape) (hne : shape ≠ []) :
    (hidden shape).Canonical where
  nonneg := hnn
  unit := forall₂_unit_zero shape
  empty h := absurd h h0
  dense h := by cases h
  mask ms h := by
    cases h
    exact .hidden hne rfl rfl

theorem forall₂_unit_points (hunit : Forall₂ (fun s st => s = 1 → st = 0) shape strides)
    (hms : ms.length = shape.length) : Forall₂ (fun s st => s = 1 → st = 0) shape
      (zipWith (fun m st => if IsPoint m then 0 else st) ms strides) := by
  induction hunit generalizing ms with
  | nil => simp
  | cons hd _ ih => cases ms with
    | nil => simp at hms
    | cons m ms => exact .cons (fun h => by simp [hd h]) (ih (by simpa using hms))

theorem canonical_masked (hnn : ∀ s ∈ shape, 0 ≤ s) (h0 : 0 ∉ shape)
    (hunit : Forall₂ (fun s st => s = 1 → st = 0) shape strides) (hms : Window ms shape) :
    (masked shape strides offset ms).Canonical where
  nonneg := hnn
  unit := forall₂_unit_points hunit hms.length_eq
  empty h := absurd h h0
  dense h := by cases h
  mask ms' h := by
    cases h
    exact .window hms (forall₂_dropped (hms.length_eq.trans hunit.length_eq).symm)

theorem window_of_not_empty (hms : Forall₂ (fun m s => 0 ≤ m.1 ∧ m.2 ≤ s) ms shape)
    (hempty : ¬∃ m ∈ ms, m.2 ≤ m.1) : Window ms shape := by
  induction hms with
  | nil => exact .nil
  | @cons m s ms shape hd _ ih =>
    have hlt : m.1 < m.2 := by
      by_contra h
      exact hempty ⟨m, by simp, by omega⟩
    exact .cons ⟨hd.1, hlt, hd.2⟩ (ih fun ⟨m', hm', hle⟩ => hempty ⟨m', by simp [hm'], hle⟩)

/-- A mask for a shape: it leaves nothing of some axis, or a part of every axis. -/
def Masks (ms : List (Int × Int)) (shape : List Int) : Prop :=
  ms.length = shape.length ∧ ((∃ m ∈ ms, m.2 ≤ m.1) ∨ Window ms shape)

/-- A mask whose intervals lie inside the axes. -/
theorem masks_of_bounds (h : Forall₂ (fun m s => 0 ≤ m.1 ∧ m.2 ≤ s) ms shape) :
    Masks ms shape := by
  by_cases hempty : ∃ m ∈ ms, m.2 ≤ m.1
  · exact ⟨h.length_eq, Or.inl hempty⟩
  · exact ⟨h.length_eq, Or.inr (window_of_not_empty h hempty)⟩

/-- **The canonical form of a view is canonical.** -/
theorem canonical_canonical (hnn : ∀ s ∈ shape, 0 ≤ s) (hlen : strides.length = shape.length)
    (hmask : ∀ ms, mask = some ms → Masks ms shape) :
    (canonical shape strides offset mask).Canonical := by
  unfold canonical
  by_cases h0 : 0 ∈ shape
  · simp only [h0, if_true]
    exact ⟨hnn, forall₂_unit_zero shape, fun _ => ⟨rfl, rfl⟩,
      fun _ => ⟨rfl, rfl, fun h => absurd h0 h⟩, fun ms h => by cases h⟩
  · have hunit := forall₂_dropped (p := (· = 1)) hlen
    simp only [h0, if_false]
    cases mask with
    | none => exact canonical_unmasked hnn h0 hunit
    | some ms =>
      dsimp only
      split_ifs with hf hempty
      · exact canonical_unmasked hnn h0 hunit
      · refine canonical_hidden hnn h0 ?_
        rintro rfl
        obtain ⟨m, hm, -⟩ := hempty
        have : ms = [] := length_eq_zero_iff.mp (by simpa using (hmask ms rfl).1)
        simp [this] at hm
      · exact canonical_masked hnn h0 hunit ((hmask ms rfl).2.resolve_left hempty)

/-- Arguments of `View.create` that fit together: no negative extent, a stride for each axis, and a
mask inside them. -/
structure Parts where
  shape : List Int
  strides : List Int
  offset : Int
  mask : Option (List (Int × Int))
  nonneg : ∀ s ∈ shape, 0 ≤ s
  length_strides : strides.length = shape.length
  masks : ∀ ms, mask = some ms → Masks ms shape

namespace Parts

variable (a : Parts)

def create : GraphM (View Dim) :=
  View.create (a.shape.map .int) (some (a.strides.map .int)) (.int a.offset) (a.mask.map (·.map pair))

/-- The view that is returned for the arguments. -/
def view : View Int := canonical a.shape a.strides a.offset a.mask

theorem create_view : a.create = pure a.view.toDim :=
  create_eq a.nonneg a.length_strides fun ms h => (a.masks ms h).1

theorem canonical_view : a.view.Canonical := canonical_canonical a.nonneg a.length_strides a.masks

end Parts

end View

end LazyTensor
