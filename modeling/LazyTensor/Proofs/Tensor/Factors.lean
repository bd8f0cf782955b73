import Mathlib
import LazyTensor.Gradient
import LazyTensor.Proofs.Tensor.IndexMaps

/-!
# Gradients of products

Over the rationals, the gradient of a product with respect to a factor is the product of the other
factors.  It is computed by a division by the factor, which gives just that where the factor is not
zero, and nothing where it is.

## Main results

* `Gradient.ofProduct_eq_others`: the gradient of a product over the last axes.
-/

namespace LazyTensor.Gradient

open Radix Shape Movement List

/-- An array of rationals, undefined at some indices. -/
structure Rationals where
  shape : List Int
  entry : List Int → Option ℚ

namespace Rationals

/-- An array that is defined everywhere. -/
def total (shape : List Int) (f : List Int → ℚ) : Rationals := ⟨shape, fun i => some (f i)⟩

def move? (x : Rationals) (ds : List Dim) (kind : List Int → List Int → Option Movement) :
    Option Rationals := do
  let w ← kind x.shape (← Dim.ints? ds)
  return ⟨w.shape, fun i => (w.source i).bind x.entry⟩

def zip? (f : ℚ → ℚ → Option ℚ) (x y : Rationals) : Option Rationals :=
  if x.shape = y.shape then some ⟨x.shape, fun i => do f (← x.entry i) (← y.entry i)⟩ else none

theorem move?_eq {x : Rationals} {T : List Int} {kind : List Int → List Int → Option Movement}
    {w : Movement} (h : kind x.shape T = some w) :
    x.move? (T.map .int) kind = some ⟨w.shape, fun i => (w.source i).bind x.entry⟩ := by
  rw [move?, View.ints?_map, Option.bind_eq_bind, Option.bind_some, h]
  rfl

end Rationals

open Rationals (total)

instance : Arrays Option Rationals where
  shape x := some (x.shape.map .int)
  reshape x ds := x.move? ds regrouping?
  expand x ds := x.move? ds expanding.along?
  mul := Rationals.zip? fun a b => some (a * b)
  div := Rationals.zip? fun a b => if b = 0 then none else some (a / b)

variable {S R i r : List Int}

theorem aligned_ones (n : Nat) : Aligned [] (replicate n 1) [] (replicate n 0) := by
  induction n with
  | zero => exact ⟨.nil, .nil, rfl, rfl⟩
  | succ n ih => exact .append (S := []) (i := []) ⟨.nil, .cons (by decide) .nil, rfl, rfl⟩ ih

theorem each_ones (hr : IsIndex R r) :
    each expanding.source ((replicate R.length 1).zip R) r =
      some (replicate R.length 0) := by
  induction hr with
  | nil => rfl
  | cons _ _ ih => exact each_cons_eq_some.mpr ⟨0, _, rfl, ih, rfl⟩

theorem each_same (hi : IsIndex S i) : each expanding.source (S.zip S) i = some i := by
  have hfst : IsIndex ((S.zip S).map Prod.fst) i := by rwa [map_fst_zip le_rfl]
  refine each_self (fun z _ d h0 h1 => ?_) hfst
  simp only [expanding, Option.some.injEq]
  split <;> omega

theorem along_ones (h : ∀ s ∈ S ++ R, 0 ≤ s) :
    expanding.along? (S ++ replicate R.length 1) (S ++ R) =
      some ⟨S ++ R, each expanding.source (S.zip S ++ (replicate R.length 1).zip R)⟩ := by
  rw [← zip_append rfl]
  refine Kind.along?_eq_some.mpr ⟨⟨by simp, fun z hz => ?_⟩, ?_⟩
  · have h0 := h z.2 (of_mem_zip hz).2
    suffices z.1 = z.2 ∨ z.1 = 1 by simpa [expanding, h0] using this
    rw [zip_append rfl, mem_append] at hz
    rcases hz with hz | hz
    · rw [← map_id S, zip_map', mem_map] at hz
      obtain ⟨s, -, rfl⟩ := hz
      exact .inl rfl
    · exact .inr (eq_of_mem_replicate (of_mem_zip hz).1)
  · congr 1
    exact (map_snd_zip (by simp)).symm

/-- What is left of a reduction over the last axes stands at all indices along them. -/
theorem spread_spec (h : ∀ s ∈ S ++ R, 0 ≤ s) (f g : List Int → Option ℚ) :
    ∃ w : Rationals, spread (m := Option) ⟨S ++ R, f⟩ ⟨S, g⟩ = some w ∧ w.shape = S ++ R ∧
      ∀ i r, IsIndex S i → IsIndex R r → w.entry (i ++ r) = g i := by
  have hones : ∀ t ∈ S ++ replicate R.length 1, 0 ≤ t := fun t ht => by
    rcases mem_append.mp ht with ht | ht
    · exact h t (by simp [ht])
    · simp [eq_of_mem_replicate ht]
  have hregroup : regrouping? S (S ++ replicate R.length 1) = some ⟨_, _⟩ :=
    if_pos ⟨by simp, hones⟩
  have hspread : spread (m := Option) (⟨S ++ R, f⟩ : Rationals) ⟨S, g⟩ =
      (Rationals.move? ⟨S, g⟩ ((S ++ replicate R.length 1).map .int) regrouping?).bind
        (·.move? ((S ++ R).map .int) expanding.along?) := by
    simp [spread, Arrays.shape, Arrays.reshape, Arrays.expand]
  rw [Rationals.move?_eq hregroup, Option.bind_some, Rationals.move?_eq (along_ones h)] at hspread
  refine ⟨_, hspread, rfl, fun i r hi hr => ?_⟩
  have hat := Aligned.append ⟨hi, hi, rfl, rfl⟩ (aligned_ones R.length)
  rw [append_nil, append_nil] at hat
  simp only [each_append (each_same hi) (each_ones hr), Option.bind_some, hat.index_eq]

/-- The product of the elements along the last axes. -/
def productOver (R : List Int) (f : List Int → ℚ) (i : List Int) : ℚ :=
  ((indices R).map fun r => f (i ++ r)).prod

/-- The gradient of a product over the last axes: at a factor that is not zero it is what flows in
times the other factors, and at a zero it is undefined, whatever the other factors are. -/
theorem ofProduct_eq_others (h : ∀ s ∈ S ++ R, 0 ≤ s) (f g : List Int → ℚ) :
    ∃ d : Rationals,
      ofProduct (total (S ++ R) f) (total S (productOver R f)) (total S g) = some d ∧
      d.shape = S ++ R ∧ ∀ i r, IsIndex S i → IsIndex R r → d.entry (i ++ r) =
        if f (i ++ r) = 0 then none
        else some (g i * (((indices R).erase r).map fun r => f (i ++ r)).prod) := by
  have hmul : Arrays.mul (total S g) (total S (productOver R f)) =
      some (total S fun i => g i * productOver R f i) := if_pos rfl
  obtain ⟨w, hw, hshape, hentry⟩ := spread_spec h (fun i => some (f i))
    fun i => some (g i * productOver R f i)
  have hd : ofProduct (total (S ++ R) f) (total S (productOver R f)) (total S g) =
      Arrays.div (m := Option) w (total (S ++ R) f) := by
    rw [ofProduct, hmul]
    exact congrArg (Option.bind · _) hw
  refine ⟨_, hd.trans (if_pos hshape), hshape, fun i r hi hr => ?_⟩
  have hprod : productOver R f i =
      f (i ++ r) * (((indices R).erase r).map fun r => f (i ++ r)).prod :=
    ((List.perm_cons_erase (mem_indices.mpr hr)).map fun r => f (i ++ r)).prod_eq
  simp only [total, hentry i r hi hr, Option.bind_eq_bind, Option.bind_some, hprod]
  split
  · rfl
  case isFalse hne => rw [mul_left_comm, mul_div_cancel_left₀ _ hne]

/-- Of the factors zero and five, the gradient of the first is not five. -/
theorem ofProduct_zero_five : ∃ d : Rationals, ofProduct (total [2] fun i => if i = [0] then 0 else 5)
    (total [] (productOver [2] fun i => if i = [0] then 0 else 5)) (total [] fun _ => 1) = some d ∧
      d.entry [0] = none ∧ d.entry [1] = some 0 := by
  obtain ⟨d, hd, -, h⟩ := ofProduct_eq_others (S := []) (R := [2]) (by decide)
    (fun i => if i = [0] then 0 else 5) fun _ => 1
  have h1 := h [] [1] .nil (.cons (by decide) .nil)
  exact ⟨d, hd, h [] [0] .nil (.cons (by decide) .nil),
    by simpa [indices, List.range_succ_eq_map] using h1⟩

end LazyTensor.Gradient
