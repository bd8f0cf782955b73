import Mathlib

/-!
# Positions in a mixed radix

A shape is a mixed radix: a position among its elements has one digit for each axis.  Digits are
listed last axis first here, so that the digits of a position are those of its remainder by the
innermost sizes followed by those of its quotient.  A mask gives an interval for each axis; the
positions inside it form a box.

## Main results

* `cut_box`, `step_box`: a box recombines between any two axes and has no gaps along an axis.
* `Pinned.emod_sub_emod`: in a pinned set the remainders by the two weights move together.
-/

namespace LazyTensor.Radix

open List Int

variable {S T ds : List Int} {M N : List (Int × Int)} {p x y s d : Int} {m : Int × Int}

/-! ## Digits -/

/-- The digits of a position, last axis first. -/
def digits : List Int → Int → List Int
  | [], _ => []
  | s :: r, p => p % s :: digits r (p / s)

@[simp] theorem digits_nil (p : Int) : digits [] p = [] := rfl

@[simp] theorem digits_cons (s : Int) (r : List Int) (p : Int) :
    digits (s :: r) p = p % s :: digits r (p / s) := rfl

@[simp] theorem length_digits (S : List Int) (p : Int) : (digits S p).length = S.length := by
  induction S generalizing p with
  | nil => rfl
  | cons s S ih => simp [ih]

theorem digits_append (hS : ∀ s ∈ S, 0 < s) (T : List Int) (p : Int) :
    digits (S ++ T) p = digits S p ++ digits T (p / S.prod) := by
  induction S generalizing p with
  | nil => simp
  | cons s S ih =>
    have hs : 0 < s := hS s (by simp)
    have hrest : ∀ t ∈ S, 0 < t := fun t ht => hS t (by simp [ht])
    simp only [cons_append, digits_cons, prod_cons]
    rw [ih hrest, ediv_ediv_of_nonneg hs.le]

/-- The quotient of a remainder is the remainder of the quotient. -/
theorem emod_mul_ediv (hs : 0 < s) (p n : Int) : p % (s * n) / s = p / s % n := by
  have hsub : p % (s * n) = p + s * (-(n * (p / s / n))) := by
    have := mul_ediv_add_emod p (s * n)
    rw [ediv_ediv_of_nonneg hs.le]
    linarith
  rw [hsub, add_mul_ediv_left _ _ hs.ne', emod_def]
  ring

/-- The digits see a position only up to multiples of the size. -/
theorem digits_emod (hS : ∀ s ∈ S, 0 < s) (p : Int) {n : Int} (hn : S.prod ∣ n) :
    digits S (p % n) = digits S p := by
  induction S generalizing p n with
  | nil => rfl
  | cons s S ih =>
    have hs : 0 < s := hS s (by simp)
    have hrest : ∀ t ∈ S, 0 < t := fun t ht => hS t (by simp [ht])
    obtain ⟨k, rfl⟩ := hn
    simp only [prod_cons, digits_cons, mul_assoc]
    congr 1
    · exact emod_emod_of_dvd p (dvd_mul_right s _)
    · rw [emod_mul_ediv hs]
      exact ih hrest (p / s) (dvd_mul_right _ _)

/-- The position of given digits. -/
def ofDigits : List Int → List Int → Int
  | s :: S, d :: ds => d + s * ofDigits S ds
  | _, _ => 0

theorem ofDigits_digits (hS : ∀ s ∈ S, 0 < s) (hp : 0 ≤ p) (hlt : p < S.prod) :
    ofDigits S (digits S p) = p := by
  induction S generalizing p with
  | nil =>
    simp only [prod_nil] at hlt
    simp only [ofDigits]
    omega
  | cons s S ih =>
    have hs : 0 < s := hS s (by simp)
    have hrest : ∀ t ∈ S, 0 < t := fun t ht => hS t (by simp [ht])
    have hquot : p / s < S.prod := by
      rw [prod_cons, mul_comm] at hlt
      exact Int.ediv_lt_of_lt_mul hs hlt
    simp only [digits_cons, ofDigits]
    rw [ih hrest (ediv_nonneg hp hs.le) hquot]
    exact emod_add_mul_ediv p s

/-- An index of a shape, last axis first. -/
def IsIndex (S ds : List Int) : Prop := Forall₂ (fun s d => 0 ≤ d ∧ d < s) S ds

theorem isIndex_digits (hS : ∀ s ∈ S, 0 < s) (p : Int) : IsIndex S (digits S p) := by
  induction S generalizing p with
  | nil => exact .nil
  | cons s S ih =>
    have hs : 0 < s := hS s (by simp)
    exact .cons ⟨emod_nonneg p hs.ne', emod_lt_of_pos p hs⟩
      (ih (fun t ht => hS t (by simp [ht])) _)

theorem ofDigits_nonneg (h : IsIndex S ds) : 0 ≤ ofDigits S ds := by
  induction h with
  | nil => exact le_rfl
  | cons hd _ ih =>
    simp only [ofDigits]
    nlinarith

theorem ofDigits_lt (h : IsIndex S ds) : ofDigits S ds < S.prod := by
  induction h with
  | nil => simp [ofDigits]
  | cons hd _ ih =>
    simp only [ofDigits, prod_cons]
    nlinarith

theorem digits_ofDigits (h : IsIndex S ds) : digits S (ofDigits S ds) = ds := by
  induction h with
  | nil => rfl
  | @cons s d S ds hd _ ih =>
    have hs : 0 < s := by omega
    simp only [ofDigits, digits_cons]
    rw [add_mul_emod_self_left, emod_eq_of_lt hd.1 hd.2,
      add_mul_ediv_left _ _ hs.ne', ediv_eq_zero_of_lt hd.1 hd.2, zero_add, ih]

/-- The position of larger digits is larger. -/
theorem ofDigits_mono {es : List Int} (hS : ∀ s ∈ S, 0 < s) (h : Forall₂ (· ≤ ·) ds es)
    (hlen : ds.length = S.length) : ofDigits S ds ≤ ofDigits S es := by
  induction h generalizing S with
  | nil => cases S <;> rfl
  | @cons d e ds es hde _ ih =>
    cases S with
    | nil => rfl
    | cons s S =>
      have hs : 0 < s := hS s (by simp)
      have := ih (S := S) (fun t ht => hS t (by simp [ht])) (by simpa using hlen)
      simp only [ofDigits]
      nlinarith

/-! ## Sums of products -/

def dot (xs ys : List Int) : Int := (zipWith (· * ·) xs ys).sum

@[simp] theorem dot_nil_left (ys : List Int) : dot [] ys = 0 := by simp [dot]

@[simp] theorem dot_nil_right (xs : List Int) : dot xs [] = 0 := by simp [dot]

@[simp] theorem dot_cons (x : Int) (xs : List Int) (y : Int) (ys : List Int) :
    dot (x :: xs) (y :: ys) = x * y + dot xs ys := by simp [dot]

theorem dot_comm (xs ys : List Int) : dot xs ys = dot ys xs := by
  rw [dot, dot, zipWith_comm_of_comm mul_comm]

theorem dot_append {xs ys : List Int} (h : xs.length = ys.length) (xs' ys' : List Int) :
    dot (xs ++ xs') (ys ++ ys') = dot xs ys + dot xs' ys' := by
  simp [dot, zipWith_append h]

theorem dot_reverse {xs ys : List Int} (h : xs.length = ys.length) :
    dot xs.reverse ys.reverse = dot xs ys := by
  simp [dot, ← reverse_zipWith h]

/-! ## Boxes -/

/-- An index inside a mask. -/
def Inside (M : List (Int × Int)) (ds : List Int) : Prop :=
  Forall₂ (fun m d => m.1 ≤ d ∧ d < m.2) M ds

@[simp] theorem inside_nil : Inside [] [] := .nil

@[simp] theorem inside_cons :
    Inside (m :: M) (d :: ds) ↔ (m.1 ≤ d ∧ d < m.2) ∧ Inside M ds := forall₂_cons

theorem inside_append {M₁ M₂ : List (Int × Int)} {ds₁ ds₂ : List Int}
    (h : M₁.length = ds₁.length) :
    Inside (M₁ ++ M₂) (ds₁ ++ ds₂) ↔ Inside M₁ ds₁ ∧ Inside M₂ ds₂ := by
  induction M₁ generalizing ds₁ with
  | nil =>
    have : ds₁ = [] := length_eq_zero_iff.mp h.symm
    simp [this]
  | cons m M₁ ih =>
    cases ds₁ with
    | nil => simp at h
    | cons d ds₁ => simp [ih (by simpa using h), and_assoc]

theorem inside_reverse : Inside M.reverse ds.reverse ↔ Inside M ds := forall₂_reverse_iff

/-- The positions whose digits are inside a mask. -/
def box (S : List Int) (M : List (Int × Int)) : Set Int := {p | Inside M (digits S p)}

theorem mem_box : p ∈ box S M ↔ Inside M (digits S p) := Iff.rfl

@[simp] theorem mem_box_nil : p ∈ box [] [] := .nil

theorem mem_box_cons :
    p ∈ box (s :: S) (m :: M) ↔ (m.1 ≤ p % s ∧ p % s < m.2) ∧ p / s ∈ box S M := inside_cons

theorem mem_box_append (hS : ∀ s ∈ S, 0 < s) (hlen : M.length = S.length) :
    p ∈ box (S ++ T) (M ++ N) ↔ p ∈ box S M ∧ p / S.prod ∈ box T N := by
  rw [mem_box, digits_append hS, inside_append (by simpa using hlen)]
  rfl

theorem mem_box_emod (hS : ∀ s ∈ S, 0 < s) {n : Int} (hn : S.prod ∣ n) :
    p % n ∈ box S M ↔ p ∈ box S M := by
  rw [mem_box, mem_box, digits_emod hS p hn]

/-- Positions of a set may be recombined at the weight `b`: the part of one above `b` with the part
of another below. -/
def Cut (V : Set Int) (b : Int) : Prop := ∀ p ∈ V, ∀ q ∈ V, p / b * b + q % b ∈ V

/-- A box recombines between any two axes. -/
theorem cut_box (hS : ∀ s ∈ S, 0 < s) (hlen : M.length = S.length) :
    Cut (box (S ++ T) (M ++ N)) S.prod := by
  intro p hp q hq
  have hpos := prod_pos hS
  rw [mem_box_append hS hlen] at hp hq ⊢
  have hlow : (p / S.prod * S.prod + q % S.prod) % S.prod = q % S.prod := by
    rw [mul_add_emod_self_right, emod_emod]
  have hhigh : (p / S.prod * S.prod + q % S.prod) / S.prod = p / S.prod := by
    rw [add_comm, add_mul_ediv_right _ _ hpos.ne',
      ediv_eq_zero_of_lt (emod_nonneg q hpos.ne') (emod_lt_of_pos q hpos), zero_add]
  refine ⟨?_, by rw [hhigh]; exact hp.2⟩
  rw [← mem_box_emod hS dvd_rfl, hlow, mem_box_emod hS dvd_rfl]
  exact hq.1

/-- A box has no gaps along an axis. -/
theorem step_box (hS : ∀ s ∈ S, 0 < s) (hd : 0 < d) (hlen : M.length = S.length)
    (hx : x ∈ box (S ++ d :: T) (M ++ m :: N)) (hy : y ∈ box (S ++ d :: T) (M ++ m :: N))
    (hblock : x / (S.prod * d) = y / (S.prod * d)) (hlt : x / S.prod < y / S.prod) :
    x + S.prod ∈ box (S ++ d :: T) (M ++ m :: N) ∧
      (x + S.prod) / (S.prod * d) = x / (S.prod * d) := by
  have hpos := prod_pos hS
  rw [← ediv_ediv_of_nonneg hpos.le, ← ediv_ediv_of_nonneg hpos.le] at hblock ⊢
  have hnext : (x + S.prod) / S.prod = x / S.prod + 1 := by
    rw [Int.add_ediv_of_dvd_right dvd_rfl, Int.ediv_self hpos.ne']
  rw [mem_box_append hS hlen, mem_box_cons] at hx hy
  obtain ⟨hx_low, hx_digit, hx_high⟩ := hx
  obtain ⟨-, hy_digit, -⟩ := hy
  have hxd := mul_ediv_add_emod (x / S.prod) d
  have hyd := mul_ediv_add_emod (y / S.prod) d
  have hylt := emod_lt_of_pos (y / S.prod) hd
  have hxnn := emod_nonneg (x / S.prod) hd.ne'
  rw [hblock] at hxd
  have hsame : (x / S.prod + 1) / d = x / S.prod / d := by
    rw [ediv_eq_iff_of_pos hd, mul_comm, hblock]
    constructor <;> omega
  have hdigit : (x / S.prod + 1) % d = x / S.prod % d + 1 := by
    have := mul_ediv_add_emod (x / S.prod + 1) d
    rw [hsame, hblock] at this
    omega
  refine ⟨?_, by rw [hnext, hsame]⟩
  rw [mem_box_append hS hlen, mem_box_cons, hnext, hsame, hdigit]
  refine ⟨?_, ⟨by omega, by omega⟩, hx_high⟩
  rw [← mem_box_emod hS dvd_rfl, add_emod_right, mem_box_emod hS dvd_rfl]
  exact hx_low

/-! ## Pinned sets -/

/-- Neighbouring blocks whose numbers leave the same remainder are one block. -/
theorem ediv_eq_of_emod_eq {r c : Int} (hr : 0 < r) (hs : 2 ≤ s) (hxy : |x - y| < r)
    (hx : x / r % s = c) (hy : y / r % s = c) : x / r = y / r := by
  have hbound : x / r - y / r < 2 ∧ y / r - x / r < 2 := by
    rw [abs_lt] at hxy
    constructor
    · have h1 := mul_ediv_self_le (x := x) (k := r) hr.ne'
      have h2 := lt_mul_ediv_self_add (x := y) hr
      by_contra hcon
      have : r * 2 ≤ r * (x / r - y / r) := by
        apply mul_le_mul_of_nonneg_left _ hr.le
        omega
      rw [mul_sub] at this
      omega
    · have h1 := mul_ediv_self_le (x := y) (k := r) hr.ne'
      have h2 := lt_mul_ediv_self_add (x := x) hr
      by_contra hcon
      have : r * 2 ≤ r * (y / r - x / r) := by
        apply mul_le_mul_of_nonneg_left _ hr.le
        omega
      rw [mul_sub] at this
      omega
  have hdvd : s ∣ x / r - y / r := Int.ModEq.dvd (hy.trans hx.symm)
  obtain ⟨k, hk⟩ := hdvd
  have hk0 : k = 0 := by
    by_contra hne
    have : 2 ≤ |s * k| := by
      rw [abs_mul, abs_of_nonneg (by omega : 0 ≤ s)]
      have : 1 ≤ |k| := one_le_abs hne
      nlinarith
    rw [← hk] at this
    have := abs_lt.mpr ⟨by omega, hbound.1⟩
    omega
  rw [hk0, mul_zero] at hk
  omega

/-- A set of positions that recombines at `r` and at `q`, that has no gaps in the digit of weight `a`
below `q`, and whose blocks of size `r` all leave one remainder. -/
structure Pinned (X : Set Int) (a r q : Int) : Prop where
  a_pos : 0 < a
  a_lt : a < r
  r_lt : r < q
  cut_r : Cut X r
  cut_q : Cut X q
  step : ∀ x ∈ X, ∀ y ∈ X, x / q = y / q → x / a < y / a → x + a ∈ X ∧ (x + a) / q = x / q
  point : ∃ s c : Int, 2 ≤ s ∧ ∀ x ∈ X, x / r % s = c

namespace Pinned

variable {X : Set Int} {a r q : Int}

/-- Positions in one block of size `q` are in one block of size `r`. -/
theorem ediv_eq (h : Pinned X a r q) (hx : x ∈ X) (hy : y ∈ X) (hq : x / q = y / q) :
    x / r = y / r := by
  obtain ⟨s, c, hs, hpoint⟩ := h.point
  have hr : 0 < r := h.a_pos.trans h.a_lt
  -- induction on the distance of the digits of weight `a`
  have main : ∀ n : ℕ, ∀ x y : Int, x ∈ X → y ∈ X → x / q = y / q → y / a - x / a = n →
      x / r = y / r := by
    intro n
    induction n with
    | zero =>
      intro x y hx hy _ hn
      refine ediv_eq_of_emod_eq hr hs ?_ (hpoint x hx) (hpoint y hy)
      have h1 := mul_ediv_add_emod x a
      have h2 := mul_ediv_add_emod y a
      have h3 : y / a = x / a := by omega
      have h4 := emod_nonneg x h.a_pos.ne'
      have h5 := emod_nonneg y h.a_pos.ne'
      have h6 := emod_lt_of_pos x h.a_pos
      have h7 := emod_lt_of_pos y h.a_pos
      have h8 := h.a_lt
      rw [h3] at h2
      rw [abs_lt]
      constructor <;> omega
    | succ n ih =>
      intro x y hx hy hq hn
      obtain ⟨hmem, hblock⟩ := h.step x hx y hy hq (by omega)
      have hnext : (x + a) / a = x / a + 1 := Int.add_ediv_of_dvd_right (dvd_refl a) |>.trans
        (by rw [Int.ediv_self h.a_pos.ne'])
      have hstay : x / r = (x + a) / r := by
        refine ediv_eq_of_emod_eq hr hs ?_ (hpoint x hx) (hpoint _ hmem)
        have := h.a_lt
        have := h.a_pos
        rw [abs_lt]
        constructor <;> omega
      rw [hstay]
      exact ih (x + a) y hmem hy (hblock.trans hq) (by push_cast at hn; omega)
  rcases le_total (x / a) (y / a) with hle | hle
  · exact main (y / a - x / a).toNat x y hx hy hq (by omega)
  · exact (main (x / a - y / a).toNat y x hy hx hq.symm (by omega)).symm

/-- A position moved up inside its block of size `r` stays in its block of size `q`. -/
theorem add_ediv (h : Pinned X a r q) (hx : x ∈ X) (hd : 0 < d) (hmem : x + d ∈ X)
    (hr : (x + d) / r = x / r) : (x + d) / q = x / q := by
  have hrpos : 0 < r := h.a_pos.trans h.a_lt
  have hqpos : 0 < q := hrpos.trans h.r_lt
  by_contra hne
  have hdr : d < r := by
    have h1 := mul_ediv_add_emod x r
    have h2 := mul_ediv_add_emod (x + d) r
    have h3 := emod_nonneg x hrpos.ne'
    have h4 := emod_lt_of_pos (x + d) hrpos
    rw [hr] at h2
    omega
  have hnext : (x + d) / q = x / q + 1 := by
    have h1 : (x + d) / q ≤ (x + q) / q := Int.ediv_le_ediv hqpos (by have := h.r_lt; omega)
    have h2 : x / q ≤ (x + d) / q := Int.ediv_le_ediv hqpos (by omega)
    rw [Int.add_ediv_of_dvd_right (dvd_refl q), Int.ediv_self hqpos.ne'] at h1
    omega
  -- the whole block above would hold a position one block of size `q` further
  have hfar : x + q ∈ X := by
    have := h.cut_q (x + d) hmem x hx
    rw [hnext] at this
    have hx' := mul_ediv_add_emod x q
    have : x + q = (x / q + 1) * q + x % q := by rw [add_mul, one_mul, mul_comm]; omega
    simpa [this] using ‹(x / q + 1) * q + x % q ∈ X›
  have hsame : (x + q) / r = (x + d) / r := by
    refine h.ediv_eq hfar hmem ?_
    rw [hnext, Int.add_ediv_of_dvd_right (dvd_refl q), Int.ediv_self hqpos.ne']
  have hge : x / r + 1 ≤ (x + q) / r := by
    have : (x + r) / r ≤ (x + q) / r := Int.ediv_le_ediv hrpos (by have := h.r_lt; omega)
    rwa [Int.add_ediv_of_dvd_right (dvd_refl r), Int.ediv_self hrpos.ne'] at this
  omega

/-- Positions with the same remainder by `q` have the same remainder by `r`. -/
theorem not_emod_lt (h : Pinned X a r q) : ∀ n : ℕ, ∀ x z : Int, x ∈ X → z ∈ X →
    x % q = z % q → r - x % r ≤ n → ¬ x % r < z % r := by
  have hrpos : 0 < r := h.a_pos.trans h.a_lt
  have hqpos : 0 < q := hrpos.trans h.r_lt
  intro n
  induction n with
  | zero =>
    intro x z _ _ _ hn hlt
    have := emod_lt_of_pos x hrpos
    omega
  | succ n ih =>
    intro x z hx hz hmod hn hlt
    -- moving both up by the difference gives two positions of the same kind, closer to the end
    obtain ⟨d, hd⟩ : ∃ d, d = z % r - x % r := ⟨_, rfl⟩
    have hz1 := emod_lt_of_pos z hrpos
    have hx1 := emod_nonneg x hrpos.ne'
    have hxr := mul_ediv_add_emod x r
    have hxd : x + d ∈ X := by
      have := h.cut_r x hx z hz
      have heq : x / r * r + z % r = x + d := by rw [mul_comm]; omega
      rwa [heq] at this
    have hxd_r : (x + d) / r = x / r := by
      rw [ediv_eq_iff_of_pos hrpos, mul_comm]
      constructor <;> omega
    have hxd_q : (x + d) / q = x / q := h.add_ediv hx (by omega) hxd hxd_r
    have hlow : (x + d) % q = z % q + d := by
      have h1 := mul_ediv_add_emod x q
      have h2 := mul_ediv_add_emod (x + d) q
      rw [hxd_q] at h2
      omega
    have hzd : z + d ∈ X := by
      have := h.cut_q z hz (x + d) hxd
      have hzq := mul_ediv_add_emod z q
      have heq : z / q * q + (x + d) % q = z + d := by rw [hlow, mul_comm]; omega
      rwa [heq] at this
    have hzd_q : (z + d) / q = z / q := by
      have h1 := mul_ediv_add_emod z q
      have h2 := emod_nonneg (x + d) hqpos.ne'
      have h3 := emod_lt_of_pos (x + d) hqpos
      rw [ediv_eq_iff_of_pos hqpos, mul_comm]
      constructor <;> omega
    have hzd_r : (z + d) / r = z / r := h.ediv_eq hzd hz hzd_q
    have hxd_mod : (x + d) % r = x % r + d := by
      have h2 := mul_ediv_add_emod (x + d) r
      rw [hxd_r] at h2
      omega
    have hzd_mod : (z + d) % r = z % r + d := by
      have h1 := mul_ediv_add_emod z r
      have h2 := mul_ediv_add_emod (z + d) r
      rw [hzd_r] at h2
      omega
    have hmod' : (x + d) % q = (z + d) % q := by
      have h1 := mul_ediv_add_emod z q
      have h2 := mul_ediv_add_emod (z + d) q
      rw [hzd_q] at h2
      omega
    exact ih (x + d) (z + d) hxd hzd hmod' (by push_cast at hn; omega) (by omega)

/-- **The remainders by `q` and by `r` differ by one number throughout the set.** -/
theorem emod_sub_emod (h : Pinned X a r q) (hx : x ∈ X) (hy : y ∈ X) :
    x % q - x % r = y % q - y % r := by
  have hqpos : 0 < q := (h.a_pos.trans h.a_lt).trans h.r_lt
  -- the position of `x` inside the block of `y`
  obtain ⟨z, hz⟩ : ∃ z, z = y / q * q + x % q := ⟨_, rfl⟩
  have hzX : z ∈ X := hz ▸ h.cut_q y hy x hx
  have hx0 := emod_nonneg x hqpos.ne'
  have hx1 := emod_lt_of_pos x hqpos
  have hzq : z / q = y / q := by
    rw [ediv_eq_iff_of_pos hqpos]
    constructor <;> omega
  have hzmod : z % q = x % q := by
    have h1 := mul_ediv_add_emod z q
    rw [hzq, mul_comm] at h1
    omega
  have hlow : z % r = x % r := by
    rcases lt_trichotomy (z % r) (x % r) with hlt | heq | hlt
    · exact absurd hlt (h.not_emod_lt _ z x hzX hx hzmod (self_le_toNat _))
    · exact heq
    · exact absurd hlt (h.not_emod_lt _ x z hx hzX hzmod.symm (self_le_toNat _))
  have hzr : z / r = y / r := h.ediv_eq hzX hy hzq
  have h1 := mul_ediv_add_emod z r
  have h2 := mul_ediv_add_emod y r
  have h3 := mul_ediv_add_emod z q
  have h4 := mul_ediv_add_emod y q
  rw [hzr] at h1
  rw [hzq] at h3
  omega

end Pinned

end LazyTensor.Radix

