import Mathlib
import LazyTensor.Lower.Strength

/-!
# Quotients by constants

A quotient by a constant becomes a product and a shift to the right.  The factor is the power of two
of the shift, rounded up to a multiple of the divisor and divided by it, so a product is too large;
the search is for the least shift at which no number up to the bound notices.

The threshold of a comparison `a * x < b` is a quotient too, taken from the nearest double.  That is
on the right side of every integer as long as `b` has no more bits than a significand.

## Main results

* `Division.magic_found_exact`: the search finds the least shift, and the shift divides exactly.
* `Binary64.nearest_compare`: rounding keeps the order of a fraction and the integers.
* `Algebra.thresholds_exact`: thresholds of comparisons with a small constant are exact.
-/

namespace LazyTensor

/-! ## A product and a shift -/

namespace Division

variable {vmax nc d x : Int} {s : Nat}

/-- What a power of two lacks to a multiple of the divisor. -/
def lack (d : Int) (s : Nat) : Int := d - 1 - (2 ^ s - 1 : Int).fmod d

theorem exactBy_iff : exactBy nc d s = true ↔ nc * lack d s < 2 ^ s := by
  simp [exactBy, lack]

theorem lack_bounds (hd : 0 < d) : 0 ≤ lack d s ∧ lack d s < d := by
  have h0 := Int.fmod_nonneg_of_pos (2 ^ s - 1) hd
  have h1 := Int.fmod_lt_of_pos (2 ^ s - 1) hd
  unfold lack
  omega

theorem factor_mul (hd : 0 < d) : factor d s * d = 2 ^ s + lack d s := by
  have hsum : 2 ^ s + d - 1 - (2 ^ s - 1 : Int).fmod d = (2 ^ s + lack d s : Int) := by
    unfold lack
    omega
  have hdvd : d ∣ (2 ^ s + lack d s : Int) := by
    refine ⟨(2 ^ s - 1 : Int).fdiv d + 1, ?_⟩
    have := Int.fmod_add_mul_fdiv (2 ^ s - 1) d
    unfold lack
    linarith
  rw [factor, hsum, Int.fdiv_eq_ediv_of_nonneg _ hd.le, Int.ediv_mul_cancel hdvd]

theorem lt_two_pow_bitLength (n : Nat) : n < 2 ^ bitLength n := by
  unfold bitLength
  split
  · simp [*]
  · exact Nat.lt_log2_self

/-- `nc` is the greatest number up to the bound that has the greatest remainder. -/
structure Critical (vmax d nc : Int) : Prop where
  pos : 0 < d
  ge : d - 1 ≤ nc
  le : nc ≤ vmax
  near : vmax < nc + d
  last : ∀ x ≤ vmax, x % d = d - 1 → x ≤ nc

theorem critical_of_le (hd : 1 ≤ d) (hle : d ≤ vmax + 1) :
    Critical vmax d ((vmax + 1).fdiv d * d - 1) := by
  have hpos : 0 < d := hd
  rw [Int.fdiv_eq_ediv_of_nonneg _ hpos.le]
  have hmod := Int.emod_add_mul_ediv (vmax + 1) d
  have h0 := Int.emod_nonneg (vmax + 1) hpos.ne'
  have h1 := Int.emod_lt_of_pos (vmax + 1) hpos
  have hone : 1 ≤ (vmax + 1) / d := by rwa [Int.le_ediv_iff_mul_le hpos, one_mul]
  refine ⟨hpos, by nlinarith, by linarith, by linarith, fun x hx hr => ?_⟩
  -- the successor of such a number is a multiple of `d`
  have hq := Int.emod_add_mul_ediv x d
  have hnext : x / d + 1 ≤ (vmax + 1) / d := by
    rw [Int.le_ediv_iff_mul_le hpos]
    linarith
  nlinarith

/-- A shift by twice the bits of the bound passes the test. -/
theorem Critical.exactBy_last (h : Critical vmax d nc) :
    exactBy nc d (2 * bitLength vmax.natAbs) = true := by
  have hpos := h.pos
  have hge := h.ge
  have hle := h.le
  have hv : vmax < 2 ^ bitLength vmax.natAbs := by
    have := lt_two_pow_bitLength vmax.natAbs
    zify at this
    exact (le_abs_self vmax).trans_lt this
  obtain ⟨h0, h1⟩ := lack_bounds (s := 2 * bitLength vmax.natAbs) hpos
  rw [exactBy_iff]
  calc nc * lack d _ ≤ vmax * vmax := mul_le_mul hle (by omega) h0 (by omega)
    _ < 2 ^ bitLength vmax.natAbs * 2 ^ bitLength vmax.natAbs :=
      mul_lt_mul'' hv hv (by omega) (by omega)
    _ = 2 ^ (2 * bitLength vmax.natAbs) := by rw [two_mul, pow_add]

/-- What the factor adds to a product does not reach the next quotient. -/
theorem Critical.excess_lt (h : Critical vmax d nc) (hs : nc * lack d s < 2 ^ s) (hx : x ≤ vmax) :
    x * lack d s < (d - x % d) * 2 ^ s := by
  have h0 : 0 ≤ lack d s := (lack_bounds h.pos).1
  have hP : (0 : Int) < 2 ^ s := by positivity
  have hr := Int.emod_lt_of_pos x h.pos
  rcases eq_or_ne (x % d) (d - 1) with hlast | hlast
  · calc x * lack d s ≤ nc * lack d s := mul_le_mul_of_nonneg_right (h.last x hx hlast) h0
      _ < 2 ^ s := hs
      _ = (d - x % d) * 2 ^ s := by rw [hlast]; ring
  · -- `x` is at most twice `nc`, and the next multiple of `d` at least two away
    have hnear := h.near
    have hge := h.ge
    calc x * lack d s ≤ (2 * nc) * lack d s := mul_le_mul_of_nonneg_right (by omega) h0
      _ < 2 * 2 ^ s := by linarith
      _ ≤ (d - x % d) * 2 ^ s := mul_le_mul_of_nonneg_right (by omega) hP.le

theorem Critical.shiftRight_eq (h : Critical vmax d nc) (hs : nc * lack d s < 2 ^ s) (h0 : 0 ≤ x)
    (hx : x ≤ vmax) : (x * factor d s) >>> s = x / d := by
  have hpos := h.pos
  have hP : (0 : Int) < 2 ^ s := by positivity
  have hlack : 0 ≤ lack d s := (lack_bounds hpos).1
  have hexcess := h.excess_lt hs hx
  have hmul : x * factor d s * d = x * 2 ^ s + x * lack d s := by
    rw [mul_assoc, factor_mul hpos, mul_add]
  have hdm := Int.emod_add_mul_ediv x d
  have hr := Int.emod_nonneg x hpos.ne'
  rw [Int.shiftRight_eq_div_pow]
  push_cast
  rw [Int.ediv_eq_iff_of_pos hP]
  constructor
  · refine le_of_mul_le_mul_right ?_ hpos
    nlinarith
  · refine lt_of_mul_lt_mul_right ?_ hpos.le
    nlinarith

/-- **Division by a product and a shift.**  For a divisor that is not past the bound there is a
factor and a shift, the shift is the least that passes the test, and every number up to the bound is
divided exactly. -/
theorem magic_found_exact (vmax d : Int) (hd : 1 ≤ d) (hle : d ≤ vmax + 1) :
    ∃ m s, magic? vmax d = .ok (m, s) ∧
      IsLeast {k | exactBy ((vmax + 1).fdiv d * d - 1) d k = true} s ∧
      ∀ x, 0 ≤ x → x ≤ vmax → (x * m) >>> s = x / d := by
  have hcrit := critical_of_le hd hle
  have hfind : ((List.range (2 * bitLength vmax.natAbs + 1)).find?
      (exactBy ((vmax + 1).fdiv d * d - 1) d)).isSome := by
    rw [List.find?_isSome]
    exact ⟨_, List.mem_range.mpr (Nat.lt_succ_self _), hcrit.exactBy_last⟩
  obtain ⟨s, hs⟩ := Option.isSome_iff_exists.mp hfind
  obtain ⟨htest, -, hleast⟩ := List.find?_range_eq_some.mp hs
  refine ⟨factor d s, s, ?_, ⟨htest, fun k hk => ?_⟩, fun x h0 hx =>
    hcrit.shiftRight_eq (exactBy_iff.mp htest) h0 hx⟩
  · rw [magic?, if_neg hcrit.pos.ne']
    simp only [hs]
  · by_contra hlt
    simpa [show exactBy _ d k = true from hk] using hleast k (by omega)

/-- Numbers up to a million are divided by seven with the factor 1198373 and a shift by 23. -/
theorem magic_found_exact_seven : 1 ≤ (7 : Int) ∧ 7 ≤ (1000000 + 1 : Int) ∧
    magic? 1000000 7 = .ok (1198373, 23) ∧
      ∀ x : Int, 0 ≤ x → x ≤ 1000000 → (x * 1198373) >>> (23 : Nat) = x / 7 := by
  obtain ⟨m, s, hm, -, h⟩ := magic_found_exact 1000000 7 (by decide) (by decide)
  have hvalue : magic? 1000000 7 = .ok (1198373, 23) := by decide +kernel
  cases hm.symm.trans hvalue
  exact ⟨by decide, by decide, hvalue, h⟩

end Division

/-! ## The nearest double -/

namespace Binary64

variable {n d : Nat}

theorem roundDiv_spec (n : Nat) (hd : 0 < d) :
    2 * n ≤ 2 * (roundDiv n d * d) + d ∧ 2 * (roundDiv n d * d) ≤ 2 * n + d := by
  have hdm := Nat.div_add_mod' n d
  have hr := Nat.mod_lt n hd
  have hsucc := Nat.add_one_mul (n / d) d
  unfold roundDiv
  dsimp only
  split_ifs <;> omega

section Fraction

-- the numerator has no more bits than a significand
variable (hn : n < 2 ^ 53) (hd : 0 < d) (hd' : d < 2 ^ 64)
include hn hd hd'

/-- The significand counts units of `1 / 2 ^ t`, and half a unit is less than one part of the
denominator. -/
theorem nearest_eq :
    ∃ t : Nat, nearest 52 11 n d = (roundDiv (n * 2 ^ t) d, 52 - (t : Int)) ∧ d < 2 * 2 ^ t ∧
      n * 2 ^ t < 2 ^ 54 * d := by
  have hn' : n.log2 < 53 := by
    rcases eq_or_ne n 0 with rfl | h0
    · decide
    · rwa [Nat.log2_lt h0]
  have hl : d.log2 < 64 := by rwa [Nat.log2_lt hd.ne']
  have hself := Nat.log2_self_le hd.ne'
  have hlt : d < 2 ^ (d.log2 + 1) := Nat.lt_log2_self
  have hnlt : n < 2 ^ (n.log2 + 1) := Nat.lt_log2_self
  have he : (nearest 52 11 n d).2 = n.log2 - d.log2 ∨
      (nearest 52 11 n d).2 = n.log2 - d.log2 - 1 := by
    unfold nearest
    dsimp only
    split_ifs <;> omega
  have hm : (nearest 52 11 n d).1 = roundDiv (n * 2 ^ (52 - (nearest 52 11 n d).2).toNat) d :=
    if_pos (show (0 : Int) ≤ 52 - (nearest 52 11 n d).2 by omega)
  generalize nearest 52 11 n d = r at he hm ⊢
  obtain ⟨m, e⟩ := r
  dsimp only at he hm
  have ht : ((52 - e).toNat : Int) = 52 - e := Int.toNat_of_nonneg (by omega)
  refine ⟨(52 - e).toNat, by rw [ht, hm]; simp, ?_, ?_⟩
  · rw [← pow_succ']
    exact hlt.trans_le (Nat.pow_le_pow_right two_pos (by omega))
  · calc n * 2 ^ (52 - e).toNat < 2 ^ (n.log2 + 1) * 2 ^ (52 - e).toNat := by gcongr
      _ = 2 ^ (n.log2 + 1 + (52 - e).toNat) := (pow_add ..).symm
      _ ≤ 2 ^ (54 + d.log2) := Nat.pow_le_pow_right two_pos (by omega)
      _ = 2 ^ 54 * 2 ^ d.log2 := pow_add ..
      _ ≤ 2 ^ 54 * d := by gcongr

/-- Rounding keeps the order of the fraction and every integer. -/
theorem nearest_compare :
    ∃ m t : Nat, nearest 52 11 n d = (m, 52 - (t : Int)) ∧ m < 2 ^ 55 ∧
      ∀ x : Int, (x * 2 ^ t < m ↔ d * x < n) ∧ (m < x * 2 ^ t ↔ n < d * x) := by
  obtain ⟨t, hnear, hunit, htop⟩ := nearest_eq hn hd hd'
  obtain ⟨hlo, hhi⟩ := roundDiv_spec (n * 2 ^ t) hd
  generalize roundDiv (n * 2 ^ t) d = m at hnear hlo hhi
  refine ⟨m, t, hnear, by nlinarith, fun x => ?_⟩
  zify at hunit hlo hhi hd
  have hP : (0 : Int) < 2 ^ t := by positivity
  -- where they differ it is by a part at least, which half a unit does not make up for
  rcases lt_trichotomy ((d : Int) * x) n with h | h | h
  · have hm : x * 2 ^ t < m := by nlinarith
    omega
  · have hm : x * 2 ^ t = m := by
      rw [← h] at hlo hhi
      have hle : 2 * (x * 2 ^ t) ≤ 2 * (m : Int) + 1 := by nlinarith
      have hge : 2 * (m : Int) ≤ 2 * (x * 2 ^ t) + 1 := by nlinarith
      omega
    omega
  · have hm : m < x * 2 ^ t := by nlinarith
    omega

theorem lt_ceilFraction_iff (x : Int) :
    x < ceilFraction n d ↔ d * x < n := by
  obtain ⟨m, t, hnear, -, hcmp⟩ := nearest_compare hn hd hd'
  rw [← (hcmp x).1]
  unfold ceilFraction
  rw [hnear]
  have hP : (0 : Int) < 2 ^ t := by positivity
  have hceil : x < (m + 2 ^ t - 1) / 2 ^ t ↔ x * 2 ^ t < m := by
    rw [← Int.add_one_le_iff, Int.le_ediv_iff_mul_le hP, add_one_mul]
    omega
  simpa using hceil

theorem floorFraction_lt_iff (x : Int) :
    floorFraction n d < x ↔ n < d * x := by
  obtain ⟨m, t, hnear, -, hcmp⟩ := nearest_compare hn hd hd'
  rw [← (hcmp x).2]
  unfold floorFraction
  rw [hnear]
  simpa using Int.ediv_lt_iff_lt_mul (a := m) (b := x) (show (0 : Int) < 2 ^ t by positivity)

theorem roundFormat_isSome :
    (roundFormat 52 11 n d).isSome := by
  obtain ⟨m, t, hnear, hm, -⟩ := nearest_compare hn hd hd'
  unfold roundFormat
  rw [hnear]
  dsimp only
  split_ifs with h0 hbig
  · rfl
  · omega
  · rfl

end Fraction

end Binary64

/-! ## Thresholds of comparisons -/

namespace Algebra

variable {a b : Int} {env : Env} {s : Store}

theorem wholeDiv_int {onInts : Nat → Nat → Nat} {onFloat : Float → Int} (ha : a ≠ 0)
    (hfit : a.natAbs < 2 ^ 64) (hb : b.natAbs < 2 ^ 53) :
    wholeDiv onInts onFloat (.int b) (.int a) env s = .ok (onInts b.natAbs a.natAbs) s := by
  obtain ⟨c, hc⟩ : ∃ c, Const.trueDiv (.int b) (.int a) = .ok c := by
    unfold Const.trueDiv
    simp only [Const.int?]
    rw [if_neg ha]
    split
    · exact ⟨_, rfl⟩
    · have hsome := Binary64.roundFormat_isSome hb (Int.natAbs_pos.mpr ha) hfit
      obtain ⟨r, hr⟩ := Option.isSome_iff_exists.mp hsome
      rw [hr]
      exact ⟨_, rfl⟩
  unfold wholeDiv
  rw [hc]
  rfl

/-- **Thresholds are exact below `2 ^ 53`.**  A comparison of `a * x` with a constant `b` that has no
more bits than a significand is that of `x` with the threshold found, for positive factors and for
negative ones. -/
theorem thresholds_exact (hfit : a.natAbs < 2 ^ 64) (hb : b.natAbs < 2 ^ 53) :
    (0 < a → 0 < b → ∃ k, ceilDiv (.int b) (.int a) env s = .ok k s ∧
      ∀ x, x < k ↔ a * x < b) ∧
    (a < 0 → b ≤ 0 → ∃ k, floorDiv (Const.neg (.int b)) (Const.neg (.int a)) env s = .ok k s ∧
      ∀ x, -x < -k ↔ a * x < b) := by
  constructor
  · intro h0 h1
    refine ⟨_, wholeDiv_int h0.ne' hfit hb, fun x => ?_⟩
    rw [Binary64.lt_ceilFraction_iff hb (by omega) hfit, Int.natAbs_of_nonneg h0.le,
      Int.natAbs_of_nonneg h1.le]
  · intro h0 h1
    refine ⟨_, wholeDiv_int (by omega) (by omega) (by omega), fun x => ?_⟩
    rw [neg_lt_neg_iff, Binary64.floorFraction_lt_iff (by omega) (by omega) (by omega),
      Int.natAbs_of_nonneg (by omega), Int.natAbs_of_nonneg (by omega), neg_mul, neg_lt_neg_iff]

/-- With the greatest constant below the limit, thirds are exact. -/
theorem thresholds_exact_thirds : (3 : Int).natAbs < 2 ^ 64 ∧
    (9007199254740991 : Int).natAbs < 2 ^ 53 ∧ ∀ env s,
    ∃ k, ceilDiv (.int 9007199254740991) (.int 3) env s = .ok k s ∧
      ∀ x, x < k ↔ 3 * x < 9007199254740991 :=
  ⟨by decide, by decide, fun _ _ =>
    (thresholds_exact (by decide) (by decide)).1 (by decide) (by decide)⟩

/-- Above it, the threshold of `3 * x < 1152921504606847008` is too high. -/
theorem threshold_rounded : ∃ k : Int,
    (∀ env s, ceilDiv (.int 1152921504606847008) (.int 3) env s = .ok k s) ∧
      384307168202282336 < k ∧ ¬(3 * 384307168202282336 < (1152921504606847008 : Int)) :=
  ⟨384307168202282368, fun _ _ => rfl, by decide, by decide⟩

end Algebra

end LazyTensor
