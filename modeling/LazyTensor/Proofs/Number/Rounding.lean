import LazyTensor.Number.Narrow
import Mathlib

/-!
# Rounding to eight bits

A code of a binary format stands for a number: its fraction bits with a leading one before them,
scaled by its exponent, or without the leading one where the exponent field is zero.  Numbers are
counted in the least positive double, `2 ^ (-1074)`, of which all are multiples.  Codes are in the
order of their numbers, and as far apart as a unit of the last place, so what division by that unit
leaves says which of two neighbours is nearer.

## Main results

* `Narrow.toFp8_nearest`: eight bits hold the code nearest to a double.
-/

namespace LazyTensor

/-! ## Nearest codes -/

/-- A code up to the last whose number is the nearest to another: all other codes are further away,
or as far and the code is even. -/
structure Nearest (value : ℕ → ℕ) (last x c : ℕ) : Prop where
  le_last : c ≤ last
  nearer : ∀ k ≤ last, k ≠ c → (value c).dist x < (value k).dist x ∨
    (value c).dist x = (value k).dist x ∧ c % 2 = 0

namespace Nearest

variable {value : ℕ → ℕ} {last x c : ℕ} (hv : StrictMono value)
include hv

/-- Only the neighbours matter. -/
theorem of_neighbours (hc : c ≤ last)
    (hlo : ∀ k, k + 1 = c → value k + value c ≤ 2 * x ∧ (value k + value c = 2 * x → c % 2 = 0))
    (hhi : c < last → 2 * x ≤ value c + value (c + 1) ∧
      (2 * x = value c + value (c + 1) → c % 2 = 0)) : Nearest value last x c := by
  refine ⟨hc, fun k hk hne => ?_⟩
  simp only [Nat.dist]
  rcases lt_or_gt_of_ne hne with hlt | hlt
  · obtain ⟨n, rfl⟩ : ∃ n, c = n + 1 := ⟨c - 1, by omega⟩
    have hmid := hlo n rfl
    have hkn := hv.monotone (Nat.le_of_lt_succ hlt)
    have hkc := hv hlt
    omega
  · have hmid := hhi (hlt.trans_le hk)
    have hnk := hv.monotone (Nat.add_one_le_of_lt hlt)
    have hck := hv hlt
    omega

theorem of_last_le (h : value last ≤ x) : Nearest value last x last := by
  refine of_neighbours hv le_rfl (fun k hk => ?_) fun h => absurd h (lt_irrefl _)
  have := hv (hk ▸ k.lt_succ_self : k < last)
  omega

theorem eq_last (h : Nearest value last x c) (hx : value last ≤ x) : c = last := by
  by_contra hne
  have hlt := hv (lt_of_le_of_ne h.le_last hne)
  have hnear := h.nearer last le_rfl (Ne.symm hne)
  simp only [Nat.dist] at hnear
  omega

open Narrow in
/-- The rest left out rounds to the nearer neighbour, and at the half to the even one. -/
theorem of_rest {r n rest half u : ℕ} (hu : 0 < u) (hrest : rest < 2 * half)
    (hx : x = value r + rest * u) (hgap : value (r + 1) = value r + 2 * half * u)
    (hn : n % 2 = r % 2) (hlast : rounded r n rest half ≤ last) :
    Nearest value last x (rounded r n rest half) := by
  have hlt := Nat.mul_lt_mul_of_pos_right hrest hu
  rw [rounded] at hlast ⊢
  rw [mul_assoc] at hgap hlt
  split_ifs at hlast ⊢ with hup
  · have hnext := hv (r + 1).lt_add_one
    refine of_neighbours hv hlast (fun k hk => ?_) fun _ => by omega
    obtain rfl : k = r := by omega
    rcases hup with hup | ⟨rfl, hodd⟩
    · have := Nat.mul_lt_mul_of_pos_right hup hu
      omega
    · omega
  · refine of_neighbours hv hlast (fun k hk => ?_) fun _ => ?_
    · have := hv (hk ▸ k.lt_succ_self : k < r)
      omega
    · rcases lt_or_eq_of_le (by omega : rest ≤ half) with hdown | rfl
      · have := Nat.mul_lt_mul_of_pos_right hdown hu
        omega
      · omega

end Nearest

/-! ## Codes of binary formats -/

namespace Binary

/-- The number that a code without a sign stands for, in a format with `p` fraction bits whose least
number is `2 ^ u`. -/
def magnitude (p u code : ℕ) : ℕ :=
  if code < 2 ^ p then code * 2 ^ u else (code % 2 ^ p + 2 ^ p) * 2 ^ (code / 2 ^ p - 1 + u)

variable {p u c e : ℕ}

/-- The codes with one exponent, and the first with the next, are evenly spaced. -/
theorem magnitude_eq (hlo : e = 0 ∨ (e + 1) * 2 ^ p ≤ c) (hhi : c ≤ (e + 2) * 2 ^ p) :
    magnitude p u c = (c - e * 2 ^ p) * 2 ^ (e + u) := by
  have hP : 0 < 2 ^ p := Nat.two_pow_pos p
  have hdm := Nat.div_add_mod' c (2 ^ p)
  rw [add_mul] at hlo hhi
  rw [magnitude]
  split
  case isTrue hlt =>
    obtain rfl : e = 0 := by omega
    simp
  case isFalse hge =>
    have hle : e + 1 ≤ c / 2 ^ p := by
      rw [Nat.le_div_iff_mul_le hP, add_mul]
      rcases hlo with rfl | h <;> omega
    rcases hhi.eq_or_lt with hlast | hlt
    · rw [hlast, Nat.add_sub_cancel_left, ← add_mul, Nat.mul_mod_left, Nat.mul_div_left _ hP,
        show e + 2 - 1 + u = e + u + 1 by omega]
      ring
    · have hdiv : c / 2 ^ p = e + 1 :=
        le_antisymm (Nat.le_of_lt_succ (Nat.div_lt_of_lt_mul (by linarith))) hle
      rw [hdiv, add_one_mul] at hdm
      rw [hdiv, show c % 2 ^ p + 2 ^ p = c - e * 2 ^ p by omega, Nat.add_sub_cancel]

theorem magnitude_strictMono (p u : ℕ) : StrictMono (magnitude p u) := by
  refine strictMono_nat_of_lt_succ fun c => ?_
  have hdm := Nat.div_add_mod' c (2 ^ p)
  have hmod := Nat.mod_lt c (Nat.two_pow_pos p)
  generalize c / 2 ^ p = q at hdm
  have h0 : q = 0 ∨ (q - 1 + 1) * 2 ^ p = q * 2 ^ p := by cases q <;> simp
  have h1 : q * 2 ^ p + 2 ^ p ≤ (q - 1 + 2) * 2 ^ p := by
    rw [← add_one_mul]
    exact Nat.mul_le_mul_right _ (by omega)
  have h2 : (q - 1) * 2 ^ p ≤ q * 2 ^ p := Nat.mul_le_mul_right _ (by omega)
  rw [magnitude_eq (e := q - 1) (by omega) (by omega),
    magnitude_eq (e := q - 1) (by omega) (by omega)]
  exact Nat.mul_lt_mul_of_pos_right (by omega) (by positivity)

open Narrow in
/-- A number divided by a unit of the last place, with the quotient rounded. -/
theorem nearest_rounded {j t N r n half last : ℕ} (hu : e + u = j + t) (hN : N < 2 * 2 ^ p * 2 ^ j)
    (he : e = 0 ∨ 2 ^ p * 2 ^ j ≤ N) (hr : r = e * 2 ^ p + N / 2 ^ j) (hn : n % 2 = r % 2)
    (hh : 2 ^ j = 2 * half) (hlast : rounded r n (N % 2 ^ j) half ≤ last) :
    Nearest (magnitude p u) last (N * 2 ^ t) (rounded r n (N % 2 ^ j) half) := by
  have hq : N / 2 ^ j < 2 * 2 ^ p := (Nat.div_lt_iff_lt_mul (by positivity)).mpr hN
  have hlo : e = 0 ∨ (e + 1) * 2 ^ p ≤ r := by
    refine he.imp_right fun hge => ?_
    rw [hr, add_one_mul]
    exact Nat.add_le_add_left ((Nat.le_div_iff_mul_le (by positivity)).mpr hge) _
  have hhi : r + 1 ≤ (e + 2) * 2 ^ p := by
    rw [hr, add_mul]
    omega
  have hbase : e * 2 ^ p ≤ r := hr ▸ Nat.le_add_right _ _
  refine .of_rest (u := 2 ^ t) (magnitude_strictMono p u) (by positivity)
    (hh ▸ Nat.mod_lt _ (by positivity)) ?_ ?_ hn hlast
  · rw [magnitude_eq hlo (by omega), hu, pow_add, hr, Nat.add_sub_cancel_left, ← mul_assoc,
      ← add_mul, Nat.div_add_mod']
  · rw [magnitude_eq (by omega) hhi, magnitude_eq hlo (by omega), hu, pow_add, hh,
      Nat.sub_add_comm hbase]
    ring

end Binary

/-- The magnitude of a finite double, counted in the least positive one. -/
def Binary64.magnitude (x : Float) : ℕ := (decode x).2.1 * 2 ^ ((decode x).2.2 + 1074).toNat

theorem Binary64.magnitude_eq_code (x : Float) :
    magnitude x = Binary.magnitude 52 0 (x.toBits.toNat % 2 ^ 63) := by
  generalize hb : x.toBits.toNat = b
  rw [magnitude, decode, fields, hb, Binary.magnitude]
  dsimp only
  split_ifs with h0 h1 h1
  · rw [show b % 2 ^ 52 = b % 2 ^ 63 by omega]
    rfl
  · omega
  · omega
  · dsimp only
    congr 2 <;> omega

/-! ## Eight bits -/

namespace Narrow

open Binary

theorem lor_add {i b : ℕ} (hb : b < 2 ^ i) (a : ℕ) : Nat.lor (a * 2 ^ i) b = a * 2 ^ i + b := by
  rw [mul_comm]
  exact (Nat.two_pow_add_eq_or_of_lt hb a).symm

/-- The leading one put before the fraction. -/
theorem lor_leading (b : ℕ) {j : ℕ} (hj : j ≤ 53) :
    Nat.lor b (2 ^ 52) % 2 ^ j = (b % 2 ^ 52 + 2 ^ 52) % 2 ^ j := by
  have hset : 2 ^ 52 ||| b % 2 ^ 52 = b % 2 ^ 52 + 2 ^ 52 := by
    rw [add_comm]
    exact lor_add (Nat.mod_lt b (Nat.two_pow_pos 52)) 1
  have hlead : (b ||| 2 ^ 52) % 2 ^ 53 = b % 2 ^ 52 + 2 ^ 52 := by
    rw [Nat.or_mod_two_pow, Nat.or_comm, ← hset]
    change 2 ^ 52 ||| b % 2 ^ 53 = _
    obtain h | h : b % 2 ^ 53 = b % 2 ^ 52 ∨ b % 2 ^ 53 = b % 2 ^ 52 + 2 ^ 52 := by omega
    · rw [h]
    · rw [h, ← hset, ← Nat.or_assoc, Nat.or_self]
  rw [← hlead, Nat.mod_mod_of_dvd _ (pow_dvd_pow 2 hj)]
  rfl

/-- The number that a code without a sign stands for, counted in the least positive double. -/
def Fp8.value (f : Fp8) : ℕ → ℕ := magnitude (f.significand - 1) (1076 - f.bias - f.significand).toNat

variable {f : Fp8} (hf : f = .e4m3 ∨ f = .e5m2) {b m : ℕ}
include hf

theorem nearest_zero (h : m ≤ f.halfLeast) : Nearest f.value f.greatest (magnitude 52 0 m) 0 := by
  have hhalf : 2 * magnitude 52 0 f.halfLeast = f.value 0 + f.value 1 := by
    rcases hf with rfl | rfl <;> decide +kernel
  have hle := (magnitude_strictMono 52 0).monotone h
  refine .of_neighbours (magnitude_strictMono _ _) (Nat.zero_le _) (by simp) fun _ => ?_
  rw [zero_add]
  omega

theorem nearest_greatest (h : f.overflow < m) :
    Nearest f.value f.greatest (magnitude 52 0 m) f.greatest := by
  refine .of_last_le (magnitude_strictMono _ _) (le_trans ?_ (magnitude_strictMono _ _ h).le)
  rcases hf with rfl | rfl <;> decide +kernel

theorem lor_fraction (a : ℕ) : Nat.lor (a * 2 ^ (f.significand - 1)) (f.fraction b) =
    a * 2 ^ (f.significand - 1) + f.fraction b :=
  lor_add (by rcases hf with rfl | rfl <;> exact Nat.mod_lt _ (by decide)) a

/-- The code of a number with a leading one: its significand is divided by a unit of the last place,
which below the least exponent is `s` places further up. -/
theorem nearest_quotient {s e r n half : ℕ} (hmin : 2 ^ 52 ≤ m)
    (hu : e + (1076 - f.bias - f.significand).toNat = 53 - f.significand + s + (m / 2 ^ 52 - 1))
    (he : e = 0 ∨ s = 0)
    (hr : r = e * 2 ^ (f.significand - 1) + (m % 2 ^ 52 + 2 ^ 52) / 2 ^ (53 - f.significand + s))
    (hn : n % 2 = r % 2) (hh : 2 ^ (53 - f.significand + s) = 2 * half)
    (hlast : rounded r n ((m % 2 ^ 52 + 2 ^ 52) % 2 ^ (53 - f.significand + s)) half ≤ f.greatest) :
    Nearest f.value f.greatest (magnitude 52 0 m)
      (rounded r n ((m % 2 ^ 52 + 2 ^ 52) % 2 ^ (53 - f.significand + s)) half) := by
  have hp : 2 ^ (f.significand - 1) * 2 ^ (53 - f.significand) = 2 ^ 52 := by
    rcases hf with rfl | rfl <;> rfl
  rw [magnitude, if_neg (by omega)]
  refine nearest_rounded hu ?_ (he.imp_right ?_) hr hn hh hlast
  · have := Nat.one_le_two_pow (n := s)
    rw [pow_add, mul_assoc, ← mul_assoc (2 ^ _), hp]
    nlinarith [Nat.mod_lt m (Nat.two_pow_pos 52)]
  · rintro rfl
    rw [add_zero, hp]
    omega

theorem nearest_normal (hlo : f.leastNormal ≤ b % 2 ^ 63) (hhi : b % 2 ^ 63 ≤ f.overflow) :
    Nearest f.value f.greatest (magnitude 52 0 (b % 2 ^ 63)) (f.normal b) := by
  have hlast : f.normal b ≤ f.greatest := by
    rw [Fp8.normal, lor_fraction hf]
    rcases hf with rfl | rfl <;> simp [Fp8.e4m3, Fp8.e5m2, Fp8.exponent, Fp8.fraction, Fp8.halfUlp,
      rounded] at hlo hhi ⊢ <;> split <;> omega
  have hrest : b % (2 * f.halfUlp) =
      (b % 2 ^ 63 % 2 ^ 52 + 2 ^ 52) % 2 ^ (53 - f.significand + 0) := by
    rcases hf with rfl | rfl <;> simp [Fp8.e4m3, Fp8.e5m2, Fp8.halfUlp] <;> omega
  rw [Fp8.normal, lor_fraction hf, hrest] at hlast ⊢
  refine nearest_quotient hf (e := (f.exponent b - 1).toNat) ?_ ?_ (.inr rfl) ?_ ?_ ?_ hlast
  all_goals
    rcases hf with rfl | rfl <;> simp [Fp8.e4m3, Fp8.e5m2, Fp8.exponent, Fp8.fraction, Fp8.halfUlp]
      at hlo ⊢ <;> omega

theorem nearest_subnormal (hlo : f.halfLeast < b % 2 ^ 63) (hhi : b % 2 ^ 63 < f.leastNormal) :
    Nearest f.value f.greatest (magnitude 52 0 (b % 2 ^ 63)) (f.subnormal b) := by
  obtain ⟨hmin, hexp, hpos, hsig⟩ : 2 ^ 52 ≤ b % 2 ^ 63 ∧
      0 + (1076 - f.bias - f.significand).toNat =
        53 - f.significand + (1 - f.exponent b).toNat + (b % 2 ^ 63 / 2 ^ 52 - 1) ∧
      0 < (1 - f.exponent b).toNat ∧ (1 - f.exponent b).toNat ≤ f.significand := by
    rcases hf with rfl | rfl <;> simp [Fp8.e4m3, Fp8.e5m2, Fp8.exponent] at hlo hhi ⊢ <;> omega
  rw [Fp8.subnormal]
  generalize (1 - f.exponent b).toNat = s at hexp hpos hsig
  have hunit : f.halfUlp * 2 ^ (s + 1) = 2 ^ (53 - f.significand + s) := by
    rw [Fp8.halfUlp, ← pow_add]
    congr 1
    rcases hf with rfl | rfl <;> simp [Fp8.e4m3, Fp8.e5m2] <;> omega
  have hlead : Nat.lor (f.fraction b) (2 ^ (f.significand - 1)) =
      (b % 2 ^ 63 % 2 ^ 52 + 2 ^ 52) / 2 ^ (53 - f.significand) := by
    have h := lor_fraction hf (b := b) 1
    rw [one_mul] at h
    refine (Nat.or_comm ..).trans (h.trans ?_)
    rcases hf with rfl | rfl <;> simp [Fp8.e4m3, Fp8.e5m2, Fp8.fraction] <;> omega
  have hcode : (b % 2 ^ 63 % 2 ^ 52 + 2 ^ 52) / 2 ^ (53 - f.significand + s) < f.greatest := by
    have hpow : 2 ^ (53 - f.significand + 1) ≤ 2 ^ (53 - f.significand + s) :=
      Nat.pow_le_pow_right two_pos (by omega)
    refine (Nat.div_le_div_left hpow (by positivity)).trans_lt ?_
    rcases hf with rfl | rfl <;> simp [Fp8.e4m3, Fp8.e5m2] <;> omega
  rw [hlead, Nat.div_div_eq_div_mul, ← pow_add, hunit,
    lor_leading _ (by rcases hf with rfl | rfl <;> simp [Fp8.e4m3, Fp8.e5m2] at hsig ⊢ <;> omega),
    show b % 2 ^ 52 = b % 2 ^ 63 % 2 ^ 52 by omega]
  refine nearest_quotient hf hmin hexp (.inl rfl) (by simp) rfl (by rw [← hunit]; ring)
    (le_trans ?_ hcode)
  unfold rounded
  split <;> omega

theorem nearest_code (b : ℕ) :
    Nearest f.value f.greatest (magnitude 52 0 (b % 2 ^ 63)) (f.code b) := by
  rw [Fp8.code]
  split_ifs with hzero hover hnormal
  · exact nearest_zero hf hzero
  · exact nearest_greatest hf hover
  · exact nearest_normal hf hnormal (not_lt.mp hover)
  · exact nearest_subnormal hf (not_le.mp hzero) (not_le.mp hnormal)

/-- The number that a code stands for is the one that is read from it. -/
theorem magnitude_ofFp8 :
    ∀ k ≤ f.greatest, (ofFp8 f k).map Binary64.magnitude = some (f.value k) := by
  rcases hf with rfl | rfl <;> decide +kernel

/-- **Eight bits hold the nearest code.**  They are the sign and the code of the number nearest to
the magnitude of a double, the even code at a tie, and the greatest code past the greatest number;
the numbers of the codes are those that are read from them. -/
theorem toFp8_nearest {x : Float} (hx : Binary64.isFinite x = true) :
    (∀ k ≤ f.greatest, (ofFp8 f k).map Binary64.magnitude = some (f.value k)) ∧
      ∃ c, toFp8 f x = c + (if Binary64.signBit x then 128 else 0) ∧
        Nearest f.value f.greatest (Binary64.magnitude x) c ∧
        (f.value f.greatest ≤ Binary64.magnitude x → c = f.greatest) := by
  have hfin : ¬x.toBits.toNat % 2 ^ 63 > 0x7FF0000000000000 := by
    have h : x.toBits.toNat / 2 ^ 52 % 2 ^ 11 ≠ 2047 := of_decide_eq_true hx
    omega
  have h := nearest_code hf x.toBits.toNat
  rw [← Binary64.magnitude_eq_code] at h
  refine ⟨magnitude_ofFp8 hf, _, ?_, h, h.eq_last (magnitude_strictMono _ _)⟩
  have hlt : f.code x.toBits.toNat < 2 ^ 7 :=
    h.le_last.trans_lt (by rcases hf with rfl | rfl <;> decide)
  rw [toFp8, if_neg hfin]
  refine (Nat.or_comm ..).trans ((lor_add hlt _).trans ?_)
  simp only [Binary64.signBit, Binary64.fields, decide_eq_true_iff]
  split <;> omega

omit hf in
/-- Halfway past the greatest number of the format with three fraction bits. -/
theorem toFp8_nearest_halfway :
    Binary64.isFinite (-464) = true ∧ toFp8 .e4m3 (-464) = 0x7E + 128 ∧
      Nearest Fp8.e4m3.value 0x7E (Binary64.magnitude (-464)) 0x7E := by
  have hfin : Binary64.isFinite (-464) = true := by decide +kernel
  have hcode : toFp8 .e4m3 (-464) = 0x7E + 128 := by decide +kernel
  obtain ⟨-, c, hc, h, -⟩ := toFp8_nearest (.inl rfl) hfin
  have hsign : Binary64.signBit (-464) = true := by decide +kernel
  rw [hcode, hsign, if_pos rfl] at hc
  obtain rfl := Nat.add_right_cancel hc
  exact ⟨hfin, hcode, h⟩

end Narrow

end LazyTensor
