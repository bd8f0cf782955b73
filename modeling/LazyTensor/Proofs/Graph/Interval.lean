import Mathlib
import LazyTensor.Graph.Bounds
import LazyTensor.Proofs.Ensures

/-!
# Integer constants and bounds

Truth values and integers stand for integers, and on them comparison and arithmetic of constants are
those of integers.

## Main results

* `Const.lt_eq`, `Const.le_eq`, `Const.eq_eq`: comparison.
* `Const.add_eq`, `Const.mul_eq`, `Const.truncDiv_eq`, …: arithmetic.
* `Bounds.finds_add`, …, `Bounds.finds_shr`: the bounds of an operation are found and enclose its
  results.
-/

namespace LazyTensor.Const

variable {a b c : Const} {m n : Int}

@[simp] theorem int?_int : (Const.int n).int? = some n := rfl

theorem truthy_eq (ha : a.int? = some m) : a.truthy = decide (m ≠ 0) := by
  cases a with
  | bool b =>
    cases ha
    cases b <;> rfl
  | int k =>
    cases ha
    rw [truthy, Bool.eq_iff_iff]
    simp
  | float x => cases ha

theorem isIntLike_eq (ha : a.int? = some m) : a.isIntLike = true := by
  cases a <;> simp_all [int?, isIntLike]

theorem neg_eq (ha : a.int? = some m) : a.neg = .int (-m) := by
  cases a <;> simp_all [int?, neg]

section Binary

variable (ha : a.int? = some m) (hb : b.int? = some n)

include ha hb

theorem compare?_eq :
    compare? a b = some (compare m n) := by
  cases a <;> cases b <;> simp_all [compare?, int?]

theorem lt_eq : lt a b = decide (m < n) := by
  rw [lt, compare?_eq ha hb, Bool.eq_iff_iff]
  simp [compare_lt_iff_lt]

theorem eq_eq : eq a b = decide (m = n) := by
  rw [eq, compare?_eq ha hb, Bool.eq_iff_iff]
  simp

theorem le_eq : le a b = decide (m ≤ n) := by
  rw [le, compare?_eq ha hb, Bool.eq_iff_iff]
  simp [compare_lt_iff_lt, le_iff_lt_or_eq]

theorem max_int? :
    (Const.max a b).int? = some (Max.max m n) := by
  unfold Const.max
  rw [lt_eq ha hb]
  by_cases h : m < n
  · simp [h, hb, h.le]
  · simp [h, ha, not_lt.mp h]

theorem min_int? :
    (Const.min a b).int? = some (Min.min m n) := by
  unfold Const.min
  rw [lt_eq hb ha]
  by_cases h : n < m
  · simp [h, hb, h.le]
  · simp [h, ha, not_lt.mp h]

theorem add_eq : add a b = .ok (.int (m + n)) := by
  simp [add, arith, ha, hb]

theorem sub_eq : sub a b = .ok (.int (m - n)) := by
  simp [sub, arith, ha, hb]

theorem mul_eq : mul a b = .ok (.int (m * n)) := by
  simp [mul, arith, ha, hb]

theorem truncDiv_eq :
    truncDiv a b = .ok (.int (m.tdiv n)) := by
  rw [truncDiv, eq_eq hb int?_int]
  by_cases h : n = 0
  · subst h
    simp [pure, Except.pure]
  · simp [h, ha, hb, pure, Except.pure]

theorem shiftLeft_eq (hn : 0 ≤ n)
    (hfit : n ≤ 100000000) : shiftLeft a b = .ok (.int (m * 2 ^ n.toNat)) := by
  simp only [shiftLeft, ha, hb]
  rw [if_neg (by omega), if_neg (show ¬n > 100000000 by omega)]
  split
  · simp [*]
  · rfl

theorem shiftLeft_eq_ok (hn : 0 ≤ n)
    (h : shiftLeft a b = .ok c) : c = .int (m * 2 ^ n.toNat) := by
  simp only [shiftLeft, ha, hb] at h
  rw [if_neg (by omega)] at h
  split_ifs at h with h0 _ <;> cases h
  · simp [h0]
  · rfl

/-- A shift to the right is a quotient toward minus infinity, however far. -/
theorem shiftRight_eq (hn : 0 ≤ n) :
    ∃ k, shiftRight a b = .ok (.int k) ∧
      (n ≤ 100000000 → k = m / 2 ^ n.toNat) ∧ (100000000 < n → k = if m < 0 then -1 else 0) := by
  simp only [shiftRight, ha, hb]
  rw [if_neg (by omega)]
  split
  · exact ⟨_, rfl, by omega, fun _ => rfl⟩
  · refine ⟨_, rfl, fun _ => ?_, by omega⟩
    exact Int.fdiv_eq_ediv_of_nonneg m (by positivity)

end Binary

end LazyTensor.Const

/-!
## Bounds of operations

The bounds of an operation on integers are found from those of its operands.  Whatever values within
their bounds the operands have, the result is within the bounds found: for sums and products by the
ends of the two intervals, for quotients and remainders toward zero by a case for each pair of signs,
and where nothing is known by the range of the element type, which the result has to fit.
-/

namespace LazyTensor

open LazyTensor.Const

/-! ## Quotients and remainders toward zero -/

section TruncatedDivision

variable {x x' y y' l h k : Int}

theorem tdiv_le_tdiv_left (hx : 0 ≤ x) (hy : 0 < y) (hyy : y ≤ y') : x.tdiv y' ≤ x.tdiv y := by
  rw [Int.tdiv_eq_ediv_of_nonneg hx, Int.tdiv_eq_ediv_of_nonneg hx,
    Int.le_ediv_iff_mul_le hy]
  calc x / y' * y ≤ x / y' * y' := by
        exact mul_le_mul_of_nonneg_left hyy (Int.ediv_nonneg hx (by omega))
    _ ≤ x := Int.ediv_mul_le x (by omega)

/-- A quotient of numbers that are not negative by positive ones. -/
theorem tdiv_mem {al ah bl bh : Int} (hal : 0 ≤ al) (hbl : 0 < bl) (hx : al ≤ x ∧ x ≤ ah)
    (hy : bl ≤ y ∧ y ≤ bh) : al.tdiv bh ≤ x.tdiv y ∧ x.tdiv y ≤ ah.tdiv bl :=
  ⟨(Int.tdiv_le_tdiv (by omega) hx.1).trans (tdiv_le_tdiv_left (by omega) (by omega) hy.2),
    (Int.tdiv_le_tdiv (by omega) hx.2).trans (tdiv_le_tdiv_left (by omega) hbl hy.1)⟩

/-- A remainder by a positive number is on the side of zero of the dividend. -/
theorem tmod_bounds (x : Int) (hy : 0 < y) :
    -(y - 1) ≤ x.tmod y ∧ x.tmod y ≤ y - 1 ∧ (0 ≤ x → 0 ≤ x.tmod y) ∧ (x ≤ 0 → x.tmod y ≤ 0) := by
  have hlt := Int.tmod_lt_of_pos x hy
  have hgt := Int.lt_tmod_of_pos x hy
  refine ⟨by omega, by omega, fun h => Int.tmod_nonneg y h, fun h => ?_⟩
  have := Int.tmod_nonneg y (Int.neg_nonneg_of_nonpos h)
  rw [Int.neg_tmod] at this
  omega

/-- A product is between those of the ends of one factor. -/
theorem mul_mem {lo hi : Int} (hx : lo ≤ x ∧ x ≤ hi) (y : Int) :
    min (lo * y) (hi * y) ≤ x * y ∧ x * y ≤ max (lo * y) (hi * y) := by
  rcases le_total 0 y with hy | hy
  · have h1 := mul_le_mul_of_nonneg_right hx.1 hy
    have h2 := mul_le_mul_of_nonneg_right hx.2 hy
    omega
  · have h1 := mul_le_mul_of_nonpos_right hx.1 hy
    have h2 := mul_le_mul_of_nonpos_right hx.2 hy
    omega

end TruncatedDivision

/-! ## Bits -/

/-- The common bits of two numbers are no more than either. -/
theorem land_mem {p q : Int} (hp : 0 ≤ p) (hq : 0 ≤ q) :
    0 ≤ p.land q ∧ p.land q ≤ p ∧ p.land q ≤ q := by
  lift p to ℕ using hp
  lift q to ℕ using hq
  change 0 ≤ ((p &&& q : ℕ) : ℤ) ∧ ((p &&& q : ℕ) : ℤ) ≤ p ∧ ((p &&& q : ℕ) : ℤ) ≤ q
  exact ⟨by positivity, by exact_mod_cast Nat.and_le_left, by exact_mod_cast Nat.and_le_right⟩

/-! ## Integer types -/

/-- An integer type of one lane, or the type of truth values. -/
def DType.Counted (d : DType) : Prop := (∃ s : Scalar, s.isInt = true ∧ d = .vec s 1) ∨ d = .bool

/-- An integer within the range of a type. -/
def DType.Fits (d : DType) (x : Int) : Prop :=
  ∃ lo hi, (least d).int? = some lo ∧ (greatest d).int? = some hi ∧ lo ≤ x ∧ x ≤ hi

namespace DType

variable {d : DType} {x : Int}

theorem Counted.isFloat (h : d.Counted) : d.isFloat = false := by
  rcases h with ⟨s, hs, rfl⟩ | rfl
  · cases s <;> first | rfl | cases hs
  · rfl

theorem fits_bool_iff : DType.Fits .bool x ↔ 0 ≤ x ∧ x ≤ 1 := by
  constructor
  · rintro ⟨lo, hi, hlo, hhi, h⟩
    cases hlo
    cases hhi
    exact h
  · exact fun h => ⟨0, 1, rfl, rfl, h⟩

/-- No integer type has more than sixty-four bits. -/
theorem Fits.abs_le (h : d.Fits x) (hd : d.Counted) : -2 ^ 64 ≤ x ∧ x < 2 ^ 64 := by
  rcases hd with ⟨s, hs, rfl⟩ | rfl
  · obtain ⟨lo, hi, hlo, hhi, h⟩ := h
    cases s <;> cases hs <;> cases hlo <;> cases hhi <;> constructor <;>
      norm_num [Scalar.isUnsigned, Scalar.itemsize] at h ⊢ <;> omega
  · have := fits_bool_iff.mp h
    omega

end DType

namespace Op

/-- Operations on two numbers of a type that give a number of it, the difference apart. -/
def isArith : Op → Bool
  | .add | .mul | .idiv | .mod | .max => true
  | _ => false

def isTest : Op → Bool
  | .cmplt | .cmpne => true
  | _ => false

def isShift : Op → Bool
  | .shl | .shr => true
  | _ => false

end Op

/-- An operation on two integers of any size: quotients go toward zero and remainders belong to
them, truth values are zero and one.  Divisors of zero and shifts backwards have no result. -/
def Op.onIntegers? (op : Op) (p q : Int) : Option Int :=
  match op with
  | .add => some (p + q)
  | .sub => some (p - q)
  | .mul => some (p * q)
  | .idiv => if q = 0 then none else some (p.tdiv q)
  | .mod => if q = 0 then none else some (p.tmod q)
  | .max => some (Max.max p q)
  | .cmplt => some (if p < q then 1 else 0)
  | .cmpne => some (if p = q then 0 else 1)
  | .and => some (p.land q)
  | .or => some (p.lor q)
  | .shl => if q < 0 then none else some (p * 2 ^ q.toNat)
  | .shr => if q < 0 then none else some (p / 2 ^ q.toNat)
  | _ => none

/-- What an operation needs of its operands besides their bounds: bits are taken of numbers that fit
the type, and so is a shift to the right. -/
def Op.Admits (op : Op) (d : DType) (p q : Int) : Prop :=
  match op with
  | .and | .or => d.Fits p ∧ d.Fits q
  | .shr => d.Fits p
  | _ => True

theorem bits_of_truth {p q : Int} (hp : DType.Fits .bool p) (hq : DType.Fits .bool q) :
    p.land q = (if p = 0 then 0 else q) ∧ p.lor q = if p = 0 then q else 1 := by
  obtain ⟨hp0, hp1⟩ := DType.fits_bool_iff.mp hp
  obtain ⟨hq0, hq1⟩ := DType.fits_bool_iff.mp hq
  interval_cases p <;> interval_cases q <;> exact ⟨rfl, rfl⟩

/-! ## Operations on bounds -/

namespace Bounds

/-- Bounds that are the integers `lo` and `hi`. -/
def Spans (b : Bounds) (lo hi : Int) : Prop := b.1.int? = some lo ∧ b.2.int? = some hi

theorem Spans.unique {b : Bounds} {lo hi lo' hi' : Int} (h : b.Spans lo hi) (h' : b.Spans lo' hi') :
    lo = lo' ∧ hi = hi' :=
  ⟨Option.some.inj (h.1.symm.trans h'.1), Option.some.inj (h.2.symm.trans h'.2)⟩

theorem spans_int (lo hi : Int) : Spans (.int lo, .int hi) lo hi := ⟨rfl, rfl⟩

theorem spans_ofDType {d : DType} (hd : d.Counted) :
    ∃ lo hi, (ofDType d).Spans lo hi ∧ (d = .bool → lo = 0) := by
  rcases hd with ⟨s, hs, rfl⟩ | rfl
  · have not_bool : DType.vec s 1 ≠ .bool := by
      rintro ⟨⟩
      cases hs
    simp only [ofDType, least, greatest, hs, if_true, Spans]
    cases s.isUnsigned <;> exact ⟨_, _, ⟨rfl, rfl⟩, fun h => absurd h not_bool⟩
  · exact ⟨0, 1, ⟨rfl, rfl⟩, fun _ => rfl⟩

theorem mem_ofDType {d : DType} {lo hi v : Int} (h : (ofDType d).Spans lo hi) (hv : d.Fits v) :
    lo ≤ v ∧ v ≤ hi := by
  obtain ⟨lo', hi', hlo, hhi, hle⟩ := hv
  obtain ⟨rfl, rfl⟩ := h.unique ⟨hlo, hhi⟩
  exact hle

/-- What the ends `lo` and `hi` found for an operation have to satisfy, for operands between `xl` and
`xh` and between `yl` and `yh`. -/
structure Encloses (op : Op) (d : DType) (xl xh yl yh lo hi : Int) : Prop where
  value : ∀ {p q v}, xl ≤ p ∧ p ≤ xh → yl ≤ q ∧ q ≤ yh → op.onIntegers? p q = some v → d.Fits v →
    op.Admits d p q → (op = .and → d = .bool → 0 ≤ xl) → lo ≤ v ∧ v ≤ hi
  nonneg : d = .bool → op ≠ .sub → xl ≤ xh → yl ≤ yh → (op.isTest = false → 0 ≤ xl ∧ 0 ≤ yl) → 0 ≤ lo

/-- The bounds of an operation are found, and they enclose its results. -/
def Finds (op : Op) (d : DType) (x y : Bounds) (xl xh yl yh : Int) : Prop :=
  ∃ r lo hi, binary? op d x y = .ok r ∧ (r.getD (ofDType d)).Spans lo hi ∧
    Encloses op d xl xh yl yh lo hi

section Operations

variable {op : Op} {d : DType} {x y : Bounds} {xl xh yl yh lo hi : Int}

/-- Where nothing is found, the range of the type contains what fits. -/
theorem Finds.of_none (hd : d.Counted) (h : binary? op d x y = .ok none) :
    Finds op d x y xl xh yl yh := by
  obtain ⟨lo, hi, hb, hlo⟩ := spans_ofDType hd
  refine ⟨none, lo, hi, h, hb, fun _ _ _ hf _ _ => mem_ofDType hb hf, ?_⟩
  intro h _ _ _ _
  exact (hlo h).ge

/-- An operation that has no result for a divisor of zero. -/
theorem Encloses.of_quotients {f : Int → Int → Int}
    (hf : ∀ p q, op.onIntegers? p q = if q = 0 then none else some (f p q)) (hop : op.isTest = false)
    (h0 : 0 ≤ xl → 0 ≤ yl → yl ≤ yh → 0 ≤ lo)
    (h : ∀ u v, xl ≤ u ∧ u ≤ xh → yl ≤ v ∧ v ≤ yh → lo ≤ f u v ∧ f u v ≤ hi) :
    Encloses op d xl xh yl yh lo hi := by
  refine ⟨?_, fun _ _ _ hyy h => h0 (h hop).1 (h hop).2 hyy⟩
  intro p q v hp hq hv _ _ _
  rw [hf] at hv
  split at hv <;> cases hv
  exact h p q hp hq

/-! ### What is found for each operation -/

section Found

variable (hx : x.Spans xl xh) (hy : y.Spans yl yh)

include hx hy

theorem finds_add : Finds .add d x y xl xh yl yh := by
  have found : binary? .add d x y = (do return some (← add x.1 y.1, ← add x.2 y.2)) := rfl
  rw [add_eq hx.1 hy.1, add_eq hx.2 hy.2] at found
  refine ⟨_, _, _, found, spans_int _ _, ?_, fun _ _ _ _ h => ?_⟩
  · rintro p q _ hp hq ⟨⟩ - - -
    omega
  · have := h rfl
    omega

theorem finds_sub : Finds .sub d x y xl xh yl yh := by
  have found : binary? .sub d x y = (do return some (← sub x.1 y.2, ← sub x.2 y.1)) := rfl
  rw [sub_eq hx.1 hy.2, sub_eq hx.2 hy.1] at found
  refine ⟨_, _, _, found, spans_int _ _, ?_, fun _ h => absurd rfl h⟩
  rintro p q _ hp hq ⟨⟩ - - -
  omega

theorem finds_mul : Finds .mul d x y xl xh yl yh := by
  have found : binary? .mul d x y = (do return some (← mul x y)) := rfl
  simp only [mul, mul_eq hx.1 hy.1, mul_eq hx.1 hy.2, mul_eq hx.2 hy.1,
    mul_eq hx.2 hy.2, bind, Except.bind] at found
  refine ⟨_, _, _, found, ⟨min_int? (min_int? (min_int? rfl rfl) rfl) rfl,
    max_int? (max_int? (max_int? rfl rfl) rfl) rfl⟩, ?_, ?_⟩
  · rintro u v _ hu hv ⟨⟩ - - -
    have h := mul_mem hu v
    have hl := mul_mem hv xl
    have hh := mul_mem hv xh
    simp only [mul_comm _ xl, mul_comm _ xh] at h hl hh
    omega
  · intro _ _ hxx hyy h
    obtain ⟨hx, hy⟩ := h rfl
    have := mul_nonneg hx hy
    have := mul_nonneg hx (hy.trans hyy)
    have := mul_nonneg (hx.trans hxx) hy
    have := mul_nonneg (hx.trans hxx) (hy.trans hyy)
    omega

theorem finds_idiv (hd : d.Counted) : Finds .idiv d x y xl xh yl yh := by
  obtain ⟨hxl, hxh⟩ := hx
  obtain ⟨hyl, hyh⟩ := hy
  have quotient : ∀ {p q r s : Const} {p' q' r' s' : Int}, p.int? = some p' → q.int? = some q' →
      r.int? = some r' → s.int? = some s' →
      (do return some (← truncDiv p q, ← truncDiv r s) : Except Failure (Option Bounds)) =
        .ok (some (.int (p'.tdiv q'), .int (r'.tdiv s'))) := by
    intro p q r s p' q' r' s' hp hq hr hs
    rw [truncDiv_eq hp hq, truncDiv_eq hr hs]
    rfl
  have found : binary? .idiv d x y = idiv? x y := rfl
  simp only [idiv?, isIntLike_eq hxl, isIntLike_eq hxh, isIntLike_eq hyl,
    isIntLike_eq hyh, eq_eq hyl hyh, pos, neg, nonneg, nonpos,
    lt_eq int?_int hyl, lt_eq hyl int?_int, lt_eq hyh int?_int,
    le_eq hxh int?_int, le_eq int?_int hxl, quotient hxl hyl hxh hyl,
    quotient hxh hyl hxl hyl, quotient hxh hyl hxl hyh, quotient hxl hyh hxh hyl,
    quotient hxl hyl hxh hyh, quotient hxh hyh hxl hyl, Bool.and_self, if_true, Bool.and_eq_true,
    decide_eq_true_eq] at found
  have ends : ∀ {lo hi : Int}, binary? .idiv d x y = .ok (some (.int lo, .int hi)) →
      (0 ≤ xl → 0 ≤ yl → yl ≤ yh → 0 ≤ lo) →
      (∀ u v, xl ≤ u ∧ u ≤ xh → yl ≤ v ∧ v ≤ yh → lo ≤ u.tdiv v ∧ u.tdiv v ≤ hi) →
      Finds .idiv d x y xl xh yl yh := fun hr h0 h =>
    ⟨_, _, _, hr, spans_int _ _, .of_quotients (fun _ _ => rfl) rfl h0 h⟩
  -- each sign of dividend and divisor reduces to numbers that are not negative
  split_ifs at found with h1 h2 h3 h4 h5 h6
  · refine ends found (fun hx _ _ => Int.tdiv_nonneg hx h1.2.le) fun u v hu hv => ?_
    obtain rfl : v = yl := by omega
    exact ⟨Int.tdiv_le_tdiv h1.2 hu.1, Int.tdiv_le_tdiv h1.2 hu.2⟩
  · refine ends found (by omega) fun u v hu hv => ?_
    obtain rfl : v = yl := by omega
    have h1 := Int.tdiv_le_tdiv (show 0 < -v by omega) hu.1
    have h2 := Int.tdiv_le_tdiv (show 0 < -v by omega) hu.2
    simp only [Int.tdiv_neg] at h1 h2
    omega
  · refine ends found (by omega) fun u v hu hv => ?_
    have h := @tdiv_mem (-u) (-v) (-xh) (-xl) (-yh) (-yl) (by omega) (by omega) (by omega) (by omega)
    simpa only [Int.tdiv_neg, Int.neg_tdiv, neg_neg] using h
  · exact ends found (fun hx _ hy => Int.tdiv_nonneg hx (by omega)) fun u v => tdiv_mem h4.1 h4.2
  · refine ends found (fun hx _ _ => Int.tdiv_nonneg hx h5.2.le) fun u v hu hv => ?_
    have h := @tdiv_mem (-u) v (-xh) (-xl) yl yh (by omega) (by omega) (by omega) (by omega)
    simp only [Int.neg_tdiv] at h
    omega
  · refine ends found (by omega) fun u v hu hv => ?_
    have h := @tdiv_mem u (-v) xl xh (-yh) (-yl) (by omega) (by omega) (by omega) (by omega)
    simp only [Int.tdiv_neg] at h
    omega
  · exact .of_none hd found

theorem finds_mod (hd : d.Counted) : Finds .mod d x y xl xh yl yh := by
  obtain ⟨hxl, hxh⟩ := hx
  obtain ⟨hyl, hyh⟩ := hy
  -- remainders by numbers up to `m + 1` in size
  have range : ∀ m : Int, binary? .mod d x y = .ok (some (if 0 ≤ xl then (.int 0, .int m)
        else if xh ≤ 0 then (.int (-m), .int 0) else (.int (-m), .int m))) →
      (∀ v, yl ≤ v ∧ v ≤ yh → ∃ w, 0 < w ∧ w ≤ m + 1 ∧ ∀ u : Int, u.tmod v = u.tmod w) →
      Finds .mod d x y xl xh yl yh := by
    intro m hr hm
    split_ifs at hr with h1 h2
    all_goals
      refine ⟨_, _, _, hr, spans_int _ _, .of_quotients (fun _ _ => rfl) rfl (by omega) fun u v hu hv => ?_⟩
      obtain ⟨w, hw, hwm, hmod⟩ := hm v hv
      have := tmod_bounds u hw
      rw [hmod]
      omega
  have found : binary? .mod d x y = mod? x y := rfl
  simp only [mod?, pos, neg, nonneg, nonpos, lt_eq int?_int hyl,
    lt_eq hyh int?_int, le_eq hxh int?_int, le_eq int?_int hxl,
    sub_eq hyh int?_int, neg_eq hyl, sub_eq int?_int int?_int,
    neg_eq int?_int, bind, Except.bind, decide_eq_true_eq] at found
  by_cases h1 : 0 < yl
  · rw [if_pos h1] at found
    exact range (yh - 1) found fun v hv => ⟨v, by omega, by omega, fun _ => rfl⟩
  by_cases h2 : yh < 0
  · rw [if_neg h1, if_pos h2] at found
    exact range (-yl - 1) found fun v hv => ⟨-v, by omega, by omega, fun u => by simp⟩
  · rw [if_neg h1, if_neg h2] at found
    exact .of_none hd found

theorem finds_max : Finds .max d x y xl xh yl yh := by
  refine ⟨_, _, _, rfl, ⟨max_int? hx.1 hy.1, max_int? hx.2 hy.2⟩, ?_, fun _ _ _ _ h => ?_⟩
  · rintro p q _ hp hq ⟨⟩ - - -
    omega
  · have := h rfl
    omega

theorem finds_cmplt : Finds .cmplt d x y xl xh yl yh := by
  have found : binary? .cmplt d x y =
    .ok (some (.bool (lt x.2 y.1), .bool (lt x.1 y.2))) := rfl
  rw [lt_eq hx.2 hy.1, lt_eq hx.1 hy.2] at found
  refine ⟨_, _, _, found, ⟨rfl, rfl⟩, ?_, ?_⟩
  · rintro p q _ hp hq ⟨⟩ - - -
    simp only [ofBool, decide_eq_true_eq]
    split_ifs <;> omega
  · intro _ _ _ _ _
    simp only [ofBool]
    split_ifs <;> omega

theorem finds_cmpne : Finds .cmpne d x y xl xh yl yh := by
  have found : binary? .cmpne d x y = .ok (some (.bool (lt x.2 y.1 || lt y.2 x.1),
    .bool (!(eq x.1 x.2 && eq x.2 y.1 && eq y.1 y.2)))) := rfl
  simp only [lt_eq hx.2 hy.1, lt_eq hy.2 hx.1, eq_eq hx.1 hx.2,
    eq_eq hx.2 hy.1, eq_eq hy.1 hy.2] at found
  refine ⟨_, _, _, found, ⟨rfl, rfl⟩, ?_, ?_⟩
  · rintro p q _ hp hq ⟨⟩ - - -
    simp only [ofBool, Bool.or_eq_true, Bool.not_eq_true', Bool.and_eq_false_iff,
      decide_eq_true_eq, decide_eq_false_iff_not]
    split_ifs <;> omega
  · intro _ _ _ _ _
    simp only [ofBool]
    split_ifs <;> omega

theorem finds_and (hd : d.Counted) : Finds .and d x y xl xh yl yh := by
  have found : binary? .and d x y =
    if eq y.1 y.2 && nonneg x.1 && nonneg y.1 then
      .ok (some (min (.int 0) x.1, min x.2 y.2))
    else if d = .bool then
      .ok (some (if x.1.truthy then y.1 else x.1, if x.2.truthy then y.2 else x.2))
    else .ok none := rfl
  simp only [eq_eq hy.1 hy.2, nonneg, le_eq int?_int hx.1,
    le_eq int?_int hy.1, truthy_eq hx.1, truthy_eq hx.2, Bool.and_eq_true,
    decide_eq_true_eq] at found
  by_cases h1 : (yl = yh ∧ 0 ≤ xl) ∧ 0 ≤ yl
  · rw [if_pos h1] at found
    refine ⟨_, _, _, found, ⟨min_int? int?_int hx.1, min_int? hx.2 hy.2⟩, ?_, by omega⟩
    rintro p q _ hp hq ⟨⟩ - - -
    have := land_mem (show 0 ≤ p by omega) (show 0 ≤ q by omega)
    omega
  rw [if_neg h1] at found
  by_cases h2 : d = .bool
  · rw [if_pos h2] at found
    subst h2
    refine ⟨_, if xl ≠ 0 then yl else xl, if xh ≠ 0 then yh else xh, found, ⟨?_, ?_⟩, ?_, ?_⟩
    · split_ifs <;> simp [*, hx.1, hy.1]
    · split_ifs <;> simp [*, hx.2, hy.2]
    · -- the left operand decides, and its least value is zero or one
      rintro p q _ hp hq ⟨⟩ - ⟨hpf, hqf⟩ h0
      have := h0 rfl rfl
      have := DType.fits_bool_iff.mp hpf
      have := DType.fits_bool_iff.mp hqf
      rw [(bits_of_truth hpf hqf).1]
      split_ifs <;> omega
    · intro _ _ _ _ h
      have := h rfl
      split_ifs <;> omega
  · exact .of_none hd (found.trans (if_neg h2))

theorem finds_or (hd : d.Counted) : Finds .or d x y xl xh yl yh := by
  have found : binary? .or d x y =
    if d = .bool then
      .ok (some (if x.1.truthy then x.1 else y.1, if x.2.truthy then x.2 else y.2))
    else .ok none := rfl
  simp only [truthy_eq hx.1, truthy_eq hx.2, decide_eq_true_eq] at found
  by_cases h : d = .bool
  · rw [if_pos h] at found
    subst h
    refine ⟨_, if xl ≠ 0 then xl else yl, if xh ≠ 0 then xh else yh, found, ⟨?_, ?_⟩, ?_, ?_⟩
    · split_ifs <;> simp [*, hx.1, hy.1]
    · split_ifs <;> simp [*, hx.2, hy.2]
    · rintro p q _ hp hq ⟨⟩ - ⟨hpf, hqf⟩ -
      have := DType.fits_bool_iff.mp hpf
      have := DType.fits_bool_iff.mp hqf
      rw [(bits_of_truth hpf hqf).2]
      split_ifs <;> omega
    · intro _ _ _ _ h
      have := h rfl
      split_ifs <;> omega
  · exact .of_none hd (found.trans (if_neg h))

end Found

section Shifts

variable (hx : x.Spans xl xh) (hy : y.Spans yl yl)

include hx hy

/-- A shift, by the function that shifts constants. -/
theorem binary?_shift {f : Const → Const → Except Failure Const}
    (h : op = .shl ∧ f = shiftLeft ∨ op = .shr ∧ f = shiftRight) :
    binary? op d x y = (do return some (← f x.1 y.1, ← f x.2 y.1)) := by
  have hc : (eq y.1 y.2 && x.1.isIntLike && x.2.isIntLike && y.1.isIntLike) = true := by
    simp only [eq_eq hy.1 hy.2, isIntLike_eq hx.1, isIntLike_eq hx.2,
      isIntLike_eq hy.1, decide_true, Bool.and_self]
  rcases h with ⟨rfl, rfl⟩ | ⟨rfl, rfl⟩ <;> exact if_pos hc

/-- Bounds of a shift to the left are found unless it is too far. -/
theorem binary?_shl_ok (h0 : 0 ≤ yl) (hfar : yl ≤ 100000000) : ∃ r, binary? .shl d x y = .ok r := by
  rw [binary?_shift hx hy (.inl ⟨rfl, rfl⟩), shiftLeft_eq hx.1 hy.1 h0 hfar, shiftLeft_eq hx.2 hy.1 h0 hfar]
  exact ⟨_, rfl⟩

theorem encloses_shl {r : Option Bounds} (h0 : 0 ≤ yl) (hr : binary? .shl d x y = .ok r) :
    ∃ lo hi, (r.getD (ofDType d)).Spans lo hi ∧ Encloses .shl d xl xh yl yl lo hi := by
  rw [binary?_shift hx hy (.inl ⟨rfl, rfl⟩)] at hr
  obtain ⟨lo, hlo, hr⟩ := exists_ok_of_bind hr
  obtain ⟨hi, hhi, hr⟩ := exists_ok_of_bind hr
  cases shiftLeft_eq_ok hx.1 hy.1 h0 hlo
  cases shiftLeft_eq_ok hx.2 hy.1 h0 hhi
  cases hr
  have hpow : (0 : Int) ≤ 2 ^ yl.toNat := by positivity
  refine ⟨_, _, spans_int _ _, ?_, fun _ _ _ _ h => mul_nonneg (h rfl).1 hpow⟩
  intro p q v hp hq hv _ _ _
  obtain rfl : q = yl := by omega
  simp only [Op.onIntegers?] at hv
  rw [if_neg (by omega)] at hv
  cases hv
  exact ⟨mul_le_mul_of_nonneg_right hp.1 hpow, mul_le_mul_of_nonneg_right hp.2 hpow⟩

theorem finds_shr (hd : d.Counted) (h0 : 0 ≤ yl) : Finds .shr d x y xl xh yl yl := by
  obtain ⟨lo, hlo, hnear, hfar⟩ := shiftRight_eq hx.1 hy.1 h0
  obtain ⟨hi, hhi, hnear', hfar'⟩ := shiftRight_eq hx.2 hy.1 h0
  rw [Finds, binary?_shift hx hy (.inr ⟨rfl, rfl⟩), hlo, hhi]
  have hpow : (0 : Int) < 2 ^ yl.toNat := by positivity
  refine ⟨_, lo, hi, rfl, spans_int _ _, ?_, ?_⟩
  · intro p q v hp hq hv _ hf _
    obtain rfl : q = yl := by omega
    simp only [Op.onIntegers?] at hv
    rw [if_neg (by omega)] at hv
    cases hv
    by_cases hq : q ≤ 100000000
    · rw [hnear hq, hnear' hq]
      exact ⟨Int.ediv_le_ediv hpow hp.1, Int.ediv_le_ediv hpow hp.2⟩
    · -- so far to the right only the sign is left of a number that fits its type
      have hp64 := DType.Fits.abs_le hf hd
      have hbig : (2 : Int) ^ 64 ≤ 2 ^ q.toNat := pow_le_pow_right₀ (by norm_num) (by omega)
      have hneg : p < 0 → p / 2 ^ q.toNat = -1 := fun h => by
        rw [Int.ediv_eq_iff_of_pos hpow]
        constructor <;> linarith
      have hpos : 0 ≤ p → p / 2 ^ q.toNat = 0 := fun h =>
        Int.ediv_eq_zero_of_lt h (by linarith)
      rw [hfar (by omega), hfar' (by omega)]
      rcases lt_or_ge p 0 with h | h
      · rw [hneg h]
        split_ifs <;> omega
      · rw [hpos h]
        split_ifs <;> omega
  · intro _ _ _ _ h
    have hxl := (h rfl).1
    by_cases hq : yl ≤ 100000000
    · rw [hnear hq]
      exact Int.ediv_nonneg hxl hpow.le
    · rw [hfar (by omega), if_neg (by omega)]

end Shifts

end Operations

end Bounds

end LazyTensor
