import LazyTensor.Proofs.Layout.Integer

/-!
# A mask under a new shape

`Shape.reshapeMask?` walks the axes of the old and the new shape together, last axis first.  It
keeps an interval of positions on the old axes taken so far; an axis of the new shape takes the
whole interval, the part of it below its size, or waits until another old axis has been taken in.
Whenever it gives a mask, the positions inside it are those inside the old mask.

## Main results

* `Shape.reshapeLoop_succ`: one round of the walk is one of the three steps.
* `Carry.Inv.copy`, `Carry.Inv.split`, `Carry.Inv.combine`: each step keeps the invariant.
* `Shape.reshapeLoop_window`: the mask the walk ends with has the same positions inside.
* `Shape.reshapeLoop_hidden`: a mask that hides everything still hides everything.
-/

namespace LazyTensor

open Radix View GraphM List Dim

variable {S T N old new : List Int} {M masks : List (Int × Int)} {s : Carry} {k : Int} {env : Env}
  {st : Store}

/-! ## Intervals of digits -/

/-- An interval that starts and ends at multiples of `n`, or lies between two of them, restricts the
remainder and the quotient by `n` separately. -/
theorem interval_split {n lo hi y : Int} (hn : 0 < n)
    (h : (lo % n = 0 ∧ hi % n = 0) ∨ lo / n = (hi - 1) / n) :
    (lo ≤ y ∧ y < hi) ↔ (lo % n ≤ y % n ∧ y % n < (hi - 1) % n + 1) ∧
      (lo / n ≤ y / n ∧ y / n < (hi - 1) / n + 1) := by
  have hlo := Int.mul_ediv_add_emod lo n
  have hhi := Int.mul_ediv_add_emod (hi - 1) n
  have hy := Int.mul_ediv_add_emod y n
  have hy0 := Int.emod_nonneg y hn.ne'
  have hy1 := Int.emod_lt_of_pos y hn
  have hlo0 := Int.emod_nonneg lo hn.ne'
  have hhi1 := Int.emod_lt_of_pos (hi - 1) hn
  rcases h with ⟨hl, hh⟩ | hq
  · have hlast : (hi - 1) % n = n - 1 := by
      obtain ⟨t, rfl⟩ := Int.dvd_of_emod_eq_zero hh
      rw [show n * t - 1 = (n - 1) + n * (t - 1) by ring, Int.add_mul_emod_self_left,
        Int.emod_eq_of_lt (by omega) (by omega)]
    constructor
    · rintro ⟨h1, h2⟩
      refine ⟨⟨by omega, by omega⟩, Int.ediv_le_ediv hn h1, ?_⟩
      have := Int.ediv_le_ediv hn (show y ≤ hi - 1 by omega)
      omega
    · rintro ⟨-, h3, h4⟩
      have h5 := mul_le_mul_of_nonneg_left h3 hn.le
      have h6 := mul_le_mul_of_nonneg_left (show y / n ≤ (hi - 1) / n by omega) hn.le
      constructor <;> omega
  · constructor
    · rintro ⟨h1, h2⟩
      have h3 := Int.ediv_le_ediv hn h1
      have h4 := Int.ediv_le_ediv hn (show y ≤ hi - 1 by omega)
      have hyq : y / n = lo / n := by omega
      rw [hyq] at hy
      rw [← hq] at hhi
      refine ⟨⟨by omega, by omega⟩, by omega, by omega⟩
    · rintro ⟨⟨h1, h2⟩, h3, h4⟩
      have hyq : y / n = lo / n := by omega
      rw [hyq] at hy
      rw [← hq] at hhi
      constructor <;> omega

/-- A digit in an interval together with a restriction of the one below it is one interval, when
nothing is restricted below or the digit is fixed. -/
theorem interval_combine {lo hi y : Int} {m : Int × Int} (hk : 0 < k) (hlo : 0 ≤ lo) (hhi : hi ≤ k)
    (h : (lo = 0 ∧ hi = k) ∨ m.2 - m.1 = 1) : (m.1 * k + lo ≤ y ∧ y < (m.2 - 1) * k + hi) ↔
      (lo ≤ y % k ∧ y % k < hi) ∧ (m.1 ≤ y / k ∧ y / k < m.2) := by
  have hy := Int.mul_ediv_add_emod y k
  have hy0 := Int.emod_nonneg y hk.ne'
  have hy1 := Int.emod_lt_of_pos y hk
  obtain ⟨b, e⟩ := m
  simp only at h ⊢
  rcases h with ⟨rfl, rfl⟩ | hone
  · constructor
    · rintro ⟨h1, h2⟩
      refine ⟨⟨hy0, hy1⟩, ?_, ?_⟩
      · rw [Int.le_ediv_iff_mul_le hk]
        omega
      · rw [Int.ediv_lt_iff_lt_mul hk]
        linarith
    · rintro ⟨-, h3, h4⟩
      rw [Int.le_ediv_iff_mul_le hk] at h3
      rw [Int.ediv_lt_iff_lt_mul hk] at h4
      constructor <;> linarith
  · obtain rfl : e = b + 1 := by omega
    constructor
    · rintro ⟨h1, h2⟩
      have hq : y / k = b := by
        rw [Int.ediv_eq_iff_of_pos hk]
        constructor <;> linarith
      rw [hq, mul_comm] at hy
      refine ⟨⟨by omega, ?_⟩, by omega, by omega⟩
      linarith
    · rintro ⟨⟨h1, h2⟩, h3, h4⟩
      have hq : y / k = b := by omega
      rw [hq, mul_comm] at hy
      constructor <;> linarith

/-! ## The walk on integers -/

/-- The state of the walk on integers. -/
structure Carry where
  masks : List (Int × Int)
  old : List Int
  new : List Int
  stride : Int
  oldDim : Int
  newDim : Int
  mask : Int × Int
  done : List (Int × Int)

namespace Carry

def toState (s : Carry) : Shape.MaskState :=
  ⟨s.masks.map pair, s.old.map .int, s.new.map .int, .int s.stride, .int s.oldDim,
    .int s.newDim, pair s.mask, s.done.map pair⟩

def copy (s : Carry) : Carry where
  masks := (Shape.next s.masks (0, 1)).2
  old := (Shape.next s.old 1).2
  new := (Shape.next s.new 1).2
  stride := 1
  oldDim := (Shape.next s.old 1).1
  newDim := (Shape.next s.new 1).1
  mask := (Shape.next s.masks (0, 1)).1
  done := (s.mask.1 / s.stride, (s.mask.2 - 1) / s.stride + 1) :: s.done

/-- The next new axis takes the part of the interval below its size. -/
def split (s : Carry) : Carry :=
  let n := s.newDim * s.stride
  { s with
    new := (Shape.next s.new 1).2
    newDim := (Shape.next s.new 1).1
    stride := n
    done := (s.mask.1 % n / s.stride, (s.mask.2 - 1) % n / s.stride + 1) :: s.done }

/-- The next old axis is taken into the interval. -/
def combine (s : Carry) : Carry :=
  let m := (Shape.next s.masks (0, 1)).1
  { s with
    masks := (Shape.next s.masks (0, 1)).2
    old := (Shape.next s.old 1).2
    oldDim := s.oldDim * (Shape.next s.old 1).1
    mask := (m.1 * s.oldDim + s.mask.1, (m.2 - 1) * s.oldDim + s.mask.2) }

/-- Whether the interval can be split at the size of the next new axis. -/
def Splits (s : Carry) : Prop :=
  let n := s.newDim * s.stride
  s.oldDim % n = 0 ∧
    ((s.mask.1 % n = 0 ∧ s.mask.2 % n = 0) ∨ s.mask.1 / n = (s.mask.2 - 1) / n)

instance (s : Carry) : Decidable s.Splits := inferInstanceAs (Decidable (_ ∧ _))

/-- Whether the next old axis can be taken in. -/
def Combines (s : Carry) : Prop :=
  let m := (Shape.next s.masks (0, 1)).1
  s.mask = (0, s.oldDim) ∨ s.mask.1 = s.mask.2 ∨ m.2 - m.1 = 1

instance (s : Carry) : Decidable s.Combines := inferInstanceAs (Decidable (_ ∨ _))

end Carry

namespace Shape

theorem next_map {α β : Type} (f : α → β) (xs : List α) (d : α) :
    next (xs.map f) (f d) = (f (next xs d).1, (next xs d).2.map f) := by
  cases xs <;> rfl

theorem reshapeLoop_succ (want fuel : Nat) (s : Carry) (hstride : 0 < s.stride)
    (hnew : 0 < s.newDim) :
    reshapeLoop want (fuel + 1) s.toState =
      if want ≤ s.done.length then pure (some (s.done.map pair))
      else if s.oldDim = s.newDim * s.stride then reshapeLoop want fuel s.copy.toState
      else if s.newDim * s.stride < s.oldDim then
        if s.Splits then reshapeLoop want fuel s.split.toState else pure none
      else if s.Combines then reshapeLoop want fuel s.combine.toState else pure none := by
  have hn : 0 < s.newDim * s.stride := mul_pos hnew hstride
  have hold := next_map int s.old 1
  have hnew' := next_map int s.new 1
  have hmasks := next_map pair s.masks (0, 1)
  simp only [pair] at hmasks
  generalize hcopy : reshapeLoop want fuel s.copy.toState = copied
  generalize hsplit : reshapeLoop want fuel s.split.toState = parted
  generalize hcombine : reshapeLoop want fuel s.combine.toState = combined
  obtain ⟨masks, old, new, c, o, n, ⟨l, r⟩, done⟩ := s
  simp only at *
  rw [reshapeLoop]
  simp only [Carry.toState, pair, mul_int, pure_bind, simplify_int, ofNat_eq,
    Nat.cast_one, Nat.cast_zero, sub_int, int_beq_int, length_map, ge_iff_le,
    div_int _ hstride, div_int _ hn, mod_int _ hn, add_int, gt_int,
    holds_known, ne_int, hold, hnew', hmasks, beq_iff_eq, decide_eq_true_eq, if_true,
    ne_eq, gt_iff_lt]
  refine if_congr Iff.rfl rfl (if_congr Iff.rfl hcopy (if_congr Iff.rfl ?_ ?_))
  · generalize hx : reshapeLoop want fuel _ = x
    obtain rfl : x = parted := hx.symm.trans hsplit
    by_cases h1 : o % (n * c) = 0 <;> by_cases h2 : l % (n * c) = 0 <;>
      by_cases h3 : r % (n * c) = 0 <;> by_cases h4 : l / (n * c) = (r - 1) / (n * c) <;>
      simp [Carry.Splits, h1, h2, h3, h4]
  · have hpair : ((int l, int r) == (int 0, int o)) = decide ((l, r) = (0, o)) := by
      change (l == 0 && r == o) = _
      rw [Bool.eq_iff_iff]
      simp
    rw [hpair]
    generalize hx : reshapeLoop want fuel _ = x
    obtain rfl : x = combined := hx.symm.trans hcombine
    by_cases h1 : (l, r) = (0, o) <;> by_cases h2 : l = r <;>
      by_cases h3 : (next masks (0, 1)).1.2 - (next masks (0, 1)).1.1 = 1 <;>
      simp [Carry.Combines, h1, h2, h3]

end Shape

/-! ## What is left to say -/

namespace Carry

/-- The interval that is left for the new axes to come. -/
def rest (s : Carry) : Int × Int := (s.mask.1 / s.stride, (s.mask.2 - 1) / s.stride + 1)

/-- Where the walk to the new axes `T`, last axis first, stands: the axes `N` are done, and an axis of
size `k` is left of the old ones, before those still to come. -/
structure Stands (T : List Int) (s : Carry) (k : Int) (N : List Int) : Prop where
  stride_pos : 0 < s.stride
  k_pos : 0 < k
  oldDim_eq : s.oldDim = s.stride * k
  pos : ∀ d ∈ s.old, 0 < d
  axes : T = N ++ s.newDim :: s.new ∨ T = N ∧ s.newDim = 1 ∧ s.new = []
  length : s.done.length = N.length
  size : N.prod * (k * s.old.prod) = T.prod

/-- The invariant of the walk from the old axes `S` with mask `M` to the new axes `T`: a position is inside the
old mask exactly when it is inside the mask of the axes done and its quotient by their size is inside
what is left. -/
structure Inv (S : List Int) (M : List (Int × Int)) (T : List Int) (s : Carry) (k : Int)
    (N : List Int) : Prop extends Stands T s k N where
  lower : 0 ≤ s.mask.1
  nonempty : s.mask.1 < s.mask.2
  upper : s.mask.2 ≤ s.oldDim
  window : Window s.masks s.old
  done : Window s.done.reverse N
  meaning : ∀ p, p ∈ box S M ↔
    p ∈ box N s.done.reverse ∧ p / N.prod ∈ box (k :: s.old) (s.rest :: s.masks)

end Carry

theorem View.Window.pos {ms : List (Int × Int)} {shape : List Int} (h : Window ms shape) :
    ∀ s ∈ shape, 0 < s := by
  induction h with
  | nil => simp
  | cons hd _ ih =>
    intro s hs
    rcases mem_cons.mp hs with rfl | hs
    · omega
    · exact ih s hs

theorem View.Window.append {ms ms' : List (Int × Int)} {shape shape' : List Int}
    (h : Window ms shape) (h' : Window ms' shape') : Window (ms ++ ms') (shape ++ shape') :=
  rel_append h h'

namespace Shape

theorem next_prod (xs : List Int) : (next xs 1).1 * (next xs 1).2.prod = xs.prod := by
  cases xs <;> simp [next]

/-- The next axis and its mask come from what is left; past the end they hide nothing. -/
theorem mem_box_next (h : Window masks old) {q : Int} : q ∈ box old masks ↔
      q ∈ box ((next old 1).1 :: (next old 1).2) ((next masks (0, 1)).1 :: (next masks (0, 1)).2) := by
  cases h with
  | nil => simp [next, mem_box_cons]
  | cons _ _ => rfl

theorem next_window (h : Window masks old) :
    (0 ≤ (next masks (0, 1)).1.1 ∧ (next masks (0, 1)).1.1 < (next masks (0, 1)).1.2 ∧
      (next masks (0, 1)).1.2 ≤ (next old 1).1) ∧
    Window (next masks (0, 1)).2 (next old 1).2 := by
  cases h with
  | nil => exact ⟨⟨le_rfl, by simp [next], le_rfl⟩, .nil⟩
  | cons hd hr => exact ⟨hd, hr⟩

theorem next_axes (N : List Int) (n : Int) (new : List Int) :
    N ++ n :: new = (N ++ [n]) ++ (next new 1).1 :: (next new 1).2 ∨
      N ++ n :: new = N ++ [n] ∧ (next new 1).1 = 1 ∧ (next new 1).2 = [] := by
  cases new with
  | nil => exact .inr ⟨rfl, rfl, rfl⟩
  | cons n' new => exact .inl (by simp [next])

end Shape

/-- Axes of total size one hide nothing of their one position. -/
theorem zero_mem_box (h : Window masks old) (hone : old.prod = 1) : (0 : Int) ∈ box old masks := by
  induction h with
  | nil => exact mem_box_nil
  | @cons m d masks old hd hrest ih =>
    have hd0 : 0 < d := by omega
    have hr0 : 0 < old.prod := prod_pos (View.Window.pos hrest)
    rw [prod_cons] at hone
    have hd1 : d = 1 := Int.eq_one_or_neg_one_of_mul_eq_one hone |>.resolve_right (by omega)
    subst hd1
    rw [one_mul] at hone
    rw [mem_box_cons]
    exact ⟨by simp; omega, by simpa using ih hone⟩

namespace Carry.Stands

theorem newDim_pos (h : Stands T s k N) (hT : ∀ t ∈ T, 0 < t) : 0 < s.newDim := by
  rcases h.axes with haxes | ⟨-, hone, -⟩
  · exact hT _ (by simp [haxes])
  · omega

theorem axes_of_lt (h : Stands T s k N) (hlt : ¬T.length ≤ s.done.length) :
    T = N ++ s.newDim :: s.new := by
  rcases h.axes with haxes | ⟨hT, -, -⟩
  · exact haxes
  · have := h.length
    rw [← hT] at this
    omega

/-- When all new axes are done, nothing is left. -/
theorem all_done (h : Stands T s k N) (hT : ∀ t ∈ T, 0 < t) (hdone : T.length ≤ s.done.length) :
    T = N ∧ k * s.old.prod = 1 := by
  have hN : T = N := by
    rcases h.axes with haxes | ⟨hT, -, -⟩
    · have := h.length
      rw [haxes, length_append, length_cons] at hdone
      omega
    · exact hT
  subst hN
  refine ⟨rfl, mul_left_cancel₀ (prod_pos hT).ne' ?_⟩
  rw [h.size, mul_one]

theorem next_pos {xs : List Int} (h : ∀ d ∈ xs, 0 < d) :
    0 < (Shape.next xs 1).1 ∧ ∀ d ∈ (Shape.next xs 1).2, 0 < d := by
  cases xs with
  | nil => simp [Shape.next]
  | cons x xs => exact ⟨h x (by simp), fun d hd => h d (by simp [Shape.next] at hd; simp [hd])⟩

theorem copy (h : Stands T s k N) (haxes : T = N ++ s.newDim :: s.new)
    (heq : s.oldDim = s.newDim * s.stride) :
    k = s.newDim ∧ Stands T s.copy (Shape.next s.old 1).1 (N ++ [s.newDim]) := by
  have hk : k = s.newDim := by
    have := h.oldDim_eq.symm.trans heq
    rw [mul_comm] at this
    exact mul_right_cancel₀ h.stride_pos.ne' this
  obtain ⟨hpos, hrest⟩ := next_pos h.pos
  refine ⟨hk, one_pos, hpos, (one_mul _).symm, hrest, ?_, by simp [Carry.copy, h.length], ?_⟩
  · rw [haxes]
    exact Shape.next_axes N s.newDim s.new
  · rw [← h.size, hk, ← Shape.next_prod s.old]
    simp only [Carry.copy, prod_append, prod_cons, prod_nil, mul_one, mul_assoc]

theorem split (h : Stands T s k N) (haxes : T = N ++ s.newDim :: s.new) (hn : 0 < s.newDim)
    (hs : s.Splits) :
    ∃ k', k = s.newDim * k' ∧ Stands T s.split k' (N ++ [s.newDim]) := by
  obtain ⟨k', hk'⟩ := Int.dvd_of_emod_eq_zero hs.1
  have hk : k = s.newDim * k' := by
    rw [h.oldDim_eq] at hk'
    apply mul_left_cancel₀ h.stride_pos.ne'
    rw [hk']
    ring
  have hk'pos : 0 < k' := pos_of_mul_pos_right (hk ▸ h.k_pos) hn.le
  refine ⟨k', hk, mul_pos hn h.stride_pos, hk'pos, ?_, h.pos, ?_, by simp [Carry.split, h.length], ?_⟩
  · simp only [Carry.split, h.oldDim_eq, hk]
    ring
  · rw [haxes]
    exact Shape.next_axes N s.newDim s.new
  · rw [← h.size, hk]
    simp only [Carry.split, prod_append, prod_singleton]
    ring

/-- Where the new axis needs more than is left of the old ones, another old axis is to come. -/
theorem old_ne_nil (h : Stands T s k N) (haxes : T = N ++ s.newDim :: s.new) (hT : ∀ t ∈ T, 0 < t)
    (hlt : s.oldDim < s.newDim * s.stride) : s.old ≠ [] := by
  intro hnil
  have hN : 0 < N.prod := prod_pos fun t ht => hT t (by simp [haxes, ht])
  have hnew : 0 < s.new.prod := prod_pos fun t ht => hT t (by simp [haxes, ht])
  have hk : k < s.newDim := by
    rw [h.oldDim_eq, mul_comm] at hlt
    exact lt_of_mul_lt_mul_right hlt h.stride_pos.le
  have hsize : N.prod * k = N.prod * (s.newDim * s.new.prod) := by
    have := h.size
    rwa [hnil, prod_nil, mul_one, haxes, prod_append, prod_cons] at this
  have hle : s.newDim * 1 ≤ s.newDim * s.new.prod :=
    mul_le_mul_of_nonneg_left hnew (h.newDim_pos hT).le
  have := mul_left_cancel₀ hN.ne' hsize
  omega

theorem combine (h : Stands T s k N) (haxes : T = N ++ s.newDim :: s.new) :
    Stands T s.combine (k * (Shape.next s.old 1).1) N := by
  obtain ⟨hpos, hrest⟩ := next_pos h.pos
  refine ⟨h.stride_pos, mul_pos h.k_pos hpos, ?_, hrest, .inl haxes, h.length, ?_⟩
  · simp only [Carry.combine, h.oldDim_eq, mul_assoc]
  · rw [← h.size, ← Shape.next_prod s.old]
    simp only [Carry.combine, mul_assoc]

end Carry.Stands

namespace Carry.Inv

/-- The interval that is left is inside its axis. -/
theorem rest_bounds (h : Inv S M T s k N) :
    0 ≤ s.rest.1 ∧ s.rest.1 < s.rest.2 ∧ s.rest.2 ≤ k := by
  have hc := h.stride_pos
  have h1 := h.nonempty
  have h2 := h.upper
  rw [h.oldDim_eq] at h2
  refine ⟨Int.ediv_nonneg h.lower hc.le, ?_, ?_⟩
  · have := Int.ediv_le_ediv hc (show s.mask.1 ≤ s.mask.2 - 1 by omega)
    simp only [rest]
    omega
  · have : (s.mask.2 - 1) / s.stride < k := by
      rw [Int.ediv_lt_iff_lt_mul hc, mul_comm]
      omega
    simp only [rest]
    omega

theorem pos_N (h : Inv S M T s k N) : ∀ n ∈ N, 0 < n := h.done.pos

theorem copy (h : Inv S M T s k N) (haxes : T = N ++ s.newDim :: s.new)
    (heq : s.oldDim = s.newDim * s.stride) :
    Inv S M T s.copy (Shape.next s.old 1).1 (N ++ [s.newDim]) := by
  obtain ⟨hk, hstands⟩ := h.toStands.copy haxes heq
  obtain ⟨hnext, hwin⟩ := Shape.next_window h.window
  have hdone : s.copy.done.reverse = s.done.reverse ++ [s.rest] := by simp [Carry.copy, rest]
  have hrest : s.copy.rest = (Shape.next s.masks (0, 1)).1 := by simp [Carry.copy, rest]
  refine ⟨hstands, hnext.1, hnext.2.1, hnext.2.2, hwin, ?_, ?_⟩
  · rw [hdone, ← hk]
    exact h.done.append (.cons h.rest_bounds .nil)
  · intro p
    rw [hdone, hrest, ← hk, mem_box_append h.pos_N h.done.length_eq, prod_append,
      prod_singleton, ← Int.ediv_ediv_of_nonneg (prod_pos h.pos_N).le, h.meaning, and_assoc]
    refine and_congr_right fun _ => ?_
    rw [mem_box_cons, mem_box_cons, Shape.mem_box_next h.window]
    simp only [mem_box_nil, and_true]
    rfl

/-- Where the interval can be split, what is left can be. -/
theorem rest_splits (h : Inv S M T s k N) (hs : s.Splits) :
    (s.rest.1 % s.newDim = 0 ∧ s.rest.2 % s.newDim = 0) ∨
      s.rest.1 / s.newDim = (s.rest.2 - 1) / s.newDim := by
  have hc := h.stride_pos
  rcases hs.2 with ⟨hl, hr⟩ | hq
  · left
    obtain ⟨a, ha⟩ := Int.dvd_of_emod_eq_zero hl
    obtain ⟨b, hb⟩ := Int.dvd_of_emod_eq_zero hr
    have h1 : s.mask.1 / s.stride = s.newDim * a := by
      rw [ha, mul_comm s.newDim, mul_assoc, Int.mul_ediv_cancel_left _ hc.ne']
    have h2 : (s.mask.2 - 1) / s.stride = s.newDim * b - 1 := by
      rw [Int.ediv_eq_iff_of_pos hc, hb]
      constructor <;> nlinarith
    simp only [rest, h1, h2]
    simp
  · right
    simp only [rest, add_sub_cancel_right]
    rw [Int.ediv_ediv_of_nonneg hc.le, Int.ediv_ediv_of_nonneg hc.le, mul_comm]
    exact hq

theorem split (h : Inv S M T s k N) (haxes : T = N ++ s.newDim :: s.new) (hn : 0 < s.newDim)
    (hs : s.Splits) : ∃ k', Inv S M T s.split k' (N ++ [s.newDim]) := by
  have hc := h.stride_pos
  have hcut := h.rest_splits hs
  obtain ⟨k', hk, hstands⟩ := h.toStands.split haxes hn hs
  obtain ⟨hlo, hlt, hhi⟩ := h.rest_bounds
  have hrest : s.split.rest = (s.rest.1 / s.newDim, (s.rest.2 - 1) / s.newDim + 1) := by
    simp only [Carry.split, rest, add_sub_cancel_right]
    rw [Int.ediv_ediv_of_nonneg hc.le, Int.ediv_ediv_of_nonneg hc.le, mul_comm]
  have hdone : s.split.done.reverse =
      s.done.reverse ++ [(s.rest.1 % s.newDim, (s.rest.2 - 1) % s.newDim + 1)] := by
    simp only [Carry.split, rest, add_sub_cancel_right, reverse_cons]
    rw [mul_comm s.newDim, emod_mul_ediv hc, emod_mul_ediv hc]
  refine ⟨k', hstands, h.lower, h.nonempty, h.upper, h.window, ?_, ?_⟩
  · rw [hdone]
    refine h.done.append (.cons ⟨Int.emod_nonneg _ hn.ne', ?_, ?_⟩ .nil)
    · -- the digits of the ends are in order because the ends are, in one block or in whole ones
      have h1 := Int.mul_ediv_add_emod s.rest.1 s.newDim
      have h2 := Int.mul_ediv_add_emod (s.rest.2 - 1) s.newDim
      have h3 := Int.emod_nonneg (s.rest.2 - 1) hn.ne'
      rcases hcut with ⟨hl, -⟩ | hq
      · omega
      · rw [hq] at h1
        omega
    · have := Int.emod_lt_of_pos (s.rest.2 - 1) hn
      omega
  · intro p
    rw [hdone, hrest, mem_box_append h.pos_N h.done.length_eq, prod_append,
      prod_singleton, ← Int.ediv_ediv_of_nonneg (prod_pos h.pos_N).le, h.meaning, and_assoc]
    refine and_congr_right fun _ => ?_
    generalize p / N.prod = q
    have hsplit := @interval_split s.newDim s.rest.1 s.rest.2 (q % k) hn hcut
    rw [hk, Int.emod_emod_of_dvd q (dvd_mul_right _ _), emod_mul_ediv hn] at hsplit
    rw [mem_box_cons, mem_box_cons, mem_box_cons, hk, hsplit, Int.ediv_ediv_of_nonneg hn.le]
    simp only [mem_box_nil, and_true, and_assoc]
    rfl

theorem combine (h : Inv S M T s k N) (haxes : T = N ++ s.newDim :: s.new)
    (hT : ∀ t ∈ T, 0 < t) (hlt : s.oldDim < s.newDim * s.stride) (hs : s.Combines) :
    Inv S M T s.combine (k * (Shape.next s.old 1).1) N := by
  have hstands := h.toStands.combine haxes
  have hc := h.stride_pos
  have hk := h.k_pos
  have hNpos := prod_pos h.pos_N
  obtain ⟨hlo, hlt', hhi⟩ := h.rest_bounds
  have hklt : k < s.newDim := by
    rw [h.oldDim_eq, mul_comm] at hlt
    exact lt_of_mul_lt_mul_right hlt hc.le
  -- there is another old axis, since the sizes agree
  have hne : s.old ≠ [] := by
    intro hnil
    have hsize := h.size
    rw [haxes, hnil, prod_append, prod_nil, mul_one] at hsize
    have hkeq := mul_left_cancel₀ hNpos.ne' hsize
    have hnew : 0 < s.new.prod := prod_pos fun t ht => hT t (by simp [haxes, ht])
    rw [prod_cons] at hkeq
    nlinarith
  have hwin := h.window
  obtain ⟨masks, old, new, c, o, n, ⟨l, r⟩, done⟩ := s
  cases hwin with
  | nil => exact absurd rfl hne
  | @cons m d masks old hm hrest =>
    have hd : 0 < d := by omega
    have ho : o = c * k := h.oldDim_eq
    have ho_pos : 0 < o := ho ▸ mul_pos hc hk
    have hl : 0 ≤ l := h.lower
    have hlr : l < r := h.nonempty
    have hro : r ≤ o := h.upper
    set s : Carry := ⟨m :: masks, d :: old, new, c, o, n, (l, r), done⟩ with hsdef
    have hcomb : s.combine.rest = (m.1 * k + s.rest.1, (m.2 - 1) * k + s.rest.2) := by
      have h1 : (m.1 * o + l) / c = m.1 * k + l / c := by
        rw [ho, show m.1 * (c * k) + l = l + c * (m.1 * k) by ring,
          Int.add_mul_ediv_left _ _ hc.ne', add_comm]
      have h2 : ((m.2 - 1) * o + r - 1) / c = (m.2 - 1) * k + (r - 1) / c := by
        rw [ho, show (m.2 - 1) * (c * k) + r - 1 = (r - 1) + c * ((m.2 - 1) * k) by ring,
          Int.add_mul_ediv_left _ _ hc.ne', add_comm]
      simp only [hsdef, Carry.combine, rest, Shape.next, h1, h2, add_assoc]
    have hcond : (s.rest.1 = 0 ∧ s.rest.2 = k) ∨ m.2 - m.1 = 1 := by
      rcases hs with hfull | hempty | hone
      · left
        obtain ⟨rfl, rfl⟩ := Prod.mk.inj hfull
        refine ⟨Int.zero_ediv c, ?_⟩
        have : (r - 1) / c = k - 1 := by
          rw [Int.ediv_eq_iff_of_pos hc, ho]
          constructor <;> nlinarith
        simp only [rest, hsdef, this]
        omega
      · exact absurd hempty hlr.ne
      · exact .inr hone
    refine ⟨hstands, ?_, ?_, ?_, hrest, h.done, ?_⟩
    · simp only [hsdef, Carry.combine, Shape.next]
      nlinarith [mul_nonneg hm.1 ho_pos.le]
    · simp only [hsdef, Carry.combine, Shape.next]
      nlinarith
    · simp only [hsdef, Carry.combine, Shape.next]
      nlinarith
    · intro p
      rw [hcomb, h.meaning]
      refine and_congr_right fun _ => ?_
      generalize p / N.prod = q
      have hint := @interval_combine k s.rest.1 s.rest.2 (q % (k * d)) m hk hlo hhi hcond
      rw [Int.emod_emod_of_dvd q (dvd_mul_right _ _), emod_mul_ediv hk] at hint
      change q ∈ box (k :: d :: old) (s.rest :: m :: masks) ↔ q ∈ box (k * d :: old) (_ :: masks)
      rw [mem_box_cons, mem_box_cons, mem_box_cons, hint, Int.ediv_ediv_of_nonneg hk.le]
      simp only [and_assoc]

theorem mem_box_iff (h : Inv S M T s k N) (hS : ∀ d ∈ S, 0 < d) (hT : ∀ t ∈ T, 0 < t)
    (hprod : T.prod = S.prod) (hdone : T.length ≤ s.done.length) :
    Window s.done.reverse T ∧ ∀ p, p ∈ box S M ↔ p ∈ box T s.done.reverse := by
  obtain ⟨rfl, hone⟩ := h.all_done hT hdone
  refine ⟨h.done, fun p => ?_⟩
  have hpos := prod_pos h.pos_N
  -- the size of what is left is one, so that zero is inside
  have hzero : (0 : Int) ∈ box (k :: s.old) (s.rest :: s.masks) := by
    have hwin : Window (s.rest :: s.masks) (k :: s.old) := .cons h.rest_bounds h.window
    rw [← prod_cons] at hone
    exact zero_mem_box hwin hone
  have key : ∀ q, 0 ≤ q → q < T.prod → (q ∈ box S M ↔ q ∈ box T s.done.reverse) := by
    intro q hq0 hq1
    rw [h.meaning, Int.ediv_eq_zero_of_lt hq0 hq1]
    exact and_iff_left hzero
  have hmod := key (p % T.prod) (Int.emod_nonneg p hpos.ne') (Int.emod_lt_of_pos p hpos)
  rwa [mem_box_emod h.pos_N dvd_rfl, hprod, mem_box_emod hS dvd_rfl] at hmod

end Carry.Inv

namespace Carry

/-- How many steps the walk to `n` new axes can still take. -/
def left (n : Nat) (s : Carry) : Nat := n - s.done.length + s.old.length

theorem length_next (xs : List Int) : (Shape.next xs 1).2.length = xs.length - 1 := by
  cases xs <;> rfl

theorem left_copy {n : Nat} (h : ¬n ≤ s.done.length) : s.copy.left n < s.left n := by
  simp only [left, copy, length_cons, length_next]
  omega

theorem left_split {n : Nat} (h : ¬n ≤ s.done.length) : s.split.left n < s.left n := by
  simp only [left, split, length_cons]
  omega

theorem left_combine {n : Nat} (h : s.old ≠ []) : s.combine.left n < s.left n := by
  have := length_pos_iff.mpr h
  simp only [left, combine, length_next]
  omega

end Carry

namespace Shape

/-- **The walk gives a mask with the same positions inside.** -/
theorem reshapeLoop_window (hS : ∀ d ∈ S, 0 < d) (hT : ∀ t ∈ T, 0 < t) (hprod : T.prod = S.prod)
    (fuel : Nat) (h : s.Inv S M T k N) (hfuel : s.left T.length < fuel) :
    Ensures False env st (reshapeLoop T.length fuel s.toState) fun r st' => st' = st ∧
      ∀ m, r = some m → ∃ M' : List (Int × Int), m = M'.map pair ∧ Window M'.reverse T ∧
        ∀ p, p ∈ box S M ↔ p ∈ box T M'.reverse := by
  induction fuel generalizing s k N with
  | zero => omega
  | succ fuel ih =>
    rw [reshapeLoop_succ _ _ _ h.stride_pos (h.newDim_pos hT)]
    split_ifs with hdone heq hlt hs hs
    · refine .pure ⟨rfl, fun m hm => ?_⟩
      cases hm
      exact ⟨s.done, rfl, h.mem_box_iff hS hT hprod hdone⟩
    · exact ih (h.copy (h.axes_of_lt hdone) heq) (by have := Carry.left_copy hdone; omega)
    · obtain ⟨k', h'⟩ := h.split (h.axes_of_lt hdone) (h.newDim_pos hT) hs
      exact ih h' (by have := Carry.left_split hdone; omega)
    · exact .pure ⟨rfl, fun m hm => by cases hm⟩
    · have hold := h.old_ne_nil (h.axes_of_lt hdone) hT (by omega)
      exact ih (h.combine (h.axes_of_lt hdone) hT (by omega) hs)
        (by have := Carry.left_combine (n := T.length) hold; omega)
    · exact .pure ⟨rfl, fun m hm => by cases hm⟩

end Shape

/-! ## Masks that hide everything -/

namespace Carry

/-- The invariant of the walk from a mask that hides everything: an axis that is done has no index
inside, or what is left has none. -/
structure Hides (T : List Int) (s : Carry) (k : Int) (N : List Int) : Prop extends
    Stands T s k N where
  empty : (∃ m ∈ s.done, m.2 ≤ m.1) ∨
    s.mask.1 = 0 ∧ s.mask.2 ≤ 0 ∧ (s.done = [] ∨ 2 ≤ k) ∧ ∀ m ∈ s.masks, m = (0, 0)

namespace Hides

theorem copy (h : Hides T s k N) (haxes : T = N ++ s.newDim :: s.new)
    (heq : s.oldDim = s.newDim * s.stride) :
    Hides T s.copy (Shape.next s.old 1).1 (N ++ [s.newDim]) := by
  refine ⟨(h.toStands.copy haxes heq).2, .inl ?_⟩
  rcases h.empty with ⟨m, hm, hle⟩ | ⟨hl, hr, -, -⟩
  · exact ⟨m, mem_cons_of_mem _ hm, hle⟩
  · refine ⟨_, mem_cons_self, ?_⟩
    have : (s.mask.2 - 1) / s.stride < 0 := Int.ediv_lt_of_lt_mul h.stride_pos (by omega)
    simp only [hl, Int.zero_ediv]
    omega

theorem split (h : Hides T s k N) (haxes : T = N ++ s.newDim :: s.new) (hn : 0 < s.newDim)
    (hlt : s.newDim * s.stride < s.oldDim) (hs : s.Splits) :
    ∃ k', Hides T s.split k' (N ++ [s.newDim]) := by
  have hc := h.stride_pos
  obtain ⟨k', hk, hstands⟩ := h.toStands.split haxes hn hs
  have htwo : 2 ≤ k' := by
    rw [h.oldDim_eq, hk] at hlt
    by_contra hle
    have : s.newDim * k' ≤ s.newDim * 1 := mul_le_mul_of_nonneg_left (by omega) hn.le
    nlinarith
  refine ⟨k', hstands, ?_⟩
  rcases h.empty with ⟨m, hm, hle⟩ | ⟨hl, hr, -, hzero⟩
  · exact .inl ⟨m, mem_cons_of_mem _ hm, hle⟩
  · exact .inr ⟨hl, hr, .inr htwo, hzero⟩

theorem combine (h : Hides T s k N) (haxes : T = N ++ s.newDim :: s.new) :
    Hides T s.combine (k * (Shape.next s.old 1).1) N := by
  have hpos := (Stands.next_pos h.pos).1
  have ho : 0 < s.oldDim := h.oldDim_eq ▸ mul_pos h.stride_pos h.k_pos
  refine ⟨h.toStands.combine haxes, ?_⟩
  rcases h.empty with hdone | ⟨hl, hr, hdone, hzero⟩
  · exact .inl hdone
  right
  have hk2 : s.done = [] ∨ 2 ≤ k * (Shape.next s.old 1).1 := by
    rcases hdone with hnil | htwo
    · exact .inl hnil
    · exact .inr (by nlinarith)
  cases hmasks : s.masks with
  | nil =>
    simp only [Carry.combine, hmasks, Shape.next]
    exact ⟨by omega, by omega, hk2, by simp⟩
  | cons m masks =>
    have hm : m = (0, 0) := hzero m (by simp [hmasks])
    simp only [Carry.combine, hmasks, Shape.next, hm]
    exact ⟨by omega, by omega, hk2, fun m' hm' => hzero m' (by simp [hmasks, hm'])⟩

/-- When all new axes are done, one of them has no index inside. -/
theorem exists_empty (h : Hides T s k N) (hne : T ≠ []) (hT : ∀ t ∈ T, 0 < t)
    (hdone : T.length ≤ s.done.length) :
    s.done.length = T.length ∧ ∃ m ∈ s.done, m.2 ≤ m.1 := by
  obtain ⟨rfl, hone⟩ := h.all_done hT hdone
  refine ⟨h.length, ?_⟩
  rcases h.empty with hdone | ⟨-, -, hnil | htwo, -⟩
  · exact hdone
  · exact absurd (length_eq_zero_iff.mp (h.length.symm.trans (by simp [hnil]))) hne
  · have := prod_pos h.pos
    nlinarith

end Hides

end Carry

namespace Shape

/-- **A mask that hides everything still does under the new shape.** -/
theorem reshapeLoop_hidden (hne : T ≠ []) (hT : ∀ t ∈ T, 0 < t) (fuel : Nat) (h : s.Hides T k N)
    (hfuel : s.left T.length < fuel) :
    Ensures False env st (reshapeLoop T.length fuel s.toState) fun r st' => st' = st ∧
      ∀ m, r = some m → ∃ M' : List (Int × Int), m = M'.map pair ∧ M'.length = T.length ∧
        ∃ m ∈ M', m.2 ≤ m.1 := by
  induction fuel generalizing s k N with
  | zero => omega
  | succ fuel ih =>
    rw [reshapeLoop_succ _ _ _ h.stride_pos (h.newDim_pos hT)]
    split_ifs with hdone heq hlt hs hs
    · refine .pure ⟨rfl, fun m hm => ?_⟩
      cases hm
      exact ⟨s.done, rfl, h.exists_empty hne hT hdone⟩
    · exact ih (h.copy (h.axes_of_lt hdone) heq) (by have := Carry.left_copy hdone; omega)
    · obtain ⟨k', h'⟩ := h.split (h.axes_of_lt hdone) (h.newDim_pos hT) hlt hs
      exact ih h' (by have := Carry.left_split hdone; omega)
    · exact .pure ⟨rfl, fun m hm => by cases hm⟩
    · have hold := h.old_ne_nil (h.axes_of_lt hdone) hT (by omega)
      exact ih (h.combine (h.axes_of_lt hdone))
        (by have := Carry.left_combine (n := T.length) hold; omega)
    · exact .pure ⟨rfl, fun m hm => by cases hm⟩

end Shape

/-! ## The mask under a new shape -/

namespace Carry

/-- The state in which the walk starts, from lists that hold the last axis first. -/
def start (M : List (Int × Int)) (S T : List Int) : Carry where
  masks := (Shape.next M (0, 1)).2
  old := (Shape.next S 1).2
  new := (Shape.next T 1).2
  stride := 1
  oldDim := (Shape.next S 1).1
  newDim := (Shape.next T 1).1
  mask := (Shape.next M (0, 1)).1
  done := []

theorem start_axes (T : List Int) :
    T = [] ++ (Shape.next T 1).1 :: (Shape.next T 1).2 ∨
      T = [] ∧ (Shape.next T 1).1 = 1 ∧ (Shape.next T 1).2 = [] := by
  cases T with
  | nil => exact .inr ⟨rfl, rfl, rfl⟩
  | cons t T => exact .inl rfl

theorem stands_start (hS : ∀ d ∈ S, 0 < d) (hprod : T.prod = S.prod) :
    (start M S T).Stands T (Shape.next S 1).1 [] := by
  obtain ⟨hpos, hrest⟩ := Stands.next_pos hS
  refine ⟨one_pos, hpos, (one_mul _).symm, hrest, start_axes T, rfl, ?_⟩
  rw [prod_nil, one_mul, hprod]
  exact Shape.next_prod S

theorem inv_start (hw : Window M S) (hprod : T.prod = S.prod) :
    (start M S T).Inv S M T (Shape.next S 1).1 [] := by
  obtain ⟨hnext, hrest⟩ := Shape.next_window hw
  have hr : (start M S T).rest = (Shape.next M (0, 1)).1 := by simp [start, rest]
  refine ⟨stands_start hw.pos hprod, hnext.1, hnext.2.1, hnext.2.2, hrest, .nil, fun p => ?_⟩
  rw [hr, Shape.mem_box_next hw, prod_nil, Int.ediv_one]
  exact (and_iff_right mem_box_nil).symm

theorem hides_start (hS : ∀ d ∈ S, 0 < d) (hne : S ≠ []) (hprod : T.prod = S.prod) :
    (start (S.map fun _ => (0, 0)) S T).Hides T (Shape.next S 1).1 [] := by
  refine ⟨stands_start hS hprod, .inr ?_⟩
  obtain ⟨d, S, rfl⟩ := exists_cons_of_ne_nil hne
  refine ⟨rfl, le_rfl, .inl rfl, fun m hm => ?_⟩
  obtain ⟨_, -, h⟩ := mem_map.mp hm
  exact h.symm

theorem left_start (M : List (Int × Int)) (S T : List Int) :
    (start M S T).left T.length ≤ T.length + S.length := by
  simp only [left, start, length_nil, length_next]
  omega

end Carry

namespace Shape

theorem reshapeMask_eq (ms : List (Int × Int)) (old new : List Int) :
    reshapeMask? (some (ms.map pair)) (old.map .int) (new.map .int) =
      reshapeLoop new.reverse.length (1000 + 10 * (old.length + new.length))
        (Carry.start ms.reverse old.reverse new.reverse).toState := by
  have hold := next_map int old.reverse 1
  have hnew := next_map int new.reverse 1
  have hmasks := next_map pair ms.reverse (0, 1)
  simp only [pair] at hmasks
  have hint : (ms.map pair).all (fun x => x.1.isInt && x.2.isInt) = true := by
    simp [pair, isInt]
  simp only [map_reverse] at hold hnew hmasks
  simp only [reshapeMask?, hint, Bool.not_true, Bool.false_eq_true, if_false, ofNat_eq,
    Nat.cast_one, Nat.cast_zero, length_map, hold, hnew, hmasks, length_reverse]
  rfl

theorem start_left_lt (ms : List (Int × Int)) (old new : List Int) :
    (Carry.start ms old.reverse new.reverse).left new.reverse.length <
      1000 + 10 * (old.length + new.length) := by
  have := Carry.left_start ms old.reverse new.reverse
  simp only [length_reverse] at this ⊢
  omega

/-- **A mask under a new shape has the same positions inside.** -/
theorem reshapeMask_window {ms : List (Int × Int)} (hw : Window ms old) (hnew : ∀ d ∈ new, 0 < d)
    (hprod : new.prod = old.prod) :
    Ensures False env st (reshapeMask? (some (ms.map pair)) (old.map .int) (new.map .int))
      fun r st' => st' = st ∧ ∀ m, r = some m → ∃ M : List (Int × Int), m = M.map pair ∧
        Window M new ∧ ∀ p, p ∈ box old.reverse ms.reverse ↔ p ∈ box new.reverse M.reverse := by
  rw [reshapeMask_eq]
  have hw' : Window ms.reverse old.reverse := rel_reverse hw
  have hprod' : new.reverse.prod = old.reverse.prod := by
    rw [prod_reverse, prod_reverse, hprod]
  refine (reshapeLoop_window hw'.pos (by simpa using hnew) hprod' _
    (Carry.inv_start hw' hprod') (start_left_lt ..)).mono ?_
  rintro r st' ⟨hst, hr⟩
  refine ⟨hst, fun m hm => ?_⟩
  obtain ⟨M, rfl, hM, hbox⟩ := hr m hm
  exact ⟨M, rfl, forall₂_reverse_iff.mp hM, hbox⟩

/-- **A mask that hides everything hides everything under a new shape.** -/
theorem reshapeMask_hidden (hold : ∀ d ∈ old, 0 < d) (hne : old ≠ []) (hnew : ∀ d ∈ new, 0 < d)
    (hnew_ne : new ≠ []) (hprod : new.prod = old.prod) :
    Ensures False env st (reshapeMask? (some ((old.map fun _ => ((0 : Int), (0 : Int))).map pair))
      (old.map .int) (new.map .int))
      fun r st' => st' = st ∧ ∀ m, r = some m → ∃ M : List (Int × Int), m = M.map pair ∧
        M.length = new.length ∧ ∃ m ∈ M, m.2 ≤ m.1 := by
  rw [reshapeMask_eq, ← map_reverse]
  refine (reshapeLoop_hidden (by simpa using hnew_ne) (by simpa using hnew) _
    (Carry.hides_start (by simpa using hold) (by simpa using hne)
      (by rw [prod_reverse, prod_reverse, hprod])) (start_left_lt ..)).mono ?_
  rintro r st' ⟨hst, hr⟩
  refine ⟨hst, fun m hm => ?_⟩
  obtain ⟨M, rfl, hM, hbox⟩ := hr m hm
  exact ⟨M, rfl, by simpa using hM, hbox⟩

end Shape

end LazyTensor
