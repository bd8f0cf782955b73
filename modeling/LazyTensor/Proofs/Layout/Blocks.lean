import LazyTensor.Proofs.Layout.Integer

/-!
# Merged axes

`Shape.mergeDims` merges neighbouring axes into blocks that move through memory as one, and
`View.splitBlocks` gives strides to the axes of a new shape inside those blocks.  A block moves by
its stride times a remainder of the position inside it; a block whose outer axes have a single
index inside the mask moves by a smaller remainder than its size.  The new axes inside a block move
by the remainder of a size at which new axes begin, and the two remainders differ by one number
throughout the positions inside the mask.

## Main results

* `mergeDims_int`: merging on integers.
* `joinAll_spec`: the blocks move as the axes do, and each fits.
* `splitBlocks_spec`: the new strides move as the blocks do, up to one number.
-/

namespace LazyTensor

open Radix View GraphM List Dim

variable {mask : Option (List (Int × Int))} {axes pre rest : List Axis} {a : Axis} {j : Joining}
  {rs : List (AxisBlock × Int)} {hidden : Prop} {real acc stride size : Int} {N : List Int}

/-! ## Merging on integers -/

/-- An axis: size, stride, and the interval inside the mask. -/
structure Axis where
  size : Int
  stride : Int
  mask : Int × Int

/-- Merged axes: size, stride, and size without repeated axes. -/
structure AxisBlock where
  size : Int
  stride : Int
  real : Int

def AxisBlock.toMerged (b : AxisBlock) : Shape.Merged := ⟨.int b.size, .int b.stride, .int b.real⟩

/-- The state of merging: the blocks before the current one, the current block, and whether only one
index of its last axis counts. -/
structure Joining where
  done : List AxisBlock
  last : AxisBlock
  point : Bool

namespace Joining

def toMerging (j : Joining) : Shape.Merging :=
  ⟨j.done.map AxisBlock.toMerged, j.last.toMerged, j.point⟩

/-- Merge the next axis into the current block, or begin a new one. -/
def step (j : Joining) (a : Axis) : Joining :=
  if a.size = 1 then j
  else if j.point then ⟨j.done, ⟨j.last.size * a.size, a.stride, a.size⟩, a.mask.2 - a.mask.1 = 1⟩
  else if j.last.stride = a.size * a.stride then
    ⟨j.done, ⟨j.last.size * a.size, a.stride, j.last.real * a.size⟩, a.mask.2 - a.mask.1 = 1⟩
  else ⟨j.done ++ [j.last], ⟨a.size, a.stride, a.size⟩, a.mask.2 - a.mask.1 = 1⟩

def start (a : Axis) : Joining :=
  ⟨[], ⟨a.size, a.stride, if a.stride ≠ 0 then a.size else 0⟩, a.mask.2 - a.mask.1 = 1⟩

end Joining

namespace Shape

/-- A mask of the given axes, given or hiding nothing. -/
def MaskOf (mask : Option (List (Int × Int))) (axes : List Axis) : Prop :=
  mask = some (axes.map Axis.mask) ∨ mask = none ∧ ∀ a ∈ axes, a.mask = (0, a.size)

theorem isPoint_int (hmask : MaskOf mask axes) (haxes : axes = pre ++ a :: rest) :
    isPoint (mask.map (·.map pair)) ((axes.map Axis.size).map .int) pre.length =
      pure (decide (a.mask.2 - a.mask.1 = 1)) := by
  rcases hmask with rfl | ⟨rfl, hfull⟩
  · have hget : ((axes.map Axis.mask).map pair).getD pre.length (0, 0) = pair a.mask := by
      rw [haxes]
      simp
    simp only [isPoint, Option.map_some, hget]
    rfl
  · have hget : ((axes.map Axis.size).map int).getD pre.length 0 = .int a.size := by
      rw [haxes]
      simp
    have ha := hfull a (by simp [haxes])
    simp only [isPoint, Option.map_none, hget, ha, sub_zero]
    rfl

theorem mergeStep_int (hmask : MaskOf mask axes) (haxes : axes = pre ++ a :: rest) (j : Joining) :
    mergeStep (mask.map (·.map pair)) ((axes.map Axis.size).map .int) j.toMerging
      ((.int a.size, .int a.stride), pre.length) = pure (j.step a).toMerging := by
  have hpoint := isPoint_int hmask haxes
  obtain ⟨done, ⟨size, stride, real⟩, point⟩ := j
  simp only [mergeStep, Joining.toMerging, AxisBlock.toMerged, ofNat_eq, Nat.cast_one,
    int_beq_int, beq_iff_eq, mul_int, pure_bind, hpoint, Joining.step]
  split_ifs <;> simp [AxisBlock.toMerged]

theorem foldlM_mergeStep (hmask : MaskOf mask axes) (pre rest : List Axis)
    (haxes : axes = pre ++ rest) (j : Joining) :
    ((rest.map fun a => (int a.size, int a.stride)).zipIdx pre.length).foldlM
      (mergeStep (mask.map (·.map pair)) ((axes.map Axis.size).map .int)) j.toMerging =
    pure (rest.foldl Joining.step j).toMerging := by
  induction rest generalizing pre j with
  | nil => rfl
  | cons a rest ih =>
    have hstep := mergeStep_int hmask haxes j
    have ih := ih (pre ++ [a]) (by simp [haxes]) (j.step a)
    rw [length_append, length_singleton] at ih
    simp only [map_cons, zipIdx_cons, foldlM_cons, hstep, pure_bind, ih,
      foldl_cons]

theorem mergeDims_int (hmask : MaskOf mask (a :: axes)) :
    mergeDims (((a :: axes).map Axis.size).map .int) (((a :: axes).map Axis.stride).map .int)
      (mask.map (·.map pair)) =
    (let j := axes.foldl Joining.step (Joining.start a)
     pure ((j.done ++ [j.last]).map AxisBlock.toMerged)) := by
  have hlen : (mask.map (·.map pair)).elim false
      (fun m => decide (m.length ≠ ((a :: axes).map Axis.size).length)) = false := by
    rcases hmask with rfl | ⟨rfl, -⟩ <;> simp
  have hpoint := @isPoint_int mask (a :: axes) [] axes a hmask rfl
  have hfold := foldlM_mergeStep hmask [a] axes rfl (Joining.start a)
  simp only [map_cons, length_nil, length_cons, length_map, zero_add] at *
  simp only [mergeDims, length_cons, length_map, ne_eq, not_true, decide_false,
    Bool.false_or, hlen, Bool.false_eq_true, if_false, headD_cons, ofNat_eq,
    Nat.cast_zero, ne_int, pure_bind, holds_known, hpoint]
  have hstart : (Joining.start a).toMerging = ⟨[], ⟨.int a.size, .int a.stride,
      if (decide ¬a.stride = 0) = true then .int a.size else .int 0⟩,
      decide (a.mask.2 - a.mask.1 = 1)⟩ := by
    by_cases h : a.stride = 0 <;> simp [Joining.start, Joining.toMerging, AxisBlock.toMerged, h]
  have hzip : ((axes.map Axis.size).map int).zip ((axes.map Axis.stride).map int) =
      axes.map fun a => (int a.size, int a.stride) := by
    rw [map_map, map_map, zip_map']
    rfl
  rw [← hstart, zip_cons_cons, drop_one, tail_cons, hzip, hfold]
  simp [Joining.toMerging]

end Shape

/-! ## What merged axes mean -/

/-- How far a stack of blocks, innermost first, moves at a position; each comes with the remainder
of the position inside it that it moves by. -/
def move : List (AxisBlock × Int) → Int → Int
  | [], _ => 0
  | (b, r) :: bs, q => b.stride * (q % r) + move bs (q / b.size)

/-- A block at a weight, in a set of positions: it moves by the remainder of its size, or by that of
a part of it above which the positions have a fixed digit. -/
structure FitsAt (V : Set Int) (w : Int) (b : AxisBlock) (r : Int) : Prop where
  size_pos : 0 < b.size
  range_pos : 0 < r
  real : b.stride = 0 ∨ b.real = r
  pinned : r = b.size ∨ 2 ≤ r ∧ r ≤ b.size ∧ Cut V (w * r) ∧
    ∃ s c : Int, 2 ≤ s ∧ ∀ x ∈ V, x / (w * r) % s = c

/-- A stack of blocks, innermost first and from a weight on, in which each block fits. -/
def Fits (V : Set Int) : Int → List (AxisBlock × Int) → Prop
  | _, [] => True
  | w, (b, r) :: bs => FitsAt V w b r ∧ Fits V (w * b.size) bs

/-- Axes of a canonical view: a part of each axis is inside the mask and no single index has a
stride, or nothing is inside the mask and nothing has a stride. -/
def Axis.Canonical (hidden : Prop) (a : Axis) : Prop :=
  0 < a.size ∧ (a.size = 1 → a.stride = 0) ∧
    (hidden ∧ a.mask = (0, 0) ∧ a.stride = 0 ∨
      0 ≤ a.mask.1 ∧ a.mask.1 < a.mask.2 ∧ a.mask.2 ≤ a.size ∧ (IsPoint a.mask → a.stride = 0))

/-- The positions inside the masks of axes, outermost first. -/
def inside (axes : List Axis) : Set Int :=
  box (axes.map Axis.size).reverse (axes.map Axis.mask).reverse

/-- The invariant of merging: the axes `pre` are merged, `rest` are still to come. -/
structure Joined (pre rest : List Axis) (j : Joining) (rs : List (AxisBlock × Int)) : Prop where
  blocks : rs.map Prod.fst = j.last :: j.done.reverse
  move : ∀ q, dot (pre.map Axis.stride).reverse (digits (pre.map Axis.size).reverse q) = move rs q
  fits : Fits (inside (pre ++ rest)) (rest.map Axis.size).prod rs
  point : j.point = true → j.last.stride = 0 ∧ (j.last.size = 1 ∨
    ∃ s c : Int, 2 ≤ s ∧ ∀ x ∈ inside (pre ++ rest), x / (rest.map Axis.size).prod % s = c)

/-- The digit of an axis is inside its mask at every position inside. -/
theorem digit_of_mem_inside (hrest : ∀ b ∈ rest, 0 < b.size) {x : Int}
    (hx : x ∈ inside (pre ++ a :: rest)) : a.mask.1 ≤ x / (rest.map Axis.size).prod % a.size ∧
      x / (rest.map Axis.size).prod % a.size < a.mask.2 := by
  have hpos : ∀ s ∈ (rest.map Axis.size).reverse, 0 < s := by
    simpa using hrest
  simp only [inside, map_append, map_cons, reverse_append, reverse_cons,
    append_assoc] at hx
  rw [mem_box_append hpos (by simp)] at hx
  have := hx.2
  rw [singleton_append, singleton_append, mem_box_cons, prod_reverse] at this
  exact this.1

/-- The positions inside recombine between any two axes. -/
theorem cut_inside (hrest : ∀ b ∈ rest, 0 < b.size) :
    Cut (inside (pre ++ rest)) (rest.map Axis.size).prod := by
  have hpos : ∀ s ∈ (rest.map Axis.size).reverse, 0 < s := by
    simpa using hrest
  have := @cut_box (rest.map Axis.size).reverse (pre.map Axis.size).reverse
    (rest.map Axis.mask).reverse (pre.map Axis.mask).reverse hpos (by simp)
  rw [prod_reverse] at this
  simpa only [inside, map_append, reverse_append] using this

theorem emod_mul_eq {s : Int} (hs : 0 < s) (q n : Int) :
    q % (s * n) = q % s + s * (q / s % n) := by
  rw [← emod_mul_ediv hs, ← Int.emod_emod_of_dvd q (dvd_mul_right s n)]
  exact (Int.emod_add_mul_ediv (q % (s * n)) s).symm

namespace Joined

/-- A point has no stride, and its digit is fixed. -/
theorem point_of_axis (ha : a.Canonical hidden) (hrest : ∀ b ∈ rest, 0 < b.size)
    (hpoint : a.mask.2 - a.mask.1 = 1) (hone : a.size = 1 → size = 1) : a.stride = 0 ∧ (size = 1 ∨
      ∃ s c : Int, 2 ≤ s ∧ ∀ x ∈ inside (pre ++ [a] ++ rest),
        x / (rest.map Axis.size).prod % s = c) := by
  obtain ⟨hpos, -, ⟨-, hmask, -⟩ | ⟨hlo, hlt, hhi, hst⟩⟩ := ha
  · rw [hmask] at hpoint
    simp at hpoint
  · refine ⟨hst (by unfold IsPoint; omega), ?_⟩
    by_cases h : a.size = 1
    · exact .inl (hone h)
    · refine .inr ⟨a.size, a.mask.1, by omega, fun x hx => ?_⟩
      rw [← append_cons] at hx
      have := digit_of_mem_inside hrest hx
      omega

theorem start (ha : a.Canonical hidden) (hrest : ∀ b ∈ rest, 0 < b.size) :
    Joined [a] rest (Joining.start a) [((Joining.start a).last, a.size)] := by
  refine ⟨rfl, fun q => ?_, ⟨⟨ha.1, ha.1, ?_, .inl rfl⟩, trivial⟩, fun hp => ?_⟩
  · simp [LazyTensor.move, Joining.start]
  · by_cases h : a.stride = 0
    · exact .inl h
    · exact .inr (by simp [Joining.start, h])
  · exact @point_of_axis [] rest a hidden a.size ha hrest (of_decide_eq_true hp) id

theorem prod_sizes (a : Axis) (rest : List Axis) :
    ((a :: rest).map Axis.size).prod = (rest.map Axis.size).prod * a.size := by
  rw [map_cons, prod_cons, mul_comm]

theorem dot_append_axis (pre : List Axis) (a : Axis) (q : Int) :
    dot ((pre ++ [a]).map Axis.stride).reverse (digits ((pre ++ [a]).map Axis.size).reverse q) =
      a.stride * (q % a.size) +
        dot (pre.map Axis.stride).reverse (digits (pre.map Axis.size).reverse (q / a.size)) := by
  simp

theorem skip (h : Joined pre (a :: rest) j rs) (hone : a.size = 1) :
    Joined (pre ++ [a]) rest j rs := by
  have hfits := h.fits
  have hpoint := h.point
  rw [map_cons, prod_cons, hone, one_mul] at hfits hpoint
  refine ⟨h.blocks, fun q => ?_, ?_, ?_⟩
  · rw [dot_append_axis, hone, Int.emod_one, mul_zero, zero_add, Int.ediv_one, h.move]
  · simpa using hfits
  · simpa using hpoint

/-- The current block, with the rest of the stack. -/
theorem exists_last (h : Joined pre rest j rs) :
    ∃ r bs, rs = (j.last, r) :: bs ∧ bs.map Prod.fst = j.done.reverse := by
  have hblocks := h.blocks
  cases rs with
  | nil => simp at hblocks
  | cons b bs =>
    obtain ⟨b, r⟩ := b
    simp only [map_cons, cons.injEq] at hblocks
    exact ⟨r, bs, by rw [hblocks.1], hblocks.2⟩

/-- After an outer axis with a single index, the block moves by the new axis alone. -/
theorem afterPoint (h : Joined pre (a :: rest) j rs) (ha : a.Canonical hidden)
    (hrest : ∀ b ∈ rest, 0 < b.size) (hne : a.size ≠ 1) (hp : j.point = true) :
    ∃ rs', Joined (pre ++ [a]) rest
      ⟨j.done, ⟨j.last.size * a.size, a.stride, a.size⟩, a.mask.2 - a.mask.1 = 1⟩ rs' := by
  obtain ⟨r, bs, rfl, hbs⟩ := h.exists_last
  obtain ⟨hstride, hfixed⟩ := h.point hp
  obtain ⟨hlast, hfits⟩ := h.fits
  have hpos := ha.1
  have hcut := @cut_inside pre (a :: rest) (by simpa using ⟨hpos, hrest⟩)
  rw [prod_sizes, append_cons] at hfixed hfits hcut
  refine ⟨(⟨j.last.size * a.size, a.stride, a.size⟩, a.size) :: bs, by simp [hbs], fun q => ?_,
    ⟨⟨?_, hpos, .inr rfl, ?_⟩, ?_⟩, fun hp => ?_⟩
  · rw [dot_append_axis, h.move]
    simp only [LazyTensor.move, hstride, zero_mul, zero_add]
    rw [Int.ediv_ediv_of_nonneg hpos.le, mul_comm a.size]
  · exact mul_pos hlast.size_pos hpos
  · rcases hfixed with hone | hfixed
    · exact .inl (by simp [hone])
    · refine .inr ⟨by omega, ?_, hcut, hfixed⟩
      exact le_mul_of_one_le_left hpos.le hlast.size_pos
  · simpa only [mul_assoc, mul_comm a.size] using hfits
  · exact point_of_axis ha hrest (of_decide_eq_true hp) (absurd · hne)

/-- An axis along which the block goes on. -/
theorem goOn (h : Joined pre (a :: rest) j rs) (ha : a.Canonical hidden)
    (hrest : ∀ b ∈ rest, 0 < b.size) (hne : a.size ≠ 1) (hst : j.last.stride = a.size * a.stride) :
    ∃ rs', Joined (pre ++ [a]) rest
      ⟨j.done, ⟨j.last.size * a.size, a.stride, j.last.real * a.size⟩, a.mask.2 - a.mask.1 = 1⟩
      rs' := by
  obtain ⟨r, bs, rfl, hbs⟩ := h.exists_last
  obtain ⟨hlast, hfits⟩ := h.fits
  have hpos := ha.1
  have hpin := hlast.pinned
  rw [prod_sizes, append_cons] at hfits hpin
  refine ⟨(⟨j.last.size * a.size, a.stride, j.last.real * a.size⟩, r * a.size) :: bs, by simp [hbs],
    fun q => ?_,
    ⟨⟨mul_pos hlast.size_pos hpos, mul_pos hlast.range_pos hpos, ?_, ?_⟩, ?_⟩, fun hp => ?_⟩
  · rw [dot_append_axis, h.move]
    simp only [LazyTensor.move, hst]
    rw [Int.ediv_ediv_of_nonneg hpos.le, mul_comm r, emod_mul_eq hpos, mul_comm j.last.size]
    ring
  · rcases hlast.real with hzero | hreal
    · left
      rw [hst] at hzero
      exact (mul_eq_zero.mp hzero).resolve_left hpos.ne'
    · exact .inr (by rw [hreal])
  · rcases hpin with hsize | ⟨htwo, hle, hcut, hfixed⟩
    · exact .inl (by rw [hsize])
    · rw [mul_assoc, mul_comm a.size] at hcut hfixed
      exact .inr ⟨by nlinarith, mul_le_mul_of_nonneg_right hle hpos.le, hcut, hfixed⟩
  · simpa only [mul_assoc, mul_comm a.size] using hfits
  · exact point_of_axis ha hrest (of_decide_eq_true hp) (absurd · hne)

/-- An axis at which a new block begins. -/
theorem begin (h : Joined pre (a :: rest) j rs) (ha : a.Canonical hidden)
    (hrest : ∀ b ∈ rest, 0 < b.size) : ∃ rs', Joined (pre ++ [a]) rest
      ⟨j.done ++ [j.last], ⟨a.size, a.stride, a.size⟩, a.mask.2 - a.mask.1 = 1⟩ rs' := by
  have hpos := ha.1
  have hfits := h.fits
  rw [prod_sizes, append_cons] at hfits
  refine ⟨(⟨a.size, a.stride, a.size⟩, a.size) :: rs, by simp [h.blocks], fun q => ?_,
    ⟨⟨hpos, hpos, .inr rfl, .inl rfl⟩, hfits⟩, fun hp => ?_⟩
  · rw [dot_append_axis, h.move]
    rfl
  · exact point_of_axis ha hrest (of_decide_eq_true hp) id

theorem step (h : Joined pre (a :: rest) j rs) (ha : a.Canonical hidden)
    (hrest : ∀ b ∈ rest, 0 < b.size) : ∃ rs', Joined (pre ++ [a]) rest (j.step a) rs' := by
  unfold Joining.step
  split_ifs with hone hp hst
  · exact ⟨rs, h.skip hone⟩
  · exact h.afterPoint ha hrest hone hp
  · exact h.goOn ha hrest hone hst
  · exact h.begin ha hrest

theorem foldl (h : Joined pre rest j rs) (hrest : ∀ b ∈ rest, b.Canonical hidden) :
    ∃ rs', Joined (pre ++ rest) [] (rest.foldl Joining.step j) rs' := by
  induction rest generalizing pre j rs with
  | nil => exact ⟨rs, by simpa using h⟩
  | cons a rest ih =>
    have htail : ∀ b ∈ rest, b.Canonical hidden := fun b hb => hrest b (by simp [hb])
    obtain ⟨rs', h'⟩ := h.step (hrest a (by simp)) fun b hb => (htail b hb).1
    obtain ⟨rs'', h''⟩ := ih h' htail
    exact ⟨rs'', by simpa using h''⟩

end Joined

/-- **The blocks move as the axes do, and each fits.** -/
theorem joinAll_spec (h : ∀ b ∈ a :: axes, b.Canonical hidden) : ∃ rs, rs.map Prod.fst =
        (let j := axes.foldl Joining.step (Joining.start a); (j.done ++ [j.last]).reverse) ∧
      (∀ q, dot ((a :: axes).map Axis.stride).reverse
        (digits ((a :: axes).map Axis.size).reverse q) = move rs q) ∧
      Fits (inside (a :: axes)) 1 rs := by
  have hrest : ∀ b ∈ axes, b.Canonical hidden := fun b hb => h b (by simp [hb])
  obtain ⟨rs, hrs⟩ := (Joined.start (h a (by simp)) fun b hb => (hrest b hb).1).foldl hrest
  refine ⟨rs, by simp [hrs.blocks], hrs.move, ?_⟩
  simpa using hrs.fits

/-! ## New axes inside a block -/

/-- The strides of new axes inside a block, innermost first, from the size of those already done:
the stride of the block times that size, until the size without repeated axes is reached. -/
def splitStrides (real : Int) : Int → Int → List Int → List Int
  | _, _, [] => []
  | acc, stride, d :: C =>
    stride * acc :: splitStrides real (acc * d) (if acc * d < real then stride else 0) C

@[simp] theorem length_splitStrides (real acc stride : Int) (C : List Int) :
    (splitStrides real acc stride C).length = C.length := by
  induction C generalizing acc stride with
  | nil => rfl
  | cons d C ih => simp [splitStrides, ih]

theorem dot_splitStrides_zero (real acc : Int) (C : List Int) (q : Int) :
    dot (splitStrides real acc 0 C) (digits C q) = 0 := by
  induction C generalizing acc q with
  | nil => rfl
  | cons d C ih => simp [splitStrides, ih]

/-- The new axes inside a block move by the remainder of the size of those that have a stride. -/
theorem dot_splitStrides {C : List Int} (hC : ∀ d ∈ C, 0 < d) (hacc : 0 < acc) (hlt : acc < real)
    (hle : real ≤ acc * C.prod) :
    ∃ C₁ d C₂, C = C₁ ++ d :: C₂ ∧ acc * C₁.prod < real ∧ real ≤ acc * C₁.prod * d ∧
      ∀ q, dot (splitStrides real acc stride C) (digits C q) =
        stride * acc * (q % (C₁.prod * d)) := by
  induction C generalizing acc stride with
  | nil => simp at hle; omega
  | cons d C ih =>
    have hd : 0 < d := hC d (by simp)
    by_cases hstop : acc * d < real
    · obtain ⟨C₁, d', C₂, rfl, hlt', hle', hdot⟩ :=
        @ih (acc * d) stride (fun e he => hC e (by simp [he])) (mul_pos hacc hd) hstop
          (by rwa [mul_assoc, ← prod_cons])
      refine ⟨d :: C₁, d', C₂, rfl, ?_, ?_, fun q => ?_⟩
      · rwa [prod_cons, ← mul_assoc]
      · rwa [prod_cons, ← mul_assoc]
      · simp only [splitStrides, hstop, if_true, digits_cons, dot_cons, hdot, prod_cons]
        rw [mul_assoc d, emod_mul_eq hd]
        ring
    · refine ⟨[], d, C, rfl, by simpa using hlt, by simpa using not_lt.mp hstop, fun q => ?_⟩
      simp only [splitStrides, hstop, if_false, digits_cons, dot_cons, dot_splitStrides_zero,
        prod_nil, one_mul, add_zero]

namespace View

/-- A block that is not full takes the next new axis. -/
theorem splitBlock_cons {d : Int} (fuel : Nat) (new : List Int) (out : List Dim) (hd : 0 < d)
    (hlt : acc < size) : splitBlock (.int size) (.int real) (fuel + 1) (.int acc) (.int stride)
      ((d :: new).map .int) out =
    splitBlock (.int size) (.int real) fuel (.int (acc * d))
      (.int (if acc * d < real then stride else 0)) (new.map .int) (.int (stride * acc) :: out) := by
  conv_lhs => unfold splitBlock
  simp only [le_int, pure_bind, resolve_known, hlt.le, decide_true, if_true, differs_int,
    ne_eq, hlt.ne, not_false_eq_true, Bool.not_true, Bool.false_eq_true, if_false, map_cons,
    ofNat_eq, Nat.cast_zero, gt_int, gt_iff_lt, hd, mul_int, lt_int,
    decide_eq_true_eq]
  split_ifs <;> rfl

theorem splitBlock_nil (fuel : Nat) (out : List Dim) (hlt : acc < size) :
    splitBlock (.int size) (.int real) (fuel + 1) (.int acc) (.int stride) [] out = pure none := by
  unfold splitBlock
  simp [hlt.le, hlt.ne]

theorem splitBlock_of_le (fuel : Nat) (new : List Int) (out : List Dim) (hle : size ≤ acc) :
    splitBlock (.int size) (.int real) (fuel + 1) (.int acc) (.int stride) (new.map .int) out =
      if acc = size then pure (some (out, new.map .int)) else pure none := by
  unfold splitBlock
  by_cases heq : acc = size
  · simp [heq]
  · have hnot : ¬acc ≤ size := by omega
    simp [heq, hnot]

/-- New axes inside a block, on integers: those taken make up the block. -/
theorem splitBlock_spec {env : Env} {st : Store} (fuel : Nat) {new : List Int} {out : List Dim}
    (hnew : ∀ d ∈ new, 0 < d) (hfuel : new.length < fuel) :
    Ensures False env st (splitBlock (.int size) (.int real) fuel (.int acc) (.int stride)
      (new.map .int) out) fun r st' => st' = st ∧ ∀ o n, r = some (o, n) →
        ∃ C rest, new = C ++ rest ∧ n = rest.map int ∧
          o = (splitStrides real acc stride C).reverse.map int ++ out ∧
          acc * C.prod = size ∧ (acc = size → C = []) := by
  induction fuel generalizing acc stride new out with
  | zero => omega
  | succ fuel ih =>
    by_cases hlt : acc < size
    · cases new with
      | nil =>
        rw [map_nil, splitBlock_nil fuel out hlt]
        exact .pure ⟨rfl, fun o n h => by cases h⟩
      | cons d new =>
        rw [splitBlock_cons fuel new out (hnew d (by simp)) hlt]
        refine (ih (fun e he => hnew e (by simp [he])) (by simpa using hfuel)).mono ?_
        rintro r st' ⟨hst, hr⟩
        refine ⟨hst, fun o n h => ?_⟩
        obtain ⟨C, rest, rfl, rfl, rfl, hsize, -⟩ := hr o n h
        refine ⟨d :: C, rest, rfl, rfl, ?_, ?_, fun heq => absurd heq hlt.ne⟩
        · simp [splitStrides]
        · rw [prod_cons, ← mul_assoc, hsize]
    · rw [splitBlock_of_le fuel new out (not_lt.mp hlt)]
      split_ifs with heq
      · refine .pure ⟨rfl, fun o n h => ?_⟩
        cases h
        exact ⟨[], new, rfl, rfl, rfl, by simpa using heq, fun _ => rfl⟩
      · exact .pure ⟨rfl, fun o n h => by cases h⟩

end View

/-! ## New axes inside all blocks -/

theorem exists_append_of_le {α : Type} {M : List α} {n : Nat} (h : n ≤ M.length) :
    ∃ M₁ M₂, M = M₁ ++ M₂ ∧ M₁.length = n :=
  ⟨M.take n, M.drop n, (take_append_drop n M).symm, length_take_of_le h⟩

/-- A block cut between two sizes of new axes is pinned there. -/
theorem FitsAt.pinnedAt {C₁ C₂ : List Int} {d : Int} {M : List (Int × Int)} {b : AxisBlock}
    {r : Int} (h : FitsAt (box (N ++ (C₁ ++ d :: C₂)) M) N.prod b r)
    (hpos : ∀ e ∈ N ++ (C₁ ++ d :: C₂), 0 < e) (hM : M.length = (N ++ (C₁ ++ d :: C₂)).length)
    (hne : r ≠ b.size) (hlt : C₁.prod < r) (hgt : r < C₁.prod * d) :
    Pinned (box (N ++ (C₁ ++ d :: C₂)) M) (N.prod * C₁.prod) (N.prod * r)
      (N.prod * (C₁.prod * d)) := by
  have hN : ∀ e ∈ N, 0 < e := fun e he => hpos e (by simp [he])
  have hC₁ : ∀ e ∈ C₁, 0 < e := fun e he => hpos e (by simp [he])
  have hd : 0 < d := hpos d (by simp)
  have hNpos := prod_pos hN
  have hinner : ∀ e ∈ N ++ C₁, 0 < e := fun e he => hpos e (by
    rcases mem_append.mp he with he | he <;> simp [he])
  obtain ⟨-, -, hcut, hpoint⟩ := h.pinned.resolve_left hne
  obtain ⟨M₁, M₂, rfl, hM₁⟩ := exists_append_of_le
    (show (N ++ C₁).length ≤ M.length by rw [hM]; simp)
  obtain ⟨m, M₂, rfl⟩ : ∃ m M₃, M₂ = m :: M₃ := by
    cases M₂ with
    | nil =>
      rw [append_nil, hM₁] at hM
      simp only [length_append, length_cons] at hM
      omega
    | cons m M₃ => exact ⟨m, M₃, rfl⟩
  have hcutq := @cut_box (N ++ C₁ ++ [d]) C₂ (M₁ ++ [m]) M₂ (by
    intro e he
    rcases mem_append.mp he with he | he
    · exact hinner e he
    · rw [mem_singleton.mp he]
      exact hd) (by simp only [length_append, length_singleton] at hM₁ ⊢; omega)
  have hstep : ∀ x ∈ box (N ++ C₁ ++ d :: C₂) (M₁ ++ m :: M₂),
      ∀ y ∈ box (N ++ C₁ ++ d :: C₂) (M₁ ++ m :: M₂), _ → _ → _ :=
    fun x hx y hy => step_box hinner hd hM₁ hx hy
  simp only [append_assoc, prod_append, prod_singleton, cons_append,
    nil_append] at hcutq hstep ⊢
  simp only [mul_assoc] at hcutq hstep
  exact ⟨mul_pos hNpos (prod_pos hC₁), mul_lt_mul_of_pos_left hlt hNpos,
    mul_lt_mul_of_pos_left hgt hNpos, hcut, hcutq, hstep, hpoint⟩

/-- The new axes inside a block move as the block does, up to one number. -/
theorem FitsAt.move_sub {C rest : List Int} {M : List (Int × Int)} {b : AxisBlock} {r : Int}
    (h : FitsAt (box (N ++ (C ++ rest)) M) N.prod b r) (hpos : ∀ e ∈ N ++ (C ++ rest), 0 < e)
    (hM : M.length = (N ++ (C ++ rest)).length) (hsize : C.prod = b.size)
    (hnil : b.size = 1 → C = []) {x y : Int} (hx : x ∈ box (N ++ (C ++ rest)) M)
    (hy : y ∈ box (N ++ (C ++ rest)) M) : b.stride * (x / N.prod % r) -
        dot (splitStrides b.real 1 b.stride C) (digits C (x / N.prod)) =
      b.stride * (y / N.prod % r) -
        dot (splitStrides b.real 1 b.stride C) (digits C (y / N.prod)) := by
  have hNpos : 0 < N.prod := prod_pos fun e he => hpos e (by simp [he])
  have hCpos : ∀ e ∈ C, 0 < e := fun e he => hpos e (by simp [he])
  by_cases hzero : b.stride = 0
  · simp [hzero, dot_splitStrides_zero]
  by_cases hone : b.size = 1
  · -- the block has a single position
    have hr : r = 1 := by
      rcases h.pinned with hr | ⟨htwo, hle, -, -⟩
      · rw [hr, hone]
      · omega
    simp [hnil hone, hr, splitStrides]
  have hreal : b.real = r := h.real.resolve_left hzero
  have hsize_pos := h.size_pos
  have htwo : 2 ≤ r := by
    rcases h.pinned with hr | ⟨htwo, -, -, -⟩ <;> omega
  have hle : r ≤ b.size := by
    rcases h.pinned with hr | ⟨-, hle, -, -⟩ <;> omega
  obtain ⟨C₁, d, C₂, rfl, hlt, hge, hdot⟩ :=
    @dot_splitStrides r 1 b.stride C hCpos one_pos (by omega) (by rw [one_mul, hsize]; exact hle)
  rw [hreal, hdot, hdot, mul_one]
  simp only [one_mul] at hlt hge
  by_cases heq : r = C₁.prod * d
  · rw [heq]
    ring
  -- the block is cut inside a new axis
  have hne : r ≠ b.size := by
    intro hr
    have hC₂ : 0 < C₂.prod := prod_pos fun e he => hCpos e (by simp [he])
    rw [← hsize, prod_append, prod_cons, ← mul_assoc] at hr
    have : C₁.prod * d * 1 ≤ C₁.prod * d * C₂.prod :=
      mul_le_mul_of_nonneg_left hC₂ (by omega)
    omega
  simp only [append_assoc, cons_append] at h hpos hM hx hy
  have hpin := h.pinnedAt hpos hM hne hlt (by omega)
  have hsub := hpin.emod_sub_emod hx hy
  rw [emod_mul_eq hNpos, emod_mul_eq hNpos, emod_mul_eq hNpos, emod_mul_eq hNpos] at hsub
  have hcancel : x / N.prod % r - x / N.prod % (C₁.prod * d) =
      y / N.prod % r - y / N.prod % (C₁.prod * d) := by
    apply mul_left_cancel₀ hNpos.ne'
    linarith
  rw [← mul_sub, ← mul_sub, hcancel]

namespace View

/-- **The strides of new axes move as the blocks do, up to one number**, at the positions inside a
mask of the new axes. -/
theorem splitBlocks_spec {new : List Int} {V : Set Int} (hpos : ∀ e ∈ N ++ new, 0 < e)
    (h : Fits V N.prod rs) {env : Env} {st : Store} (fuel : Nat) (hfuel : new.length < fuel)
    (out : List Dim) : Ensures False env st (splitBlocks fuel (rs.map fun b => b.1.toMerged) (new.map .int) out)
      fun r st' => st' = st ∧ ∀ o, r = some o →
        ∃ C sts rest, new = C ++ rest ∧ sts.length = C.length ∧
          o = sts.reverse.map int ++ out ∧
          ∀ M, V = box (N ++ new) M → M.length = (N ++ new).length → ∀ x ∈ V, ∀ y ∈ V,
            move rs (x / N.prod) - dot sts (digits C (x / N.prod)) =
              move rs (y / N.prod) - dot sts (digits C (y / N.prod)) := by
  induction rs generalizing N new out with
  | nil =>
    refine .pure ⟨rfl, fun o ho => ?_⟩
    cases ho
    exact ⟨[], [], new, rfl, rfl, rfl, fun M _ _ x _ y _ => by simp [move]⟩
  | cons b rs ih =>
    obtain ⟨b, r⟩ := b
    obtain ⟨hb, hrs⟩ := h
    have hNpos : 0 < N.prod := prod_pos fun e he => hpos e (by simp [he])
    rw [map_cons, splitBlocks]
    refine .bind ((splitBlock_spec fuel (fun d hd => hpos d (by simp [hd])) hfuel).mono ?_)
    rintro res st' ⟨rfl, hres⟩
    match res with
    | none => exact .pure ⟨rfl, fun o ho => by cases ho⟩
    | some (o, n) =>
      obtain ⟨C, rest, rfl, rfl, rfl, hsize, hnil⟩ := hres o n rfl
      rw [Nat.cast_one, one_mul] at hsize
      have hprod : (N ++ C).prod = N.prod * b.size := by rw [prod_append, hsize]
      have hrest : rest.length < fuel := by
        rw [length_append] at hfuel
        omega
      refine (@ih (N ++ C) rest (by simpa using hpos) (by rw [hprod]; exact hrs) hrest _).mono ?_
      rintro res' st'' ⟨hst, hres'⟩
      refine ⟨hst, fun o ho => ?_⟩
      obtain ⟨C', sts, rest', rfl, hlen, rfl, hmove⟩ := hres' o ho
      refine ⟨C ++ C', splitStrides b.real 1 b.stride C ++ sts, rest', by simp, by simp [hlen],
        by simp, fun M hV hM x hx y hy => ?_⟩
      have hCpos : ∀ e ∈ C, 0 < e := fun e he => hpos e (by simp [he])
      have h2 := hmove M (by rw [hV, append_assoc]) (by simpa using hM) x hx y hy
      subst hV
      have h1 := @FitsAt.move_sub N C (C' ++ rest') M b r hb hpos hM hsize (fun h => hnil h.symm)
        x y hx hy
      rw [hprod] at h2
      simp only [LazyTensor.move]
      rw [digits_append hCpos, digits_append hCpos, dot_append (by simp), dot_append (by simp),
        hsize, Int.ediv_ediv_of_nonneg hNpos.le, Int.ediv_ediv_of_nonneg hNpos.le]
      linarith

end View

end LazyTensor
