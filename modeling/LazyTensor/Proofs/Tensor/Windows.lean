import LazyTensor.Proofs.Tensor.Carrying

/-!
# Windows

Windows are made by movements alone.  Along an axis, position `k` of window `o` shows element
`o * step + k * gap`.  Where windows overlap or have gaps, a position is read off a row of its own,
of at most two extents and a gap, and a longer step does not fit in.

## Main results

* `Tensor.windows_show_positions`: what the windows of a tensor show.
-/

namespace LazyTensor

open Radix Movement List

open Session (Builds liftM_pure)

/-! ## Alternating axes -/

namespace Movement

variable {α β : Type}

theorem reorders_sorted (n c : Nat) (b : Bool) : Reorders (Movable.sorted n c b) (n + 2 * c) := by
  have hboth : ((range (2 * c)).filter (· % 2 = 0) ++
      (range (2 * c)).filter (· % 2 ≠ 0)).Perm (range (2 * c)) := by
    simpa only [ne_eq, decide_not] using filter_append_perm (· % 2 = 0) (range (2 * c))
  rw [Reorders, Movable.sorted, range_add]
  refine (List.Perm.append_left _ (List.Perm.map _ ?_)).map _
  cases b with
  | true => exact hboth
  | false => exact perm_append_comm.trans hboth

theorem map_pairs (u v : α → Int) (xs : List α) :
    ((range (2 * xs.length)).filter (· % 2 = 0)).map
        ((xs.flatMap fun x => [u x, v x]).getD · default) = xs.map u ∧
      ((range (2 * xs.length)).filter (· % 2 ≠ 0)).map
        ((xs.flatMap fun x => [u x, v x]).getD · default) = xs.map v := by
  induction xs with
  | nil => exact ⟨rfl, rfl⟩
  | cons x xs ih =>
    have hparity (k : Nat) : (k + 1 + 1) % 2 = k % 2 := by omega
    simpa [Nat.mul_succ, range_succ_eq_map, filter_map, Function.comp_def, hparity]
      using ih

theorem map_sorted (p : List Int) (xs : List α) (u v : α → Int) (b : Bool) :
    (Movable.sorted p.length xs.length b).map (View.axisOf (p ++ xs.flatMap fun x => [u x, v x])) =
      p ++ if b then xs.map u ++ xs.map v else xs.map v ++ xs.map u := by
  obtain ⟨hu, hv⟩ := map_pairs u v xs
  generalize xs.flatMap (fun x => [u x, v x]) = ys at hu hv ⊢
  have hlead : (range p.length).map ((p ++ ys).getD · default) = p :=
    ext_getElem (by simp) fun k _ hp => by simp [getElem?_append_left hp, hp]
  have hinner (k : Nat) : (p ++ ys).getD (p.length + k) default = ys.getD k default := by
    rw [getD_append_right _ _ _ _ (by omega), Nat.add_sub_cancel_left]
  simp only [Movable.sorted, map_map, Function.comp_def, Int.ofNat_eq_natCast, axisOf_natCast,
    map_append, hlead, hinner]
  cases b <;> simp only [if_true, if_false, Bool.false_eq_true, map_append, hu, hv]

theorem permute_sorted {m : Movement} {P : List Int} {xs : List α} {x y : α → Int}
    (hm : m.shape = P ++ xs.flatMap fun a => [x a, y a]) (b : Bool) :
    ∃ w, (Act.permute (Movable.sorted P.length xs.length b)).on? m = some w ∧
      w.shape = (P ++ if b then xs.map x ++ xs.map y else xs.map y ++ xs.map x) ∧
      ∀ (p : List Int) (qs : List β) (u v : β → Int), p.length = P.length → qs.length = xs.length →
        w.source (p ++ if b then qs.map u ++ qs.map v else qs.map v ++ qs.map u) =
          m.source (p ++ qs.flatMap fun q => [u q, v q]) := by
  have hlen : m.shape.length = P.length + 2 * xs.length := by
    simp [hm, length_flatMap, mul_comm]
  have hre := reorders_sorted P.length xs.length b
  refine ⟨_, if_pos (hlen ▸ hre), ?_, fun p qs u v hp hqs => ?_⟩
  · rw [hm]
    exact map_sorted P xs x y b
  · have hmap := map_sorted p qs u v b
    rw [hp, hqs] at hmap
    refine congrArg m.source ((hre.unorder_eq_iff ?_ ?_).mpr hmap)
    · cases b <;> simp [hp, hqs] <;> omega
    · simp [hp, hqs, length_flatMap, mul_comm]

end Movement

/-! ## Windows along an axis -/

/-- Windows along an axis, of which one fits. -/
structure Sliding where
  extent : Int
  size : Int
  step : Int
  gap : Int
  size_pos : 0 < size
  step_pos : 0 < step
  gap_pos : 0 < gap
  fits : gap * (size - 1) + 1 ≤ extent

namespace Sliding

variable (a : Sliding)

/-- The elements at which a window can begin. -/
def room : Int := a.extent - a.gap * (a.size - 1)

/-- The number of windows: the room in steps, rounded up. -/
def count : Int := -(-a.room / a.step)

def used : Int := a.count * a.step

/-- The length of the row from which one position of all windows is read. -/
def row : Int := a.extent * (if a.used > a.room then 2 else 1) + a.gap

def copies : Int := -(-(a.size * a.row) / a.extent)

/-- What the axis lacks of the last step. -/
def lack : Int := if a.used - a.extent < 0 then 0 else a.used - a.extent

theorem ceil_spec {b : Int} (hb : 0 < b) (x : Int) :
    x ≤ -(-x / b) * b ∧ (-(-x / b) - 1) * b < x := by
  have h := Int.ediv_mul_add_emod (-x) b
  have h0 := Int.emod_nonneg (-x) hb.ne'
  have h1 := Int.emod_lt_of_pos (-x) hb
  constructor <;> linarith

theorem room_spec : 0 < a.room ∧ a.room ≤ a.extent := by
  have h := a.fits
  have := mul_nonneg a.gap_pos.le (by have := a.size_pos; omega : 0 ≤ a.size - 1)
  rw [room]
  omega

theorem extent_pos : 0 < a.extent := a.room_spec.1.trans_le a.room_spec.2

theorem used_spec : a.room ≤ a.used ∧ a.used < a.room + a.step := by
  have h := ceil_spec a.step_pos a.room
  rw [used, count]
  constructor <;> linarith

theorem used_pos : 0 < a.used := a.room_spec.1.trans_le a.used_spec.1

theorem count_pos : 0 < a.count := (mul_pos_iff_of_pos_right a.step_pos).mp a.used_pos

theorem row_pos : 0 < a.row := by
  have h1 := a.extent_pos
  have h2 := a.gap_pos
  rw [row]
  split <;> omega

/-- A step is at most as long as what the windows use, and as the axis if there are two. -/
theorem step_spec : a.used = a.step ∨ a.step < a.extent := by
  rcases eq_or_lt_of_le (Int.add_one_le_of_lt a.count_pos) with h1 | h2
  · left
    rw [used, ← h1]
    ring
  · right
    have h := (ceil_spec a.step_pos a.room).2
    have := le_mul_of_one_le_left a.step_pos.le (by omega : 1 ≤ a.count - 1)
    exact (this.trans_lt h).trans_le a.room_spec.2

theorem used_le_row_iff : a.used ≤ a.row ↔ a.step ≤ 2 * a.extent + a.gap := by
  have h1 := a.room_spec
  have h2 := a.used_spec
  have h3 := a.step_spec
  have h4 := a.gap_pos
  rw [row]
  split <;> omega

theorem length_spec : 0 ≤ a.size * a.row ∧ a.size * a.row ≤ a.extent * a.copies := by
  rw [mul_comm a.extent]
  exact ⟨mul_nonneg a.size_pos.le a.row_pos.le, (ceil_spec a.extent_pos _).1⟩

theorem copies_nonneg : 0 ≤ a.copies :=
  nonneg_of_mul_nonneg_right (a.length_spec.1.trans a.length_spec.2) a.extent_pos

theorem lack_spec : 0 ≤ a.lack ∧ a.used ≤ a.extent + a.lack := by
  rw [lack]
  split <;> omega

/-- A position inside a window. -/
structure Place where
  axis : Sliding
  window : Int
  position : Int
  window_mem : 0 ≤ window ∧ window < axis.count
  position_mem : 0 ≤ position ∧ position < axis.size

namespace Place

variable (q : Place)

/-- The element there. -/
def source : Int := q.window * q.axis.step + q.position * q.axis.gap

theorem start_spec : 0 ≤ q.window * q.axis.step ∧
    q.window * q.axis.step + q.axis.step ≤ q.axis.used := by
  have h := mul_le_mul_of_nonneg_right (Int.le_sub_one_of_lt q.window_mem.2) q.axis.step_pos.le
  refine ⟨mul_nonneg q.window_mem.1 q.axis.step_pos.le, ?_⟩
  rw [used]
  linarith

theorem source_mem : 0 ≤ q.source ∧ q.source < q.axis.extent := by
  have h1 := q.start_spec
  have h2 := q.axis.used_spec
  have h3 := mul_le_mul_of_nonneg_right (Int.le_sub_one_of_lt q.position_mem.2) q.axis.gap_pos.le
  have h4 := mul_nonneg q.position_mem.1 q.axis.gap_pos.le
  rw [source]
  rw [room] at h2
  constructor <;> linarith

/-- A row is longer than its copies of the axis by a gap. -/
theorem emod_extent :
    (q.position * q.axis.row + q.window * q.axis.step) % q.axis.extent = q.source := by
  obtain ⟨h0, h1⟩ := q.source_mem
  have hrow : q.position * q.axis.row + q.window * q.axis.step = q.source +
      q.axis.extent * (q.position * if q.axis.used > q.axis.room then 2 else 1) := by
    rw [row, source]
    ring
  rw [hrow, Int.add_mul_emod_self_left, Int.emod_eq_of_lt h0 h1]

end Place

/-! ## Windows of index maps -/

open Movable Shape

section Run

variable {T : Type} [Movable T] (axes : List Sliding) (t : T) (n : Nat)

abbrev ints (f : Sliding → Int) : List Dim := axes.map fun a => .int (f a)

/-- Every position of a window is read off a row of its own. -/
def tiledActs : List Act :=
  [.tile n (axes.flatMap fun a => [a.copies]), .take n (axes.flatMap fun a => [a.size * a.row]),
    .regroup n (axes.flatMap fun a => [a.size, a.row]),
    .take n (axes.flatMap fun a => [a.size, a.used]),
    .regroup n (axes.flatMap fun a => [a.size, a.count, a.step]),
    .take n (axes.flatMap fun a => [a.size, a.count, 1]),
    .regroup n (axes.flatMap fun a => [a.size, a.count]), .permute (sorted n axes.length false)]

/-- A window is the beginning of a block. -/
def apartActs : List Act :=
  [.extend n (axes.flatMap fun a => [a.lack]), .take n (axes.flatMap fun a => [a.used]),
    .regroup n (axes.flatMap fun a => [a.count, a.step]),
    .take n (axes.flatMap fun a => [a.count, a.size]), .permute (sorted n axes.length true)]

theorem tiled_int :
    tiled t n (ints axes size) (ints axes extent) (ints axes room) (ints axes count)
      (axes.map step) (axes.map gap) = Act.runAll (tiledActs axes n) t := by
  simp only [tiled, ints, zip_map', mapM_map, Function.comp_def, Dim.mul_int, Dim.add_int,
    Dim.gt_int, liftM_pure, Dim.resolve_known, pure_bind, mapM_pure, flatMap_map,
    ceilDiv_int _ (extent_pos _), map_flatMap, map_cons, map_nil, length_map, ← map_eq_flatMap,
    map_map, copies, row, used, decide_eq_true_iff, tiledActs, Act.runAll, Act.run, foldlM_cons,
    foldlM_nil, bind_pure]
  rfl

theorem apart_int :
    apart t n (ints axes size) (ints axes extent) (ints axes count) (axes.map step) =
      Act.runAll (apartActs axes n) t := by
  simp only [apart, ints, zip_map', mapM_map, Function.comp_def, Dim.mul_int, liftM_pure,
    pure_bind, mapM_pure, flatMap_map, map_flatMap, map_cons, map_nil, length_map,
    ← map_eq_flatMap, map_map, lack, used, apartActs, Act.runAll, Act.run, foldlM_cons, foldlM_nil,
    bind_pure]
  rfl

/-- Windows are a program of movements, once the shape is known. -/
theorem windows_int (hne : axes ≠ []) (P : List Int) : ∃ f : List Dim → SessionM T,
    windows t (ints axes size) (.inr (axes.map step)) (.inr (axes.map gap)) = Movable.shape t >>= f ∧
      f ((P ++ axes.map extent).map .int) =
        if ∃ a ∈ axes, a.step < a.size ∨ a.gap ≠ 1 then Act.runAll (tiledActs axes P.length) t
        else Act.runAll (apartActs axes P.length) t := by
  have hfits : (axes.map fun a => (Dim.int (a.gap * (a.size - 1)), Dim.int a.extent)).allM
      (fun x => do (← (← x.1.add (.int 1)).le x.2).resolve) = (pure true : GraphM Bool) := by
    rw [allM_eq_not_anyM_not, anyM_map_eq_pure (q := fun _ => false) fun a _ => by
      simp [a.fits], any_eq_false.mpr (by simp)]
    rfl
  have hover : (axes.map fun a => (Dim.int a.size, a.step)).anyM
      (fun x => do (← x.1.gt (.int x.2)).resolve) =
      (pure (axes.any fun a => a.size > a.step) : GraphM Bool) := anyM_map_eq_pure fun a _ => rfl
  refine ⟨_, rfl, ?_⟩
  rw [← tiled_int, ← apart_int]
  simp [Tensor.perAxis, ints, zip_map', mapM_map, Function.comp_def, hne, liftM_pure,
    hfits, hover, ceilDiv_int _ (step_pos _), room, count, and_or_left, exists_or]

end Run

variable {m : Movement} {P : List Int} {axes : List Sliding}

/-- At places along axes, an index map shows what another does. -/
def Shows (axes : List Sliding) (front : Nat) (v m : Movement) (f g : Place → List Int) : Prop :=
  ∀ (p : List Int) (qs : List Place), p.length = front → qs.map Place.axis = axes →
    v.source (p ++ qs.flatMap f) = m.source (p ++ qs.flatMap g)

section Blocks

variable {F G : Sliding → List Int} (hm : m.shape = P ++ axes.flatMap F)

include hm

theorem along_spec (k : Kind Int) {H : Sliding → List Int}
    (h : ∀ a ∈ axes, (G a).length = (F a).length ∧ (∀ z ∈ (F a).zip (G a), k.admits z = true) ∧
      ((F a).zip (G a)).map k.size = H a) :
    ∃ v, m.onLast? P.length (k.along? · (axes.flatMap G)) = some v ∧ v.shape = P ++ axes.flatMap H ∧
      ∀ f g, (∀ q : Place, q.axis ∈ axes →
        each k.source ((F q.axis).zip (G q.axis)) (f q) = some (g q)) →
          Shows axes P.length v m f g := by
  have hzip := zip_flatMap fun a ha => (h a ha).1
  have hlen : (axes.flatMap G).length = (axes.flatMap F).length := by
    rw [length_flatMap, length_flatMap, map_congr_left fun a ha => (h a ha).1]
  have hadm : ∀ z ∈ (axes.flatMap F).zip (axes.flatMap G), k.admits z = true := by
    intro z hz
    rw [hzip] at hz
    obtain ⟨a, ha, hz⟩ := mem_flatMap.mp hz
    exact (h a ha).2.1 z hz
  obtain ⟨v, hv, hshape, hsource⟩ := onLast?_spec (f := (k.along? · _)) hm
    (Kind.along?_eq_some.mpr ⟨⟨hlen, hadm⟩, rfl⟩)
  refine ⟨v, hv, ?_, fun f g hfg p qs hp hqs => ?_⟩
  · rw [hshape, hzip, map_flatMap, flatMap_congr fun a ha => (h a ha).2.2]
  · have hj := each_flatMap fun q hq => hfg q (hqs ▸ mem_map_of_mem hq)
    rw [hsource p _ hp]
    dsimp only
    rw [hzip, ← hqs, flatMap_map, hj, Option.bind_some]

theorem regroup_spec (h : ∀ a ∈ axes, (F a).prod = (G a).prod ∧ ∀ s ∈ G a, 0 ≤ s) :
    ∃ v, (Act.regroup P.length (axes.flatMap G)).on? m = some v ∧ v.shape = P ++ axes.flatMap G ∧
      ∀ f g, (∀ q : Place, q.axis ∈ axes → Aligned (F q.axis) (G q.axis) (g q) (f q)) →
        Shows axes P.length v m f g := by
  have hprod : (axes.flatMap F).prod = (axes.flatMap G).prod := by
    simp only [flatMap_def, prod_flatten, map_map]
    exact congrArg prod (map_congr_left fun a ha => (h a ha).1)
  have hnn : ∀ s ∈ axes.flatMap G, 0 ≤ s := by
    intro s hs
    obtain ⟨a, ha, hs⟩ := mem_flatMap.mp hs
    exact (h a ha).2 s hs
  have hw : regrouping? (axes.flatMap F) (axes.flatMap G) = some _ := if_pos ⟨hprod, hnn⟩
  obtain ⟨v, hv, hshape, hsource⟩ := onLast?_spec (f := (regrouping? · _)) hm hw
  refine ⟨v, hv, hshape, fun f g hfg p qs hp hqs => ?_⟩
  have hj := (Aligned.flatMap fun q hq => hfg q (hqs ▸ mem_map_of_mem hq)).index_eq
  rw [hsource p _ hp]
  dsimp only
  rw [← hqs, flatMap_map, flatMap_map, hj, Option.bind_some]

end Blocks

/-- An index map whose last axes count windows and the positions inside them, and which shows the
elements there. -/
structure Slides (axes : List Sliding) (P : List Int) (m w : Movement) : Prop where
  shape : w.shape = P ++ (axes.map count ++ axes.map size)
  source : ∀ (p : List Int) (qs : List Place), p.length = P.length → qs.map Place.axis = axes →
    w.source (p ++ (qs.map (·.window) ++ qs.map (·.position))) = m.source (p ++ qs.map Place.source)

theorem tiled_spec (hm : m.shape = P ++ axes.map extent) (hused : ∀ a ∈ axes, a.used ≤ a.row) :
    ∃ w, Act.onAll? (tiledActs axes P.length) m = some w ∧ Slides axes P m w := by
  rw [map_eq_flatMap] at hm
  obtain ⟨m1, h1 : (Act.tile _ _).on? m = _, s1, r1⟩ := along_spec (G := fun a => [a.copies])
    (H := fun a => [a.extent * a.copies]) hm tiling fun a _ =>
      ⟨rfl, by simpa [tiling] using a.copies_nonneg, rfl⟩
  -- a row for each position inside a window
  obtain ⟨m2, h2 : (Act.take _ _).on? m1 = _, s2, r2⟩ := along_spec (G := fun a => [a.size * a.row])
    (H := fun a => [a.size * a.row]) s1 taking fun a _ =>
      ⟨rfl, by simpa [taking] using a.length_spec, rfl⟩
  obtain ⟨m3, h3, s3, r3⟩ := regroup_spec (G := fun a => [a.size, a.row]) s2 fun a _ =>
    ⟨by simp, by simpa using ⟨a.size_pos.le, a.row_pos.le⟩⟩
  obtain ⟨m4, h4 : (Act.take _ _).on? m3 = _, s4, r4⟩ := along_spec (G := fun a => [a.size, a.used])
    (H := fun a => [a.size, a.used]) s3 taking fun a ha =>
      ⟨rfl, by simpa [taking] using ⟨a.size_pos.le, a.used_pos.le, hused a ha⟩, rfl⟩
  -- the first element of each step is where a window begins
  obtain ⟨m5, h5, s5, r5⟩ := regroup_spec (G := fun a => [a.size, a.count, a.step]) s4 fun a _ =>
    ⟨by simp [used], by simpa using ⟨a.size_pos.le, a.count_pos.le, a.step_pos.le⟩⟩
  obtain ⟨m6, h6 : (Act.take _ _).on? m5 = _, s6, r6⟩ := along_spec (G := fun a => [a.size, a.count, 1])
    (H := fun a => [a.size, a.count, 1]) s5 taking fun a _ =>
      ⟨rfl, by simpa [taking] using ⟨a.size_pos.le, a.count_pos.le, a.step_pos⟩, rfl⟩
  obtain ⟨m7, h7, s7, r7⟩ := regroup_spec (G := fun a => [a.size, a.count]) s6 fun a _ =>
    ⟨by simp, by simpa using ⟨a.size_pos.le, a.count_pos.le⟩⟩
  obtain ⟨w, hw, hshape, hsource⟩ := permute_sorted s7 false
  refine ⟨w, ?_, hshape, fun p qs hp hqs => ?_⟩
  · simp only [tiledActs, Act.onAll?_cons, h1, h2, h3, h4, h5, h6, h7, hw, Option.bind_some,
      Act.onAll?_nil]
  have hlen : qs.length = axes.length := by rw [← hqs, length_map]
  calc w.source (p ++ (qs.map (·.window) ++ qs.map (·.position)))
    _ = m7.source (p ++ qs.flatMap fun q => [q.position, q.window]) :=
      hsource p qs (·.position) (·.window) hp hlen
    _ = m6.source (p ++ qs.flatMap fun q => [q.position, q.window, 0]) :=
      r7 _ _ (fun q _ => .cons q.position_mem (.cons q.window_mem .one)) p qs hp hqs
    _ = m5.source (p ++ qs.flatMap fun q => [q.position, q.window, 0]) :=
      r6 _ _ (fun _ _ => rfl) p qs hp hqs
    _ = m4.source (p ++ qs.flatMap fun q => [q.position, q.window * q.axis.step]) :=
      r5 _ _ (fun q _ => .cons q.position_mem ?_) p qs hp hqs
    _ = m3.source (p ++ qs.flatMap fun q => [q.position, q.window * q.axis.step]) :=
      r4 _ _ (fun _ _ => rfl) p qs hp hqs
    _ = m2.source (p ++ qs.flatMap fun q => [q.position * q.axis.row + q.window * q.axis.step]) :=
      r3 _ _ (fun q hq => .split q.position_mem ?_) p qs hp hqs
    _ = m1.source (p ++ qs.flatMap fun q => [q.position * q.axis.row + q.window * q.axis.step]) :=
      r2 _ _ (fun _ _ => rfl) p qs hp hqs
    _ = m.source (p ++ qs.flatMap fun q => [q.source]) :=
      r1 _ _ (fun q _ => by simp [each, tiling, q.emod_extent]) p qs hp hqs
    _ = m.source (p ++ qs.map Place.source) := by rw [map_eq_flatMap]
  · simpa [used] using Aligned.split q.window_mem ⟨le_rfl, q.axis.step_pos⟩
  · have := hused _ hq
    have := q.start_spec
    have := q.axis.step_pos
    omega

theorem apart_spec (hm : m.shape = P ++ axes.map extent)
    (h : ∀ a ∈ axes, a.size ≤ a.step ∧ a.gap = 1) :
    ∃ w, Act.onAll? (apartActs axes P.length) m = some w ∧ Slides axes P m w := by
  rw [map_eq_flatMap] at hm
  obtain ⟨m1, h1 : (Act.extend _ _).on? m = _, s1, r1⟩ := along_spec (G := fun a => [a.lack])
    (H := fun a => [a.extent + a.lack]) hm extending fun a _ =>
      ⟨rfl, by simpa [extending] using a.lack_spec.1, rfl⟩
  obtain ⟨m2, h2 : (Act.take _ _).on? m1 = _, s2, r2⟩ := along_spec (G := fun a => [a.used])
    (H := fun a => [a.used]) s1 taking fun a _ =>
      ⟨rfl, by simpa [taking] using ⟨a.used_pos.le, a.lack_spec.2⟩, rfl⟩
  obtain ⟨m3, h3, s3, r3⟩ := regroup_spec (G := fun a => [a.count, a.step]) s2 fun a _ =>
    ⟨by simp [used], by simpa using ⟨a.count_pos.le, a.step_pos.le⟩⟩
  obtain ⟨m4, h4 : (Act.take _ _).on? m3 = _, s4, r4⟩ := along_spec (G := fun a => [a.count, a.size])
    (H := fun a => [a.count, a.size]) s3 taking fun a ha =>
      ⟨rfl, by simpa [taking] using ⟨a.count_pos.le, a.size_pos.le, (h a ha).1⟩, rfl⟩
  obtain ⟨w, hw, hshape, hsource⟩ := permute_sorted s4 true
  refine ⟨w, ?_, hshape, fun p qs hp hqs => ?_⟩
  · simp only [apartActs, Act.onAll?_cons, h1, h2, h3, h4, hw, Option.bind_some, Act.onAll?_nil]
  have hlen : qs.length = axes.length := by rw [← hqs, length_map]
  calc w.source (p ++ (qs.map (·.window) ++ qs.map (·.position)))
    _ = m4.source (p ++ qs.flatMap fun q => [q.window, q.position]) :=
      hsource p qs (·.window) (·.position) hp hlen
    _ = m3.source (p ++ qs.flatMap fun q => [q.window, q.position]) :=
      r4 _ _ (fun _ _ => rfl) p qs hp hqs
    _ = m2.source (p ++ qs.flatMap fun q => [q.source]) := r3 _ _ (fun q hq => ?_) p qs hp hqs
    _ = m1.source (p ++ qs.flatMap fun q => [q.source]) := r2 _ _ (fun _ _ => rfl) p qs hp hqs
    _ = m.source (p ++ qs.flatMap fun q => [q.source]) :=
      r1 _ _ (fun q _ => by simp [each, extending, q.source_mem]) p qs hp hqs
    _ = m.source (p ++ qs.map Place.source) := by rw [map_eq_flatMap]
  obtain ⟨hsize, hgap⟩ := h q.axis hq
  rw [Place.source, hgap, mul_one]
  exact .split q.window_mem ⟨q.position_mem.1, q.position_mem.2.trans_le hsize⟩

end Sliding

/-! ## Windows of tensors -/

namespace Tensor

variable {st : Store} {t : Tensor} {l : Stack} {k : Nat} {s : Session}

/-- A tensor whose layout is known. -/
structure Laid (st : Store) (t : Tensor) (l : Stack) : Prop where
  holds : st.Holds t.node
  placed : t.node.Placed st
  layout : st.layouts[t.node.number]? = some (some l.layout)

theorem Laid.follows (h : t.Laid st l) (S : List Int) :
    t.Follows st t.node.base S (l.element? S) ⟨l.shape, some⟩ :=
  ⟨h.holds, h.placed, rfl, l, h.layout, rfl, fun _ _ => rfl⟩

open Sliding (ints)

/-- A tensor whose last axes count windows and the positions inside them, and which shows what a
layout does at the elements there. -/
def ShowsWindows (st : Store) (axes : List Sliding) (P S : List Int) (l : Stack) (t : Tensor) : Prop :=
  ∃ l' : Stack, t.Laid st l' ∧ l'.shape = P ++ (axes.map (·.count) ++ axes.map (·.size)) ∧
    ∀ (p : List Int) (qs : List Sliding.Place), IsIndex P p → qs.map (·.axis) = axes →
      l'.element? S (p ++ (qs.map (·.window) ++ qs.map (·.position))) =
        l.element? S (p ++ qs.map (·.source))

variable {axes : List Sliding} {P : List Int}

theorem Laid.slides (hs : s.store.Remembers) (ht : t.Laid s.store l) (S : List Int)
    {acts : List Act} {w : Movement} (hw : Act.onAll? acts ⟨l.shape, some⟩ = some w)
    (h : Sliding.Slides axes P ⟨l.shape, some⟩ w) :
    Builds (Env.level (k + 1)) s (Act.runAll acts t) fun t' st =>
      t'.node.base = t.node.base ∧ t'.ShowsWindows st axes P S l := by
  refine ((ht.follows S).runAll hs hw).mono ?_
  rintro t' st - - ⟨hholds, hplaced, hbase, l', hl', hshape, helement⟩
  refine ⟨hbase, l', ⟨hholds, hplaced, hl'⟩, hshape.trans h.shape, fun p qs hp hqs => ?_⟩
  have hindex : IsIndex w.shape (p ++ (qs.map (·.window) ++ qs.map (·.position))) := by
    rw [h.shape, ← hqs]
    refine rel_append hp (rel_append ?_ ?_) <;>
      simp only [map_map, forall₂_map_left_iff, forall₂_map_right_iff, forall₂_same]
    · exact fun q _ => q.window_mem
    · exact fun q _ => q.position_mem
  rw [helement _ hindex, h.source p qs hp.length_eq.symm hqs]
  rfl

/-- **Windows show the elements under them.**  Axes of windows, and of positions inside them,
replace the last axes, where the windows lie apart or no step is longer than a row. -/
theorem windows_show_positions (hs : s.store.Remembers) (ht : t.Laid s.store l)
    (hne : axes ≠ []) (hshape : l.shape = P ++ axes.map (·.extent))
    (hsteps : (∀ a ∈ axes, a.size ≤ a.step ∧ a.gap = 1) ∨
      ∀ a ∈ axes, a.step ≤ 2 * a.extent + a.gap) (S : List Int) :
    Builds (Env.level (k + 1)) s
      (t.windows (ints axes (·.size)) (.inr (axes.map (·.step))) (.inr (axes.map (·.gap))))
      fun t' st => t'.node.base = t.node.base ∧ t'.ShowsWindows st axes P S l := by
  obtain ⟨f, hf, hrun⟩ := Sliding.windows_int axes t hne P
  rw [windows, hf]
  refine .read (ht.follows S).shape ?_
  rw [hshape, hrun]
  split
  case isTrue hover =>
    have hlong : ∀ a ∈ axes, a.used ≤ a.row := by
      rcases hsteps with hapart | hlong
      · obtain ⟨a, ha, h⟩ := hover
        have := hapart a ha
        omega
      · exact fun a ha => a.used_le_row_iff.mpr (hlong a ha)
    obtain ⟨w, hw, hslides⟩ := Sliding.tiled_spec (m := ⟨l.shape, some⟩) hshape hlong
    exact ht.slides hs S hw hslides
  case isFalse hover =>
    obtain ⟨w, hw, hslides⟩ := Sliding.apart_spec (m := ⟨l.shape, some⟩) hshape fun a ha => by
      by_contra hnot
      exact hover ⟨a, ha, by omega⟩
    exact ht.slides hs S hw hslides

/-- Pairs in two rows of ones, with one element between. -/
theorem windows_show_positions_dilated :
    Builds (Env.level 1) {} (do
      (← full [.int 2, .int 6] (.float 1) {}).windows [.int 2] (.inr [1]) (.inr [2])) fun t st =>
        ∃ l : Stack, t.Laid st l ∧ l.shape = [2, 4, 2] ∧ l.element? [] [1, 3, 1] = some [] := by
  let a : Sliding := ⟨6, 2, 1, 2, by decide, by decide, by decide, by decide⟩
  refine .bind (full_spec (T := [2, 6]) (Store.Remembers.of_empty rfl rfl rfl) (by simp)
    (show Device.resolve ({} : Wish).device = .ok _ from rfl)
    (show (Const.float 1).ofDType? .float = .ok _ from rfl)) ?_
  rintro t st hst - ⟨e, -, h⟩
  obtain ⟨l, hl, hshape, helement⟩ := h.stack
  refine (windows_show_positions (s := Session.withStore {} st) hst ⟨h.holds, h.placed, hl⟩
    (show [a] ≠ [] by simp) (P := [2]) hshape (.inr (by simp [a])) []).mono ?_
  rintro t' st' - - ⟨-, l', hl', hshape', helement'⟩
  refine ⟨l', hl', hshape', ?_⟩
  have hunder : l'.element? [] [1, 3, 1] = l.element? [] [1, 5] :=
    helement' [1] [⟨a, 3, 1, by decide, by decide⟩] (.cons (by decide) .nil) rfl
  rw [hunder, helement _ (.cons (by decide) (.cons (by decide) .nil))]
  rfl

end Tensor

end LazyTensor
