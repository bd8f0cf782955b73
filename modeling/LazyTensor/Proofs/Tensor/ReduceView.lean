import LazyTensor.Proofs.Tensor.Layouts
import LazyTensor.Schedule.Views

/-!
# Views of reductions

A view of a reduction is a reduction of views that have the reduced axes at their end.  The steps of
the other axes grow by the number of reduced elements, so that an index of the view and one of the
reduced axes together select what the view selects, with the index of the reduced axes behind it.
What the view hides stays hidden, and zeros fold to zero.

## Main results

* `Views.throughReduce_exact`: a view of a reduction is a reduction of views.
-/

namespace LazyTensor

open Radix GraphM List View Layout

/-! ## Positions with more axes -/

namespace Shape

variable {S R r : List Int}

/-- The index of a position of an outer and an inner part. -/
theorem index_append (hR : ∀ s ∈ R, 0 < s) (S : List Int) (a : Int) {q : Int} (h0 : 0 ≤ q)
    (h1 : q < R.prod) : index (S ++ R) (a * R.prod + q) = index S a ++ index R q := by
  have hpos := prod_pos hR
  have hq : (a * R.prod + q) / R.prod = a := by
    rw [Int.add_comm, Int.add_mul_ediv_right _ _ hpos.ne', Int.ediv_eq_zero_of_lt h0 h1, zero_add]
  have hm : digits R.reverse (a * R.prod + q) = digits R.reverse q := by
    rw [← digits_emod (by simpa using hR) (a * R.prod + q) (n := R.prod) (by simp),
      Int.mul_add_emod_self_right, digits_emod (by simpa using hR) q (by simp)]
  rw [index, reverse_append, digits_append (by simpa using hR), reverse_append,
    prod_reverse, hq, hm]
  rfl

/-- The address of an index of a dense array is the position of that index. -/
theorem dot_dense_isIndex (h : IsIndex R r) :
    0 ≤ dot (dense R) r ∧ dot (dense R) r < R.prod ∧ index R (dot (dense R) r) = r := by
  have hrev : IsIndex R.reverse r.reverse := rel_reverse h
  have hindex : index R (ofDigits R.reverse r.reverse) = r := by
    rw [index, digits_ofDigits hrev, reverse_reverse]
  have h0 := ofDigits_nonneg hrev
  have h1 := ofDigits_lt hrev
  rw [prod_reverse] at h1
  have hdot := dot_dense_index (pos_of_isIndex h) h0 h1
  rw [hindex] at hdot
  exact ⟨hdot ▸ h0, hdot ▸ h1, hdot ▸ hindex⟩

end Shape

namespace View

variable {v : View Int} {R : List Int}

/-- A view with more axes at its end, all of them whole. -/
def widen (R : List Int) (v : View Int) : View Int :=
  canonical (v.shape ++ R) (v.strides.map (· * R.prod) ++ Shape.dense R) (v.offset * R.prod)
    (v.mask.map (· ++ R.map fun s => (0, s)))

theorem widen_shape : (v.widen R).shape = v.shape ++ R := canonical_shape ..

theorem dot_map_mul (xs ys : List Int) (p : Int) : dot (xs.map (· * p)) ys = dot xs ys * p := by
  induction xs generalizing ys with
  | nil => simp
  | cons x xs ih => cases ys with
    | nil => simp
    | cons y ys =>
      simp only [map_cons, dot_cons, ih]
      ring

theorem length_mask_widen (hv : v.Formed) : ∀ ms, v.mask.map (· ++ R.map fun s => (0, s)) = some ms →
    ms.length = (v.shape ++ R).length := by
  intro ms h
  obtain ⟨ms', hms, rfl⟩ := Option.map_eq_some_iff.mp h
  simp [hv.length_mask ms' hms]

section Widen

variable {i r : List Int} (hv : v.Formed) (hi : IsIndex v.shape i) (hr : IsIndex R r)

include hv hi hr

theorem inside_widen :
    (∀ ms, v.mask.map (· ++ R.map fun s => (0, s)) = some ms → Inside ms (i ++ r)) ↔ v.Valid i := by
  cases hmask : v.mask with
  | none => simp [Valid, hmask]
  | some ms =>
    have hlen : ms.length = i.length := (hv.length_mask ms hmask).trans hi.length_eq
    simp only [Valid, hmask, Option.map_some, Option.some.injEq, forall_eq', inside_append hlen,
      inside_full hr, and_true]

theorem valid_widen : (v.widen R).Valid (i ++ r) ↔ v.Valid i :=
  (valid_canonical (rel_append hi hr) (length_mask_widen hv)).trans (inside_widen hv hi hr)

theorem address_widen (h : v.Valid i) :
    (v.widen R).address (i ++ r) = v.address i * R.prod + dot (Shape.dense R) r := by
  have hlen : (v.strides.map (· * R.prod)).length = i.length := by
    rw [length_map, hv.length_strides, hi.length_eq]
  rw [widen, address_canonical (rel_append hi hr) ((inside_widen hv hi hr).mpr h),
    dot_append hlen, dot_map_mul, address]
  ring

/-- A view with more axes selects what the view does, with the index along those axes. -/
theorem element?_widen (S : List Int) :
    (v.widen R).element? (S ++ R) (i ++ r) = (v.element? S i).map (· ++ r) := by
  obtain ⟨h0, h1, hindex⟩ := Shape.dot_dense_isIndex hr
  by_cases h : v.Valid i
  · rw [element?, element?, if_pos ((valid_widen hv hi hr).mpr h), if_pos h,
      address_widen hv hi hr h, Shape.index_append (Shape.pos_of_isIndex hr) S _ h0 h1, hindex]
    rfl
  · rw [element?, element?, if_neg (fun h' => h ((valid_widen hv hi hr).mp h')), if_neg h]
    rfl

end Widen

end View

namespace Layout

variable {S R : List Int} {L : List (View Int)}

/-- What a layout selects is an index of what is below. -/
theorem Composes.isIndex (hL : Composes S L) (hS : ∀ s ∈ S, 0 ≤ s) {i j : List Int}
    (hi : IsIndex (top S L) i) (h : element? L S i = some j) : IsIndex S j := by
  induction L generalizing S j with
  | nil =>
    cases h
    exact hi
  | cons v vs ih =>
    obtain ⟨hv, haddr, hvs⟩ := hL
    obtain ⟨k, hk, hj⟩ := Option.bind_eq_some_iff.mp h
    have hkv : IsIndex v.shape k := ih hvs hv.nonneg hi hk
    rw [View.element?] at hj
    split at hj
    case isTrue hvalid =>
      cases hj
      have := haddr k hkv hvalid
      exact Shape.isIndex_index (pos_of_prod_ne_zero hS (by omega)) _
    case isFalse => cases hj

/-- A layout with more axes selects what the layout does, with the index along those axes. -/
theorem element?_widen (hL : Composes S L) {i r : List Int} (hi : IsIndex (top S L) i)
    (hr : IsIndex R r) :
    element? (L.map (widen R)) (S ++ R) (i ++ r) = (element? L S i).map (· ++ r) := by
  induction L generalizing S with
  | nil => rfl
  | cons v vs ih =>
    obtain ⟨hv, haddr, hvs⟩ := hL
    have hrest := ih hvs hi
    simp only [map_cons, element?, widen_shape, hrest, Option.bind_map]
    cases hj : element? vs v.shape i with
    | none => rfl
    | some j => exact element?_widen hv (hvs.isIndex hv.nonneg hi hj) hr S

theorem shape_map_toDim (hL : L ≠ []) : shape (L.map toDim) = (top S L).map .int := by
  obtain ⟨v, vs, rfl⟩ := exists_cons_of_ne_nil hL
  clear hL
  induction vs generalizing S v with
  | nil => rfl
  | cons w ws ih => exact ih (S := v.shape) w

theorem length_shape (hL : L ≠ []) : (shape (L.map toDim)).length = (top S L).length := by
  rw [shape_map_toDim (S := S) hL, length_map]

theorem Composes.formed (hL : Composes S L) : ∀ v ∈ L, v.Formed := by
  induction L generalizing S with
  | nil => simp
  | cons v vs ih =>
    intro w hw
    rcases mem_cons.mp hw with rfl | hw
    · exact hL.1
    · exact ih hL.2.2 w hw

theorem Composes.top_nonneg (hL : Composes S L) (hne : L ≠ []) : ∀ s ∈ top S L, 0 ≤ s := by
  obtain ⟨v, vs, rfl⟩ := exists_cons_of_ne_nil hne
  clear hne
  induction vs generalizing S v with
  | nil => exact hL.1.nonneg
  | cons w ws ih => exact ih w hL.2.2

theorem top_widen (hL : L ≠ []) (T : List Int) : top T (L.map (widen R)) = top S L ++ R := by
  obtain ⟨v, vs, rfl⟩ := exists_cons_of_ne_nil hL
  clear hL
  induction vs generalizing S T v with
  | nil => exact widen_shape
  | cons w ws ih => exact ih (S := v.shape) (v.widen R).shape w

theorem reduce_read_widen (hL : Composes S L) {i : List Int} (hi : IsIndex (top S L) i)
    (fold : List Int → Int) (f : Entries) :
    (read (L.map (widen R)) (S ++ R) f).reduce fold
        (Axes.last (top S L).length R.length) (top S L ++ R) i =
      fold ((Shape.indices R).map fun r => (element? L S i).elim 0 fun j => f (j ++ r)) := by
  rw [Entries.reduce, Axes.filter_indices hi, map_map]
  congr 1
  refine map_congr_left fun r hr => ?_
  simp only [Function.comp_apply, read, element?_widen hL hi (Shape.mem_indices.mp hr)]
  cases element? L S i <;> rfl

end Layout

/-! ## Folds -/

theorem Op.folding?_zero {o : Op} {fold : DType → List Int → Int} (h : o.folding? = some fold)
    {d : DType} {xs : List Int} (hne : o = .add ∨ xs ≠ []) (hxs : ∀ x ∈ xs, x = 0) :
    fold d xs = 0 := by
  have hmem : o ≠ .add → (0 : Int) ∈ xs := by
    intro ho
    obtain ⟨x, hx⟩ := exists_mem_of_ne_nil xs (hne.resolve_left ho)
    exact hxs x hx ▸ hx
  cases o <;> cases h
  · exact sum_eq_zero hxs
  · exact prod_eq_zero (hmem (by decide))
  · have hmax : xs.max? = some 0 :=
      max?_eq_some_iff.mpr ⟨hmem (by decide), fun x hx => (hxs x hx).le⟩
    change xs.max?.getD _ = 0
    rw [hmax]
    rfl

/-! ## Moving a view in front of a reduction -/

namespace View

theorem widen_int {v : View Int} {R : List Int} (hv : v.Formed) (hR : ∀ s ∈ R, 0 ≤ s) :
    Views.widen (R.map .int) (.int R.prod) ((Shape.dense R).map .int) v.toDim =
      pure (v.widen R).toDim := by
  have hstrides : v.toDim.strides.mapM (fun s => s.mul (.int R.prod)) =
      pure ((v.strides.map (· * R.prod)).map Dim.int) := by
    rw [map_map]
    exact mapM_map_eq_pure fun x _ => Dim.mul_int x R.prod
  have hmask : v.toDim.mask.map (fun ms => ms ++ (R.map Dim.int).map fun s => ((0 : Dim), s)) =
      (v.mask.map (· ++ R.map fun s => (0, s))).map (·.map Dim.pair) := by
    cases h : v.mask with
    | none => simp [toDim, h]
    | some ms =>
      simp only [toDim, h, Option.map_some, map_append, map_map]
      rfl
  have hnn : ∀ s ∈ v.shape ++ R, 0 ≤ s := by
    intro s hs
    rcases mem_append.mp hs with hs | hs
    · exact hv.nonneg s hs
    · exact hR s hs
  rw [Views.widen, hstrides, pure_bind, hmask, toDim_offset, Dim.mul_int, pure_bind, toDim_shape,
    ← map_append, ← map_append]
  exact create_eq hnn (by simp [hv.length_strides]) (length_mask_widen hv)

end View

/-- The reductions of a store have integers for axes. -/
def Store.PlainReductions (s : Store) : Prop :=
  ∀ e, s.Holds e → e.op = .reduceAxis → ∃ o axes, e.arg = .tuple [.op o, .ofInts axes]

namespace Views

/-- Reduced axes that come last are in order. -/
theorem keptAxes_last (n k : Nat) :
    keptAxes (n + k) (Axes.last n k) ++ Axes.last n k =
      (range (n + k)).map fun (i : Nat) => (i : Int) := by
  have hkept : keptAxes (n + k) (Axes.last n k) = (range n).map fun (i : Nat) => (i : Int) := by
    have hlow : ∀ i ∈ range n, (if (Axes.last n k).contains (i : Int) then none
        else some (i : Int)) = some ((fun (i : Nat) => (i : Int)) i) := by
      intro i hi
      have := mem_range.mp hi
      rw [Axes.contains_last, if_neg (by simp; omega)]
    have hhigh : ∀ i ∈ (range k).map (n + ·), (if (Axes.last n k).contains (i : Int) then none
        else some (i : Int)) = none := by
      intro i hi
      obtain ⟨j, hj, rfl⟩ := mem_map.mp hi
      have := mem_range.mp hj
      rw [Axes.contains_last, if_pos (by simp; omega)]
    rw [keptAxes, range_add, filterMap_append, filterMap_congr hlow,
      filterMap_eq_nil_iff.mpr hhigh, append_nil, filterMap_eq_map']
  rw [hkept, range_add, map_append, map_map]
  rfl

section Run

variable {k : Nat} {s : Store} {src : Expr} {n m : Nat} {d d' : DType} {o : Op} {tag : Arg}
  {S R : List Int} {L : List (View Int)}

/-- A reduction over the last axes of a source. -/
abbrev reduction (n : Nat) (d : DType) (src : Expr) (o : Op) (S R : List Int) : Expr :=
  .mk n .reduceAxis d [src] (.tuple [.op o, .ofInts (Axes.last S.length R.length)]) .none

/-- A view of integers of a node. -/
abbrev viewing (m : Nat) (d : DType) (e : Expr) (L : List (View Int)) (tag : Arg) : Expr :=
  .mk m .view d [e] (.layout (L.map toDim)) tag

theorem view_spec (hs : s.Sound) (hk : s.KeepsLayouts) (hp : s.PlainReductions) (hsrc : s.Holds src)
    {env : Env} : Ensures False env s (src.view (L.map toDim)) fun v t =>
      (∃ a, v = viewing a src.dtype src L .none) ∧ t.Sound ∧ t.KeepsLayouts ∧ t.PlainReductions ∧
        t.Holds v := by
  refine (nodeOf_content hs ?_ ?_).mono ?_
  · intro x hx
    obtain rfl : x = src := mem_singleton.mp hx
    exact hsrc
  · intro e _ heq
    obtain ⟨-, -, -, harg, htag⟩ := Expr.Content.beq_iff.mp heq
    exact ⟨Arg.eq_layout_of_same harg, Arg.eq_none_of_same htag⟩
  · rintro ⟨a, op, d, xs, arg, tag⟩ t ⟨hc, ht, he, -, rfl | rfl⟩
    · cases hc
      exact ⟨⟨a, rfl⟩, ht, hk, hp, he⟩
    · cases hc
      refine ⟨⟨a, rfl⟩, ht, hk.adding _, fun e he hop => ?_, he⟩
      rcases Store.holds_adding he with he | rfl
      · exact hp e he hop
      · cases hop

theorem reduction_spec (hs : s.Sound) (hk : s.KeepsLayouts) (hp : s.PlainReductions)
    (hsrc : s.Holds src) {env : Env} : Ensures False env s (node .reduceAxis d [src]
      (.tuple [.op o, .ofInts (Axes.last S.length R.length)])) fun e t =>
      (∃ b, e = reduction b d src o S R) ∧ t.Sound ∧ t.KeepsLayouts ∧ t.Holds e := by
  refine (nodeOf_content hs ?_ ?_).mono ?_
  · intro x hx
    obtain rfl : x = src := mem_singleton.mp hx
    exact hsrc
  · intro e he heq
    obtain ⟨hop, -, -, harg, htag⟩ := Expr.Content.beq_iff.mp heq
    obtain ⟨o', axes, h⟩ := hp e he hop.symm
    change (_ == e.arg) = true at harg
    rw [h] at harg
    obtain ⟨rfl, rfl⟩ := Arg.eq_reduction_of_same harg
    exact ⟨h, Arg.eq_none_of_same htag⟩
  · rintro ⟨b, op, d, xs, arg, tag⟩ t ⟨hc, ht, he, -, rfl | rfl⟩
    · cases hc
      exact ⟨⟨b, rfl⟩, ht, hk, he⟩
    · cases hc
      exact ⟨⟨b, rfl⟩, ht, hk.adding _, he⟩

theorem throughReduce?_spec (hs : s.Sound) (hp : s.PlainReductions)
    (hsrc : s.Holds src) (hview : s.Holds (viewing m d' (reduction n d src o S R) L tag))
    (hshape : Ensures False (Env.level (k + 1)) s src.shape fun T t =>
      T = (S ++ R).map .int ∧ s.RecallsLayouts t)
    (hnn : ∀ x ∈ S ++ R, 0 ≤ x) (hR : R ≠ []) (hL : Layout.Composes S L) (hne : L ≠ []) :
    Ensures False (Env.level (k + 1)) s
      (throughReduce? src (reduction n d src o S R) (viewing m d' (reduction n d src o S R) L tag))
      fun x t => ∃ a b, x = some (reduction b d
        (viewing a src.dtype src (L.map (View.widen R)) .none) o (top S L) R) ∧
        t.Sound ∧ t.KeepsLayouts ∧ t.Holds (reduction b d
        (viewing a src.dtype src (L.map (View.widen R)) .none) o (top S L) R) := by
  have hlen : (Axes.last S.length R.length).length = R.length := by simp [Axes.last]
  have horder := keptAxes_last S.length R.length
  have hreduced : (if (Axes.last S.length R.length).isEmpty then (S ++ R).map Dim.int
      else ((S ++ R).map Dim.int).drop (((S ++ R).map Dim.int).length - (Axes.last S.length R.length).length)) =
      R.map .int := by
    have hsome : (Axes.last S.length R.length).isEmpty = false := by
      rw [isEmpty_eq_false_iff]
      exact fun h => hR (length_eq_zero_iff.mp (by rw [← hlen, h, length_nil]))
    rw [hsome, if_neg (by decide), hlen]
    simp
  have hviews : (L.map toDim).mapM (widen (R.map .int) (.int R.prod) ((Shape.dense R).map .int)) =
      pure ((L.map (View.widen R)).map View.toDim) := by
    rw [map_map]
    exact mapM_map_eq_pure fun v hv => widen_int (hL.formed v hv) fun x hx => hnn x (by simp [hx])
  unfold throughReduce?
  rw [if_neg (show ¬(!(reduction n d src o S R).tag.isNone) = true by simp [Expr.tag, Arg.isNone]),
    Expr.axisArg_reduce (Arg.ints?_ofInts _), pure_bind]
  refine Ensures.bind (hshape.mono ?_)
  rintro _ t ⟨rfl, ht⟩
  dsimp only
  rw [if_neg (not_not.mpr ?_), hreduced, Dim.prod_int, pure_bind, Shape.strides_int, pure_bind]
  · refine Ensures.bind ((Expr.HasLayout.view.layout? (ht.sound hs) ht.keeps (ht.holds hview)).mono ?_)
    rintro _ u ⟨rfl, hu⟩
    rw [Option.getDM_some, pure_bind, hviews, pure_bind]
    have hsu : u.Sound := hu.sound (ht.sound hs)
    have hpu : u.PlainReductions := fun e he =>
      hp e (Store.Extends.of_nodes (hu.nodes.trans ht.nodes).symm he)
    refine Ensures.bind (Ensures.bind (Ensures.bind
      ((view_spec hsu hu.keeps hpu (hu.holds (ht.holds hsrc))).mono ?_)))
    rintro _ w ⟨⟨a, rfl⟩, hw, hkw, hpw, hvw⟩
    rw [hlen, length_shape (S := S) hne]
    refine (reduction_spec (S := top S L) (R := R) hw hkw hpw hvw).mono ?_
    rintro _ z ⟨⟨b, rfl⟩, hz, hkz, hez⟩
    exact ⟨a, b, rfl, hz, hkz, hez⟩
  · rw [length_map, length_append, horder]
    simp

theorem meaning?_reduction {given : Expr → Option (List Int × Entries)} {f : Entries}
    {fold : DType → List Int → Int} (hnone : given (reduction n d src o S R) = none)
    (hsrc : src.meaning? given = some (S ++ R, f)) (hfold : o.folding? = some fold) :
    (reduction n d src o S R).meaning? given =
      some (S, f.reduce (fold d) (Axes.last S.length R.length) (S ++ R)) := by
  rw [Expr.meaning?, hnone]
  simp only [hsrc, Arg.ints?_ofInts, hfold, Option.bind_eq_bind, Option.bind_some, Axes.keep_last]
  rfl

theorem meaning?_viewing {given : Expr → Option (List Int × Entries)} {f : Entries}
    (hnone : given (viewing m d src L tag) = none) (hsrc : src.meaning? given = some (S, f)) :
    (viewing m d src L tag).meaning? given = some (top S L, read L S f) := by
  rw [Expr.meaning?, hnone]
  simp only [hsrc, mapM_map_eq_some View.toInt?_toDim, Option.bind_eq_bind, Option.bind_some]
  rfl

theorem hasLayout_widened (hL : Layout.Composes S L) (hne : L ≠ []) :
    (reduction n d (viewing m d' src (L.map (View.widen R)) tag) o (top S L) R).HasLayout
      [(View.ofShape (top S L)).toDim] := by
  refine .reduce .view (Arg.ints?_ofInts _) ?_ (hL.top_nonneg hne)
  have hkeep := Axes.keep_last ((top S L).map Dim.int) (R.map .int)
  rw [length_map, length_map, ← map_append, ← top_widen hne S,
    ← shape_map_toDim (by simpa using hne)] at hkeep
  exact hkeep

/-- **A view of a reduction is a reduction of views.**  It has the shape of the view, and at every
index the element that the view selects of the reduction, or zero where the view selects none. -/
theorem throughReduce_exact (hs : s.Sound) (hp : s.PlainReductions)
    (hsrc : s.Holds src) (hview : s.Holds (viewing m d' (reduction n d src o S R) L tag))
    (hshape : Ensures False (Env.level (k + 1)) s src.shape fun T t =>
      T = (S ++ R).map .int ∧ s.RecallsLayouts t)
    (hnn : ∀ x ∈ S ++ R, 0 ≤ x) (hR : R ≠ []) (hL : Layout.Composes S L) (hne : L ≠ [])
    (ho : o = .add ∨ o = .mul ∨ o = .max) :
    ∃ e t, throughReduce? src (reduction n d src o S R)
        (viewing m d' (reduction n d src o S R) L tag) (Env.level (k + 1)) s = .ok (some e) t ∧
      (∃ u, e.shape (Env.level (k + 1)) t = .ok (Layout.shape (L.map View.toDim)) u) ∧
      ∀ given f, given src = some (S ++ R, f) → (∀ x, given x ≠ none → x = src) →
        ∃ g g', (reduction n d src o S R).meaning? given = some (S, g) ∧
          e.meaning? given = some (Layout.top S L, g') ∧
          ∀ i, IsIndex (Layout.top S L) i →
            (∀ j, Layout.element? L S i = some j → g' i = g j) ∧
            (Layout.element? L S i = none → o = .add ∨ 0 < R.prod → g' i = 0) := by
  obtain ⟨_, t, hrun, a, b, rfl, ht, hkt, het⟩ :=
    (throughReduce?_spec hs hp hsrc hview hshape hnn hR hL hne).exists_ok
  refine ⟨_, t, hrun, ?_, ?_⟩
  · obtain ⟨_, u, hu, rfl, -⟩ := ((hasLayout_widened hL hne).shape (k := k) ht hkt het).exists_ok
    refine ⟨u, ?_⟩
    rw [hu, Layout.shape_map_toDim (S := S) hne]
    exact congrArg (EStateM.Result.ok · u) (congrArg (List.map Dim.int) (View.canonical_shape ..))
  · intro given f hgiven honly
    have hS : ∀ x ∈ S, 0 ≤ x := fun x hx => hnn x (by simp [hx])
    obtain ⟨fold, hfold⟩ : ∃ fold, o.folding? = some fold := by
      rcases ho with rfl | rfl | rfl <;> exact ⟨_, rfl⟩
    have none_of_size : ∀ x : Expr, sizeOf src < sizeOf x → given x = none := fun x hx => by
      by_contra h
      rw [honly x h] at hx
      exact lt_irrefl _ hx
    have hm : src.meaning? given = some (S ++ R, f) := by
      unfold Expr.meaning?
      rw [hgiven]
    have hv : (viewing a src.dtype src (L.map (View.widen R)) .none).meaning? given = _ :=
      meaning?_viewing (none_of_size _ (by simp; omega)) hm
    rw [Layout.top_widen (S := S) hne] at hv
    refine ⟨_, _, meaning?_reduction (none_of_size _ (by simp; omega)) hm hfold,
      meaning?_reduction (none_of_size _ (by simp; omega)) hv hfold, fun i hi => ?_⟩
    rw [Layout.reduce_read_widen hL hi]
    constructor
    · intro j hj
      rw [hj, Entries.reduce, Axes.filter_indices (hL.isIndex hS hi hj), List.map_map]
      rfl
    · intro hnone hpos
      refine Op.folding?_zero hfold (hpos.imp id fun h => ?_) ?_
      · have hpos := View.pos_of_prod_ne_zero (fun x hx => hnn x (by simp [hx])) h.ne'
        rw [Ne, List.map_eq_nil_iff]
        exact List.ne_nil_of_mem (Shape.mem_indices.mpr (Shape.isIndex_index hpos 0))
      · simp [hnone]

end Run

/-! ### The sums of two rows, backwards and padded -/

namespace Rows

def memory : Expr := .mk 1 .buffer .int [] (.int 6) .none

def rows : Expr := viewing 2 .int memory [ofShape [2, 3]] .none

def sums : Expr := reduction 3 .int rows .add [2] [3]

/-- Two elements backwards, and a zero. -/
def backwards : View Int := ⟨[3], [-1], 1, some [(0, 2)], false⟩

def padded : Expr := viewing 4 .int sums [backwards] .none

def store : Store :=
  ((((default : Store).adding memory.content).adding rows.content).adding sums.content).adding
    padded.content

theorem store_consists : store.Consists [padded, sums, rows, memory] :=
  (((Store.Consists.empty.adding memory rfl (by rintro _ ⟨⟩) (by decide)).adding rows rfl
    (show ∀ x ∈ [memory], _ by simp) (by decide)).adding sums rfl (show ∀ x ∈ [rows], _ by simp)
    (by decide)).adding padded rfl (show ∀ x ∈ [sums], _ by simp) (by decide)

theorem plainReductions_store : store.PlainReductions := by
  intro e he hop
  have hmem := store_consists.holds_iff.mp he
  simp only [mem_cons, not_mem_nil, or_false] at hmem
  rcases hmem with rfl | rfl | rfl | rfl
  · cases hop
  · exact ⟨_, _, rfl⟩
  · cases hop
  · cases hop

theorem composes_backwards : Layout.Composes [2] [backwards] := by
  refine ⟨⟨by decide, rfl, ?_⟩, ?_, trivial⟩
  · rintro ms ⟨⟩
    rfl
  · intro i _ hi
    obtain ⟨d, _, hd, hnil, rfl⟩ := forall₂_cons_left_iff.mp (hi _ rfl)
    cases hnil
    simp only [address, backwards, dot_cons, dot_nil_left, prod_singleton]
    omega

/-- The sums of two rows, backwards and followed by a zero. -/
theorem throughReduce_exact_backwards :
    ∃ e t, throughReduce? rows sums padded (Env.level 1) store = .ok (some e) t ∧
      (∃ u, e.shape (Env.level 1) t = .ok [.int 3] u) ∧
      ∀ given f, given rows = some ([2, 3], f) → (∀ x, given x ≠ none → x = rows) →
        ∃ g g', sums.meaning? given = some ([2], g) ∧ e.meaning? given = some ([3], g') ∧
          ∀ i, IsIndex [3] i →
            (∀ j, Layout.element? [backwards] [2] i = some j → g' i = g j) ∧
            (Layout.element? [backwards] [2] i = none → Op.add = .add ∨ 0 < [(3 : Int)].prod →
              g' i = 0) := by
  have hs := store_consists.sound
  have hrows : store.Holds rows := store_consists.holds_iff.mpr (by simp)
  have hpadded : store.Holds padded := store_consists.holds_iff.mpr (by simp)
  have hk : store.KeepsLayouts :=
    ((((Store.KeepsLayouts.of_empty rfl).adding _).adding _).adding _).adding _
  have hshape : Ensures False (Env.level 1) store rows.shape fun T t =>
      T = ([2] ++ [3]).map .int ∧ store.RecallsLayouts t := by
    refine (Expr.HasLayout.view.shape hs hk hrows).mono ?_
    rintro _ t ⟨rfl, ht⟩
    exact ⟨rfl, ht⟩
  exact throughReduce_exact hs plainReductions_store hrows hpadded hshape (by decide) (by decide)
    composes_backwards (by decide) (.inl rfl)

end Rows

end Views

end LazyTensor
