import LazyTensor.Proofs.Tensor.Moves

/-!
# Merging views comes to an end

Merging goes on from a view with a mask to the part inside the mask, from a view with axes that a
step crosses to one with fewer axes, and from a view below with a mask to the same mask above.  The
last puts a mask where the first takes one away.  With integer extents each step goes down all the
same: the view below has fewer axes; or less is left of the axes of the view above; or as much is
left, without a mask.

## Main results

* `View.mergeStep_descends`: a step.
* `View.merging_ends`: all steps.
-/

namespace LazyTensor

open GraphM List Dim Shape

variable {env : Env} {s : Store}

/-! ## Computations that agree -/

namespace GraphM

variable {α β : Type} {x y : GraphM α} {f g : α → GraphM β}

theorem bind_congr_left (h : x env s = y env s) : (x >>= f) env s = (y >>= f) env s := by
  change EStateM.bind (x env) (fun a => f a env) s = EStateM.bind (y env) (fun a => f a env) s
  rw [EStateM.bind, EStateM.bind, h]

theorem Ensures.bind_congr (h : Ensures True env s x fun a s' => f a env s' = g a env s') :
    (x >>= f) env s = (x >>= g) env s := by
  change EStateM.bind (x env) (fun a => f a env) s = EStateM.bind (x env) (fun a => g a env) s
  unfold Ensures at h
  unfold EStateM.bind
  cases hx : x env s with
  | ok a s' =>
    rw [hx] at h
    exact h
  | error f s' => rfl

/-- A fold keeps what each of its steps keeps. -/
theorem Ensures.foldlM_mem {xs : List α} {step : β → α → GraphM β} {b : β} {I : β → Prop} (hb : I b)
    (h : ∀ a ∈ xs, ∀ b s, I b → Ensures True env s (step b a) fun b' _ => I b') :
    Ensures True env s (xs.foldlM step b) fun b' _ => I b' := by
  refine .foldlM (fun rest b _ => rest ⊆ xs ∧ I b) ⟨Subset.refl xs, hb⟩ ?_ fun _ _ h => h.2
  intro a rest b s ⟨hsub, hb⟩
  exact (h a (hsub (by simp)) b s hb).mono fun b' _ hb' =>
    ⟨fun x hx => hsub (mem_cons_of_mem a hx), hb'⟩

end GraphM

namespace View

variable {v v1 v2 : View Int} {shape strides : List Int} {offset : Int} {ms : List (Int × Int)}

/-! ## What is left of a view -/

/-- How much of the axes is inside a mask. -/
def left (ms : List (Int × Int)) : Nat := (ms.map fun m => (m.2 - m.1).toNat).sum

/-- A part of each axis, or nothing of it. -/
def Bounds (ms : List (Int × Int)) (shape : List Int) : Prop :=
  Forall₂ (fun m s => 0 ≤ m.1 ∧ m.2 ≤ s) ms shape

theorem left_lt (h : Bounds ms shape) (hpos : ∀ s ∈ shape, 0 < s) (hms : ¬Full ms shape) :
    left ms < left (shape.map fun s => (0, s)) := by
  refine Or.resolve_left ?_ hms
  clear hms
  induction h with
  | nil => exact .inl rfl
  | @cons m s ms shape hm _ ih =>
    have hs := hpos s (by simp)
    have ih := ih fun s hs => hpos s (by simp [hs])
    by_cases hfull : m = (0, s)
    · subst hfull
      exact ih.imp (fun h => by rw [Full, h]; rfl) fun h => by simpa [left] using h
    · have hlt : (m.2 - m.1).toNat < s.toNat := by
        have : ¬(m.1 = 0 ∧ m.2 = s) := fun h => hfull (Prod.ext h.1 h.2)
        omega
      refine .inr ?_
      rcases ih with h | h
      · rw [h]
        simpa [left] using hlt
      · simp only [left, map_cons, sum_cons, sub_zero] at h ⊢
        omega

/-- Less is left of a view without a mask where a mask is put that hides something. -/
theorem left_canonical (h : Bounds ms shape) (hpos : ∀ s ∈ shape, 0 < s) (hms : ¬Full ms shape) :
    left (canonical shape strides offset (some ms)).window < left (shape.map fun s => (0, s)) := by
  have hlt := left_lt h hpos hms
  have h0 : 0 ∉ shape := fun h => lt_irrefl 0 (hpos 0 h)
  simp only [canonical, h0, hms, if_false]
  split
  · have : left (hidden shape).window = 0 := by simp [hidden, window, left]
    omega
  · exact hlt

theorem mask_canonical (shape strides : List Int) (offset : Int) :
    (canonical shape strides offset none).mask = none := by
  unfold canonical
  split <;> rfl

/-- A view with a mask that hides nothing has none. -/
theorem canonical_full {mask : Option (List (Int × Int))}
    (h : mask.getD (shape.map fun s => (0, s)) = shape.map fun s => (0, s)) :
    canonical shape strides offset mask = canonical shape strides offset none := by
  cases mask with
  | none => rfl
  | some ms =>
    obtain rfl : ms = _ := h
    simp [canonical, Full]

/-- The part of a view inside its mask. -/
theorem shrink_mask (hv : v.Canonical) (hm : v.mask = some ms) :
    ∃ w : View Int, v.toDim.shrink (ms.map pair) = pure w.toDim ∧ w.Canonical ∧ w.mask = none ∧
      left w.window = left ms := by
  have h0 : 0 ∉ v.shape := fun h => by simp [(hv.empty h).2] at hm
  have hwin : v.window = ms := by rw [window, hm, Option.getD_some]
  have hms : ms = v.axes.map Axis.mask := hwin ▸ hv.axes_mask.symm
  have hin : ∀ a ∈ v.axes, 0 ≤ a.mask.1 ∧ a.mask.1 ≤ a.mask.2 ∧ a.mask.2 ≤ a.size := by
    intro a ha
    obtain ⟨hs, -, ⟨-, hmask, -⟩ | ⟨hb, hlt, he, -⟩⟩ := hv.axes_canonical h0 a ha
    · simp only [hmask]
      omega
    · exact ⟨hb, hlt.le, he⟩
  obtain ⟨mask, hrun, -, hsome⟩ := resize_int v.axes id Axis.mask hv.axes_stride.symm
    hv.axes_mask.symm none
  have hshrink := shrink_eq_resize v.axes id Axis.mask hv.axes_size.symm hin
  generalize hsize : (v.axes.map fun a => a.mask.2 - a.mask.1) = sizes at hrun
  have hnn : ∀ s ∈ sizes, 0 ≤ s := by
    intro s hs
    obtain ⟨a, ha, rfl⟩ := mem_map.mp (hsize ▸ hs)
    have := hin a ha
    omega
  -- the mask leaves all of the part inside it
  have hall : mask.getD (sizes.map fun s => (0, s)) = sizes.map fun s => (0, s) := by
    rw [hsome (by simp [hm]) _ (by simp [← hsize]), ← hsize, map_map]
    refine map_congr_left fun a ha => ?_
    have := hin a ha
    simp only [Option.elim_none, cut, id_eq, Function.comp_apply, Prod.mk.injEq]
    omega
  have hmask : ∀ ms, mask = some ms → ms.length = sizes.length := by
    rintro _ rfl
    simpa using congrArg length hall
  have hcreate := hshrink.trans (hrun.trans (create_eq hnn (by simp [← hsize]) hmask))
  rw [canonical_full hall] at hcreate
  rw [hms, map_map]
  refine ⟨_, hcreate, canonical_canonical hnn (by simp [← hsize]) (by simp), mask_canonical .., ?_⟩
  rw [window, mask_canonical, Option.getD_none, canonical_shape, ← hsize]
  simp [left, Function.comp_def]

theorem size_int (v : View Int) : v.toDim.size = pure v.shape.prod := by
  have hfold (a : Int) : (v.shape.map int).foldlM (fun acc d => do liftM (Const.mul acc (← d.upper)))
      (.int a) = (pure (.int (a * v.shape.prod)) : GraphM Const) := by
    induction v.shape generalizing a with
    | nil => simp
    | cons s shape ih => exact (ih (a * s)).trans (by rw [prod_cons, mul_assoc])
  simp only [size, toDim_shape]
  rw [hfold 1, one_mul]
  rfl

/-! ## The steps of one view along the axes of another -/

/-- Steps by integers along so many axes. -/
def Steps (n : Nat) (terms : List Projection) : Prop :=
  terms.length = n ∧ ∀ t ∈ terms, ∀ x ∈ t, ∃ k, x.2 = .int k

theorem projections_steps (hpos : ∀ s ∈ v2.shape, 0 < s) (origin : List Int) :
    Ensures True env s (projections v2.toDim v1.toDim (origin.map int))
      fun r _ => Steps v2.shape.length r.1 := by
  unfold projections
  rw [toDim_strides, mapM_map_eq_pure (q := fun st => (if st = 0 then [] else
    ((index v2.shape (v1.offset + st)).zip origin).map fun z => z.1 - z.2).map int), pure_bind]
  · refine .bind_any fun _ _ => .pure ⟨by simp, fun t ht x hx => ?_⟩
    obtain ⟨d, -, rfl⟩ := mem_map.mp ht
    obtain ⟨row, hrow, hx⟩ := mem_filterMap.mp hx
    obtain ⟨st, -, hst⟩ := mem_map.mp (fst_mem_of_mem_zipIdx hrow)
    obtain ⟨y, hy, rfl⟩ := Option.map_eq_some_iff.mp hx
    have hmem := mem_of_getElem? (Option.filter_eq_some_iff.mp hy).1
    rw [← hst] at hmem
    obtain ⟨k, -, rfl⟩ := mem_map.mp hmem
    exact ⟨k, rfl⟩
  · intro st _
    by_cases h : st = 0
    · simp [h]
    · rw [if_neg (by simpa using h), toDim_offset, add_int, pure_bind, toDim_shape, unravel_int hpos,
        pure_bind, zip_map, if_neg h, map_map]
      exact mapM_map_eq_pure fun z _ => rfl

/-! ## Groups of axes -/

/-- The state of grouping: the sizes of the groups are integers, and there are fewer groups than axes
so far, or they are the axes. -/
def Grouped (shape : List Int) (rest : List ((Projection × Dim) × Dim)) (g : Grouping) : Prop :=
  ∃ (todo sizes : List Int) (n : Int), rest.map (·.1.2) = todo.map int ∧ g.size = .int n ∧
    g.groups.map (·.1) = sizes.map int ∧
    (todo.length + sizes.length < shape.length ∨ n = 1 ∧ todo.reverse ++ sizes = shape)

theorem groupStep_grouped {idxs : List Expr} {g : Grouping} {a : (Projection × Dim) × Dim}
    {rest : List ((Projection × Dim) × Dim)} (h : Grouped shape (a :: rest) g) :
    Ensures True env s (groupStep idxs g a) fun g' _ => Grouped shape rest g' := by
  obtain ⟨todo, sizes, n, htodo, hsize, hgroups, h⟩ := h
  obtain ⟨⟨t, d⟩, o⟩ := a
  obtain ⟨k, todo, rfl⟩ : ∃ k ks, todo = k :: ks := by
    cases todo with
    | nil => cases htodo
    | cons k ks => exact ⟨k, ks, rfl⟩
  obtain ⟨rfl, hrest⟩ : d = .int k ∧ rest.map (·.1.2) = todo.map int := by simpa using htodo
  have hopen (e : Expr) : Grouped shape rest ⟨.int (n * k), e, g.groups⟩ := by
    refine ⟨todo, sizes, n * k, hrest, rfl, hgroups, .inl ?_⟩
    rcases h with h | ⟨-, rfl⟩
    · exact (Nat.lt_of_succ_lt (by simpa [add_right_comm] using h))
    · simp
  have hclosed (e e' : Expr) : Grouped shape rest ⟨1, e, (.int (n * k), e') :: g.groups⟩ := by
    refine ⟨todo, n * k :: sizes, 1, hrest, rfl, by simp [hgroups], h.imp (fun h => ?_) fun h => ?_⟩
    · simpa [add_assoc, add_comm 1] using h
    · simpa [h.1] using h.2
  unfold groupStep
  refine .bind_any fun _ _ => .bind_any fun _ _ => .bind_any fun e _ => ?_
  rw [hsize, mul_int, pure_bind]
  refine .bind_any fun _ _ => .bind_any fun _ _ => .ite (fun _ => ?_) fun _ => ?_
  · refine .bind_any fun _ _ => .bind_any fun _ _ => .ite (fun _ => ?_) fun _ => ?_
    · exact .bind_any fun _ _ => .pure (hclosed ..)
    · exact .pure (hopen e)
  · exact .pure (hopen e)

theorem groups_fewer {terms : List Projection} {origin : List Dim} {w : View Dim}
    (hterms : terms.length = v2.shape.length) (horigin : origin.length = v2.shape.length) :
    Ensures True env s (groups? v2.toDim w origin terms) fun r _ => ∀ gs, r = some gs →
      ∃ sizes : List Int, gs.map (·.1) = sizes.map int ∧
        (sizes.length < v2.shape.length ∨ sizes = v2.shape) := by
  unfold groups?
  refine .bind_any fun idxs _ => .bind_any fun zero _ => .bind ?_
  refine .foldlM (fun rest g _ => Grouped v2.shape rest g) ?_ (fun _ _ _ _ h => groupStep_grouped h) ?_
  · refine ⟨v2.shape.reverse, [], 1, ?_, rfl, rfl, .inr ⟨rfl, by simp⟩⟩
    rw [map_reverse, map_reverse, toDim_shape]
    change (map (Prod.snd ∘ Prod.fst) _).reverse = _
    rw [← map_map, map_fst_zip (by simp [hterms, horigin]), map_snd_zip (by simp [hterms])]
  · rintro g s ⟨todo, sizes, n, htodo, -, hgroups, h⟩
    obtain rfl : todo = [] := by simpa using htodo.symm
    refine .bind_any fun _ _ => .bind_any fun b _ => .pure fun gs hgs => ?_
    cases b with
    | true => cases hgs
    | false =>
      cases hgs
      exact ⟨sizes, hgroups, h.imp (by simp) fun h => h.2⟩

/-! ## A mask carried over -/

theorem div_ensures (a b : Int) :
    Ensures True env s ((int a).div (.int b)) fun r _ => ∃ q, r = .int q := by
  unfold Dim.div
  exact .bind_any fun _ _ => .pure ⟨_, rfl⟩

theorem crossing_ensures (o k : Int) (m : Int × Int) :
    Ensures True env s (crossing (.int o) (.int k) (pair m)) fun r _ => ∃ x, r = pair x := by
  have hedge (b : Bool) : ∃ n, edge (.int o) (pair m) b = pure (.int n) := by
    cases b <;> exact ⟨_, rfl⟩
  unfold crossing
  refine .bind_any fun _ _ => .bind_any fun b _ => ?_
  obtain ⟨n, hn⟩ := hedge b
  rw [hn, pure_bind, neg_int, pure_bind]
  refine .bind ((div_ensures n (-k)).mono ?_)
  rintro _ _ ⟨q, rfl⟩
  rw [neg_int, pure_bind]
  refine .bind_any fun _ _ => .bind_any fun b _ => ?_
  obtain ⟨n, hn⟩ := hedge b
  rw [hn, pure_bind]
  refine .bind ((div_ensures n k).mono ?_)
  rintro _ _ ⟨r, rfl⟩
  exact .pure ⟨(-q, r + 1), rfl⟩

theorem forall₂_set {α β : Type} {R : α → β → Prop} {as : List α} {bs : List β} {i : Nat} {a d : α}
    (h : Forall₂ R as bs) (ha : ∀ b, R (as.getD i d) b → R a b) : Forall₂ R (as.set i a) bs := by
  induction h generalizing i with
  | nil => exact .nil
  | cons hd tl ih => cases i with
    | zero => exact .cons (ha _ hd) tl
    | succ i => exact .cons hd (ih ha)

/-- What a mask of integers leaves of the axes of a shape. -/
def Windowed (shape : List Int) (c : Carried) : Prop := ∃ ms, c.window = ms.map pair ∧ Bounds ms shape

theorem carryStep_windowed {c : Carried} {m : Int × Int} {o : Int} {term : Projection} {g : Dim × Expr}
    (hpos : ∀ s ∈ shape, 0 < s) (hterm : ∀ x ∈ term, ∃ k, x.2 = .int k) (hc : Windowed shape c) :
    Ensures True env s (carryStep c ((pair m, .int o), term, g)) fun c' _ => Windowed shape c' := by
  obtain ⟨ms, hwin, hms⟩ := hc
  unfold carryStep
  refine .bind_any fun _ _ => .ite (fun _ => .pure ⟨ms, hwin, hms⟩) fun _ => ?_
  split
  · rename_i d step
    obtain ⟨k, rfl⟩ := hterm (d, step) (by simp)
    have hold : c.window.getD d (0, 0) = pair (ms.getD d (0, 0)) := by
      rw [hwin]
      exact getD_map ms (0, 0) pair
    rw [hold]
    refine .bind ((crossing_ensures o k m).mono ?_)
    rintro _ _ ⟨x, rfl⟩
    simp only [pair, largest_int, smallest_int, pure_bind]
    refine .pure ⟨ms.set d (max (ms.getD d (0, 0)).1 x.1, min (ms.getD d (0, 0)).2 x.2), ?_, ?_⟩
    · rw [map_set, hwin]
      rfl
    · exact forall₂_set hms fun s h => ⟨le_max_of_le_left h.1, min_le_of_left_le h.2⟩
  · cases ms with
    | nil =>
      rw [hwin]
      exact .pure ⟨[], rfl, hms⟩
    | cons m' ms =>
      obtain ⟨s, shape, hm', hrest, rfl⟩ := forall₂_cons_left_iff.mp hms
      rw [hwin]
      exact .pure ⟨(m'.1, 0) :: ms, rfl, .cons ⟨hm'.1, (hpos s (by simp)).le⟩ hrest⟩
  · exact .pure ⟨ms, hwin, hms⟩

theorem foldlM_windowed {masks : List (Int × Int)} {origin : List Int} {terms : List Projection}
    {groups : List (Dim × Expr)} (hpos : ∀ s ∈ shape, 0 < s)
    (hterms : ∀ t ∈ terms, ∀ x ∈ t, ∃ k, x.2 = .int k) :
    Ensures True env s ((((masks.map pair).zip (origin.map int)).zip (terms.zip groups)).foldlM
      carryStep { window := (shape.map int).map fun s => (0, s) }) fun c _ => Windowed shape c := by
  refine .foldlM_mem ⟨shape.map fun s => (0, s), by simp [pair], ?_⟩ ?_
  · exact forall₂_map_left_iff.mpr (forall₂_same.mpr fun s _ => ⟨le_rfl, le_rfl⟩)
  · rintro ⟨⟨m, o⟩, term, g⟩ ha c s hc
    obtain ⟨hmo, htg⟩ := of_mem_zip ha
    obtain ⟨m, -, rfl⟩ := mem_map.mp (of_mem_zip hmo).1
    obtain ⟨o, -, rfl⟩ := mem_map.mp (of_mem_zip hmo).2
    exact carryStep_windowed hpos (hterms term (of_mem_zip htg).1) hc

/-! ## Steps and runs -/

/-- A bound for the views that merging goes on to. -/
def mergeDepth (v2 v1 : View Int) : Nat :=
  v2.shape.length + 2 * left v1.window + if v1.mask.isSome then 1 else 0

/-- What merging goes on to is canonical and has less depth. -/
inductive Descends (v2 v1 : View Int) : Merging → Prop where
  | done {r : Option (View Dim)} : Descends v2 v1 (.done r)
  | within {mask : List (Dim × Dim)} {w1 : View Int} (h1 : w1.Canonical)
      (h : mergeDepth v2 w1 < mergeDepth v2 v1) : Descends v2 v1 (.within mask w1.toDim)
  | again {w2 w1 : View Int} (h2 : w2.Canonical) (h1 : w1.Canonical)
      (h : mergeDepth w2 w1 < mergeDepth v2 v1) : Descends v2 v1 (.again w2.toDim w1.toDim)

/-- A view without a mask gets one that hides something. -/
theorem create_mask (h1 : v1.Canonical) (hpos : ∀ s ∈ v1.shape, 0 < s)
    (hwin : v1.window = v1.shape.map fun s => (0, s)) (hms : Bounds ms v1.shape)
    (hnot : ¬Full ms v1.shape) (v2 : View Int) :
    ∃ w : View Int, create (v1.shape.map int) (some v1.toDim.strides) (.int v1.offset)
      (some (ms.map pair)) = pure w.toDim ∧ w.Canonical ∧ mergeDepth v2 w < mergeDepth v2 v1 := by
  have hlen : ∀ ms', some ms = some ms' → ms'.length = v1.shape.length := by
    rintro _ ⟨⟩
    exact hms.length_eq
  refine ⟨_, create_eq h1.nonneg h1.length_strides hlen, canonical_canonical h1.nonneg
    h1.length_strides (by simpa using masks_of_bounds hms), ?_⟩
  have hless : left (canonical v1.shape v1.strides v1.offset (some ms)).window < left v1.window :=
    hwin ▸ left_canonical hms hpos hnot
  unfold mergeDepth
  split <;> split <;> omega

theorem mergeSteps_descends (h2 : v2.Canonical) (h1 : v1.Canonical) (hpos2 : ∀ s ∈ v2.shape, 0 < s)
    (hpos1 : ∀ s ∈ v1.shape, 0 < s) (hwin : v1.window = v1.shape.map fun s => (0, s)) :
    Ensures True env s (mergeSteps v2.toDim v1.toDim) fun r _ => Descends v2 v1 r := by
  unfold mergeSteps
  rw [toDim_shape, toDim_offset, unravel_int hpos2, pure_bind]
  refine .bind ((projections_steps hpos2 _).mono ?_)
  rintro ⟨terms, strides⟩ s ⟨hlen, hterms⟩
  have horigin : ((index v2.shape v1.offset).map int).length = v2.shape.length := by
    simp [(isIndex_index hpos2 v1.offset).length_eq]
  refine .bind ((groups_fewer hlen horigin).mono ?_)
  intro groups s hgroups
  cases groups with
  | none => exact .pure .done
  | some groups =>
    obtain ⟨sizes, hsizes, hfew⟩ := hgroups groups rfl
    dsimp only
    rw [hsizes]
    refine .bind (((reshape_spec h2 sizes).weaken fun _ => trivial).mono ?_)
    rintro r s ⟨-, hr⟩
    cases r with
    | none => exact .pure .done
    | some r =>
      obtain ⟨-, w, rfl, hshape, hw, -⟩ := hr r rfl
      dsimp only
      rw [toDim_shape, map_int_beq, hshape]
      refine .ite (fun hne => ?_) fun _ => ?_
      · have hne : sizes ≠ v2.shape := by simpa using hne
        refine .pure (.again hw h1 ?_)
        have := hfew.resolve_right hne
        simp only [mergeDepth, hshape]
        omega
      have hmask : v2.toDim.mask.getD [] = (v2.mask.getD []).map pair := by
        rw [toDim_mask]
        cases v2.mask <;> rfl
      rw [hmask, toDim_shape]
      refine .bind ((foldlM_windowed hpos1 hterms).mono ?_)
      rintro c s ⟨ms, hc, hms⟩
      rw [hc, full_iff hms.length_eq]
      refine .ite (fun hnot => ?_) fun _ => ?_
      · have hnot : ¬Full ms v1.shape := by simpa using hnot
        obtain ⟨w, hrun, hw, hless⟩ := create_mask h1 hpos1 hwin hms hnot v2
        rw [hrun, pure_bind]
        exact .pure (.again h2 hw hless)
      refine .ite (fun _ => .pure .done) fun _ => ?_
      exact .bind_any fun _ _ => .bind_any fun _ _ => .bind_any fun _ _ =>
        .bind_any fun _ _ => .pure .done

/-- **A step** goes on to views of less depth, or to none. -/
theorem mergeStep_descends (h2 : v2.Canonical) (h1 : v1.Canonical) :
    Ensures True env s (mergeStep v2.toDim v1.toDim) fun r _ => Descends v2 v1 r := by
  unfold mergeStep
  refine .ite (fun _ => .pure .done) fun hdense => ?_
  rw [size_int, pure_bind]
  refine .ite (fun _ => .pure .done) fun hsize => ?_
  refine .bind_any fun r s => ?_
  cases r with
  | some r => exact .pure .done
  | none =>
    have hpos1 := pos_of_prod_ne_zero h1.nonneg hsize
    have hpos2 := h2.pos fun h => hdense (h2.empty h).1
    dsimp only
    rw [toDim_mask]
    cases hm : v1.mask with
    | none =>
      simp only [Option.map_none, toDim_shape, allInt_int, if_true]
      exact mergeSteps_descends h2 h1 hpos2 hpos1 (by rw [window, hm, Option.getD_none])
    | some ms => cases ms with
      | nil =>
        have hwin : v1.window = [] := by rw [window, hm, Option.getD_some]
        have hshape : v1.shape = [] := by simpa [hwin] using h1.length_window.symm
        simp only [Option.map_some, map_nil, toDim_shape, allInt_int, if_true]
        exact mergeSteps_descends h2 h1 hpos2 hpos1 (by rw [hwin, hshape, map_nil])
      | cons m ms =>
        obtain ⟨w, hrun, hw, hnone, hleft⟩ := shrink_mask h1 hm
        simp only [Option.map_some, map_cons] at hrun ⊢
        rw [hrun, pure_bind]
        split
        · exact .pure .done
        refine .pure (.within hw ?_)
        have hwin : v1.window = m :: ms := by rw [window, hm, Option.getD_some]
        simp [mergeDepth, hnone, hleft, hm, hwin]

/-- All runs of enough steps agree, whatever lies beyond. -/
theorem mergeWithin_eq (h2 : v2.Canonical) (h1 : v1.Canonical)
    (beyond beyond' : View Dim → View Dim → GraphM (Option (View Dim))) {n n' : Nat}
    (hn : mergeDepth v2 v1 < n) (hn' : mergeDepth v2 v1 < n') :
    mergeWithin beyond n v2.toDim v1.toDim env s = mergeWithin beyond' n' v2.toDim v1.toDim env s := by
  induction n generalizing v2 v1 n' s with
  | zero => omega
  | succ n ih =>
    obtain ⟨n', rfl⟩ := Nat.exists_eq_add_one_of_ne_zero (Nat.ne_zero_of_lt hn')
    refine ((mergeStep_descends h2 h1).mono ?_).bind_congr
    rintro _ s (_ | ⟨h1, h⟩ | ⟨h2, h1, h⟩)
    · rfl
    · exact bind_congr_left (ih h2 h1 (by omega) (by omega))
    · exact ih h2 h1 (by omega) (by omega)

/-- Merging what `View.create` returns comes to an end. -/
theorem Parts.merge_ends (a b : Parts) : ∃ answer, ∀ n, mergeDepth a.view b.view < n → ∀ beyond,
    (do mergeWithin beyond n (← a.create) (← b.create)) = answer := by
  simp only [a.create_view, b.create_view, pure_bind]
  exact ⟨_, fun _ hn beyond => funext fun _ => funext fun _ => mergeWithin_eq a.canonical_view
    b.canonical_view beyond (fun _ _ => pure none) hn (Nat.lt_succ_self _)⟩

/-- **Merging comes to an end.**  Two integer views have one answer, which merging gives in as many
steps as their depth allows, or in more: the answer does not depend on how it would go on. -/
theorem merging_ends (h2 : v2.Canonical) (h1 : v1.Canonical) :
    ∃ answer, ∀ n, mergeDepth v2 v1 < n → ∀ beyond,
      mergeWithin beyond n v2.toDim v1.toDim = answer :=
  ⟨_, fun _ hn beyond => funext fun _ => funext fun _ =>
    mergeWithin_eq h2 h1 beyond (fun _ _ => pure none) hn (Nat.lt_succ_self _)⟩

theorem merging_ends_pinned : pinned.Canonical ∧ ∃ answer, ∀ n, mergeDepth pinned pinned < n →
    ∀ beyond, mergeWithin beyond n pinned.toDim pinned.toDim = answer :=
  ⟨canonical_pinned, merging_ends canonical_pinned canonical_pinned⟩

end View

end LazyTensor
