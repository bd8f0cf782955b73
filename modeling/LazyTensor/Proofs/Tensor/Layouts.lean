import LazyTensor.Proofs.Graph.Sharing
import LazyTensor.Proofs.Tensor.Meaning
import LazyTensor.Symbolic.Env

/-!
# Layouts of nodes

The layout of a view is given with it, and that of a reduction is dense.  A store remembers layouts
by the numbers of nodes; asking for a layout gives what the rules give, and changes nothing else.

## Main results

* `Expr.HasLayout.computes`: the layout of a node is the one that the rules give.
-/

namespace LazyTensor

open GraphM

/-! ## Arguments that are shared only with themselves -/

namespace Dim

theorem eq_int_of_beq {n : Int} {d : Dim} (h : (Dim.int n == d) = true) : d = .int n := by
  cases d with
  | int m =>
    rw [int_beq_int, beq_iff_eq] at h
    rw [h]
  | sym e => cases h

theorem eq_pair_of_beq {m : Int × Int} {d : Dim × Dim} (h : (pair m == d) = true) : d = pair m := by
  obtain ⟨h1, h2⟩ := pair_beq_iff.mp h
  rw [pair, ← eq_int_of_beq h1, ← eq_int_of_beq h2]

end Dim

theorem View.eq_toDim_of_beq {v : View Int} {w : View Dim} (h : (v.toDim == w) = true) :
    w = v.toDim := by
  obtain ⟨hc, ho, hs, hst, hm⟩ := View.beq_iff.mp h
  have hmask : w.mask = v.toDim.mask := by
    rw [toDim_mask] at hm ⊢
    cases hv : v.mask <;> cases hw : w.mask <;> rw [hv, hw] at hm
    · rfl
    · cases hm
    · cases hm
    · rw [eq_map_of_beq (fun _ _ => Dim.eq_pair_of_beq) hm]
      rfl
  have hshape : w.shape = v.toDim.shape := eq_map_of_beq (fun _ _ => Dim.eq_int_of_beq) hs
  have hstrides : w.strides = v.toDim.strides := eq_map_of_beq (fun _ _ => Dim.eq_int_of_beq) hst
  have hoffset : w.offset = v.toDim.offset := Dim.eq_int_of_beq ho
  have hcontiguous : w.contiguous = v.toDim.contiguous := (beq_iff_eq.mp hc).symm
  cases w
  subst hshape hstrides hoffset hmask hcontiguous
  rfl

/-- An argument that is a layout of integers. -/
theorem Arg.eq_layout_of_same {L : List (View Int)} {a : Arg}
    (h : (Arg.layout (L.map View.toDim) == a) = true) : a = .layout (L.map View.toDim) := by
  change same _ a = true at h
  cases a <;> simp [same] at h
  rw [eq_map_of_beq (fun _ _ => View.eq_toDim_of_beq) h]

theorem Arg.eq_none_of_same {a : Arg} (h : (Arg.none == a) = true) : a = .none := by
  change same _ a = true at h
  cases a <;> simp [same] at h
  rfl

/-- Reductions whose axes are integers. -/
theorem Arg.eq_of_sameList {α : Type} {f : α → Arg} (hf : ∀ a b, same (f a) (f b) = true → a = b)
    {xs ys : List α} (h : same.sameList (xs.map f) (ys.map f) = true) : xs = ys := by
  induction xs generalizing ys with
  | nil =>
    cases ys with
    | nil => rfl
    | cons y ys => cases h
  | cons x xs ih =>
    cases ys with
    | nil => cases h
    | cons y ys =>
      simp only [List.map_cons, same.sameList, Bool.and_eq_true] at h
      rw [hf x y h.1, ih h.2]

theorem Arg.eq_of_same_int {a b : Int} (h : same (.const (.int a)) (.const (.int b)) = true) :
    a = b := by
  simpa [same, Const.same, Const.key] using h

theorem Arg.eq_reduction_of_same {o o' : Op} {axes axes' : List Int}
    (h : (Arg.tuple [.op o, .ofInts axes] == .tuple [.op o', .ofInts axes']) = true) :
    o = o' ∧ axes = axes' := by
  change same (.tuple _) (.tuple _) = true at h
  simp only [same, same.sameList, ofInts, Bool.and_eq_true, beq_iff_eq, and_true] at h
  exact ⟨h.1, eq_of_sameList (fun _ _ => eq_of_same_int) h.2⟩

/-! ## Layouts -/

def View.ofShape (shape : List Int) : View Int := View.canonical shape (Shape.dense shape) 0 none

/-- The layout of a view of anything, and of a reduction of a node that has one. -/
inductive Expr.HasLayout : Expr → Layout → Prop
  | view {n d src l tag} : HasLayout (.mk n .view d src (.layout l) tag) l
  | reduce {n d a o x axes tag l T} (ha : HasLayout a l) (hx : Arg.ints? x = some axes)
      (hT : l.reduce axes = T.map .int) (hnn : ∀ s ∈ T, 0 ≤ s) :
      HasLayout (.mk n .reduceAxis d [a] (.tuple [o, x]) tag) [(View.ofShape T).toDim]

namespace Store

/-- What a store remembers of layouts is so. -/
structure KeepsLayouts (s : Store) : Prop where
  lt_size : ∀ {n : Nat} {l : Option Layout}, s.layouts[n]? = some l → n < s.size
  right : ∀ {e : Expr} {l : Layout} {m : Option Layout}, s.Holds e → e.HasLayout l →
    s.layouts[e.number]? = some m → m = some l

/-- A store that differs from another in the layouts it remembers. -/
structure RecallsLayouts (s t : Store) : Prop where
  nodes : t.nodes = s.nodes
  size : t.size = s.size
  keeps : t.KeepsLayouts

variable {s t u : Store}

theorem RecallsLayouts.refl (h : s.KeepsLayouts) : s.RecallsLayouts s := ⟨rfl, rfl, h⟩

theorem RecallsLayouts.trans (h : s.RecallsLayouts t) (h' : t.RecallsLayouts u) :
    s.RecallsLayouts u :=
  ⟨h'.nodes.trans h.nodes, h'.size.trans h.size, h'.keeps⟩

theorem RecallsLayouts.holds (h : s.RecallsLayouts t) {e : Expr} (he : s.Holds e) : t.Holds e :=
  Extends.of_nodes h.nodes he

theorem RecallsLayouts.sound (h : s.RecallsLayouts t) (hs : s.Sound) : t.Sound :=
  hs.of_nodes h.nodes h.size

/-- Nothing is remembered yet of a new node. -/
theorem KeepsLayouts.adding (h : s.KeepsLayouts) (c : Expr.Content) : (s.adding c).KeepsLayouts := by
  constructor
  · intro n l hl
    exact Nat.lt_succ_of_lt (h.lt_size hl)
  · intro e l m he hl hm
    rcases holds_adding he with he | rfl
    · exact h.right he hl hm
    · exact absurd (h.lt_size hm) (lt_irrefl _)

theorem KeepsLayouts.of_empty (h : s.layouts = {}) : s.KeepsLayouts := by
  have none_kept : ∀ {n : Nat} {l : Option Layout}, ¬s.layouts[n]? = some l := by
    intro n l hl
    rw [h, Std.HashMap.getElem?_empty] at hl
    cases hl
  exact ⟨fun hl => (none_kept hl).elim, fun _ _ hl => (none_kept hl).elim⟩

end Store

namespace Expr

theorem HasLayout.unique {e : Expr} {l m : Layout} (h : e.HasLayout l) (h' : e.HasLayout m) :
    l = m := by
  induction h generalizing m with
  | view =>
    cases h'
    rfl
  | reduce _ hx hT _ ih =>
    cases h' with
    | reduce ha' hx' hT' _ =>
      cases hx.symm.trans hx'
      cases ih ha'
      rw [List.map_injective_iff.mpr Dim.int_injective (hT.symm.trans hT')]

theorem HasLayout.remember {e : Expr} {l : Layout} {s : Store} (h : e.HasLayout l) (hs : s.Sound)
    (hk : s.KeepsLayouts) (he : s.Holds e) :
    s.RecallsLayouts { s with layouts := s.layouts.insert e.number (some l) } := by
  refine ⟨rfl, rfl, ?_, ?_⟩
  · intro n m hm
    rw [Std.HashMap.getElem?_insert] at hm
    split at hm
    case isTrue heq =>
      rw [← beq_iff_eq.mp heq]
      exact hs.number_lt he
    case isFalse => exact hk.lt_size hm
  · intro e' l' m he' hl' hm
    rw [Std.HashMap.getElem?_insert] at hm
    split at hm
    case isTrue heq =>
      cases hm
      rw [← hs.eq_of_number he he' (beq_iff_eq.mp heq)] at hl'
      rw [h.unique hl']
    case isFalse => exact hk.right he' hl' hm

theorem axisArg_reduce {n : Nat} {d : DType} {src : List Expr} {o x tag : Arg} {axes : List Int}
    (h : x.ints? = some axes) :
    (mk n .reduceAxis d src (.tuple [o, x]) tag).axisArg = pure axes := by
  simp [axisArg, op, arg, h]

theorem ofShape_int {shape : List Int} (h : ∀ s ∈ shape, 0 ≤ s) :
    Layout.ofShape (shape.map .int) = pure [(View.ofShape shape).toDim] := by
  have hdense := View.create_dense h
  simp only [Dim.ofNat_eq, Nat.cast_zero] at hdense
  simp only [Layout.ofShape, Dim.ofNat_eq, Nat.cast_zero, hdense, pure_bind]
  rfl

section Run

variable {e : Expr} {l : Layout} {s : Store} {env : Env}

/-- A layout found once is remembered. -/
theorem rememberedLayout_spec (hl : e.HasLayout l) (hs : s.Sound) (hk : s.KeepsLayouts)
    (he : s.Holds e) {find : GraphM (Option Layout)}
    (hf : Ensures False env s find fun m t => m = some l ∧ s.RecallsLayouts t) :
    Ensures False env s (rememberedLayout e.number find) fun m t =>
      m = some l ∧ s.RecallsLayouts t := by
  refine Ensures.bind (Ensures.get_iff.mpr ?_)
  cases h : s.layouts[e.number]? with
  | some m => exact ⟨hk.right he hl h, .refl hk⟩
  | none =>
    refine Ensures.bind (hf.mono ?_)
    rintro _ t ⟨rfl, ht⟩
    exact ⟨rfl, ht.trans (hl.remember (ht.sound hs) ht.keeps (ht.holds he))⟩

/-- **The layout of a node** is the one that the rules give. -/
theorem HasLayout.computes (hl : e.HasLayout l) (hs : s.Sound) (hk : s.KeepsLayouts)
    (he : s.Holds e) :
    Ensures False env s e.computeLayout fun m t => m = some l ∧ s.RecallsLayouts t := by
  induction hl generalizing s with
  | view =>
    rw [computeLayout]
    exact rememberedLayout_spec .view hs hk he ⟨rfl, .refl hk⟩
  | @reduce n d a o x axes tag l T ha hx hT hnn ih =>
    unfold computeLayout
    refine rememberedLayout_spec (.reduce ha hx hT hnn) hs hk he ?_
    have hconst : ¬(decide (Op.reduceAxis = Op.const) &&
        [a].head?.elim false fun a => a.is .device) = true := by simp
    rw [if_neg hconst, if_neg (by decide), if_neg (by decide)]
    simp only [List.attach_cons, List.attach_nil, List.map_nil, List.mapM_cons, List.mapM_nil]
    refine .bind (.bind ((ih hs hk (hs.src he (List.mem_singleton_self a))).mono ?_))
    rintro _ t ⟨rfl, ht⟩
    refine .bind (.pure (.pure ?_))
    change Ensures False env t (do
      let axes ← (mk n .reduceAxis d [a] (.tuple [o, x]) tag).axisArg
      let shape ← pure (l.reduce axes)
      return some (← Layout.ofShape shape)) _
    rw [axisArg_reduce hx, pure_bind, pure_bind, hT, ofShape_int hnn, pure_bind]
    exact ⟨rfl, ht⟩

theorem HasLayout.layout? (hl : e.HasLayout l) (hs : s.Sound) (hk : s.KeepsLayouts) (he : s.Holds e)
    {k : Nat} : Ensures False (Env.level (k + 1)) s e.layout? fun m t =>
      m = some l ∧ s.RecallsLayouts t := by
  refine Ensures.bind (Ensures.get_iff.mpr ?_)
  cases h : s.layouts[e.number]? with
  | some m => exact ⟨hk.right he hl h, .refl hk⟩
  | none => exact (hl.computes hs hk he : Ensures False (Env.level k) s _ _)

theorem HasLayout.shape (hl : e.HasLayout l) (hs : s.Sound) (hk : s.KeepsLayouts) (he : s.Holds e)
    {k : Nat} : Ensures False (Env.level (k + 1)) s e.shape fun S t =>
      S = Expr.shapeOfViews l ∧ s.RecallsLayouts t := by
  refine Ensures.bind (Ensures.bind ((hl.layout? hs hk he).mono ?_))
  rintro _ t ⟨rfl, ht⟩
  exact ⟨rfl, ht⟩

end Run

end Expr

end LazyTensor
