import LazyTensor.Proofs.Tensor.Layouts
import LazyTensor.Proofs.Tensor.IndexMaps

/-!
# Movements of layouts

A movement acts on the outermost view of a layout; where one view cannot express a new shape, a dense
view is put on top.  Either way the new layout selects, at each index, what the layout selects at the
index below.

## Main results

* `Stack.move_spec`: a movement of a layout of integers moves what it selects.
-/

namespace LazyTensor

open Radix GraphM List Dim

/-! ## Moves -/

/-- A movement whose argument is made of integers. -/
inductive Move where
  | reshape (shape : List Int)
  | expand (shape : List Int)
  | permute (order : List Int)
  | pad (amounts : List (Int × Int))
  | shrink (bounds : List (Int × Int))
  | flip (flags : List Bool)

namespace Move

/-- The operation of the node of a movement. -/
def op : Move → Op
  | reshape _ => .reshape
  | expand _ => .expand
  | permute _ => .permute
  | pad _ => .pad
  | shrink _ => .shrink
  | flip _ => .flip

/-- The argument of the node of a movement. -/
def arg : Move → Arg
  | reshape xs | expand xs => .ofDims (xs.map .int)
  | permute xs => .ofInts xs
  | pad xs | shrink xs => .ofPairs (xs.map pair)
  | flip flags => .tuple (flags.map fun b => .const (.bool b))

/-- What a movement does to the indices of a shape, if it is one of that shape. -/
def on? (S : List Int) : Move → Option Movement
  | reshape T => Movement.regrouping? S T
  | expand T => Movement.expanding.along? S T
  | permute order =>
    if Movement.Reorders order S.length then some (.reordering S order) else none
  | pad xs => Movement.padding.along? S xs
  | shrink xs => Movement.shrinking.along? S xs
  | flip flags => Movement.flipping.along? S flags

theorem isMovement_op (x : Move) : x.op.isMovement = true := by
  cases x <;> rfl

theorem op_ne_const (x : Move) : x.op ≠ .const := by
  cases x <;> exact Op.noConfusion

/-- Movements of one operation with equal arguments are the same. -/
theorem eq_of_arg {x y : Move} (hop : x.op = y.op) (h : (x.arg == y.arg) = true) : x = y := by
  change Arg.same _ _ = true at h
  have hints : ∀ xs ys : List Int, Arg.same (.ofInts xs) (.ofInts ys) = true → xs = ys :=
    fun xs ys h => Arg.eq_of_sameList (fun _ _ => Arg.eq_of_same_int) h
  have hdims : ∀ xs ys : List Int,
      Arg.same (.ofDims (xs.map .int)) (.ofDims (ys.map .int)) = true → xs = ys := by
    intro xs ys h
    simp only [Arg.ofDims, map_map] at h
    exact hints xs ys h
  have hpairs : ∀ xs ys : List (Int × Int),
      Arg.same (.ofPairs (xs.map pair)) (.ofPairs (ys.map pair)) = true → xs = ys := by
    intro xs ys h
    simp only [Arg.ofPairs, map_map] at h
    refine Arg.eq_of_sameList (fun a b hab => ?_) h
    simp only [Function.comp_apply, pair, Dim.arg, Arg.same, Arg.same.sameList, Bool.and_eq_true,
      and_true] at hab
    exact Prod.ext (Arg.eq_of_same_int hab.1) (Arg.eq_of_same_int hab.2)
  have hflags : ∀ xs ys : List Bool, Arg.same (.tuple (xs.map fun b => .const (.bool b)))
      (.tuple (ys.map fun b => .const (.bool b))) = true → xs = ys :=
    fun xs ys h => Arg.eq_of_sameList (fun a b hab => by revert hab; cases a <;> cases b <;> decide) h
  cases x <;> cases y <;> try cases hop
  · rw [hdims _ _ h]
  · rw [hdims _ _ h]
  · rw [hints _ _ h]
  · rw [hpairs _ _ h]
  · rw [hpairs _ _ h]
  · rw [hflags _ _ h]

end Move

/-! ## Layouts with a canonical view on top -/

theorem Layout.element?_append (L : List (View Int)) (v : View Int) (S i : List Int) :
    element? (L ++ [v]) S i = (v.element? (top S L) i).bind (element? L S) := by
  induction L generalizing S with
  | nil => simp [element?, top]
  | cons u L ih =>
    rw [cons_append, element?, ih, Option.bind_assoc]
    rfl

theorem Layout.top_append (L : List (View Int)) (v : View Int) (S : List Int) :
    top S (L ++ [v]) = v.shape := by
  induction L generalizing S with
  | nil => rfl
  | cons u L ih => exact ih u.shape

/-- A layout of integers whose outermost view is canonical. -/
structure Stack where
  below : List (View Int)
  view : View Int
  canonical : view.Canonical

namespace Stack

/-- The views of a stack, the innermost first. -/
def views (l : Stack) : List (View Int) := l.below ++ [l.view]

def layout (l : Stack) : Layout := l.views.map View.toDim

def shape (l : Stack) : List Int := l.view.shape

/-- The index of a tensor of the given shape that a stack selects. -/
def element? (l : Stack) (S i : List Int) : Option (List Int) := Layout.element? l.views S i

variable {l : Stack} {m : Movement}

theorem layout_eq (l : Stack) : l.layout = l.below.map View.toDim ++ [l.view.toDim] := by
  simp [layout, views]

theorem shapeOfViews_layout (l : Stack) : Expr.shapeOfViews l.layout = l.shape.map .int := by
  simp [layout_eq, Expr.shapeOfViews, shape]

theorem last_layout (l : Stack) : Layout.last l.layout = l.view.toDim := by
  simp [layout_eq, Layout.last]

theorem element?_eq (l : Stack) (S i : List Int) : l.element? S i =
    (l.view.position? i).bind fun p =>
      Layout.element? l.below S (Shape.index (Layout.top S l.below) p) := by
  rw [element?, views, Layout.element?_append, View.element?, View.position?]
  split <;> rfl

/-- A stack that selects, at each index, what another does at the index below. -/
structure Moved (m : Movement) (l l' : Stack) : Prop where
  shape : l'.shape = m.shape
  element : ∀ S i, IsIndex m.shape i → l'.element? S i = (m.source i).bind (l.element? S)

theorem Moved.of_view {w : View Int} (h : View.Moved m l.view w) :
    Moved m l ⟨l.below, w, h.canonical⟩ where
  shape := h.shape
  element S i hi := by
    rw [element?_eq, h.position i hi, Option.bind_assoc]
    simp only [element?_eq]

/-- The index of a shape at the position of an index of another shape of the same size. -/
theorem position_spec {S T i : List Int} (hprod : S.prod = T.prod) (hi : IsIndex T i) :
    (0 ≤ ofDigits T.reverse i.reverse ∧ ofDigits T.reverse i.reverse < S.prod) ∧
      Shape.index T (ofDigits T.reverse i.reverse) = i := by
  have hrev : IsIndex T.reverse i.reverse := rel_reverse hi
  refine ⟨⟨ofDigits_nonneg hrev, ?_⟩, ?_⟩
  · rw [hprod, ← prod_reverse]
    exact ofDigits_lt hrev
  · rw [Shape.index, digits_ofDigits hrev, reverse_reverse]

/-- A view that shows the elements of another moves them to its own indices. -/
theorem moved_of_shows {v w : View Int} (hw : w.Canonical) (h : w.Shows v)
    (hm : Movement.regrouping? v.shape w.shape = some m) : View.Moved m v w := by
  obtain ⟨⟨hprod, -⟩, ⟨⟩⟩ := Option.ite_none_right_eq_some.mp hm
  refine ⟨hw, rfl, fun i hi => ?_⟩
  obtain ⟨⟨hp0, hp1⟩, hindex⟩ := position_spec hprod hi
  obtain ⟨hvalid, haddress⟩ := h _ hp0 hp1
  rw [hindex] at hvalid haddress
  rw [Option.bind_some, View.position?, View.position?]
  split_ifs with hwi hvi hvi
  · rw [haddress hvi]
  · exact absurd (hvalid.mp hwi) hvi
  · exact absurd (hvalid.mpr hvi) hwi
  · rfl

theorem position?_ofShape {T i : List Int} (hi : IsIndex T i) :
    (View.ofShape T).position? i = some (ofDigits T.reverse i.reverse) := by
  obtain ⟨⟨hp0, hp1⟩, hindex⟩ := position_spec rfl hi
  have hdot := Shape.dot_dense_index (Shape.pos_of_isIndex hi) hp0 hp1
  rw [hindex] at hdot
  refine View.position?_canonical hi (by simp) (fun _ => ?_) fun hout => ?_
  · rw [hdot, zero_add]
  · exact absurd (View.inside_full hi) hout

/-- A dense view on top. -/
theorem Moved.of_dense {T : List Int} (hm : Movement.regrouping? l.shape T = some m)
    (hT : ∀ t ∈ T, 0 ≤ t) : Moved m l ⟨l.views, View.ofShape T, View.canonical_dense hT⟩ := by
  obtain ⟨-, ⟨⟩⟩ := Option.ite_none_right_eq_some.mp hm
  refine ⟨View.canonical_shape .., fun S i hi => ?_⟩
  rw [element?_eq, position?_ofShape hi, Option.bind_some, Option.bind_some, element?]
  dsimp only
  rw [views, Layout.top_append]
  rfl

end Stack

/-! ## Movements -/

/-- Reading back what a list was written as. -/
theorem mapM_map_eq_some_map {α β γ : Type} {f : α → β} {g : β → Option γ} {h : α → γ}
    (hfg : ∀ a, g (f a) = some (h a)) (xs : List α) : (xs.map f).mapM g = some (xs.map h) := by
  induction xs with
  | nil => rfl
  | cons x xs ih =>
    rw [map_cons, mapM_cons, hfg, ih]
    rfl

namespace Move

theorem dims?_ofDims (xs : List Int) : Arg.dims? (.ofDims (xs.map .int)) = some (xs.map .int) := by
  rw [Arg.ofDims, map_map]
  exact mapM_map_eq_some_map (g := Arg.dim?) (fun _ => rfl) xs

theorem pairs?_ofPairs (xs : List (Int × Int)) :
    Arg.pairs? (.ofPairs (xs.map pair)) = some (xs.map pair) := by
  simp only [Arg.pairs?, Arg.ofPairs, Arg.items?, map_map, Option.bind_eq_bind, Option.bind_some]
  rw [mapM_map_eq_some_map (h := pair)]
  exact fun _ => rfl

theorem flags?_arg (flags : List Bool) :
    Layout.flags? (.tuple (flags.map fun b => .const (.bool b))) = some flags := by
  simp only [Layout.flags?, Arg.items?, Option.bind_eq_bind, Option.bind_some]
  rw [mapM_map_eq_some]
  intro b
  cases b <;> rfl

end Move

namespace Stack

variable {env : Env} {st : Store} {m : Movement}

/-- A movement of the outermost view. -/
theorem onLast_spec (l : Stack) {f : View Dim → GraphM (View Dim)}
    (h : ∃ w, f l.view.toDim = pure (View.toDim w) ∧ View.Moved m l.view w) :
    Ensures False env st (Layout.onLast l.layout f) fun r st' =>
      st' = st ∧ ∃ l' : Stack, r = l'.layout ∧ Moved m l l' := by
  obtain ⟨w, hw, hmoved⟩ := h
  rw [Layout.onLast, last_layout, hw, pure_bind]
  refine .pure ⟨rfl, ⟨l.below, w, hmoved.canonical⟩, ?_, .of_view hmoved⟩
  simp [layout_eq]

/-- The same elements in another shape. -/
theorem reshape_spec (l : Stack) {T : List Int} (hm : Movement.regrouping? l.shape T = some m) :
    Ensures False env st (Layout.reshape l.layout (T.map .int)) fun r st' =>
      st' = st ∧ ∃ l' : Stack, r = l'.layout ∧ Moved m l l' := by
  obtain ⟨⟨hprod, hT⟩, -⟩ := Option.ite_none_right_eq_some.mp hm
  rw [Layout.reshape, last_layout]
  refine .bind (((View.reshape_spec l.canonical T).weaken fun h => h ⟨hT, hprod.symm⟩).mono ?_)
  rintro r st' ⟨rfl, hr⟩
  cases r with
  | none =>
    have hdense := View.create_dense hT
    simp only [ofNat_eq, Nat.cast_zero] at hdense
    simp only [ofNat_eq, Nat.cast_zero, hdense, pure_bind]
    exact .pure ⟨rfl, _, by simp [layout_eq, views, View.ofShape], .of_dense hm hT⟩
  | some w =>
    obtain ⟨-, w, rfl, rfl, hw, hshows⟩ := hr w rfl
    exact .pure ⟨rfl, ⟨l.below, w, hw⟩, by simp [layout_eq], .of_view (moved_of_shows hw hshows hm)⟩

/-- **A movement of a layout moves what it selects.** -/
theorem move_spec (l : Stack) {x : Move} (hm : x.on? l.shape = some m) :
    Ensures False env st (Layout.move l.layout x.op x.arg) fun r st' =>
      st' = st ∧ ∃ l' : Stack, r = l'.layout ∧ Moved m l l' := by
  have hneed {α : Type} (a : α) : Layout.need (some a) = pure a := rfl
  cases x with
  | reshape T =>
    simp only [Layout.move, Move.op, Move.arg, Move.dims?_ofDims, hneed, pure_bind]
    exact l.reshape_spec hm
  | expand T =>
    simp only [Layout.move, Move.op, Move.arg, Move.dims?_ofDims, hneed, pure_bind]
    exact l.onLast_spec (View.expand_spec l.canonical hm)
  | permute order =>
    obtain ⟨horder, ⟨⟩⟩ := Option.ite_none_right_eq_some.mp hm
    simp only [Layout.move, Move.op, Move.arg, Arg.ints?_ofInts, hneed, pure_bind]
    exact l.onLast_spec (View.permute_spec l.canonical horder)
  | pad xs =>
    simp only [Layout.move, Move.op, Move.arg, Move.pairs?_ofPairs, hneed, pure_bind]
    exact l.onLast_spec (View.pad_spec l.canonical hm)
  | shrink xs =>
    simp only [Layout.move, Move.op, Move.arg, Move.pairs?_ofPairs, hneed, pure_bind]
    exact l.onLast_spec (View.shrink_spec l.canonical hm)
  | flip flags =>
    simp only [Layout.move, Move.op, Move.arg, Move.flags?_arg, hneed, pure_bind]
    exact l.onLast_spec (View.flip_spec l.canonical hm)

/-- The indices below those of a movement are indices of the stack. -/
theorem into_of_on (l : Stack) {x : Move} (hm : x.on? l.shape = some m) : m.Into l.shape := by
  have hnn := l.canonical.nonneg
  cases x with
  | reshape T =>
    obtain ⟨⟨hprod, -⟩, ⟨⟩⟩ := Option.ite_none_right_eq_some.mp hm
    rintro i _ hi ⟨⟩
    obtain ⟨⟨hp0, hp1⟩, -⟩ := position_spec hprod hi
    have hne : l.view.shape.prod ≠ 0 := (hp0.trans_lt hp1).ne'
    exact Shape.isIndex_index (View.pos_of_prod_ne_zero hnn hne) _
  | expand T => exact (Movement.lawful_expanding.into hnn hm).2
  | permute order =>
    obtain ⟨horder, ⟨⟩⟩ := Option.ite_none_right_eq_some.mp hm
    exact horder.into
  | pad xs => exact (Movement.lawful_padding.into hnn hm).2
  | shrink xs => exact (Movement.lawful_shrinking.into hnn hm).2
  | flip flags => exact (Movement.lawful_flipping.into hnn hm).2

end Stack

end LazyTensor
