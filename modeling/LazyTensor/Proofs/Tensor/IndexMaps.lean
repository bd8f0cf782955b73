import LazyTensor.Proofs.Tensor.Moves
import LazyTensor.Tensor.Pool

/-!
# Programs of movements

Some operations of tensors are made by movements alone: a program of movements, each of the last axes
or of all axes in another order.  An index map says which index below an index stands for, and a
program moves index maps as it moves tensors.

## Main definitions

* `Shape.Aligned`: indices of two shapes that stand at one position.
* `Act`: a movement of a program, run on what can be moved and on index maps.
-/

namespace LazyTensor

open Radix Movement List

/-! ## Indices at one position -/

theorem Radix.ofDigits_append {S i : List Int} (h : IsIndex S i) (T j : List Int) :
    ofDigits (S ++ T) (i ++ j) = ofDigits S i + S.prod * ofDigits T j := by
  induction h with
  | nil => simp [ofDigits]
  | cons _ _ ih =>
    simp only [cons_append, ofDigits, ih, prod_cons]
    ring

namespace Shape

/-- Indices of two shapes with equally many elements that stand at one position. -/
structure Aligned (S T i j : List Int) : Prop where
  left : IsIndex S i
  right : IsIndex T j
  prod : S.prod = T.prod
  position : ofDigits S.reverse i.reverse = ofDigits T.reverse j.reverse

namespace Aligned

variable {S T i j S' T' i' j' : List Int}

theorem symm (h : Aligned S T i j) : Aligned T S j i :=
  ⟨h.right, h.left, h.prod.symm, h.position.symm⟩

theorem append (h : Aligned S T i j) (h' : Aligned S' T' i' j') :
    Aligned (S ++ S') (T ++ T') (i ++ i') (j ++ j') where
  left := rel_append h.left h'.left
  right := rel_append h.right h'.right
  prod := by rw [prod_append, prod_append, h.prod, h'.prod]
  position := by
    simp only [reverse_append, prod_reverse, ofDigits_append (rel_reverse h'.left),
      ofDigits_append (rel_reverse h'.right), h.position, h'.position, h'.prod]

theorem cons {s d : Int} (hd : 0 ≤ d ∧ d < s) (h : Aligned S T i j) :
    Aligned (s :: S) (s :: T) (d :: i) (d :: j) :=
  append ⟨.cons hd .nil, .cons hd .nil, rfl, rfl⟩ h

theorem one : Aligned [1] [] [0] [] := ⟨.cons (by decide) .nil, .nil, rfl, rfl⟩

/-- An axis in blocks. -/
theorem split {n s w d : Int} (hw : 0 ≤ w ∧ w < n) (hd : 0 ≤ d ∧ d < s) :
    Aligned [n * s] [n, s] [w * s + d] [w, d] where
  left := by
    have hs := hd.1.trans hd.2.le
    have h0 := mul_nonneg hw.1 hs
    have h1 := mul_le_mul_of_nonneg_right (Int.le_sub_one_of_lt hw.2) hs
    exact .cons ⟨by omega, by linarith⟩ .nil
  right := .cons hw (.cons hd .nil)
  prod := by simp
  position := by
    simp only [reverse_cons, reverse_nil, nil_append, cons_append, ofDigits]
    ring

theorem flatMap {α : Type} {xs : List α} {F G f g : α → List Int}
    (h : ∀ x ∈ xs, Aligned (F x) (G x) (f x) (g x)) :
    Aligned (xs.flatMap F) (xs.flatMap G) (xs.flatMap f) (xs.flatMap g) := by
  induction xs with
  | nil => exact ⟨.nil, .nil, rfl, rfl⟩
  | cons x xs ih => exact (h x (by simp)).append (ih fun y hy => h y (by simp [hy]))

theorem index_eq (h : Aligned S T i j) : index S (ofDigits T.reverse j.reverse) = i := by
  rw [index, ← h.position, digits_ofDigits (rel_reverse h.left), reverse_reverse]

end Aligned

theorem ceilDiv_int (x : Int) {b : Int} (hb : 0 < b) :
    ceilDiv (.int x) (.int b) = pure (.int (-(-x / b))) := by
  have hdiv : x.fdiv (-b) = -x / b := by
    rw [← neg_neg x, Int.neg_fdiv_neg, Int.fdiv_eq_ediv_of_nonneg _ hb.le, neg_neg]
  obtain ⟨n, rfl⟩ : ∃ n : Nat, b = n + 1 := ⟨(b - 1).toNat, by omega⟩
  rw [← hdiv]
  rfl

end Shape

/-! ## Index maps -/

namespace Movement

variable {α β : Type}

theorem each_append {f : β → Int → Option Int} {zs zs' : List β} {i i' j j' : List Int}
    (h : each f zs i = some j) (h' : each f zs' i' = some j') :
    each f (zs ++ zs') (i ++ i') = some (j ++ j') := by
  induction zs generalizing i j with
  | nil =>
    cases i <;> cases h
    exact h'
  | cons z zs ih =>
    cases i with
    | nil => cases h
    | cons d ds =>
      obtain ⟨x, js, hx, hjs, rfl⟩ := each_cons_eq_some.mp h
      exact each_cons_eq_some.mpr ⟨x, js ++ j', hx, ih hjs, rfl⟩

/-- Blocks of axes move each by itself. -/
theorem each_flatMap {f : β → Int → Option Int} {xs : List α} {Z : α → List β} {i j : α → List Int}
    (h : ∀ x ∈ xs, each f (Z x) (i x) = some (j x)) :
    each f (xs.flatMap Z) (xs.flatMap i) = some (xs.flatMap j) := by
  induction xs with
  | nil => rfl
  | cons x xs ih => exact each_append (h x (by simp)) (ih fun y hy => h y (by simp [hy]))

theorem zip_flatMap {xs : List α} {F G : α → List Int} (h : ∀ x ∈ xs, (G x).length = (F x).length) :
    (xs.flatMap F).zip (xs.flatMap G) = xs.flatMap fun x => (F x).zip (G x) := by
  induction xs with
  | nil => rfl
  | cons x xs ih =>
    simp only [flatMap_cons]
    rw [zip_append (h x (by simp)).symm, ih fun y hy => h y (by simp [hy])]

/-- Copies one after another. -/
def tiling : Kind Int := ⟨fun (_, n) => 0 ≤ n, fun (s, n) => s * n, fun (s, _) d => some (d % s)⟩

/-- Zeros after the end. -/
def extending : Kind Int :=
  ⟨fun (_, n) => 0 ≤ n, fun (s, n) => s + n, fun (s, _) d => if 0 ≤ d ∧ d < s then some d else none⟩

/-- The first elements. -/
def taking : Kind Int := ⟨fun (s, n) => 0 ≤ n ∧ n ≤ s, fun (_, n) => n, fun _ d => some d⟩

/-- The same elements in another shape. -/
def regrouping? (S T : List Int) : Option Movement :=
  if S.prod = T.prod ∧ ∀ t ∈ T, 0 ≤ t then
    some ⟨T, fun i => some (Shape.index S (ofDigits T.reverse i.reverse))⟩
  else none

/-- A movement after another. -/
def after (w m : Movement) : Movement := ⟨w.shape, fun i => (w.source i).bind m.source⟩

@[simp] theorem after_shape (w m : Movement) : (w.after m).shape = w.shape := rfl

@[simp] theorem after_source (w m : Movement) (i : List Int) :
    (w.after m).source i = (w.source i).bind m.source := rfl

theorem after_assoc (u w m : Movement) : u.after (w.after m) = (u.after w).after m := by
  simp [after, Option.bind_assoc]

/-- A movement behind axes that stay. -/
def behind (P : List Int) (w : Movement) : Movement :=
  ⟨P ++ w.shape, fun i => (w.source (i.drop P.length)).map (i.take P.length ++ ·)⟩

theorem isIndex_behind {P i : List Int} {w : Movement} (h : IsIndex (w.behind P).shape i) :
    IsIndex P (i.take P.length) ∧ IsIndex w.shape (i.drop P.length) := by
  have htake := forall₂_take P.length h
  have hdrop := forall₂_drop P.length h
  rw [behind, take_left] at htake
  rw [behind, drop_left] at hdrop
  exact ⟨htake, hdrop⟩

/-- A movement of the axes after the first ones. -/
def onLast? (m : Movement) (front : Nat) (f : List Int → Option Movement) : Option Movement :=
  if front ≤ m.shape.length then
    (f (m.shape.drop front)).map fun w => (w.behind (m.shape.take front)).after m
  else none

section OnLast

variable {m w : Movement} {P S : List Int} {f : List Int → Option Movement}

theorem onLast?_eq_some {m' : Movement} {front : Nat} : m.onLast? front f = some m' ↔
    front ≤ m.shape.length ∧ ∃ w, f (m.shape.drop front) = some w ∧
      (w.behind (m.shape.take front)).after m = m' := by
  rw [onLast?, Option.ite_none_right_eq_some, Option.map_eq_some_iff]

theorem onLast?_spec (hm : m.shape = P ++ S) (hw : f S = some w) :
    ∃ v, m.onLast? P.length f = some v ∧ v.shape = P ++ w.shape ∧
      ∀ p i, p.length = P.length →
        v.source (p ++ i) = (w.source i).bind fun j => m.source (p ++ j) := by
  refine ⟨_, onLast?_eq_some.mpr ⟨by simp [hm], w, by rw [hm, drop_left, hw], rfl⟩, ?_, ?_⟩
  · simp [behind, hm]
  · intro p i hp
    simp [behind, hm, ← hp, Option.bind_map]

end OnLast

end Movement

/-! ## Programs -/

/-- A movement of the axes after the first ones, or of all axes in another order. -/
inductive Act where
  | tile (front : Nat) (counts : List Int)
  | extend (front : Nat) (amounts : List Int)
  | take (front : Nat) (lengths : List Int)
  | regroup (front : Nat) (sizes : List Int)
  | permute (order : List Int)

namespace Act

open Movement

variable {T : Type} [Movable T]

/-- An act on what can be moved. -/
def run : Act → T → SessionM T
  | tile n xs, t => Movable.tile t n (xs.map .int)
  | extend n xs, t => Movable.extend t n (xs.map .int)
  | take n xs, t => Movable.take t n (xs.map .int)
  | regroup n xs, t => Movable.regroup t n (xs.map .int)
  | permute order, t => Movable.permute t order

/-- An act on an index map. -/
def on? : Act → Movement → Option Movement
  | tile n xs, m => m.onLast? n (tiling.along? · xs)
  | extend n xs, m => m.onLast? n (extending.along? · xs)
  | take n xs, m => m.onLast? n (taking.along? · xs)
  | regroup n xs, m => m.onLast? n (regrouping? · xs)
  | permute order, m =>
    if Reorders order m.shape.length then some ((reordering m.shape order).after m) else none

/-- A program on what can be moved. -/
def runAll (acts : List Act) (t : T) : SessionM T := acts.foldlM (fun t a => a.run t) t

/-- A program on an index map. -/
def onAll? (acts : List Act) (m : Movement) : Option Movement := acts.foldlM (fun m a => a.on? m) m

theorem runAll_cons (a : Act) (acts : List Act) (t : T) :
    runAll (a :: acts) t = a.run t >>= runAll acts := foldlM_cons

@[simp] theorem onAll?_nil (m : Movement) : onAll? [] m = some m := rfl

theorem onAll?_cons (a : Act) (acts : List Act) (m : Movement) :
    onAll? (a :: acts) m = (a.on? m).bind (onAll? acts) := foldlM_cons

end Act

end LazyTensor
