import Mathlib
import LazyTensor.Graph.Store

/-!
# What a computation on graphs ensures

A computation on graphs reads the services of its environment, changes the store and may fail.
`Ensures p env s x Q` says that where `x` succeeds from the store `s`, its result and the store it
leaves satisfy `Q`, and that it fails only if `p` holds.  With `True` for `p` any failure is
admitted, with `False` none is.  The rules below follow the shape of a computation, so that a
property of a long one is proved step by step.

## Main results

* `Ensures.bind`, `Ensures.forIn`, `Ensures.foldlM`, `Ensures.mapM`: sequencing and loops.
-/

namespace LazyTensor

/-! ## Computations that may fail -/

theorem exists_ok_of_bind {α β ε : Type} {x : Except ε α} {f : α → Except ε β} {b : β}
    (h : x >>= f = .ok b) : ∃ a, x = .ok a ∧ f a = .ok b := by
  cases x with
  | ok a => exact ⟨a, rfl, h⟩
  | error e => cases h

theorem forall₂_of_mapM {α β ε : Type} {f : α → Except ε β} {xs : List α} {ys : List β}
    (h : xs.mapM f = .ok ys) : List.Forall₂ (fun x y => f x = .ok y) xs ys := by
  induction xs generalizing ys with
  | nil =>
    cases h
    exact .nil
  | cons x xs ih =>
    rw [List.mapM_cons] at h
    obtain ⟨y, hx, h⟩ := exists_ok_of_bind h
    obtain ⟨zs, hxs, h⟩ := exists_ok_of_bind h
    cases h
    exact .cons hx (ih hxs)

theorem exists_mem_of_forall₂ {α β : Type} {R : α → β → Prop} {xs : List α} {ys : List β}
    (h : List.Forall₂ R xs ys) : ∀ y ∈ ys, ∃ x ∈ xs, R x y := by
  induction h with
  | nil => simp
  | cons hxy _ ih =>
    simp only [List.mem_cons, forall_eq_or_imp, exists_eq_or_imp]
    exact ⟨.inl hxy, fun y hy => .inr (ih y hy)⟩

end LazyTensor

/-! ## Computations on graphs -/

namespace LazyTensor.GraphM

variable {α β γ : Type} {p : Prop} {env : Env} {s : Store}

theorem bind_run {s' : Store} {x : GraphM α} {a : α} (h : x env s = .ok a s') (f : α → GraphM β) :
    (x >>= f) env s = f a env s' := by
  change EStateM.bind (x env) (fun a => f a env) s = _
  rw [EStateM.bind, h]

theorem bind_eq_ok_iff {t : Store} {x : GraphM α} {f : α → GraphM β} {b : β} :
    (x >>= f) env s = .ok b t ↔ ∃ a s', x env s = .ok a s' ∧ f a env s' = .ok b t := by
  change EStateM.bind (x env) (fun a => f a env) s = _ ↔ _
  unfold EStateM.bind
  cases x env s <;> simp

/-- The result of a computation, with the store it leaves, has a property; a failure needs `p`. -/
def Ensures (p : Prop) (env : Env) (s : Store) (x : GraphM α) (Q : α → Store → Prop) : Prop :=
  match x env s with
  | .ok a s' => Q a s'
  | .error _ _ => p

namespace Ensures

variable {x : GraphM α} {Q R : α → Store → Prop}

theorem of_ok (h : Ensures p env s x Q) {a : α} {s' : Store} (hrun : x env s = .ok a s') :
    Q a s' := by
  rw [Ensures, hrun] at h
  exact h

theorem exists_ok (h : Ensures False env s x Q) : ∃ a s', x env s = .ok a s' ∧ Q a s' := by
  unfold Ensures at h
  split at h
  · exact ⟨_, _, ‹_›, h⟩
  · exact h.elim

theorem of_forall (h : ∀ a s', x env s = .ok a s' → Q a s') : Ensures True env s x Q := by
  unfold Ensures
  split
  · exact h _ _ ‹_›
  · trivial

theorem mono (h : Ensures p env s x Q) (hQ : ∀ a s', Q a s' → R a s') : Ensures p env s x R := by
  unfold Ensures at h ⊢
  cases hx : x env s with
  | ok a s' =>
    rw [hx] at h
    exact hQ a s' h
  | error f s' =>
    rw [hx] at h
    exact h

theorem weaken {q : Prop} (h : Ensures p env s x Q) (hpq : p → q) : Ensures q env s x Q := by
  unfold Ensures at h ⊢
  cases hx : x env s with
  | ok a s' =>
    rw [hx] at h
    exact h
  | error f s' =>
    rw [hx] at h
    exact hpq h

theorem pure {a : α} (h : Q a s) : Ensures p env s (pure a) Q := h

theorem throw {f : Failure} (h : p) : Ensures p env s (throw f : GraphM α) Q := h

theorem bind {f : α → GraphM β} {Q : β → Store → Prop}
    (h : Ensures p env s x fun a s' => Ensures p env s' (f a) Q) :
    Ensures p env s (x >>= f) Q := by
  change match EStateM.bind (x env) (fun a => f a env) s with
    | .ok b s' => Q b s'
    | .error _ _ => p
  unfold Ensures at h
  unfold EStateM.bind
  cases hx : x env s with
  | ok a s' =>
    rw [hx] at h
    exact h
  | error f s' =>
    rw [hx] at h
    exact h

theorem bind_any {f : α → GraphM β} {Q : β → Store → Prop}
    (h : ∀ a s', Ensures True env s' (f a) Q) : Ensures True env s (x >>= f) Q :=
  bind (of_forall fun a s' _ => h a s')

@[simp] theorem get_iff {Q : Store → Store → Prop} :
    Ensures p env s (MonadState.get : GraphM Store) Q ↔ Q s s := Iff.rfl

@[simp] theorem modify_iff {f : Store → Store} {Q : Unit → Store → Prop} :
    Ensures p env s (modify f : GraphM PUnit) Q ↔ Q ⟨⟩ (f s) := Iff.rfl

theorem ofExcept {x : Except Failure α} (hok : ∀ a, x = .ok a → Q a s)
    (hfail : (∀ a, x ≠ .ok a) → p) : Ensures p env s (liftM x : GraphM α) Q := by
  cases x with
  | ok a => exact hok a rfl
  | error f => exact hfail fun _ h => by cases h

theorem ite {c : Prop} [Decidable c] {y : GraphM α} (hx : c → Ensures p env s x Q)
    (hy : ¬c → Ensures p env s y Q) : Ensures p env s (if c then x else y) Q := by
  split
  · exact hx ‹_›
  · exact hy ‹_›

/-- A loop over a list, by an invariant that sees the items still to come. -/
theorem forIn {xs : List α} {b : β} {f : α → β → GraphM (ForInStep β)} {Q : β → Store → Prop}
    (I : List α → β → Store → Prop) (init : I xs b s)
    (step : ∀ a rest b s, I (a :: rest) b s → Ensures p env s (f a b) fun r s' =>
      match r with
      | .yield b' => I rest b' s'
      | .done b' => Q b' s')
    (last : ∀ b s, I [] b s → Q b s) : Ensures p env s (forIn xs b f) Q := by
  induction xs generalizing b s with
  | nil => exact pure (last b s init)
  | cons a rest ih =>
    rw [List.forIn_cons]
    refine bind ((step a rest b s init).mono fun r s' hr => ?_)
    cases r with
    | done b' => exact pure hr
    | yield b' => exact ih hr

/-- A fold over a list, by an invariant that sees the items still to come. -/
theorem foldlM {xs : List α} {b : β} {f : β → α → GraphM β} {Q : β → Store → Prop}
    (I : List α → β → Store → Prop) (init : I xs b s)
    (step : ∀ a rest b s, I (a :: rest) b s → Ensures p env s (f b a) fun b' s' => I rest b' s')
    (last : ∀ b s, I [] b s → Q b s) : Ensures p env s (xs.foldlM f b) Q := by
  induction xs generalizing b s with
  | nil => exact pure (last b s init)
  | cons a rest ih =>
    rw [List.foldlM_cons]
    exact bind ((step a rest b s init).mono fun b' s' hr => ih hr)

/-- A computation for each item of a list, by an invariant that sees the results so far and the
items still to come. -/
theorem mapM {xs : List α} {f : α → GraphM β} {Q : List β → Store → Prop}
    (I : List α → List β → Store → Prop) (init : I xs [] s)
    (step : ∀ a rest bs s, I (a :: rest) bs s →
      Ensures p env s (f a) fun b s' => I rest (bs ++ [b]) s')
    (last : ∀ bs s, I [] bs s → Q bs s) : Ensures p env s (xs.mapM f) Q := by
  have main : ∀ (xs : List α) (bs : List β) (s : Store), I xs bs s →
      Ensures p env s (xs.mapM f) fun r s' => Q (bs ++ r) s' := by
    intro xs
    induction xs with
    | nil =>
      intro bs s hI
      rw [List.mapM_nil]
      exact pure (by simpa using last bs s hI)
    | cons a rest ih =>
      intro bs s hI
      rw [List.mapM_cons]
      refine bind ((step a rest bs s hI).mono fun b s' hb => ?_)
      refine bind ((ih (bs ++ [b]) s' hb).mono fun r s'' hr => ?_)
      exact pure (by simpa using hr)
  simpa using main xs [] s init

end Ensures

end LazyTensor.GraphM
