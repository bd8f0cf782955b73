import LazyTensor.Graph.Decision
import LazyTensor.Proofs.Graph.Walk

/-!
# The steps of decisions

A capture says what each name stands for, and a step of matching extends it or refuses.  A decision
is read as the list of steps that it tries, in order.  Binding names commutes with every other step,
so decisions made together try all combinations of their steps.

The order of these combinations is another matter.  Decisions made together put all combinations of
the outer choices before the inner ones.  Where only the last choice has choices inside its
alternatives that is the order in which the first decision varies slowest, and otherwise it is not.
Both are said at once by `Alike`: the same steps in any case, and in the same order under a condition.

## Main results

* `Bindings.bind?_note`: binding a name in a graph is a step on captures.
* `Decision.together_ways`: tests can be made first and names bound last.
* `Decision.both_ways`: the steps of decisions made together are all combinations of their steps.
-/

namespace LazyTensor

open List

/-! ## Lists alike up to order -/

/-- Two lists with the same items, in the same order where a condition holds. -/
def Alike {α : Type*} (o : Prop) (xs ys : List α) : Prop := xs.Perm ys ∧ (o → xs = ys)

namespace Alike

variable {α β γ : Type*} {o o' : Prop} {xs ys zs xs' ys' : List α}

theorem of_eq (h : xs = ys) : Alike o xs ys := ⟨h ▸ .refl xs, fun _ => h⟩

theorem mono (h : Alike o xs ys) (ho : o' → o) : Alike o' xs ys := ⟨h.1, fun ho' => h.2 (ho ho')⟩

theorem symm (h : Alike o xs ys) : Alike o ys xs := ⟨h.1.symm, fun ho => (h.2 ho).symm⟩

theorem trans (h : Alike o xs ys) (h' : Alike o ys zs) : Alike o xs zs :=
  ⟨h.1.trans h'.1, fun ho => (h.2 ho).trans (h'.2 ho)⟩

theorem append (h : Alike o xs ys) (h' : Alike o xs' ys') : Alike o (xs ++ xs') (ys ++ ys') :=
  ⟨h.1.append h'.1, fun ho => by rw [h.2 ho, h'.2 ho]⟩

theorem map (f : α → β) (h : Alike o xs ys) : Alike o (xs.map f) (ys.map f) :=
  ⟨h.1.map f, fun ho => by rw [h.2 ho]⟩

theorem filterMap (f : α → Option β) (h : Alike o xs ys) : Alike o (xs.filterMap f) (ys.filterMap f) :=
  ⟨h.1.filterMap f, fun ho => by rw [h.2 ho]⟩

theorem flatMap {f g : α → List β} (h : Alike o xs ys) (hf : ∀ x ∈ xs, Alike o (f x) (g x)) :
    Alike o (xs.flatMap f) (ys.flatMap g) := by
  refine ⟨h.1.flatMap fun x hx => (hf x hx).1, fun ho => ?_⟩
  rw [← h.2 ho]
  exact flatMap_congr fun x hx => (hf x hx).2 ho

theorem flatMap_forall₂ {f : β → List γ} {g : α → List γ} {ys : List β}
    (h : Forall₂ (fun x y => Alike o (f y) (g x)) xs ys) :
    Alike o (ys.flatMap f) (xs.flatMap g) := by
  induction h with
  | nil => exact of_eq rfl
  | cons hxy _ ih => exact hxy.append ih

end Alike

/-- Two loops, one inside the other, may be exchanged up to order. -/
theorem flatMap_flatMap_perm {α β γ : Type*} (xs : List α) (ys : List β) (f : α → β → List γ) :
    (xs.flatMap fun x => ys.flatMap (f x)).Perm (ys.flatMap fun y => xs.flatMap (f · y)) := by
  induction xs with
  | nil => simp
  | cons x xs ih =>
    simp only [flatMap_cons]
    exact (ih.append_left _).trans (flatMap_append_perm ys _ _)

/-! ## Captures -/

/-- What names stand for. -/
abbrev Capture := String → Option Expr

namespace Capture

/-- A step of matching: it extends a capture, or refuses. -/
abbrev Step := Capture → Option Capture

@[simp] theorem some_fish (φ : Step) : (some >=> φ) = φ := rfl

@[simp] theorem fish_some (φ : Step) : (φ >=> some) = φ := funext fun σ => Option.bind_fun_some (φ σ)

open Classical in
/-- Let a name stand for a node, unless it stands for another one. -/
noncomputable def note (n : String) (x : Expr) : Step := fun σ =>
  if σ n = none ∨ σ n = some x then some (Function.update σ n (some x)) else none

variable {n m : String} {x y : Expr} {σ : Capture}

theorem note_of_none (h : σ n = none) : note n x σ = some (Function.update σ n (some x)) :=
  if_pos (.inl h)

theorem note_self (h : σ n = some x) : note n x σ = some σ := by
  rw [note, if_pos (.inr h), ← h, Function.update_eq_self]

theorem note_other (h : σ n = some y) (hxy : x ≠ y) : note n x σ = none :=
  if_neg (by simp [h, Ne.symm hxy])

/-- The order in which two names are bound does not matter. -/
theorem note_comm : note n x >=> note m y = note m y >=> note n x := by
  funext σ
  change (note n x σ).bind (note m y) = (note m y σ).bind (note n x)
  by_cases hnm : n = m
  · subst hnm
    by_cases hxy : x = y
    · rw [hxy]
    -- a name for two nodes is refused in either order
    have refused : ∀ {x y}, x ≠ y → (note n x σ).bind (note n y) = none := by
      intro x y hxy
      rw [note]
      split
      · exact note_other (Function.update_self ..) (Ne.symm hxy)
      · rfl
    rw [refused hxy, refused (Ne.symm hxy)]
  · have hmn : m ≠ n := Ne.symm hnm
    unfold note
    split <;> split <;>
      simp_all [Function.update_comm hmn]

end Capture

namespace Bindings

theorem find?_cons (n : String) (x : Expr) (b : Bindings) :
    find? ((n, x) :: b) = Function.update b.find? n (some x) := by
  funext m
  by_cases h : n = m
  · subst h
    simp [find?]
  · rw [Function.update_of_ne (Ne.symm h), find?, if_neg (by simpa using h)]

/-- The names are bound to nodes of a graph. -/
def Within (e : Expr) (b : Bindings) : Prop := ∀ ⦃n x⦄, b.find? n = some x → e.Reaches x

theorem Within.nil (e : Expr) : Within e [] := fun _ _ h => by cases h

theorem Within.cons {e x : Expr} {n : String} {b : Bindings} (hb : Within e b) (hx : e.Reaches x) :
    Within e ((n, x) :: b) := by
  intro m y h
  rw [find?_cons, Function.update_apply] at h
  split at h
  · exact Option.some.inj h ▸ hx
  · exact hb h

def bind? (b : Bindings) (n : String) (x : Expr) : Option Bindings :=
  match b.find? n with
  | none => some ((n, x) :: b)
  | some y => if x == y then some b else none

/-- Binding a name among the nodes of a graph is a step on captures. -/
theorem bind?_note {e x : Expr} {n : String} {b : Bindings} (he : e.Distinct) (hb : Within e b)
    (hx : e.Reaches x) : (b.bind? n x).map find? = Capture.note n x b.find? := by
  unfold bind?
  split
  · rw [Capture.note_of_none ‹_›, Option.map_some, find?_cons]
  · rename_i y hy
    split
    · obtain rfl := he hx (hb hy) (Expr.beq_iff.mp ‹_›)
      rw [Capture.note_self hy, Option.map_some]
    · rw [Capture.note_other hy fun h => ‹¬_› (by simp [h]), Option.map_none]

theorem Within.bind? {e x : Expr} {n : String} {b b' : Bindings} (hb : Within e b)
    (hx : e.Reaches x) (h : b.bind? n x = some b') : Within e b' := by
  unfold Bindings.bind? at h
  split at h
  · exact Option.some.inj h ▸ hb.cons hx
  · split at h
    · exact Option.some.inj h ▸ hb
    · cases h

end Bindings

/-! ## The steps of decisions -/

namespace Spot

theorem descend_append (e : Expr) (p q : List Nat) :
    descend e (p ++ q) = (descend e p).bind fun x => descend x q := by
  induction p generalizing e with
  | nil => rfl
  | cons i p ih => simp [descend, ih, Option.bind_assoc]

theorem reaches_of_descend {e x : Expr} {p : List Nat} (h : descend e p = some x) :
    e.Reaches x := by
  induction p generalizing e with
  | nil => exact Option.some.inj h ▸ .refl e
  | cons i p ih =>
    obtain ⟨y, hy, h⟩ := Option.bind_eq_some_iff.mp h
    exact .of_src (mem_of_getElem? hy) (ih h)

theorem reach?_source {s : Spot} {at' : List Expr} {x : Expr} (h : s.reach? at' = some x) (i : Nat) :
    (s.source i).reach? at' = x.src[i]? := by
  obtain ⟨y, hy, h⟩ := Option.bind_eq_some_iff.mp h
  rw [reach?, source, hy, Option.bind_some, descend_append, h]
  simp [descend]

end Spot

namespace Decision

open Capture

variable {at' : List Expr} {fuel : Nat} {d : Decision} {ds : List Decision} {φ ψ : Step}

noncomputable def noteAt (at' : List Expr) (b : String × Spot) : Step := fun σ =>
  (b.2.reach? at').bind fun x => note b.1 x σ

noncomputable def noteAll (at' : List Expr) (bs : List (String × Spot)) : Step :=
  bs.foldr (fun b φ => noteAt at' b >=> φ) some

@[simp] theorem noteAll_nil : noteAll at' [] = some := rfl

@[simp] theorem noteAll_cons (b : String × Spot) (bs : List (String × Spot)) :
    noteAll at' (b :: bs) = noteAt at' b >=> noteAll at' bs := rfl

theorem noteAll_append (as bs : List (String × Spot)) :
    noteAll at' (as ++ bs) = noteAll at' as >=> noteAll at' bs := by
  induction as with
  | nil => simp
  | cons a as ih => simp [ih, fish_assoc]

theorem noteAt_comm (a b : String × Spot) :
    noteAt at' a >=> noteAt at' b = noteAt at' b >=> noteAt at' a := by
  funext σ
  change (noteAt at' a σ).bind _ = (noteAt at' b σ).bind _
  unfold noteAt
  cases a.2.reach? at' with
  | none => simp
  | some x => cases b.2.reach? at' with
    | none => simp
    | some y => exact congrFun note_comm σ

/-- A step that may be taken before or after names are bound. -/
def Free (at' : List Expr) (φ : Step) : Prop :=
  ∀ bs, φ >=> noteAll at' bs = noteAll at' bs >=> φ

theorem Free.unit : Free at' some := fun _ => by simp

theorem Free.comp (hφ : Free at' φ) (hψ : Free at' ψ) : Free at' (φ >=> ψ) := fun bs => by
  rw [fish_assoc, hψ bs, ← fish_assoc, hφ bs, fish_assoc]

theorem free_noteAt (a : String × Spot) : Free at' (noteAt at' a) := by
  intro bs
  induction bs with
  | nil => simp
  | cons b bs ih => rw [noteAll_cons, ← fish_assoc, noteAt_comm, fish_assoc, ih, ← fish_assoc]

theorem free_noteAll (as : List (String × Spot)) : Free at' (noteAll at' as) := by
  induction as with
  | nil => exact .unit
  | cons a as ih => exact (free_noteAt a).comp ih

mutual

/-- The steps of a decision, in the order in which they are tried: those of the alternatives where
there are any, then the names. -/
noncomputable def ways (at' : List Expr) : Decision → List Step
  | mk ts bs none => if Probe.allHold at' ts then [noteAll at' bs] else []
  | mk ts bs (some as) =>
    if Probe.allHold at' ts then (waysAny at' as).map (· >=> noteAll at' bs) else []

/-- The steps of decisions, one decision after the other. -/
noncomputable def waysAny (at' : List Expr) : List Decision → List Step
  | [] => []
  | d :: ds => ways at' d ++ waysAny at' ds

end

theorem waysAny_eq (ds : List Decision) : waysAny at' ds = ds.flatMap (ways at') := by
  induction ds with
  | nil => rfl
  | cons d ds ih => rw [waysAny, ih, flatMap_cons]

/-- One step of each list, taken one after the other, the first list varying slowest. -/
def together : List (List Step) → List Step
  | [] => [some]
  | E :: rest => E.flatMap fun φ => (together rest).map (φ >=> ·)

@[simp] theorem together_single (E : List Step) : together [E] = E := by
  simp [together, flatMap_singleton']

mutual

theorem free_of_mem_ways : ∀ (d : Decision), ∀ φ ∈ ways at' d, Free at' φ
  | mk ts bs none => by
    intro φ h
    rw [ways] at h
    split at h
    · obtain rfl := mem_singleton.mp h
      exact free_noteAll bs
    · cases h
  | mk ts bs (some as) => by
    intro φ h
    rw [ways] at h
    split at h
    · obtain ⟨ψ, hψ, rfl⟩ := mem_map.mp h
      exact (free_of_mem_waysAny as ψ hψ).comp (free_noteAll bs)
    · cases h

theorem free_of_mem_waysAny : ∀ (ds : List Decision), ∀ φ ∈ waysAny at' ds, Free at' φ
  | [] => by simp [waysAny]
  | d :: ds => by
    intro φ h
    rcases mem_append.mp (waysAny.eq_2 at' d ds ▸ h) with h | h
    · exact free_of_mem_ways d φ h
    · exact free_of_mem_waysAny ds φ h

end

theorem free_of_mem_together {Es : List (List Step)} (h : ∀ E ∈ Es, ∀ φ ∈ E, Free at' φ)
    (hφ : φ ∈ together Es) : Free at' φ := by
  induction Es generalizing φ with
  | nil => exact mem_singleton.mp hφ ▸ .unit
  | cons E Es ih =>
    obtain ⟨ψ, hψ, hφ⟩ := mem_flatMap.mp hφ
    obtain ⟨χ, hχ, rfl⟩ := mem_map.mp hφ
    exact (h E (by simp) ψ hψ).comp (ih (fun E hE => h E (by simp [hE])) hχ)

theorem allHold_append (ts us : List Probe) :
    Probe.allHold at' (ts ++ us) = (Probe.allHold at' ts && Probe.allHold at' us) := by
  induction ts with
  | nil => simp [Probe.allHold]
  | cons t ts ih => simp [Probe.allHold, ih, Bool.and_assoc]

/-- Decisions taken together: all tests come first, then one alternative for each choice, then the
names. -/
theorem together_ways (ds : List Decision) : together (ds.map (ways at')) =
    if Probe.allHold at' (ds.flatMap tests) then
      (together ((ds.filterMap alts).map (waysAny at'))).map (· >=> noteAll at' (ds.flatMap binds))
    else [] := by
  induction ds with
  | nil => simp [together, Probe.allHold]
  | cons d ds ih =>
    -- what is left to do after the first decision can be done before its names are bound
    have free : ∀ ψ ∈ together ((ds.filterMap alts).map (waysAny at')), Free at' ψ := by
      intro ψ hψ
      refine free_of_mem_together (fun E hE φ hφ => ?_) hψ
      obtain ⟨as, -, rfl⟩ := mem_map.mp hE
      exact free_of_mem_waysAny as φ hφ
    obtain ⟨ts, bs, _ | as⟩ := d
    all_goals
      rw [map_cons, together, ih, ways, flatMap_cons, flatMap_cons, tests, binds,
        allHold_append, noteAll_append]
      cases hts : Probe.allHold at' ts with
      | false => simp
      | true => ?_
      cases hds : Probe.allHold at' (ds.flatMap tests) with
      | false => simp
      | true => ?_
    · simp only [flatMap_singleton, Bool.and_true, if_true, map_map, filterMap_cons,
        alts]
      refine map_congr_left fun ψ hψ => ?_
      change noteAll at' bs >=> (ψ >=> _) = ψ >=> (noteAll at' bs >=> _)
      rw [← fish_assoc, ← free ψ hψ, fish_assoc]
    · simp only [Bool.and_true, if_true, filterMap_cons, alts, map_cons, together,
        map_flatMap, flatMap_map, map_map]
      refine flatMap_congr fun φ _ => map_congr_left fun ψ hψ => ?_
      change (φ >=> noteAll at' bs) >=> (ψ >=> _) = (φ >=> ψ) >=> (noteAll at' bs >=> _)
      rw [fish_assoc, fish_assoc, ← fish_assoc (noteAll at' bs), ← free ψ hψ, fish_assoc]

/-- What decisions made together are: without choices, with one choice, or with a choice between all
combinations of alternatives. -/
theorem both_cases (h : both (fuel + 1) ds = .ok d) :
    ds.filterMap alts = [] ∧ d = mk (ds.flatMap tests) (ds.flatMap binds) none ∨
      ∃ as, d = mk (ds.flatMap tests) [] (some (pushAll (ds.flatMap binds) as)) ∧
        (ds.filterMap alts = [as] ∨ ds.filterMap alts ≠ [] ∧
          Forall₂ (fun c a => both fuel c = .ok a) (combinations (ds.filterMap alts)) as) := by
  rw [both] at h
  split at h
  · cases h
  split at h
  · cases h
    exact .inl ⟨‹_›, rfl⟩
  · cases h
    exact .inr ⟨_, rfl, .inl ‹_›⟩
  · obtain ⟨as, has, h⟩ := exists_ok_of_bind h
    cases h
    exact .inr ⟨as, rfl, .inr ⟨‹_›, forall₂_of_mapM has⟩⟩

/-! ### Heights -/

theorem heightAll_le_iff {k : Nat} : heightAll ds ≤ k ↔ ∀ d ∈ ds, d.height ≤ k := by
  induction ds with
  | nil => simp [heightAll]
  | cons d ds ih => simp [heightAll, ih]

mutual

theorem height_push (more : List (String × Spot)) : ∀ d : Decision, (push more d).height = d.height
  | mk _ _ none => rfl
  | mk _ bs (some as) => by rw [push, height, height, heightAll_pushAll (bs ++ more) as]

theorem heightAll_pushAll (more : List (String × Spot)) :
    ∀ ds : List Decision, heightAll (pushAll more ds) = heightAll ds
  | [] => rfl
  | d :: ds => by rw [pushAll, heightAll, heightAll, height_push more d, heightAll_pushAll more ds]

end

mutual

/-- Names that are bound behind the alternatives are bound last. -/
theorem ways_push (more : List (String × Spot)) :
    ∀ d : Decision, ways at' (push more d) = (ways at' d).map (· >=> noteAll at' more)
  | mk ts bs none => by
    rw [push, ways, ways]
    split
    · rw [noteAll_append, map_singleton]
    · rfl
  | mk ts bs (some as) => by
    rw [push, ways, ways, waysAny_pushAll (bs ++ more) as]
    split
    · simp [noteAll_append, fish_assoc, Function.comp_def]
    · rfl

theorem waysAny_pushAll (more : List (String × Spot)) :
    ∀ ds : List Decision, waysAny at' (pushAll more ds) = (waysAny at' ds).map (· >=> noteAll at' more)
  | [] => rfl
  | d :: ds => by
    rw [pushAll, waysAny, waysAny, ways_push more d, waysAny_pushAll more ds, map_append]

end

theorem mem_combinations {α : Type} {xss : List (List α)} {xs : List α} :
    xs ∈ combinations xss ↔ Forall₂ (· ∈ ·) xs xss := by
  induction xss generalizing xs with
  | nil => simp [combinations]
  | cons ys xss ih =>
    simp only [combinations, mem_flatMap, mem_map, forall₂_cons_right_iff, ih]
    grind

theorem height_le_of_mem_alts {as : List Decision} (h : d.alts = some as) :
    heightAll as + 1 = d.height := by
  obtain ⟨ts, bs, as'⟩ := d
  cases h
  rfl

/-- Choices are nested no deeper in decisions made together than in one of them. -/
theorem height_both_le (h : both fuel ds = .ok d) : d.height ≤ heightAll ds := by
  induction fuel generalizing ds d with
  | zero => cases h
  | succ fuel ih =>
    -- an alternative of a choice has fewer choices inside than the decision that makes the choice
    have alt_le : ∀ as ∈ ds.filterMap alts, heightAll as + 1 ≤ heightAll ds := by
      intro as has
      obtain ⟨d, hd, hds⟩ := mem_filterMap.mp has
      rw [height_le_of_mem_alts hds]
      exact heightAll_le_iff.mp le_rfl d hd
    rcases both_cases h with ⟨-, rfl⟩ | ⟨as, rfl, hone | ⟨hne, hmany⟩⟩
    · exact Nat.zero_le _
    · rw [height, heightAll_pushAll]
      exact alt_le as (by simp [hone])
    · rw [height, heightAll_pushAll]
      obtain ⟨as₀, has₀⟩ := exists_mem_of_ne_nil _ hne
      have hpos := alt_le as₀ has₀
      have hle : heightAll as ≤ heightAll ds - 1 := by
        refine heightAll_le_iff.mpr fun a ha => ?_
        obtain ⟨c, hc, hca⟩ := exists_mem_of_forall₂ hmany _ ha
        refine (ih hca).trans (heightAll_le_iff.mpr fun x hx => ?_)
        obtain ⟨as', has', hx⟩ := exists_mem_of_forall₂ (mem_combinations.mp hc).flip _ hx
        have := alt_le as' has'
        have := heightAll_le_iff.mp le_rfl x hx
        omega
      omega

/-- A decision without choices takes one step at most. -/
theorem ways_of_height_eq_zero (h : d.height = 0) : ways at' d = [] ∨ ∃ φ, ways at' d = [φ] := by
  obtain ⟨ts, bs, _ | as⟩ := d
  · rw [ways]
    split
    · exact .inr ⟨_, rfl⟩
    · exact .inl rfl
  · cases h

/-- Only the last choice has choices inside its alternatives. -/
def Plain (many : List (List Decision)) : Prop :=
  many.Pairwise fun as _ => ∀ a ∈ as, a.height = 0

/-- All combinations of alternatives, the first choice varying slowest, have the steps of the
alternatives of each choice in turn. -/
theorem combinations_ways (many : List (List Decision)) :
    Alike (Plain many) ((combinations many).flatMap fun c => together (c.map (ways at')))
      (together (many.map (waysAny at'))) := by
  induction many with
  | nil => exact .of_eq rfl
  | cons as many ih =>
    rw [combinations, flatMap_assoc, map_cons, together, waysAny_eq, flatMap_assoc]
    refine .flatMap (.of_eq rfl) fun a ha => ?_
    rw [flatMap_map]
    simp only [map_cons, together]
    -- the steps of the alternative come first, and the rest is chosen after them
    have exchanged : Alike (Plain (as :: many))
        ((combinations many).flatMap fun c =>
          (ways at' a).flatMap fun φ => (together (c.map (ways at'))).map (φ >=> ·))
        ((ways at' a).flatMap fun φ =>
          (combinations many).flatMap fun c => (together (c.map (ways at'))).map (φ >=> ·)) := by
      refine ⟨flatMap_flatMap_perm _ _ _, fun h => ?_⟩
      cases many with
      | nil => simp [combinations, together]
      | cons bs many =>
        -- an alternative without choices takes its step before or after the rest is chosen
        have flat := (pairwise_cons.mp h).1 bs (by simp) a ha
        rcases @ways_of_height_eq_zero at' a flat with h | ⟨φ, h⟩ <;> simp [h]
    refine exchanged.trans (.flatMap (.of_eq rfl) fun φ _ => ?_)
    rw [← map_flatMap]
    exact (ih.mono fun h => (pairwise_cons.mp h).2).map _

/-- Only the last of some decisions that make choices has choices inside its alternatives. -/
def InOrder (ds : List Decision) : Prop := ds.Pairwise fun a b => 0 < b.height → a.height ≤ 1

theorem InOrder.plain (h : InOrder ds) : Plain (ds.filterMap alts) := by
  refine pairwise_filterMap.mpr (h.imp fun {a b} hab as has bs hbs x hx => ?_)
  have ha := height_le_of_mem_alts has
  have hb := height_le_of_mem_alts hbs
  have := hab (by omega)
  have := heightAll_le_iff.mp le_rfl x hx
  omega

theorem Plain.inOrder {many : List (List Decision)} (h : Plain many) {c : List Decision}
    (hc : c ∈ combinations many) : InOrder c := by
  rw [mem_combinations] at hc
  induction hc with
  | nil => exact .nil
  | @cons a as c many ha hc ih =>
    obtain ⟨hflat, hmany⟩ := pairwise_cons.mp h
    refine pairwise_cons.mpr ⟨fun b hb _ => ?_, ih hmany⟩
    obtain ⟨bs, hbs, -⟩ := exists_mem_of_forall₂ hc.flip _ hb
    rw [hflat bs hbs a ha]
    exact Nat.zero_le 1

/-- **Decisions made together** have all combinations of their steps; the first decision varies slowest
where only the last that makes choices has choices inside its alternatives. -/
theorem both_ways (h : both fuel ds = .ok d) :
    Alike (InOrder ds) (ways at' d) (together (ds.map (ways at'))) := by
  induction fuel generalizing ds d with
  | zero => cases h
  | succ fuel ih =>
    rw [together_ways]
    rcases both_cases h with ⟨hnone, rfl⟩ | ⟨as, rfl, hone | ⟨-, hmany⟩⟩
    · exact .of_eq (by simp [ways, hnone, together])
    · exact .of_eq (by simp [ways, hone, waysAny_pushAll, Function.comp_def])
    · have steps : Alike (InOrder ds) (waysAny at' as)
          (together ((ds.filterMap alts).map (waysAny at'))) := by
        rw [waysAny_eq]
        refine .trans (.flatMap_forall₂ ?_) ((combinations_ways _).mono InOrder.plain)
        have hmem := (forall₂_and_left _ _).mpr ⟨fun c hc => hc, hmany⟩
        exact hmem.imp fun c a h => (ih h.2).mono fun hds => hds.plain.inOrder h.1
      rw [ways, waysAny_pushAll]
      split
      · simpa [Function.comp_def] using steps.map (· >=> noteAll at' (ds.flatMap binds))
      · exact .of_eq rfl

end Decision

end LazyTensor
