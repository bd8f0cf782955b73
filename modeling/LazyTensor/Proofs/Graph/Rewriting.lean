import LazyTensor.Proofs.Graph.Enclosure
import LazyTensor.Proofs.Graph.Walk
import LazyTensor.Schedule.Kernels

/-!
# Rewriting keeps meanings

At a moment, the machine that rewrites a graph has a stack of tasks, the results so far and the
store.  Its moves are a relation between moments, a run is a sequence of moves, and what every move
keeps is kept by the run.

A meaning of nodes is compositional if that of a node comes from its own data and from the meanings
of its sources.  Where every rule of a set gives nodes that mean what the matched node does, at each
moment a task and a result mean what their node does, and so does the result of the graph.

## Main results

* `Rewriting.run_eq_ok_iff`: a run is a sequence of moves that ends with nothing to do.
* `Rewriting.Move.keeps`, `Rewriting.Moves.keeps`: moves keep meanings.
* `RuleSet.rewriting_keeps_meaning`: rewriting keeps every meaning that its rules keep.
-/

namespace LazyTensor

open GraphM List

namespace Rewriting

/-- A moment of the machine: what remains to be done, the results so far, and the store. -/
structure Moment where
  stack : List Task
  done : Std.HashMap Nat Expr
  store : Store

/-- The tasks that visit some nodes. -/
def visits (es : List Expr) : List Task := es.map fun e => ⟨e, .visit, e⟩

/-- The tasks after a visit are those of the sources, the node itself, and what there was. -/
theorem mem_expanded {n e : Expr} {stack : List Task} {t : Task}
    (h : t ∈ visits e.src ++ ⟨n, .rebuild, e⟩ :: stack) :
    (∃ x ∈ e.src, t = ⟨x, .visit, x⟩) ∨ t = ⟨n, .rebuild, e⟩ ∨ t ∈ stack := by
  rcases mem_append.mp h with h | h
  · obtain ⟨x, hx, rfl⟩ := mem_map.mp h
    exact .inl ⟨x, hx, rfl⟩
  · exact .inr (mem_cons.mp h)

/-- The sources of a node, each replaced by its result where there is one. -/
def renewed (done : Std.HashMap Nat Expr) (e : Expr) : List Expr :=
  e.src.map fun x => (done[x.number]?).getD x

section Moves

variable (step : Expr → GraphM (Option Expr)) (bottomUp : Bool) (env : Env)

/-- What a node becomes when it is visited. -/
def prepare (e : Expr) : GraphM Expr := if bottomUp then fixpoint step plenty e else pure e

/-- What the rules say of a node whose sources are finished. -/
def ask (e : Expr) : GraphM (Option Expr) := if bottomUp then pure none else step e

theorem ask_topDown (e : Expr) : ask step false e = step e := rfl

/-- A move of the machine. -/
inductive Move : Moment → Moment → Prop
  -- a node that is finished needs nothing more
  | skip {t stack done s} (hdone : t.node.number ∈ done) :
      Move ⟨t :: stack, done, s⟩ ⟨stack, done, s⟩
  -- the sources come first
  | expand {n c e stack done s s'} (hnew : n.number ∉ done)
      (hrun : prepare step bottomUp c env s = .ok e s') :
      Move ⟨⟨n, .visit, c⟩ :: stack, done, s⟩ ⟨visits e.src ++ ⟨n, .rebuild, e⟩ :: stack, done, s'⟩
  -- with the sources as they were the rules are asked, and a node they decline is its own result
  | finish {n e stack done s s'} (hnew : n.number ∉ done) (hsrc : (renewed done e == e.src) = true)
      (hrun : ask step bottomUp e env s = .ok none s') :
      Move ⟨⟨n, .rebuild, e⟩ :: stack, done, s⟩ ⟨stack, done.insert n.number e, s'⟩
  | answer {n e e' stack done s s'} (hnew : n.number ∉ done)
      (hsrc : (renewed done e == e.src) = true)
      (hrun : ask step bottomUp e env s = .ok (some e') s') :
      Move ⟨⟨n, .rebuild, e⟩ :: stack, done, s⟩
        ⟨⟨e', .visit, e'⟩ :: ⟨n, .adopt, e'⟩ :: stack, done, s'⟩
  -- with other sources it is another node, which may be one that is not finished
  | renew {n e e' stack done s s'} (hnew : n.number ∉ done)
      (hsrc : ¬(renewed done e == e.src) = true)
      (hrun : node e.op e.dtype (renewed done e) e.arg e.tag env s = .ok e' s') :
      Move ⟨⟨n, .rebuild, e⟩ :: stack, done, s⟩
        ⟨⟨e', .visit, e'⟩ :: ⟨n, .adopt, e'⟩ :: stack, done, s'⟩
  -- a node that became another has the result of that one
  | adopt {n c r stack done s} (hnew : n.number ∉ done) (hres : done[c.number]? = some r) :
      Move ⟨⟨n, .adopt, c⟩ :: stack, done, s⟩ ⟨stack, done.insert n.number r, s⟩

/-- A number of moves of the machine. -/
inductive Moves : Nat → Moment → Moment → Prop
  | refl (m : Moment) : Moves 0 m m
  | head {n m m₁ m₂} (h : Move step bottomUp env m m₁) (hs : Moves n m₁ m₂) : Moves (n + 1) m m₂

end Moves

section Run

variable {step : Expr → GraphM (Option Expr)} {bottomUp : Bool} {env : Env} {m m' m₁ : Moment}
  {fuel k l : Nat} {t : Task} {stack : List Task} {done result : Std.HashMap Nat Expr}
  {s s' : Store}

theorem foldr_visits (es : List Expr) (stack : List Task) :
    es.foldr (fun x k => ⟨x, .visit, x⟩ :: k) stack = visits es ++ stack :=
  foldr_cons_eq_append

theorem run_skip {n c : Expr} {stage : Stage} (h : n.number ∈ done) :
    run step bottomUp (fuel + 1) (⟨n, stage, c⟩ :: stack) done =
      run step bottomUp fuel stack done := by
  simp only [run, Std.HashMap.contains_iff_mem, if_pos h]

-- Where a branch of the machine depends on the direction, both branches go on in the same way; the
-- equations below state this once, by `prepare` and `ask`.

theorem run_visit {n c : Expr} (h : n.number ∉ done) :
    run step bottomUp (fuel + 1) (⟨n, .visit, c⟩ :: stack) done =
      prepare step bottomUp c >>= fun e =>
        run step bottomUp fuel (visits e.src ++ ⟨n, .rebuild, e⟩ :: stack) done := by
  simp only [run, Std.HashMap.contains_iff_mem, if_neg h, foldr_visits]
  cases bottomUp <;> rfl

theorem run_rebuild {n e : Expr} (h : n.number ∉ done) :
    run step bottomUp (fuel + 1) (⟨n, .rebuild, e⟩ :: stack) done =
      if (renewed done e == e.src) = true then
        ask step bottomUp e >>= fun
          | none => run step bottomUp fuel stack (done.insert n.number e)
          | some e' =>
            run step bottomUp fuel (⟨e', .visit, e'⟩ :: ⟨n, .adopt, e'⟩ :: stack) done
      else
        node e.op e.dtype (renewed done e) e.arg e.tag >>= fun e' =>
          run step bottomUp fuel (⟨e', .visit, e'⟩ :: ⟨n, .adopt, e'⟩ :: stack) done := by
  simp only [run, Std.HashMap.contains_iff_mem, if_neg h]
  cases bottomUp <;> rfl

theorem run_adopt {n c : Expr} (h : n.number ∉ done) :
    run step bottomUp (fuel + 1) (⟨n, .adopt, c⟩ :: stack) done =
      match done[c.number]? with
      | some r => run step bottomUp fuel stack (done.insert n.number r)
      | none => throw (.bare .missingKey) := by
  cases hc : done[c.number]? <;>
    simp only [run, Std.HashMap.contains_iff_mem, if_neg h, hc]

/-- A move takes one step of the run. -/
theorem Move.run_eq (h : Move step bottomUp env m m') (fuel : Nat) :
    run step bottomUp (fuel + 1) m.stack m.done env m.store =
      run step bottomUp fuel m'.stack m'.done env m'.store := by
  cases h with
  | skip hdone => rw [run_skip hdone]
  | expand hnew hrun => rw [run_visit hnew, bind_run hrun]
  | finish hnew hsrc hrun => rw [run_rebuild hnew, if_pos hsrc, bind_run hrun]
  | answer hnew hsrc hrun => rw [run_rebuild hnew, if_pos hsrc, bind_run hrun]
  | renew hnew hsrc hrun => rw [run_rebuild hnew, if_neg hsrc, bind_run hrun]
  | adopt hnew hres => rw [run_adopt hnew, hres]

/-- A run that succeeds with work to do begins with a move. -/
theorem exists_move
    (h : run step bottomUp (fuel + 1) (t :: stack) done env s = .ok result s') :
    ∃ m, Move step bottomUp env ⟨t :: stack, done, s⟩ m ∧
      run step bottomUp fuel m.stack m.done env m.store = .ok result s' := by
  obtain ⟨n, stage, c⟩ := t
  by_cases hnew : n.number ∈ done
  · rw [run_skip hnew] at h
    exact ⟨_, .skip hnew, h⟩
  cases stage with
  | visit =>
    rw [run_visit hnew] at h
    obtain ⟨e, t, hrun, h⟩ := bind_eq_ok_iff.mp h
    exact ⟨_, .expand hnew hrun, h⟩
  | rebuild =>
    rw [run_rebuild hnew] at h
    split at h
    · obtain ⟨a, t, hrun, h⟩ := bind_eq_ok_iff.mp h
      cases a with
      | none => exact ⟨_, .finish hnew ‹_› hrun, h⟩
      | some e' => exact ⟨_, .answer hnew ‹_› hrun, h⟩
    · obtain ⟨e', t, hrun, h⟩ := bind_eq_ok_iff.mp h
      exact ⟨_, .renew hnew ‹_› hrun, h⟩
  | adopt =>
    rw [run_adopt hnew] at h
    cases hres : done[c.number]? with
    | none =>
      rw [hres] at h
      cases h
    | some r =>
      rw [hres] at h
      exact ⟨_, .adopt hnew hres, h⟩

theorem Moves.run_eq (h : Moves step bottomUp env k m m') (fuel : Nat) :
    run step bottomUp (fuel + k) m.stack m.done env m.store =
      run step bottomUp fuel m'.stack m'.done env m'.store := by
  induction h with
  | refl => rfl
  | head hmove _ ih => exact (hmove.run_eq _).trans ih

/-- **A run is a sequence of moves** that ends with nothing left to do, and is shorter than the
fuel. -/
theorem run_eq_ok_iff : run step bottomUp fuel stack done env s = .ok result s' ↔
    ∃ k < fuel, Moves step bottomUp env k ⟨stack, done, s⟩ ⟨[], result, s'⟩ := by
  constructor
  · intro h
    induction fuel generalizing stack done s with
    | zero => cases h
    | succ fuel ih =>
      cases stack with
      | nil =>
        cases h
        exact ⟨0, Nat.succ_pos fuel, .refl _⟩
      | cons t stack =>
        obtain ⟨m, hmove, h⟩ := exists_move h
        obtain ⟨k, hk, hmoves⟩ := ih h
        exact ⟨k + 1, Nat.succ_lt_succ hk, .head hmove hmoves⟩
  · rintro ⟨k, hk, h⟩
    obtain ⟨rest, rfl⟩ := Nat.exists_eq_add_of_lt hk
    rw [show k + rest + 1 = rest + 1 + k by omega]
    exact h.run_eq (rest + 1)

theorem start_eq_ok_iff {e r : Expr} : start step bottomUp e done env s = .ok (r, result) s' ↔
    (∃ k < plenty, Moves step bottomUp env k ⟨[⟨e, .visit, e⟩], done, s⟩ ⟨[], result, s'⟩) ∧
      result[e.number]? = some r := by
  simp only [start, bind_eq_ok_iff, ← run_eq_ok_iff]
  constructor
  · rintro ⟨done', t, hrun, h⟩
    cases hr : done'[e.number]? with
    | none =>
      rw [hr] at h
      cases h
    | some r' =>
      rw [hr] at h
      cases h
      exact ⟨hrun, hr⟩
  · rintro ⟨hrun, hr⟩
    refine ⟨result, s', hrun, ?_⟩
    rw [hr]
    rfl

theorem Moves.trans (h : Moves step bottomUp env k m m₁) (h' : Moves step bottomUp env l m₁ m') :
    Moves step bottomUp env (k + l) m m' := by
  induction h with
  | refl => rwa [Nat.zero_add]
  | head hmove _ ih => exact Nat.succ_add _ l ▸ .head hmove (ih h')

end Run

end Rewriting

/-! ## Rules that answer from the store -/

/-- A property of stores that the machine does not break by itself: it implies soundness, and making
a node or noting where a node comes from keeps it. -/
structure Store.Invariant (P : Store → Prop) : Prop where
  sound : ∀ {s}, P s → s.Sound
  adding : ∀ {s c}, P s → s.nodes[c]? = none → (∀ x ∈ c.below, s.Holds x) → P (s.adding c)
  noting : ∀ {s m}, P s → P { s with metadata := m }

theorem Store.Invariant.soundness : Store.Invariant Store.Sound :=
  ⟨id, Store.Sound.adding, fun hs => hs.of_nodes rfl rfl⟩

theorem Store.Invariant.nodeOf {P : Store → Prop} (hP : Store.Invariant P) {p : Prop} {env : Env}
    {s : Store} {c : Expr.Content} (hs : P s) (hb : ∀ x ∈ c.below, s.Holds x) :
    Ensures p env s (nodeOf c) fun e t =>
      P t ∧ s.Extends t ∧ t.Holds e ∧ (c == e.content) = true := by
  rcases nodeOf_cases env s c with ⟨e, he, hrun⟩ | ⟨hnone, hrun⟩
  · rw [Ensures, hrun]
    exact ⟨hs, .refl s, (hP.sound hs).holds he, (hP.sound hs).content he⟩
  · rw [Ensures, hrun]
    exact ⟨hP.adding hs hnone hb, Store.extends_adding hnone, Store.holds_new, BEq.rfl⟩

/-- A meaning of nodes that comes from the operation, the type, the argument and the tag of a node
and from the meanings of its sources.  Arguments and tags count up to the equality under which nodes
are shared, but a node without sources may mean anything. -/
def Expr.Compositional {δ : Type*} (den : Expr → δ) : Prop :=
  ∀ ⦃a b : Expr⦄, a.src ≠ [] → a.op = b.op → a.dtype = b.dtype → (a.arg == b.arg) = true →
    (a.tag == b.tag) = true → a.src.map den = b.src.map den → den a = den b

theorem Expr.compositional_unit : Expr.Compositional fun _ => () := fun _ _ _ _ _ _ _ _ => rfl

section Steps

variable {δ : Type*} (P : Store → Prop) (env : Env) (den : Expr → δ)

/-- A rule makes its answers in the store, which keeps its property and what it holds. -/
def Rule.Builds (r : Rule Expr) : Prop :=
  ∀ ⦃s e⦄, P s → s.Holds e → Ensures True env s (r.answer? e) fun a t =>
    P t ∧ s.Extends t ∧ ∀ v ∈ a, t.Holds v

/-- A rule keeps a meaning: whenever it maps a node to another, both mean the same. -/
def Rule.Keeps (r : Rule Expr) : Prop :=
  ∀ ⦃s e v t⦄, P s → s.Holds e → r.answer? e env s = .ok (some v) t → den v = den e

/-- The answer of a step at a node: a node of the later store with the same meaning, if any. -/
structure Store.Answers (s : Store) (e : Expr) (a : Option Expr) (t : Store) : Prop where
  property : P t
  later : s.Extends t
  held : ∀ v ∈ a, t.Holds v
  den_eq : ∀ v ∈ a, den v = den e

/-- A step of rewriting that answers from the store and keeps a meaning. -/
def Rewriting.Faithful (step : Expr → GraphM (Option Expr)) : Prop :=
  ∀ ⦃s e⦄, P s → s.Holds e → Ensures True env s (step e) (s.Answers P den e)

end Steps

theorem Rule.keeps_unit {P : Store → Prop} {env : Env} (r : Rule Expr) :
    r.Keeps P env fun _ => () := fun _ _ _ _ _ _ _ => rfl

namespace RuleSet

variable {δ : Type*} {P : Store → Prop} {env : Env} {den : Expr → δ}
  {rules : List (Rule Expr)} {accept : Expr → Bool} {s s' t : Store} {e : Expr}

/-- The rules for an operation are rules of the set that apply to it. -/
theorem mem_of_mem_forOp {α : Type} {rules : List (Rule α)} {o : Op} {p : Rule α × List Op}
    (hp : p ∈ ((ofList rules).forOp o).toList) : p.1 ∈ rules ∧ o ∈ p.1.pat.ops?.getD [] := by
  -- every row of the table holds such rules only, however far it is filled
  let Filled (t : Array (Array (Rule α × List Op))) : Prop := ∀ (o : Op) (row), t[o.rank]? = some row →
    ∀ p ∈ row, p.1 ∈ rules ∧ o ∈ p.1.pat.ops?.getD []
  have hrank : ∀ {o o' : Op}, o.rank = o'.rank → o = o' := fun {o o'} h => by
    rw [← Op.ofNat_ctorIdx o, Nat.succ_injective h, Op.ofNat_ctorIdx]
  have hmodify : ∀ r ∈ rules, ∀ o ∈ r.pat.ops?.getD [], ∀ t, Filled t →
      Filled (t.modify o.rank fun a => a.push (r, r.pat.early)) := by
    intro r hr o ho t ht o' row hrow q hq
    rw [Array.getElem?_modify] at hrow
    split at hrow
    case isTrue heq =>
      obtain ⟨old, hold, rfl⟩ := Option.map_eq_some_iff.mp hrow
      rcases Array.mem_push.mp hq with hq | rfl
      · exact ht o' old hold q hq
      · exact ⟨hr, hrank heq ▸ ho⟩
    case isFalse => exact ht o' row hrow q hq
  have hall : Filled (ofList rules).byOp := by
    refine foldlRecOn rules _ ?_ fun t ht r hr => ?_
    · intro o row hrow q hq
      rw [(Array.mem_replicate.mp (Array.mem_of_getElem? hrow)).2] at hq
      simp at hq
    · exact foldlRecOn _ _ ht fun t ht o ho => hmodify r hr o ho t ht
  rw [forOp, Array.getD_eq_getD_getElem?] at hp
  cases hrow : (ofList rules).byOp[o.rank]? with
  | none => simp [hrow] at hp
  | some row =>
    rw [hrow] at hp
    exact hall o row hrow p (by simpa using hp)

theorem firstOf_faithful {ps : List (Rule Expr × List Op)} (hbuild : ∀ p ∈ ps, p.1.Builds P env)
    (hkeep : ∀ p ∈ ps, p.1.Keeps P env den) (hs : P s) (he : s.Holds e) :
    Ensures True env s (firstOf? accept e ps) (s.Answers P den e) := by
  induction ps generalizing s with
  | nil => exact ⟨hs, .refl s, by simp, by simp⟩
  | cons p ps ih =>
    obtain ⟨r, early⟩ := p
    have hrest {s : Store} :=
      @ih s (fun q hq => hbuild q (.tail _ hq)) fun q hq => hkeep q (.tail _ hq)
    refine .ite (fun _ => .bind ?_) fun _ => hrest hs he
    have hanswer : Ensures True env s (r.answer? e) (s.Answers P den e) := by
      refine .of_forall fun a t hrun => ?_
      obtain ⟨ht, hst, hv⟩ := (hbuild _ (.head _) hs he).of_ok hrun
      refine ⟨ht, hst, hv, ?_⟩
      rintro v rfl
      exact hkeep _ (.head _) hs he hrun
    refine hanswer.mono fun a t ha => ?_
    have hlater := (hrest ha.property (ha.later he)).mono fun b u hb =>
      (⟨hb.property, ha.later.trans hb.later, hb.held, hb.den_eq⟩ : s.Answers P den e b u)
    cases a with
    | none => exact hlater
    | some v => exact .ite (fun _ => .pure ha) fun _ => hlater

theorem step_faithful (hbuild : ∀ r ∈ rules, r.Builds P env)
    (hkeep : ∀ r ∈ rules, r.Keeps P env den) :
    Rewriting.Faithful P env den (ofList rules).step? := fun _ _ =>
  firstOf_faithful (fun _ hp => hbuild _ (mem_of_mem_forOp hp).1)
    fun _ hp => hkeep _ (mem_of_mem_forOp hp).1

end RuleSet

/-! ## Meanings -/

namespace Rewriting

variable {δ : Type*} {P : Store → Prop} {env : Env} {den : Expr → δ}
  {step : Expr → GraphM (Option Expr)} {bottomUp : Bool} {s t : Store} {e r : Expr}
  {done : Std.HashMap Nat Expr} {m m' : Moment}

/-- Two nodes of a store mean the same. -/
structure Agree (den : Expr → δ) (s : Store) (e r : Expr) : Prop where
  left : s.Holds e
  right : s.Holds r
  den_eq : den r = den e

theorem Agree.refl (he : s.Holds e) : Agree den s e e := ⟨he, he, rfl⟩

theorem Agree.trans {r' : Expr} (h : Agree den s e r) (h' : Agree den s r r') : Agree den s e r' :=
  ⟨h.left, h'.right, h'.den_eq.trans h.den_eq⟩

theorem Agree.mono (h : Agree den s e r) (hst : s.Extends t) : Agree den t e r :=
  ⟨hst h.left, hst h.right, h.den_eq⟩

/-- Every result means what its node does. -/
def Results (den : Expr → δ) (s : Store) (done : Std.HashMap Nat Expr) : Prop :=
  ∀ ⦃n r⦄, done[n]? = some r → ∃ e, e.number = n ∧ Agree den s e r

theorem Results.empty : Results den s {} := fun n r h => by simp at h

theorem Results.mono (h : Results den s done) (hst : s.Extends t) : Results den t done := by
  intro n r hr
  obtain ⟨e, hn, he⟩ := h hr
  exact ⟨e, hn, he.mono hst⟩

theorem Results.insert (h : Results den s done) (her : Agree den s e r) :
    Results den s (done.insert e.number r) := by
  intro n r' hr
  rw [Std.HashMap.getElem?_insert] at hr
  split at hr
  · cases hr
    exact ⟨e, beq_iff_eq.mp ‹_›, her⟩
  · exact h hr

theorem Results.agree (h : Results den s done) (hs : s.Sound) (he : s.Holds e)
    (hr : done[e.number]? = some r) : Agree den s e r := by
  obtain ⟨e', hn, her⟩ := h hr
  rwa [← hs.eq_of_number her.left he hn]

theorem Results.agree_getD (h : Results den s done) (hs : s.Sound) (he : s.Holds e) :
    Agree den s e ((done[e.number]?).getD e) := by
  cases hr : done[e.number]? with
  | none => exact .refl he
  | some r => exact h.agree hs he hr

/-- At a moment of the machine everything means what it should. -/
structure Moment.Keeps (P : Store → Prop) (den : Expr → δ) (m : Moment) : Prop where
  property : P m.store
  tasks : ∀ t ∈ m.stack, Agree den m.store t.node t.current
  results : Results den m.store m.done

section Meaning

variable (hstep : Faithful P env den step)
include hstep

theorem fixpoint_agree {fuel : Nat} (hs : P s) (he : s.Holds e) :
    Ensures True env s (fixpoint step fuel e) fun r t => P t ∧ s.Extends t ∧ Agree den t e r := by
  induction fuel generalizing s e with
  | zero => trivial
  | succ fuel ih =>
    refine .bind ((hstep hs he).mono fun a t ha => ?_)
    cases a with
    | none => exact .pure ⟨ha.property, ha.later, .refl (ha.later he)⟩
    | some v =>
      refine (ih ha.property (ha.held v rfl)).mono fun r u hu => ?_
      have hev : Agree den t e v := ⟨ha.later he, ha.held v rfl, ha.den_eq v rfl⟩
      exact ⟨hu.1, ha.later.trans hu.2.1, (hev.mono hu.2.1).trans hu.2.2⟩

theorem prepare_agree (hs : P s) (he : s.Holds e) :
    Ensures True env s (prepare step bottomUp e) fun r t =>
      P t ∧ s.Extends t ∧ Agree den t e r := by
  cases bottomUp with
  | false => exact .pure ⟨hs, .refl s, .refl he⟩
  | true => exact fixpoint_agree hstep hs he

theorem ask_faithful : Faithful P env den (ask step bottomUp) := by
  cases bottomUp with
  | false => exact hstep
  | true => exact fun s e hs he => ⟨hs, .refl s, by simp, by simp⟩

end Meaning

/-- A node with renewed sources means what it did. -/
theorem renew_agree (hP : Store.Invariant P) (hden : Expr.Compositional den) (hs : P s)
    (he : s.Holds e) (hr : Results den s done) (hne : e.src ≠ []) :
    Ensures True env s (node e.op e.dtype (renewed done e) e.arg e.tag) fun r t =>
      P t ∧ s.Extends t ∧ Agree den t e r := by
  have hsrc : ∀ x ∈ e.src, Agree den s x ((done[x.number]?).getD x) := fun x hx =>
    hr.agree_getD (hP.sound hs) ((hP.sound hs).src he hx)
  have hbelow : ∀ x ∈ (Expr.Content.mk e.op e.dtype (renewed done e) e.arg e.tag).below,
      s.Holds x := by
    intro x hx
    rcases mem_append.mp hx with hx | hx
    · obtain ⟨y, hy, rfl⟩ := mem_map.mp hx
      exact (hsrc y hy).right
    · exact (hP.sound hs).below he x (mem_append_right _ hx)
  refine (hP.nodeOf hs hbelow).mono fun r t ⟨ht, hst, hrt, hc⟩ => ⟨ht, hst, hst he, hrt, ?_⟩
  obtain ⟨hop, hsrcs, hd, harg, htag⟩ := Expr.Content.beq_iff.mp hc
  have hmap : renewed done e = r.src := (hP.sound ht).eq_of_beq hsrcs
    (fun x hx => hst (hbelow x (mem_append_left _ hx))) fun x hx => (hP.sound ht).src hrt hx
  -- the node found may have an argument or tag of another form, but an equal one
  refine (hden hne hop hd harg htag ?_).symm
  rw [← hmap, renewed, map_map]
  exact map_congr_left fun x hx => (hsrc x hx).den_eq.symm

theorem Moment.Keeps.begin (hs : P s) (he : s.Holds e) (hdone : Results den s done) :
    Moment.Keeps P den ⟨[⟨e, .visit, e⟩], done, s⟩ :=
  ⟨hs, by simpa using Agree.refl he, hdone⟩

theorem Moment.Keeps.settle {n c : Expr} {stage : Stage} {stack : List Task}
    (hm : Moment.Keeps P den ⟨⟨n, stage, c⟩ :: stack, done, s⟩) (ht : P t) (hst : s.Extends t)
    (hr : Agree den t n r) : Moment.Keeps P den ⟨stack, done.insert n.number r, t⟩ :=
  ⟨ht, fun t ht => (hm.tasks t (.tail _ ht)).mono hst, (hm.results.mono hst).insert hr⟩

theorem Moment.Keeps.become {n c : Expr} {stage : Stage} {stack : List Task}
    (hm : Moment.Keeps P den ⟨⟨n, stage, c⟩ :: stack, done, s⟩) (ht : P t) (hst : s.Extends t)
    (hr : Agree den t c r) :
    Moment.Keeps P den ⟨⟨r, .visit, r⟩ :: ⟨n, .adopt, r⟩ :: stack, done, t⟩ := by
  refine ⟨ht, ?_, hm.results.mono hst⟩
  simp only [forall_mem_cons]
  exact ⟨.refl hr.right, ((hm.tasks _ (.head _)).mono hst).trans hr,
    fun t ht => (hm.tasks t (.tail _ ht)).mono hst⟩

section Meaning

variable (hP : Store.Invariant P) (hden : Expr.Compositional den) (hstep : Faithful P env den step)
include hP hden hstep

/-- **A move keeps meanings.** -/
theorem Move.keeps (hmove : Move step bottomUp env m m') (hm : m.Keeps P den) :
    m'.Keeps P den ∧ m.store.Extends m'.store := by
  cases hmove with
  | skip hdone => exact ⟨⟨hm.property, fun t ht => hm.tasks t (.tail _ ht), hm.results⟩, .refl _⟩
  | @expand n c e stack done s s' hnew hrun =>
    have htask : Agree den s n c := hm.tasks _ (.head _)
    obtain ⟨hs', hss', hce⟩ := (prepare_agree hstep hm.property htask.right).of_ok hrun
    refine ⟨⟨hs', fun t ht => ?_, hm.results.mono hss'⟩, hss'⟩
    rcases mem_expanded ht with ⟨x, hx, rfl⟩ | rfl | ht
    · exact .refl ((hP.sound hs').src hce.right hx)
    · exact (htask.mono hss').trans hce
    · exact (hm.tasks t (.tail _ ht)).mono hss'
  | @finish n e stack done s s' hnew hsrc hrun =>
    have htask : Agree den s n e := hm.tasks _ (.head _)
    have ha := (ask_faithful hstep hm.property htask.right).of_ok hrun
    exact ⟨hm.settle ha.property ha.later (htask.mono ha.later), ha.later⟩
  | @answer n e e' stack done s s' hnew hsrc hrun =>
    have htask : Agree den s n e := hm.tasks _ (.head _)
    have ha := (ask_faithful hstep hm.property htask.right).of_ok hrun
    exact ⟨hm.become ha.property ha.later ⟨ha.later htask.right, ha.held e' rfl, ha.den_eq e' rfl⟩,
      ha.later⟩
  | @renew n e e' stack done s s' hnew hsrc hrun =>
    have htask : Agree den s n e := hm.tasks _ (.head _)
    have hne : e.src ≠ [] := by
      intro hnil
      simp [renewed, hnil] at hsrc
    obtain ⟨hs', hss', hee'⟩ :=
      (renew_agree hP hden hm.property htask.right hm.results hne).of_ok hrun
    exact ⟨hm.become hs' hss' hee', hss'⟩
  | @adopt n c r stack done s hnew hres =>
    have htask : Agree den s n c := hm.tasks _ (.head _)
    have hcr := hm.results.agree (hP.sound hm.property) htask.right hres
    exact ⟨hm.settle hm.property (.refl s) (htask.trans hcr), .refl s⟩

theorem Moves.keeps {k : Nat} (hmoves : Moves step bottomUp env k m m') (hm : m.Keeps P den) :
    m'.Keeps P den ∧ m.store.Extends m'.store := by
  induction hmoves with
  | refl => exact ⟨hm, .refl _⟩
  | head hmove _ ih =>
    obtain ⟨hm', hext⟩ := hmove.keeps hP hden hstep hm
    obtain ⟨hm'', hext'⟩ := ih hm'
    exact ⟨hm'', hext.trans hext'⟩

/-- The result of a graph means what the graph does, as do all the results at hand. -/
theorem start_agree (hs : P s) (he : s.Holds e) (hdone : Results den s done) :
    Ensures True env s (start step bottomUp e done) fun p t =>
      P t ∧ s.Extends t ∧ Agree den t e p.1 ∧ Results den t p.2 := by
  refine .bind (.of_forall fun done' t hrun => ?_)
  obtain ⟨k, -, hmoves⟩ := run_eq_ok_iff.mp hrun
  obtain ⟨hend, hst⟩ := hmoves.keeps hP hden hstep (.begin hs he hdone)
  cases hr : done'[e.number]? with
  | none => trivial
  | some r =>
    have her := hend.results.agree (hP.sound hend.property) (hst he) hr
    exact ⟨hend.property, hst, her, hend.results⟩

end Meaning

/-- What a computation does in a context. -/
theorem within_run {α : Type} {c : Context} {x : GraphM α} :
    within c x env s = match x env { s with context := c } with
      | .ok a t => .ok (a, t.context) { t with context := s.context }
      | .error f t => .error f { t with context := s.context } := by
  change within c (fun _ _ => x env { s with context := c }) env s = _
  cases x env { s with context := c } <;> rfl

theorem within_ensures {α : Type} {p : Prop} {c : Context} {x : GraphM α}
    {Q : α × Context → Store → Prop} (h : Ensures p env { s with context := c } x fun a t =>
      Q (a, t.context) { t with context := s.context }) : Ensures p env s (within c x) Q := by
  unfold Ensures at h ⊢
  rw [within_run]
  cases hx : x env { s with context := c } with
  | ok a t =>
    rw [hx] at h
    exact h
  | error f t =>
    rw [hx] at h
    exact h

end Rewriting

namespace RuleSet

open Rewriting

variable {δ : Type*} {P : Store → Prop} {env : Env} {den : Expr → δ} {rs : RuleSet Expr}
  {rules : List (Rule Expr)} {s t : Store} {e r : Expr} {c : Context} {bottomUp : Bool}

/-- Rewriting a graph is a run of the machine in the context given. -/
theorem apply_ensures_start : Ensures True env s (rs.apply e c bottomUp) fun r t => ∃ done t',
    start rs.step? bottomUp e {} env { s with context := c } = .ok (r, done) t' ∧
      t = { t' with context := s.context } :=
  Ensures.bind <| within_ensures <| .bind <|
    Ensures.of_forall fun p t hrun => ⟨p.2, t, hrun, rfl⟩

theorem apply_of_start {done : Std.HashMap Nat Expr}
    (h : start rs.step? bottomUp e {} env { s with context := c } = .ok (r, done) t) :
    rs.apply e c bottomUp env s = .ok r { t with context := s.context } := by
  have hin : rs.applyIn e c bottomUp env s =
      .ok (r, t.context) { t with context := s.context } := by
    rw [applyIn, within_run, bind_run h]
    rfl
  exact bind_run hin _

section Meaning

variable (hP : Store.Invariant P) (hden : Expr.Compositional den)
  (hstep : Faithful P env den rs.step?) (hs : P { s with context := c }) (he : s.Holds e)
include hP hden hstep hs he

theorem apply_agree :
    Ensures True env s (rs.apply e c bottomUp) fun r t => s.Extends t ∧ Agree den t e r := by
  refine .bind (within_ensures (.bind ?_))
  refine (start_agree hP hden hstep hs he .empty).mono fun p t ⟨_, hst, her, _⟩ => ?_
  exact ⟨hst, her.left, her.right, her.den_eq⟩

/-- The table of a graph has a result for each node of the walk over it, in order, and every result
means what its node does. -/
theorem applyMap_agree :
    Ensures True env s (rs.applyMap e c bottomUp) fun table _ =>
      table.toList.map Prod.fst = e.toposort.toList ∧ ∀ p ∈ table.toList, den p.2 = den p.1 := by
  refine .bind (within_ensures ?_)
  rw [← Array.foldlM_toList]
  have hsound := hP.sound hs
  have hheld : ∀ x ∈ e.toposort.toList, Store.Holds { s with context := c } x := fun x hx =>
    hsound.holds_of_reaches he ((Expr.mem_toposort_iff (hsound.distinct he)).mp (by simpa using hx))
  -- nodes already seen have their results in the table, those to come are in the store
  refine .foldlM (fun rest acc t => acc.1.toList.map Prod.fst ++ rest = e.toposort.toList ∧
    (∀ p ∈ acc.1.toList, den p.2 = den p.1) ∧ P t ∧ Results den t acc.2 ∧ ∀ x ∈ rest, t.Holds x)
    ⟨rfl, by simp, hs, .empty, hheld⟩ ?_ ?_
  · rintro k rest acc u ⟨hkeys, hvals, hu, hres, hk⟩
    refine Ensures.bind ((start_agree hP hden hstep hu (hk k (.head _)) hres).mono ?_)
    rintro ⟨v, done⟩ u' ⟨hu', huu', hv, hres'⟩
    have hpushed : (acc.1.push (k, v)).toList.map Prod.fst ++ rest = e.toposort.toList ∧
        ∀ p ∈ (acc.1.push (k, v)).toList, den p.2 = den p.1 := by
      refine ⟨by simpa using hkeys, fun p hp => ?_⟩
      rcases mem_append.mp (Array.toList_push ▸ hp) with hp | hp
      · exact hvals p hp
      · rw [mem_singleton.mp hp]
        exact hv.den_eq
    have hrest : ∀ x ∈ rest, u'.Holds x := fun x hx => huu' (hk x (.tail _ hx))
    refine Ensures.ite (fun _ => Ensures.bind (Ensures.modify_iff.mpr ?_)) fun _ => ?_
    · cases hmeta : u'.metadata[k.number]? with
      | none => exact ⟨hpushed.1, hpushed.2, hu', hres', hrest⟩
      | some origin =>
        exact ⟨hpushed.1, hpushed.2, hP.noting hu', hres'.mono (.of_nodes rfl), hrest⟩
    · exact ⟨hpushed.1, hpushed.2, hu', hres', hrest⟩
  · rintro acc u ⟨hkeys, hvals, -⟩
    exact ⟨by simpa using hkeys, hvals⟩

end Meaning

/-- **Rewriting keeps every meaning that its rules keep.** -/
theorem rewriting_keeps_meaning (hden : Expr.Compositional den) (hP : Store.Invariant P)
    (hbuild : ∀ r ∈ rules, r.Builds P env) (hkeep : ∀ r ∈ rules, r.Keeps P env den)
    (hs : P { s with context := c }) (he : s.Holds e) :
    (∀ r t, (ofList rules).apply e c bottomUp env s = .ok r t → den r = den e) ∧
      ∀ table t, (ofList rules).applyMap e c bottomUp env s = .ok table t →
        ∀ k, e.Reaches k → ∃ v, (∀ v', (k, v') ∈ table ↔ v' = v) ∧ den v = den k := by
  have hstep := step_faithful hbuild hkeep
  constructor
  · intro r t h
    exact ((apply_agree hP hden hstep hs he).of_ok h).2.den_eq
  · intro table t h k hk
    obtain ⟨hkeys, hvals⟩ := (applyMap_agree hP hden hstep hs he).of_ok h
    have hdistinct := (hP.sound hs).distinct he
    have hnodup : (table.toList.map Prod.fst).Nodup :=
      hkeys ▸ (Expr.nodup_toposort hdistinct).of_map
    obtain ⟨⟨k', v⟩, hmem, rfl⟩ := List.mem_map.mp
      (hkeys ▸ Array.mem_toList_iff.mpr ((Expr.mem_toposort_iff hdistinct).mpr hk))
    refine ⟨v, fun v' => ⟨fun h' => ?_, ?_⟩, hvals _ hmem⟩
    · exact congrArg Prod.snd
        (List.inj_on_of_nodup_map hnodup (Array.mem_toList_iff.mpr h') hmem rfl)
    · rintro rfl
      exact Array.mem_toList_iff.mp hmem

end RuleSet

/-! ## Removing tags -/

namespace Tagged

open Rewriting

/-- What is left of a graph without numbers and tags. -/
inductive Form where
  | node (op : Op) (dtype : DType) (arg : Set Arg) (src : List Form)

/-- The form of a node, in which an argument stands for all that are equal to it. -/
def form : Expr → Form
  | .mk _ op d src arg _ => .node op d {b | (arg == b) = true} (src.map form)

theorem form_congr {a b : Expr} (hop : a.op = b.op) (hd : a.dtype = b.dtype)
    (harg : (a.arg == b.arg) = true) (hsrc : a.src.map form = b.src.map form) :
    form a = form b := by
  have hclass : {x | (a.arg == x) = true} = {x | (b.arg == x) = true} := by
    ext x
    exact ⟨BEq.trans (BEq.symm harg), BEq.trans harg⟩
  cases a
  cases b
  simp_all [form, Expr.op, Expr.dtype, Expr.arg, Expr.src]

theorem form_compositional : Expr.Compositional form := fun _ _ _ hop hd harg _ hsrc =>
  form_congr hop hd harg hsrc

variable {r : Rule Expr} {env : Env} {s t : Store} {e : Expr}

theorem matchesAt_all : (Pat.of Op.all).matchesAt e = [[]] := by
  have hop : e.op ∈ Op.all := by cases e.op <;> decide
  simp [Pat.matchesAt, Pat.of, Pat.extend, Pat.Self.check, Pat.Self.admits, Pat.Self.bind?, hop]

/-- A node without a tag has no answer. -/
theorem untagging_declines (hr : r ∈ Kernels.untagging.rules) (h : e.tag.isNone = true) :
    r.answer? e env s = .ok none s := by
  obtain rfl := mem_singleton.mp hr
  simp only [Rule.answer?, on, matchesAt_all, Rule.answer?.go, givingIf, h]
  rfl

/-- A node with a tag has itself without the tag for an answer. -/
theorem untagging_answers (hr : r ∈ Kernels.untagging.rules) (h : e.tag.isNone = false) {v : Expr}
    (hrun : e.withTag .none env s = .ok v t) : r.answer? e env s = .ok (some v) t := by
  obtain rfl := mem_singleton.mp hr
  have hgive : giving (e.withTag .none) env s = .ok (some v) t := bind_run hrun _
  simp only [Rule.answer?, on, matchesAt_all, Rule.answer?.go, givingIf, h]
  exact bind_run hgive _

/-- The node without its tag is made in the store, and has the same form. -/
theorem exists_withTag (env : Env) (hs : s.Sound) (he : s.Holds e) :
    ∃ v t, e.withTag .none env s = .ok v t ∧ t.Sound ∧ s.Extends t ∧ t.Holds v ∧
      form v = form e := by
  have hnode : Ensures False env s (e.withTag .none) _ :=
    nodeOf_spec hs fun x hx => hs.below he x hx
  obtain ⟨v, t, hrun, ht, hst, hv, hc⟩ := hnode.exists_ok
  obtain ⟨hop, hsrc, hd, harg, -⟩ := Expr.Content.beq_iff.mp hc
  have hsrc : e.src = v.src := ht.eq_of_beq hsrc (fun x hx => hst (hs.src he hx))
    fun x hx => ht.src hv hx
  exact ⟨v, t, hrun, ht, hst, hv, (form_congr hop hd harg (congrArg _ hsrc)).symm⟩

theorem untagging_builds (hr : r ∈ Kernels.untagging.rules) : r.Builds Store.Sound env := by
  intro s e hs he
  cases htag : e.tag.isNone with
  | true =>
    rw [Ensures, untagging_declines hr htag]
    exact ⟨hs, .refl s, by simp⟩
  | false =>
    obtain ⟨v, t, hrun, ht, hst, hv, -⟩ := exists_withTag env hs he
    rw [Ensures, untagging_answers hr htag hrun]
    exact ⟨ht, hst, by simpa using hv⟩

theorem untagging_keeps (hr : r ∈ Kernels.untagging.rules) : r.Keeps Store.Sound env form := by
  intro s e v t hs he h
  cases htag : e.tag.isNone with
  | true =>
    rw [untagging_declines hr htag] at h
    cases h
  | false =>
    obtain ⟨w, u, hrun, -, -, -, hform⟩ := exists_withTag env hs he
    rw [untagging_answers hr htag hrun] at h
    cases h
    exact hform

/-- At a node without a tag no rule of the set has an answer. -/
theorem step_untagged (h : e.tag.isNone = true) :
    Kernels.untagging.step? e env s = .ok none s := by
  have hnone : ∀ ps : List (Rule Expr × List Op), (∀ p ∈ ps, p.1 ∈ Kernels.untagging.rules) →
      RuleSet.firstOf? (fun a => !(a == e)) e ps env s = .ok none s := by
    intro ps hps
    induction ps with
    | nil => rfl
    | cons p ps ih =>
      have hrest := ih fun q hq => hps q (.tail _ hq)
      rw [RuleSet.firstOf?]
      split
      · exact (bind_run (untagging_declines (hps p (.head _)) h) _).trans hrest
      · exact hrest
  exact hnone _ fun _ hp => (RuleSet.mem_of_mem_forOp hp).1

def three : Expr := .mk 1 .const .int [] (.int 3) .none

def sum : Expr := .mk 2 .add .int [three, three] .none (.int 1)

def plain : Expr := .mk 3 .add .int [three, three] .none .none

def store : Store := ((default : Store).adding three.content).adding sum.content

theorem store_consists : store.Consists [sum, three] :=
  (Store.Consists.empty.adding three rfl (by rintro _ ⟨⟩) (by decide)).adding sum rfl
    (show ∀ x ∈ [three, three], _ by simp) (by decide)

theorem store_holds : store.Holds sum := store_consists.holds_iff.mpr (.head _)

theorem store_plain : store.nodes[plain.content]? = none := store_consists.eq_none (by decide)

theorem withTag_sum : sum.withTag .none env store = .ok plain (store.adding plain.content) := by
  rcases nodeOf_cases env store plain.content with ⟨e, he, -⟩ | ⟨-, hrun⟩
  · rw [store_plain] at he
    cases he
  · exact hrun

theorem step_sum : Kernels.untagging.step? sum env store =
    .ok (some plain) (store.adding plain.content) := by
  have hrules : (Kernels.untagging.forOp sum.op).toList =
      Kernels.untagging.rules.map fun r => (r, []) := by
    set_option maxRecDepth 20000 in rfl
  rw [RuleSet.step?, hrules]
  exact bind_run (untagging_answers (.head _) rfl withTag_sum) _

/-- The machine visits the sum, finds its sources finished, takes the sum without the tag in its
place and visits that. -/
theorem moves_sum : Moves Kernels.untagging.step? false env 10 ⟨[⟨sum, .visit, sum⟩], {}, store⟩
    ⟨[], ((({} : Std.HashMap Nat Expr).insert three.number three).insert plain.number plain).insert
      sum.number plain, store.adding plain.content⟩ := by
  have h3 : three.number = 1 := rfl
  have hs : sum.number = 2 := rfl
  have hp : plain.number = 3 := rfl
  have hsrc {done : Std.HashMap Nat Expr} {e : Expr} (he : e.src = [three, three])
      (h : done[three.number]? = some three) : (renewed done e == e.src) = true := by
    rw [renewed, he]
    simp [h]
  refine .head (.expand (e := sum) (by simp) rfl) ?_
  refine .head (.expand (e := three) (by simp) rfl) ?_
  refine .head (.finish (by simp) rfl (by rw [ask_topDown, step_untagged rfl])) ?_
  refine .head (.skip (by simp)) ?_
  refine .head (.answer (by simp [h3, hs]) (hsrc rfl (by simp)) (by rw [ask_topDown, step_sum])) ?_
  refine .head (.expand (e := plain) (by simp [h3, hp]) rfl) ?_
  refine .head (.skip (by simp)) ?_
  refine .head (.skip (by simp)) ?_
  refine .head (.finish (by simp [h3, hp]) (hsrc rfl (by simp))
    (by rw [ask_topDown, step_untagged rfl])) ?_
  refine .head (.adopt (r := plain) (by simp [h3, hs, hp]) (by simp)) ?_
  exact .refl _

theorem apply_sum : Kernels.untagging.apply sum .none false env store =
    .ok plain (store.adding plain.content) := by
  have hstart : start Kernels.untagging.step? false sum {} env
      { store with context := .none } = .ok (plain, _) (store.adding plain.content) :=
    start_eq_ok_iff.mpr ⟨⟨10, by decide, moves_sum⟩, Std.HashMap.getElem?_insert_self⟩
  exact RuleSet.apply_of_start hstart

/-- Removing the tag keeps the form of the sum. -/
theorem untagging_keeps_form :
    Kernels.untagging.apply sum .none false .idle store = .ok plain (store.adding plain.content) ∧
      form plain = form sum ∧
      ∀ table t, Kernels.untagging.applyMap sum .none false .idle store = .ok table t →
        ∀ k, sum.Reaches k → ∃ v, (∀ v', (k, v') ∈ table ↔ v' = v) ∧ form v = form k := by
  have hkeeps : (∀ r t, Kernels.untagging.apply sum .none false .idle store = .ok r t →
      form r = form sum) ∧ _ :=
    RuleSet.rewriting_keeps_meaning form_compositional Store.Invariant.soundness
      (fun _ hr => untagging_builds hr) (fun _ hr => untagging_keeps hr) store_consists.sound store_holds
  exact ⟨apply_sum, hkeeps.1 _ _ apply_sum, hkeeps.2⟩

end Tagged

end LazyTensor
