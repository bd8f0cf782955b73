import LazyTensor.Proofs.Graph.Rewriting

/-!
# Rewriting ends in a normal form

A graph is in normal form if no rule has an answer at any of its nodes.  If rules answer the same
whenever they are asked, the results that the machine collects are in normal form at each moment: a
node is finished where the rules decline, after its sources, and its sources are their own results.

Started on a graph in normal form, the machine enters each of its nodes once, as its own result.  The
run that gave the normal form made at least as many moves, so there is fuel for this one.

## Main results

* `Rewriting.Move.settles`, `Rewriting.Moves.settles`: moves keep results in normal form.
* `Rewriting.passes_of_normal`: the machine passes over a normal form.
* `RuleSet.rewriting_ends_normal`: the result of rewriting is in normal form and stays as it is.
-/

namespace LazyTensor

open GraphM List

/-! ## Rules that are functions of the node -/

section Steady

variable (P : Store → Prop) (env : Env)

/-- A step of rewriting is a function of the node: asked again at any later time, it answers the
same. -/
def Rewriting.Steady (step : Expr → GraphM (Option Expr)) : Prop :=
  ∀ ⦃s e a t⦄, P s → s.Holds e → step e env s = .ok a t →
    ∀ ⦃s'⦄, P s' → t.Extends s' → ∃ t', step e env s' = .ok a t'

/-- A rule is a function of the node. -/
def Rule.Deterministic (r : Rule Expr) : Prop := Rewriting.Steady P env r.answer?

end Steady

namespace RuleSet

variable {P : Store → Prop} {env : Env} {rules : List (Rule Expr)} {accept : Expr → Bool}
  {s s' t : Store} {e : Expr}

theorem firstOf_steady {ps : List (Rule Expr × List Op)} (hbuild : ∀ p ∈ ps, p.1.Builds P env)
    (hdet : ∀ p ∈ ps, p.1.Deterministic P env) (hs : P s) (he : s.Holds e) {a : Option Expr}
    (hrun : firstOf? accept e ps env s = .ok a t) (hs' : P s') (hts : t.Extends s') :
    ∃ t', firstOf? accept e ps env s' = .ok a t' := by
  induction ps generalizing s s' with
  | nil =>
    cases hrun
    exact ⟨s', rfl⟩
  | cons p ps ih =>
    obtain ⟨r, early⟩ := p
    have hbuilds := fun q hq => hbuild q (.tail _ hq)
    have hdets := fun q hq => hdet q (.tail _ hq)
    by_cases hfits : fits early e = true
    · simp only [firstOf?, if_pos hfits] at hrun ⊢
      obtain ⟨b, u, hb, hrun⟩ := bind_eq_ok_iff.mp hrun
      obtain ⟨hu, hsu, -⟩ := (hbuild _ (.head _) hs he).of_ok hb
      have again (hus : u.Extends s') :
          ∃ u', r.answer? e env s' = .ok b u' ∧ P u' ∧ s'.Extends u' := by
        obtain ⟨u', hb'⟩ := hdet _ (.head _) hs he hb hs' hus
        obtain ⟨hu', hsu', -⟩ := (hbuild _ (.head _) hs' (hus (hsu he))).of_ok hb'
        exact ⟨u', hb', hu', hsu'⟩
      -- the other rules are asked from the store that the first one left, then as before
      have others (h : firstOf? accept e ps env u = .ok a t) : ∃ u' t',
          r.answer? e env s' = .ok b u' ∧ firstOf? accept e ps env u' = .ok a t' := by
        have hut := (firstOf_faithful hbuilds (fun p _ => p.1.keeps_unit) hu (hsu he)).of_ok h
        obtain ⟨u', hb', hu', hsu'⟩ := again (hut.later.trans hts)
        obtain ⟨t', h'⟩ := ih hbuilds hdets hu (hsu he) h hu' (hts.trans hsu')
        exact ⟨u', t', hb', h'⟩
      cases b with
      | none =>
        obtain ⟨u', t', hb', h'⟩ := others hrun
        exact ⟨t', (bind_run hb' _).trans h'⟩
      | some v =>
        by_cases hv : accept v = true
        · simp only [if_pos hv] at hrun
          cases hrun
          obtain ⟨u', hb', -⟩ := again hts
          rw [bind_run hb']
          exact ⟨u', by simp only [if_pos hv]; rfl⟩
        · simp only [if_neg hv] at hrun
          obtain ⟨u', t', hb', h'⟩ := others hrun
          rw [bind_run hb']
          exact ⟨t', by simpa only [if_neg hv] using h'⟩
    · simp only [firstOf?, if_neg hfits] at hrun ⊢
      exact ih hbuilds hdets hs he hrun hs' hts

theorem step_steady (hbuild : ∀ r ∈ rules, r.Builds P env)
    (hdet : ∀ r ∈ rules, r.Deterministic P env) :
    Rewriting.Steady P env (ofList rules).step? := fun _ _ _ _ hs he hrun _ =>
  firstOf_steady (fun _ hp => hbuild _ (mem_of_mem_forOp hp).1)
    (fun _ hp => hdet _ (mem_of_mem_forOp hp).1) hs he hrun

end RuleSet

/-! ## Normal forms -/

namespace Rewriting

/-- From a store on, a step gives nothing at a node. -/
def Declines (P : Store → Prop) (env : Env) (step : Expr → GraphM (Option Expr)) (s : Store)
    (e : Expr) : Prop :=
  ∀ ⦃t⦄, P t → s.Extends t → ∃ t', step e env t = .ok none t'

/-- Where a node is to be rebuilt, its sources are finished or come before it. -/
def Ordered (done : Std.HashMap Nat Expr) : List Nat → List Task → Prop
  | _, [] => True
  | before, t :: stack =>
    (t.stage = .rebuild → ∀ x ∈ t.current.src, x.number ∈ done ∨ x.number ∈ before) ∧
      Ordered done (t.node.number :: before) stack

section NormalForm

variable {P : Store → Prop} {env : Env} {step : Expr → GraphM (Option Expr)} {bottomUp : Bool}
  {s s' t : Store} {e r : Expr} {done done' : Std.HashMap Nat Expr} {m m' : Moment}
  {stack : List Task} {before before' : List Nat}

theorem Declines.mono (h : Declines P env step s e) (hst : s.Extends t) :
    Declines P env step t e := fun _ hu htu => h hu (hst.trans htu)

theorem Steady.declines (hsteady : Steady P env step) (hs : P s) (he : s.Holds e)
    (hrun : step e env s = .ok none t) : Declines P env step t e := fun _ hu htu =>
  hsteady hs he hrun hu htu

theorem fixpoint_declines (hstep : Faithful P env (fun _ => ()) step) (hsteady : Steady P env step)
    {fuel : Nat} (hs : P s) (he : s.Holds e) :
    Ensures True env s (fixpoint step fuel e) fun r t => Declines P env step t r := by
  induction fuel generalizing s e with
  | zero => trivial
  | succ fuel ih =>
    refine .bind (.of_forall fun a t hrun => ?_)
    have ha := (hstep hs he).of_ok hrun
    cases a with
    | none => exact .pure (hsteady.declines hs he hrun)
    | some v => exact ih ha.property (ha.held v rfl)

theorem Ordered.mono (h : Ordered done before stack)
    (hbefore : ∀ n ∈ before, n ∈ done' ∨ n ∈ before') (hdone : ∀ n ∈ done, n ∈ done') :
    Ordered done' before' stack := by
  induction stack generalizing before before' with
  | nil => trivial
  | cons t stack ih =>
    refine ⟨fun hstage x hx => ?_, ih h.2 ?_⟩
    · exact (h.1 hstage x hx).elim (fun h => .inl (hdone _ h)) (hbefore _)
    · rintro n (_ | ⟨_, hn⟩)
      · exact .inr (.head _)
      · exact (hbefore n hn).imp_right (.tail _)

theorem Ordered.weaken (h : Ordered done before stack) (hsub : before ⊆ before') :
    Ordered done before' stack :=
  h.mono (fun _ hn => .inr (hsub hn)) fun _ => id

/-- A node that is finished need not come before. -/
theorem Ordered.settle {n : Nat} (h : Ordered done [n] stack) (hn : n ∈ done')
    (hdone : ∀ k ∈ done, k ∈ done') : Ordered done' [] stack :=
  h.mono (fun _ hk => .inl (mem_singleton.mp hk ▸ hn)) hdone

theorem Ordered.visits {xs : List Expr} (h : Ordered done (xs.map Expr.number ++ before) stack) :
    Ordered done before (visits xs ++ stack) := by
  induction xs generalizing before with
  | nil => exact h
  | cons x xs ih =>
    refine ⟨nofun, ih (h.weaken ?_)⟩
    intro n hn
    simp only [map_cons, cons_append, mem_cons, mem_append] at hn ⊢
    tauto

/-- What is finished at a moment is in normal form, and what is to come will be. -/
structure Moment.Settles (P : Store → Prop) (env : Env) (step : Expr → GraphM (Option Expr))
    (bottomUp : Bool) (m : Moment) : Prop where
  declined : ∀ ⦃n : Nat⦄ ⦃r⦄, m.done[n]? = some r → Declines P env step m.store r
  -- the sources of a result are finished, and are their own results
  closed : ∀ ⦃n : Nat⦄ ⦃r⦄, m.done[n]? = some r → ∀ x ∈ r.src, m.done[x.number]? = some x
  -- bottom-up the rules were asked when the node was visited, and are not asked again
  prepared : bottomUp = true → ∀ t ∈ m.stack, t.stage = .rebuild →
    Declines P env step m.store t.current
  ordered : Ordered m.done [] m.stack

theorem Moment.Settles.done_of_reaches (h : m.Settles P env step bottomUp) {n : Nat} {k : Expr}
    (hr : m.done[n]? = some r) (hk : r.Reaches k) : ∃ n : Nat, m.done[n]? = some k := by
  induction hk with
  | refl => exact ⟨n, hr⟩
  | @tail b c _ hc ih =>
    obtain ⟨n', hb⟩ := ih
    exact ⟨c.number, h.closed hb c hc⟩

theorem Moment.Settles.settle {n c : Expr} {stage : Stage}
    (h : Moment.Settles P env step bottomUp ⟨⟨n, stage, c⟩ :: stack, done, s⟩)
    (hnew : n.number ∉ done) (hst : s.Extends t) (hr : Declines P env step t r)
    (hsrc : ∀ x ∈ r.src, done[x.number]? = some x) :
    Moment.Settles P env step bottomUp ⟨stack, done.insert n.number r, t⟩ := by
  have hkept : ∀ ⦃k : Nat⦄ ⦃x⦄, done[k]? = some x → (done.insert n.number r)[k]? = some x := by
    intro k x hk
    rw [Std.HashMap.getElem?_insert, if_neg, hk]
    rintro heq
    rw [beq_iff_eq.mp heq] at hnew
    exact hnew (by simp [Std.HashMap.mem_iff_isSome_getElem?, hk])
  constructor
  · intro k x hk
    rw [Std.HashMap.getElem?_insert] at hk
    split at hk
    · cases hk
      exact hr
    · exact (h.declined hk).mono hst
  · intro k x hk y hy
    rw [Std.HashMap.getElem?_insert] at hk
    split at hk
    · cases hk
      exact hkept (hsrc y hy)
    · exact hkept (h.closed hk y hy)
  · exact fun hb t ht hstage => (h.prepared hb t (.tail _ ht) hstage).mono hst
  · exact h.ordered.2.settle Std.HashMap.mem_insert_self fun k hk =>
      Std.HashMap.mem_insert.mpr (.inr hk)

theorem Moment.Settles.become {n c : Expr} {stage : Stage}
    (h : Moment.Settles P env step bottomUp ⟨⟨n, stage, c⟩ :: stack, done, s⟩)
    (hst : s.Extends t) :
    Moment.Settles P env step bottomUp ⟨⟨r, .visit, r⟩ :: ⟨n, .adopt, r⟩ :: stack, done, t⟩ := by
  refine ⟨fun k x hk => (h.declined hk).mono hst, h.closed, fun hb => ?_, nofun, nofun, ?_⟩
  · simp only [forall_mem_cons]
    exact ⟨nofun, nofun, fun t ht hstage => (h.prepared hb t (.tail _ ht) hstage).mono hst⟩
  · exact h.ordered.2.weaken (by simp)

section Settling

variable (hP : Store.Invariant P) (hstep : Faithful P env (fun _ => ()) step)
  (hsteady : Steady P env step)
include hP hstep hsteady

/-- **A move keeps what is finished in normal form.** -/
theorem Move.settles (hmove : Move step bottomUp env m m') (hm : m.Keeps P fun _ => ())
    (h : m.Settles P env step bottomUp) : m'.Settles P env step bottomUp := by
  have hext := (hmove.keeps hP Expr.compositional_unit hstep hm).2
  cases hmove with
  | skip hdone =>
    exact ⟨h.declined, h.closed, fun hb t ht => h.prepared hb t (.tail _ ht),
      h.ordered.2.settle hdone fun _ => id⟩
  | @expand n c e stack done s s' hnew hrun =>
    have hc : s.Holds c := (hm.tasks _ (.head _)).right
    refine ⟨fun k x hk => (h.declined hk).mono hext, h.closed, fun hb t ht hstage => ?_,
      Ordered.visits ⟨fun _ x hx => .inr ?_, ?_⟩⟩
    · rcases mem_expanded ht with ⟨x, hx, rfl⟩ | rfl | ht
      · cases hstage
      · subst hb
        exact (fixpoint_declines hstep hsteady hm.property hc).of_ok hrun
      · exact (h.prepared hb t (.tail _ ht) hstage).mono hext
    · exact mem_append_left _ (mem_map_of_mem hx)
    · exact h.ordered.2.weaken (by simp)
  | @finish n e stack done s s' hnew hsrc hrun =>
    have he : s.Holds e := (hm.tasks _ (.head _)).right
    have hsound := hP.sound hm.property
    have hsame : renewed done e = e.src := hsound.eq_of_beq hsrc
      (fun x hx => by
        obtain ⟨y, hy, rfl⟩ := mem_map.mp hx
        exact (hm.results.agree_getD hsound (hsound.src he hy)).right)
      fun x hx => hsound.src he hx
    refine h.settle hnew hext ?_ fun x hx => ?_
    · cases bottomUp with
      | false => exact hsteady.declines hm.property he hrun
      | true => exact (h.prepared rfl _ (.head _) rfl).mono hext
    · -- the sources are finished, and their results are the sources themselves
      have hfix : (done[x.number]?).getD x = x :=
        map_eq_map_iff.mp (hsame.trans (map_id _).symm) x hx
      have hmem : x.number ∈ done := (h.ordered.1 rfl x hx).resolve_right nofun
      obtain ⟨y, hy⟩ := Option.isSome_iff_exists.mp (Std.HashMap.mem_iff_isSome_getElem?.mp hmem)
      rw [hy, Option.getD_some] at hfix
      rw [hy, hfix]
  | answer => exact h.become hext
  | renew => exact h.become hext
  | adopt hnew hres => exact h.settle hnew hext (h.declined hres) (h.closed hres)

theorem Moves.settles {k : Nat} (hmoves : Moves step bottomUp env k m m')
    (hm : m.Keeps P fun _ => ()) (h : m.Settles P env step bottomUp) :
    m'.Settles P env step bottomUp := by
  induction hmoves with
  | refl => exact h
  | head hmove _ ih =>
    exact ih (hmove.keeps hP Expr.compositional_unit hstep hm).1
      (hmove.settles hP hstep hsteady hm h)

end Settling

/-- What it takes to visit some nodes once: a move to rebuild each, and one for each source. -/
def cost (es : List Expr) : Nat := (es.map fun e => e.src.length + 1).sum

theorem cost_le_of_subset {xs ys : List Expr} (hx : xs.Nodup) (h : xs ⊆ ys) :
    cost xs ≤ cost ys := by
  obtain ⟨zs, hperm, hsub⟩ := hx.subperm h
  calc cost xs = cost zs := (hperm.map _).sum_eq.symm
    _ ≤ cost ys := (hsub.map _).sum_le_sum fun _ _ => Nat.zero_le _

/-- A node is a result already, or becomes one when it is rebuilt. -/
def Moment.AtHand (m : Moment) (r : Expr) : Prop :=
  (∃ n : Nat, m.done[n]? = some r) ∨ ∃ t ∈ m.stack, t.stage = .rebuild ∧ t.current = r

theorem Moment.AtHand.of_tail {t : Task} (h : Moment.AtHand ⟨stack, done, s⟩ r) :
    Moment.AtHand ⟨t :: stack, done, s'⟩ r :=
  h.imp_right fun ⟨t, ht, h⟩ => ⟨t, .tail _ ht, h⟩

theorem Moment.AtHand.of_insert {n : Nat} (h : Moment.AtHand ⟨stack, done.insert n e, s⟩ r) :
    r = e ∨ Moment.AtHand ⟨stack, done, s⟩ r := by
  rcases h with ⟨n', hr⟩ | h
  · rw [Std.HashMap.getElem?_insert] at hr
    split at hr
    · exact .inl (Option.some.inj hr).symm
    · exact .inr (.inl ⟨n', hr⟩)
  · exact .inr (.inr h)

theorem Moment.AtHand.of_become {n c : Expr}
    (h : Moment.AtHand ⟨⟨c, .visit, c⟩ :: ⟨n, .adopt, c⟩ :: stack, done, s⟩ r) :
    Moment.AtHand ⟨stack, done, s⟩ r := by
  rcases h with h | ⟨t, ht, hstage, hcur⟩
  · exact .inl h
  · rcases mem_cons.mp ht with rfl | ht
    · cases hstage
    · rcases mem_cons.mp ht with rfl | ht
      · cases hstage
      · exact .inr ⟨t, ht, hstage, hcur⟩

/-- Only a visit brings a new node to hand, and it leaves as many tasks as the node costs. -/
theorem Move.exists_visited (h : Move step bottomUp env m m') :
    ∃ visited, m.stack.length + cost visited ≤ m'.stack.length + 1 ∧
      ∀ r, m'.AtHand r → r ∈ visited ∨ m.AtHand r := by
  cases h with
  | skip => exact ⟨[], by simp [cost], fun r hr => .inr hr.of_tail⟩
  | @expand n c e stack done s s' hnew hrun =>
    refine ⟨[e], by simp [cost, visits]; omega, fun r hr => ?_⟩
    rcases hr with hr | ⟨t, ht, hstage, rfl⟩
    · exact .inr (.inl hr)
    · rcases mem_expanded ht with ⟨x, hx, rfl⟩ | rfl | ht
      · cases hstage
      · exact .inl (.head _)
      · exact .inr (.inr ⟨t, .tail _ ht, hstage, rfl⟩)
  | finish =>
    refine ⟨[], by simp [cost], fun r hr => .inr ?_⟩
    rcases hr.of_insert with rfl | hr
    · exact .inr ⟨_, .head _, rfl, rfl⟩
    · exact hr.of_tail
  | answer => exact ⟨[], by simp [cost], fun r hr => .inr hr.of_become.of_tail⟩
  | renew => exact ⟨[], by simp [cost], fun r hr => .inr hr.of_become.of_tail⟩
  | adopt hnew hres =>
    refine ⟨[], by simp [cost], fun r hr => .inr ?_⟩
    rcases hr.of_insert with rfl | hr
    · exact .inl ⟨_, hres⟩
    · exact hr.of_tail

theorem Moves.exists_visited {k : Nat} (h : Moves step bottomUp env k m m') :
    ∃ visited, m.stack.length + cost visited ≤ k + m'.stack.length ∧
      ∀ r, m'.AtHand r → r ∈ visited ∨ m.AtHand r := by
  induction h with
  | refl m => exact ⟨[], by simp [cost], fun r hr => .inr hr⟩
  | head hmove _ ih =>
    obtain ⟨first, hfirst, hhand⟩ := hmove.exists_visited
    obtain ⟨rest, hrest, hhand'⟩ := ih
    refine ⟨first ++ rest, ?_, fun r hr => ?_⟩
    · simp only [cost, map_append, sum_append] at hfirst hrest ⊢
      omega
    · rcases hhand' r hr with hr | hr
      · exact .inl (mem_append_right _ hr)
      · exact (hhand r hr).imp_left (mem_append_left _)

/-- A run from one node has made a move for each task that its results cost. -/
theorem Moves.cost_lt {k : Nat} {xs : List Expr}
    (h : Moves step bottomUp env k ⟨[⟨e, .visit, e⟩], {}, s⟩ ⟨[], done, s'⟩) (hx : xs.Nodup)
    (hdone : ∀ x ∈ xs, ∃ n : Nat, done[n]? = some x) : cost xs < k := by
  obtain ⟨visited, hcost, hhand⟩ := h.exists_visited
  have hsub : xs ⊆ visited := by
    intro x hx
    -- at the start there are no results, and nothing waits to be rebuilt
    rcases hhand x (.inl (hdone x hx)) with hv | ⟨n, hn⟩ | ⟨t, ht, hstage, -⟩
    · exact hv
    · simp at hn
    · rw [mem_singleton.mp ht] at hstage
      cases hstage
  have hle := cost_le_of_subset hx hsub
  simp only [length_cons, length_nil] at hcost
  omega

/-- A table in which every node is its own result. -/
def Identity (s : Store) (done : Std.HashMap Nat Expr) : Prop :=
  ∀ ⦃n : Nat⦄ ⦃r⦄, done[n]? = some r → s.Holds r ∧ r.number = n

theorem Identity.mono (h : Identity s done) (hst : s.Extends t) : Identity t done :=
  fun _ _ hr => ⟨hst (h hr).1, (h hr).2⟩

theorem Identity.getElem? (h : Identity s done) (hs : s.Sound) (he : s.Holds e)
    (hmem : e.number ∈ done) : done[e.number]? = some e := by
  obtain ⟨r, hr⟩ := Option.isSome_iff_exists.mp (Std.HashMap.mem_iff_isSome_getElem?.mp hmem)
  rw [hr, hs.eq_of_number (h hr).1 he (h hr).2]

theorem Identity.insert (h : Identity s done) (he : s.Holds e) :
    Identity s (done.insert e.number e) := by
  intro n r hr
  rw [Std.HashMap.getElem?_insert] at hr
  split at hr
  · cases hr
    exact ⟨he, beq_iff_eq.mp ‹_›⟩
  · exact h hr

/-- A passage over some nodes enters nodes below them, each once, as their own results. -/
structure Passage (P : Store → Prop) (xs : List Expr) (done : Std.HashMap Nat Expr) (s : Store)
    (entered : List Expr) (done' : Std.HashMap Nat Expr) (s' : Store) : Prop where
  property : P s'
  later : s.Extends s'
  identity : Identity s' done'
  mem_iff : ∀ n, n ∈ done' ↔ n ∈ done ∨ ∃ y ∈ entered, y.number = n
  found : ∀ x ∈ xs, x.number ∈ done'
  nodup : entered.Nodup
  below : ∀ y ∈ entered, ∃ x ∈ xs, x.Reaches y
  fresh : ∀ y ∈ entered, y.number ∉ done

/-- The machine passes over some nodes, at the cost of what it enters. -/
def Passes (P : Store → Prop) (env : Env) (step : Expr → GraphM (Option Expr)) (bottomUp : Bool)
    (xs : List Expr) (done : Std.HashMap Nat Expr) (s : Store) : Prop :=
  ∃ entered done' s', Passage P xs done s entered done' s' ∧ ∀ stack,
    Moves step bottomUp env (xs.length + cost entered) ⟨visits xs ++ stack, done, s⟩
      ⟨stack, done', s'⟩

/-- Nothing below a node has a rule from a store on. -/
def Normal (P : Store → Prop) (env : Env) (step : Expr → GraphM (Option Expr)) (s : Store)
    (e : Expr) : Prop :=
  ∀ k, e.Reaches k → Declines P env step s k

theorem Normal.mono (h : Normal P env step s e) (hst : s.Extends t) : Normal P env step t e :=
  fun k hk => (h k hk).mono hst

theorem Normal.src {x : Expr} (h : Normal P env step s e) (hx : x ∈ e.src) :
    Normal P env step s x := fun k hk => h k (.of_src hx hk)

theorem Passage.cons {x : Expr} {xs entered entered' : List Expr} {done₁ : Std.HashMap Nat Expr}
    {s₁ : Store} (h : Passage P [x] done s entered done₁ s₁)
    (h' : Passage P xs done₁ s₁ entered' done' s') :
    Passage P (x :: xs) done s (entered ++ entered') done' s' where
  property := h'.property
  later := h.later.trans h'.later
  identity := h'.identity
  mem_iff n := by
    simp only [h'.mem_iff, h.mem_iff, mem_append, or_and_right, exists_or, or_assoc]
  found y hy := by
    rcases mem_cons.mp hy with rfl | hy
    · exact (h'.mem_iff _).mpr (.inl (h.found y (.head _)))
    · exact h'.found y hy
  nodup := by
    refine nodup_append.mpr ⟨h.nodup, h'.nodup, ?_⟩
    rintro y hy _ hy' rfl
    exact h'.fresh y hy' ((h.mem_iff _).mpr (.inr ⟨y, hy, rfl⟩))
  below y hy := by
    rcases mem_append.mp hy with hy | hy
    · obtain ⟨z, hz, hzy⟩ := h.below y hy
      exact ⟨z, mem_singleton.mp hz ▸ .head _, hzy⟩
    · obtain ⟨z, hz, hzy⟩ := h'.below y hy
      exact ⟨z, .tail _ hz, hzy⟩
  fresh y hy hmem := by
    rcases mem_append.mp hy with hy | hy
    · exact h.fresh y hy hmem
    · exact h'.fresh y hy ((h.mem_iff _).mpr (.inl hmem))

/-- The passage over a node, after that over its sources. -/
theorem Passage.node {entered : List Expr} {s₁ s₂ : Store} (hs : s₂.Sound) (he : s.Holds e)
    (hnew : e.number ∉ done) (hss₁ : s.Extends s₁) (h : Passage P e.src done s₁ entered done' s₂)
    (hs' : P s') (hs₂ : s₂.Extends s') :
    e.number ∉ done' ∧ Passage P [e] done s (e :: entered) (done'.insert e.number e) s' := by
  have he₂ : s₂.Holds e := h.later (hss₁ he)
  have hfresh : e.number ∉ done' := by
    intro hmem
    rcases (h.mem_iff _).mp hmem with hmem | ⟨y, hy, hn⟩
    · exact hnew hmem
    · -- a node below with this number would be the node itself
      obtain ⟨x, hx, hxy⟩ := h.below y hy
      have hy₂ : s₂.Holds y := hs.holds_of_reaches he₂ (.of_src hx hxy)
      rw [hs.eq_of_number hy₂ he₂ hn] at hxy
      exact Expr.not_reaches_of_src hx hxy
  refine ⟨hfresh, hs', hss₁.trans (h.later.trans hs₂), (h.identity.mono hs₂).insert (hs₂ he₂),
    ?_, ?_, nodup_cons.mpr ⟨?_, h.nodup⟩, ?_, ?_⟩
  · intro n
    rw [Std.HashMap.mem_insert, h.mem_iff, beq_iff_eq]
    simp only [mem_cons, or_and_right, exists_or, exists_eq_left]
    tauto
  · intro x hx
    rw [mem_singleton.mp hx]
    exact Std.HashMap.mem_insert_self
  · exact fun hmem => hfresh ((h.mem_iff _).mpr (.inr ⟨e, hmem, rfl⟩))
  · intro y hy
    rcases mem_cons.mp hy with rfl | hy
    · exact ⟨y, .head _, .refl y⟩
    · obtain ⟨x, hx, hxy⟩ := h.below y hy
      exact ⟨e, .head _, .of_src hx hxy⟩
  · intro y hy
    rcases mem_cons.mp hy with rfl | hy
    · exact hnew
    · exact h.fresh y hy

/-- The machine passes over a list of nodes if it does over each of them. -/
theorem Passes.all {xs : List Expr} (h : ∀ x ∈ xs, ∀ {done s}, P s → s.Holds x →
    Normal P env step s x → Identity s done → Passes P env step bottomUp [x] done s)
    (hs : P s) (hheld : ∀ x ∈ xs, s.Holds x) (hnormal : ∀ x ∈ xs, Normal P env step s x)
    (hid : Identity s done) : Passes P env step bottomUp xs done s := by
  induction xs generalizing done s with
  | nil =>
    exact ⟨[], done, s, ⟨hs, .refl s, hid, by simp, by simp, by simp, by simp, by simp⟩,
      fun stack => .refl _⟩
  | cons x xs ih =>
    obtain ⟨entered, done₁, s₁, hx, hmoves⟩ :=
      h x (.head _) hs (hheld x (.head _)) (hnormal x (.head _)) hid
    obtain ⟨entered', done₂, s₂, hxs, hmoves'⟩ := ih (fun y hy => h y (.tail _ hy)) hx.property
      (fun y hy => hx.later (hheld y (.tail _ hy)))
      (fun y hy => (hnormal y (.tail _ hy)).mono hx.later) hx.identity
    refine ⟨entered ++ entered', done₂, s₂, hx.cons hxs, fun stack => ?_⟩
    have hcount : (x :: xs).length + cost (entered ++ entered') =
        [x].length + cost entered + (xs.length + cost entered') := by
      simp only [cost, map_append, sum_append, length_cons, length_nil]
      omega
    rw [hcount]
    exact (hmoves (visits xs ++ stack)).trans (hmoves' stack)

section Passing

variable (hstep : Faithful P env (fun _ => ()) step)
include hstep

theorem Declines.prepare (h : Declines P env step s e) (hs : P s) (he : s.Holds e) :
    ∃ t, prepare step bottomUp e env s = .ok e t ∧ P t ∧ s.Extends t := by
  cases bottomUp with
  | false => exact ⟨s, rfl, hs, .refl s⟩
  | true =>
    obtain ⟨t, hrun⟩ := h hs (.refl s)
    have ha := (hstep hs he).of_ok hrun
    exact ⟨t, bind_run hrun _, ha.property, ha.later⟩

theorem Declines.ask (h : Declines P env step s e) (hs : P s) (he : s.Holds e) :
    ∃ t, ask step bottomUp e env s = .ok none t ∧ P t ∧ s.Extends t := by
  cases bottomUp with
  | false =>
    obtain ⟨t, hrun⟩ := h hs (.refl s)
    have ha := (hstep hs he).of_ok hrun
    exact ⟨t, hrun, ha.property, ha.later⟩
  | true => exact ⟨s, rfl, hs, .refl s⟩

end Passing

/-- **The machine passes over a node in normal form.** -/
theorem passes_of_normal (hP : Store.Invariant P) (hstep : Faithful P env (fun _ => ()) step)
    (e : Expr) : ∀ {done s}, P s → s.Holds e → Normal P env step s e →
    Identity s done → Passes P env step bottomUp [e] done s := by
  -- on the node; what is finished already and what the store holds vary along the way
  induction e using Expr.src_induction with
  | h e ih =>
    intro done s hs he hnormal hid
    by_cases hnew : e.number ∈ done
    · have hnone : Passage P [e] done s [] done s :=
        ⟨hs, .refl s, hid, by simp, by simpa using hnew, by simp, by simp, by simp⟩
      exact ⟨[], done, s, hnone, fun stack => .head (.skip hnew) (.refl _)⟩
    obtain ⟨s₁, hprepare, hs₁, hss₁⟩ := (hnormal e (.refl e)).prepare hstep hs he
    obtain ⟨entered, done₁, s₂, hsrc, hmoves⟩ := Passes.all ih hs₁
      (fun x hx => hss₁ ((hP.sound hs).src he hx)) (fun x hx => (hnormal.src hx).mono hss₁)
      (hid.mono hss₁)
    have hs₂ := hP.sound hsrc.property
    have he₂ : s₂.Holds e := hsrc.later (hss₁ he)
    obtain ⟨s₃, hask, hs₃, hss₃⟩ :=
      ((hnormal e (.refl e)).mono (hss₁.trans hsrc.later)).ask hstep hsrc.property he₂
    obtain ⟨hfresh, hpassage⟩ := Passage.node hs₂ he hnew hss₁ hsrc hs₃ hss₃
    -- the sources are their own results, so the node is finished as it is
    have hsame : renewed done₁ e = e.src := by
      refine (map_congr_left fun x hx => ?_).trans (map_id e.src)
      rw [hsrc.identity.getElem? hs₂ (hs₂.src he₂ hx) (hsrc.found x hx)]
      rfl
    refine ⟨_, _, _, hpassage, fun stack => ?_⟩
    have hfinish : Move step bottomUp env ⟨⟨e, .rebuild, e⟩ :: stack, done₁, s₂⟩
        ⟨stack, done₁.insert e.number e, s₃⟩ := .finish hfresh (by rw [hsame]; exact BEq.rfl) hask
    have hcount : [e].length + cost (e :: entered) = e.src.length + cost entered + 1 + 1 := by
      simp only [cost, map_cons, sum_cons, length_cons, length_nil]
      omega
    rw [hcount]
    exact .head (.expand hnew hprepare) ((hmoves _).trans (.head hfinish (.refl _)))

end NormalForm

end Rewriting

namespace RuleSet

open Rewriting

variable {P : Store → Prop} {env : Env} {rules : List (Rule Expr)} {s t : Store} {e r : Expr}
  {c : Context} {bottomUp : Bool}

/-- **Rewriting ends in a normal form**, and rewriting a normal form gives it back. -/
theorem rewriting_ends_normal (hP : Store.Invariant P)
    (hcontext : ∀ {s c}, P s → P { s with context := c }) (hbuild : ∀ r ∈ rules, r.Builds P env)
    (hdet : ∀ r ∈ rules, r.Deterministic P env) (hs : P s) (he : s.Holds e)
    (h : (ofList rules).apply e c bottomUp env s = .ok r t) :
    (∀ k, r.Reaches k → ∃ t', (ofList rules).step? k env t = .ok none t') ∧
      ∃ t', (ofList rules).apply r c bottomUp env t = .ok r t' := by
  have hstep := step_faithful hbuild fun r _ => r.keeps_unit
  have hsteady := step_steady hbuild hdet
  obtain ⟨done, u, hstart, rfl⟩ := apply_ensures_start.of_ok h
  obtain ⟨⟨k, hk, hmoves⟩, hr⟩ := start_eq_ok_iff.mp hstart
  have hbegin : Moment.Keeps P (fun _ => ()) ⟨[⟨e, .visit, e⟩], {}, { s with context := c }⟩ :=
    .begin (hcontext hs) he .empty
  have hkeeps := (hmoves.keeps hP Expr.compositional_unit hstep hbegin).1
  have hsettled := hmoves.settles hP hstep hsteady hbegin
    ⟨by simp, by simp, by simp, nofun, trivial⟩
  have hnormal : Normal P env (ofList rules).step? u r := by
    intro x hx
    obtain ⟨n, hn⟩ := hsettled.done_of_reaches hr hx
    exact hsettled.declined hn
  constructor
  · exact fun x hx => hnormal x hx (hcontext hkeeps.property) (.of_nodes rfl)
  · have hheld : u.Holds r := by
      obtain ⟨_, -, hagree⟩ := hkeeps.results hr
      exact hagree.right
    have hpasses : Passes P env (ofList rules).step? bottomUp [r] {} { u with context := c } :=
      passes_of_normal hP hstep r (hcontext hkeeps.property) hheld (hnormal.mono (.of_nodes rfl))
        fun n x hn => by simp at hn
    obtain ⟨entered, done', u', hpassage, hpass⟩ := hpasses
    -- the nodes entered now were all results before, so there is fuel for them
    have hbefore : ∀ y ∈ entered, ∃ n : Nat, done[n]? = some y := by
      intro y hy
      obtain ⟨x, hx, hxy⟩ := hpassage.below y hy
      rw [List.mem_singleton.mp hx] at hxy
      exact hsettled.done_of_reaches hr hxy
    have hfuel : [r].length + cost entered < plenty := by
      have hcost := hmoves.cost_lt hpassage.nodup hbefore
      simp only [List.length_cons, List.length_nil]
      omega
    have hself : done'[r.number]? = some r :=
      hpassage.identity.getElem? (hP.sound hpassage.property) (hpassage.later hheld)
        (hpassage.found r (.head _))
    exact ⟨_, apply_of_start (start_eq_ok_iff.mpr ⟨⟨_, hfuel, hpass []⟩, hself⟩)⟩

end RuleSet

namespace Tagged

theorem untagging_deterministic {r : Rule Expr} {env : Env}
    (hr : r ∈ Kernels.untagging.rules) : r.Deterministic Store.Sound env := by
  intro s e a t hs he hrun s' hs' hts
  cases htag : e.tag.isNone with
  | true =>
    rw [untagging_declines hr htag] at hrun
    cases hrun
    exact ⟨s', untagging_declines hr htag⟩
  | false =>
    obtain ⟨v, u, hv, -⟩ := exists_withTag env hs he
    rw [untagging_answers hr htag hv] at hrun
    cases hrun
    exact ⟨s', untagging_answers hr htag (nodeOf_again hs hv hts)⟩

/-- Removing the tag of the sum gives a normal form, which stays as it is. -/
theorem untagging_ends_normal :
    ∃ t, Kernels.untagging.apply sum .none false .idle store = .ok plain t ∧
      (∀ k, plain.Reaches k → ∃ t', Kernels.untagging.step? k .idle t = .ok none t') ∧
      ∃ t', Kernels.untagging.apply plain .none false .idle t = .ok plain t' :=
  ⟨_, apply_sum, RuleSet.rewriting_ends_normal Store.Invariant.soundness
    (fun hs => hs.of_nodes rfl rfl) (fun _ hr => untagging_builds hr)
    (fun _ hr => untagging_deterministic hr) store_consists.sound store_holds apply_sum⟩

end Tagged

end LazyTensor
