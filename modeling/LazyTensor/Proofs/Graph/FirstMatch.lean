import LazyTensor.Symbolic.Full
import LazyTensor.Proofs.Graph.DecisionSteps

/-!
# Decisions find the first match

A pattern is matched in two ways: by listing all matches in order, or by the decisions made from it.
The captures of the matches are those that the steps of the decisions come to, so a function finds
the first match that it accepts either way.

Two things are asked of the pattern.  A loop over all sources has to test something, since one
without tests passes no source.  And where several sources make choices, only the last of them may
make choices inside its alternatives: the decisions go through all combinations of the outer choices
before they come to the inner ones, and the list of matches does not.  Without the second the
decisions still find a match that the function accepts, if there is one, but not always the first.

## Main results

* `Decision.ofPatAt_does`: the steps of the decisions of a pattern give its matches.
* `Decision.run_eq_first_match`: the decisions of a pattern find the first match.
-/

namespace LazyTensor

open List Probe

/-! ## What is asked of patterns -/

namespace Pat

mutual

/-- Whether a test passes a pattern and all patterns inside it. -/
def every (P : Pat → Bool) : Pat → Bool
  | .any ps => P (.any ps) && everyAll P ps
  | .leaf s => P (.leaf s)
  | .node s alts => P (.node s alts) && everyAlts P alts
  | .each s p => P (.each s p) && every P p

def everyAlts (P : Pat → Bool) : List (List Pat) → Bool
  | [] => true
  | ps :: rest => everyAll P ps && everyAlts P rest

def everyAll (P : Pat → Bool) : List Pat → Bool
  | [] => true
  | p :: ps => every P p && everyAll P ps

end

/-- Whether the conditions on a node itself, names apart, ask anything. -/
def Self.tests (s : Self) : Bool :=
  s.ops.isSome || !s.arg.isNone || s.strict || 0 < s.required || s.dtypes.isSome

mutual

/-- Whether a pattern asks anything of a node, names apart. -/
def tests : Pat → Bool
  | .any _ | .each _ _ => true
  | .leaf s => s.tests
  | .node s alts => s.tests || testsAlts alts

def testsAlts : List (List Pat) → Bool
  | [] => false
  | ps :: rest => testsAll ps || testsAlts rest

def testsAll : List Pat → Bool
  | [] => false
  | p :: ps => tests p || testsAll ps

end

mutual

/-- How many choices of a pattern are nested. -/
def depth : Pat → Nat
  | .any ps => depthAll ps + 1
  | .leaf _ => 0
  | .node _ [ps] => depthAll ps
  | .node _ alts => depthAlts alts + 1
  | .each _ _ => 0

def depthAlts : List (List Pat) → Nat
  | [] => 0
  | ps :: rest => max (depthAll ps) (depthAlts rest)

def depthAll : List Pat → Nat
  | [] => 0
  | p :: ps => max (depth p) (depthAll ps)

end

/-- Wherever the sources of a node have patterns of their own, as many sources are required. -/
def Formed (p : Pat) : Prop :=
  p.every fun
    | .node s alts => alts.all fun ps => ps.length == s.required
    | _ => true

/-- Every loop over all sources of a node tests something. -/
def LoopsTest (p : Pat) : Prop :=
  p.every fun
    | .each _ q => q.tests
    | _ => true

/-- Of some patterns that make choices, only the last makes choices inside its alternatives. -/
abbrev InOrder (ps : List Pat) : Prop := ps.Pairwise fun q r => 0 < r.depth → q.depth ≤ 1

/-- Where several sources of a node make choices, only the last of them makes choices inside its
alternatives. -/
def ChoicesInOrder (p : Pat) : Prop :=
  p.every fun
    | .node _ alts => alts.all fun ps => decide (InOrder ps)
    | _ => true

instance (p : Pat) : Decidable p.Formed := inferInstanceAs (Decidable (_ = true))
instance (p : Pat) : Decidable p.LoopsTest := inferInstanceAs (Decidable (_ = true))
instance (p : Pat) : Decidable p.ChoicesInOrder := inferInstanceAs (Decidable (_ = true))

section Regular

variable {P : Pat → Bool} {s : Self} {p : Pat} {ps : List Pat} {alts : List (List Pat)}

theorem everyAll_iff : everyAll P ps = true ↔ ∀ p ∈ ps, every P p = true := by
  induction ps with
  | nil => simp [everyAll]
  | cons p ps ih => simp [everyAll, ih]

theorem everyAlts_iff : everyAlts P alts = true ↔ ∀ ps ∈ alts, ∀ p ∈ ps, every P p = true := by
  induction alts with
  | nil => simp [everyAlts]
  | cons ps alts ih => simp [everyAlts, everyAll_iff, ih]

theorem every_of_any (h : (Pat.any ps).every P = true) (hp : p ∈ ps) : p.every P = true := by
  rw [every, Bool.and_eq_true] at h
  exact everyAll_iff.mp h.2 p hp

theorem every_of_node (h : (Pat.node s alts).every P = true) (hps : ps ∈ alts) (hp : p ∈ ps) :
    p.every P = true := by
  rw [every, Bool.and_eq_true] at h
  exact everyAlts_iff.mp h.2 ps hps p hp

theorem every_of_each (h : (Pat.each s p).every P = true) : p.every P = true := by
  rw [every, Bool.and_eq_true] at h
  exact h.2

/-- What is asked of a pattern; the order of its choices only where a condition holds. -/
structure Regular (o : Prop) (p : Pat) : Prop where
  formed : p.Formed
  loops : p.LoopsTest
  choices : o → p.ChoicesInOrder

variable {o : Prop}

theorem Regular.any (h : (Pat.any ps).Regular o) (hp : p ∈ ps) : p.Regular o :=
  ⟨every_of_any h.formed hp, every_of_any h.loops hp, fun ho => every_of_any (h.choices ho) hp⟩

theorem Regular.node (h : (Pat.node s alts).Regular o) (hps : ps ∈ alts) (hp : p ∈ ps) :
    p.Regular o :=
  ⟨every_of_node h.formed hps hp, every_of_node h.loops hps hp,
    fun ho => every_of_node (h.choices ho) hps hp⟩

theorem Regular.each (h : (Pat.each s p).Regular o) : p.Regular o :=
  ⟨every_of_each h.formed, every_of_each h.loops, fun ho => every_of_each (h.choices ho)⟩

theorem Regular.length_eq (h : (Pat.node s alts).Regular o) (hps : ps ∈ alts) :
    ps.length = s.required := by
  have hnode := (Bool.and_eq_true_iff.mp h.formed).1
  exact beq_iff_eq.mp (all_eq_true.mp hnode ps hps)

theorem Regular.inOrder (h : (Pat.node s alts).Regular o) (hps : ps ∈ alts) (ho : o) :
    InOrder ps := by
  have hnode := (Bool.and_eq_true_iff.mp (h.choices ho)).1
  exact of_decide_eq_true (all_eq_true.mp hnode ps hps)

theorem Regular.tests (h : (Pat.each s p).Regular o) : p.tests = true :=
  (Bool.and_eq_true_iff.mp h.loops).1

end Regular

end Pat

namespace Decision

variable {fuel : Nat} {d : Decision} {ds : List Decision}

theorem tests_of_both (h : both fuel ds = .ok d) : d.tests = ds.flatMap tests := by
  cases fuel with
  | zero => cases h
  | succ fuel => rcases both_cases h with ⟨-, rfl⟩ | ⟨_, rfl, -⟩ <;> rfl

theorem filterMap_alts_of_both (h : both fuel ds = .ok d) (hd : d.alts = none) :
    ds.filterMap alts = [] := by
  cases fuel with
  | zero => cases h
  | succ fuel =>
    rcases both_cases h with ⟨hnone, -⟩ | ⟨_, rfl, -⟩
    · exact hnone
    · cases hd

mutual

/-- Names are bound only where no choice is left. -/
def Settled : Decision → Prop
  | mk _ _ none => True
  | mk _ bs (some as) => bs = [] ∧ SettledAll as

def SettledAll : List Decision → Prop
  | [] => True
  | d :: ds => Settled d ∧ SettledAll ds

end

theorem settledAll_iff : SettledAll ds ↔ ∀ d ∈ ds, d.Settled := by
  induction ds with
  | nil => simp [SettledAll]
  | cons d ds ih => simp [SettledAll, ih]

mutual

theorem settled_push (more : List (String × Spot)) : ∀ d : Decision, d.Settled → (push more d).Settled
  | mk _ _ none, _ => trivial
  | mk _ bs (some as), h => ⟨rfl, settledAll_pushAll (bs ++ more) as h.2⟩

theorem settledAll_pushAll (more : List (String × Spot)) :
    ∀ ds : List Decision, SettledAll ds → SettledAll (pushAll more ds)
  | [], _ => trivial
  | d :: ds, h => ⟨settled_push more d h.1, settledAll_pushAll more ds h.2⟩

end

theorem settled_both (h : both fuel ds = .ok d) (hds : ∀ d ∈ ds, d.Settled) : d.Settled := by
  induction fuel generalizing ds d with
  | zero => cases h
  | succ fuel ih =>
    have alt_settled : ∀ as ∈ ds.filterMap alts, ∀ a ∈ as, a.Settled := by
      intro as has
      obtain ⟨⟨ts, bs, as'⟩, hd, hds'⟩ := mem_filterMap.mp has
      cases hds'
      exact settledAll_iff.mp (hds _ hd).2
    rcases both_cases h with ⟨-, rfl⟩ | ⟨as, rfl, hone | ⟨-, hmany⟩⟩
    · trivial
    · exact ⟨rfl, settledAll_pushAll _ as (settledAll_iff.mpr (alt_settled as (by simp [hone])))⟩
    · refine ⟨rfl, settledAll_pushAll _ as (settledAll_iff.mpr fun a ha => ?_)⟩
      obtain ⟨c, hc, hca⟩ := exists_mem_of_forall₂ hmany _ ha
      refine ih hca fun x hx => ?_
      obtain ⟨as', has', hx⟩ := exists_mem_of_forall₂ (mem_combinations.mp hc).flip _ hx
      exact alt_settled as' has' x hx

theorem tests_ofSelf {s : Pat.Self} {p : Spot} : (ofSelf s p).tests = [] ↔ s.tests = false := by
  have hops : (s.ops.map (op p)).toList = [] ↔ s.ops.isSome = false := by cases s.ops <;> simp
  have hdtypes : (s.dtypes.map (dtype p)).toList = [] ↔ s.dtypes.isSome = false := by
    cases s.dtypes <;> simp
  simp only [ofSelf, tests, append_eq_nil_iff, Pat.Self.tests, Bool.or_eq_false_iff, hops,
    hdtypes]
  cases s.arg <;> simp [Arg.isNone, and_assoc]

/-- What the decisions of a pattern have in common with it. -/
structure Mirrors (q : Pat) (d : Decision) : Prop where
  height_le : d.height ≤ q.depth
  tests_eq : d.alts = none → (d.tests = [] ↔ q.tests = false)
  settled : d.Settled

theorem heightAll_le_of_mirrors {ps : List Pat} (h : Forall₂ Mirrors ps ds) :
    heightAll ds ≤ Pat.depthAll ps := by
  induction h with
  | nil => exact le_rfl
  | cons hd _ ih => exact max_le_max hd.height_le ih

theorem tests_eq_of_mirrors {ps : List Pat} (h : Forall₂ Mirrors ps ds)
    (hds : ds.filterMap alts = []) : ds.flatMap tests = [] ↔ Pat.testsAll ps = false := by
  induction h with
  | nil => simp [Pat.testsAll]
  | @cons q d qs ds hd _ ih =>
    obtain ⟨hnone, hds⟩ : d.alts = none ∧ ds.filterMap alts = [] := by
      cases h : d.alts <;> simp_all
    rw [flatMap_cons, append_eq_nil_iff, hd.tests_eq hnone, ih hds, Pat.testsAll,
      Bool.or_eq_false_iff]

theorem choice_ok (h : choice ds = .ok d) : d = mk [] [] (some ds) := by
  unfold choice at h
  split at h
  · cases h
  · cases h
    rfl

theorem loop_ok {p : Spot} {inner : Decision} (h : loop p inner = .ok d) :
    ∃ ts, inner = mk ts [] none ∧ d = mk [.every p ts] [] none := by
  unfold loop at h
  split at h
  · cases h
    exact ⟨_, rfl, rfl⟩
  · cases h

theorem settled_of_mirrors {ps : List Pat} (h : Forall₂ Mirrors ps ds) :
    ∀ d ∈ ds, d.Settled := fun _ hd =>
  let ⟨_, _, hd⟩ := exists_mem_of_forall₂ h _ hd
  hd.settled

mutual

theorem ofPatAt_mirrors : ∀ (q : Pat) {p : Spot} {d : Decision}, ofPatAt q p = .ok d → Mirrors q d
  | .any ps, p, d, h => by
    rw [ofPatAt] at h
    obtain ⟨ds, hds, h⟩ := exists_ok_of_bind h
    cases choice_ok h
    have mirrors := ofAny_mirrors ps hds
    exact ⟨Nat.succ_le_succ (heightAll_le_of_mirrors mirrors), fun h => by simp [alts] at h,
      ⟨rfl, settledAll_iff.mpr (settled_of_mirrors mirrors)⟩⟩
  | .leaf s, p, d, h => by
    rw [ofPatAt] at h
    cases h
    exact ⟨Nat.zero_le _, fun _ => tests_ofSelf, trivial⟩
  | .node s [], p, d, h => by cases h
  | .node s [ps], p, d, h => by
    rw [ofPatAt] at h
    obtain ⟨ds, hds, h⟩ := exists_ok_of_bind h
    have mirrors := ofSources_mirrors ps hds
    refine ⟨(height_both_le h).trans ?_, fun hnone => ?_, settled_both h ?_⟩
    · simpa [heightAll, height, ofSelf, Pat.depth] using heightAll_le_of_mirrors mirrors
    · have hds : ds.filterMap alts = [] := by
        simpa [alts, ofSelf] using filterMap_alts_of_both h hnone
      rw [tests_of_both h, flatMap_cons, append_eq_nil_iff, tests_ofSelf,
        tests_eq_of_mirrors mirrors hds]
      simp [Pat.tests, Pat.testsAlts]
    · exact forall_mem_cons.mpr ⟨trivial, settled_of_mirrors mirrors⟩
  | .node s (ps :: qs :: rest), p, d, h => by
    rw [ofPatAt] at h
    · obtain ⟨ds, hds, h⟩ := exists_ok_of_bind h
      obtain ⟨d', hd', h⟩ := exists_ok_of_bind h
      cases choice_ok hd'
      obtain ⟨hle, hsettled⟩ := ofAlts_height _ hds
      refine ⟨(height_both_le h).trans ?_, fun hnone => ?_, settled_both h ?_⟩
      · simpa [heightAll, height, ofSelf, Pat.depth] using hle
      · simpa [alts, ofSelf] using filterMap_alts_of_both h hnone
      · simpa [Settled, ofSelf] using settledAll_iff.mpr hsettled
    · simp
  | .each s q, p, d, h => by
    rw [ofPatAt] at h
    obtain ⟨inner, -, h⟩ := exists_ok_of_bind h
    obtain ⟨l, hl, h⟩ := exists_ok_of_bind h
    obtain ⟨ts, -, rfl⟩ := loop_ok hl
    refine ⟨(height_both_le h).trans ?_, fun _ => ?_, settled_both h ?_⟩
    · simp [heightAll, height, ofSelf]
    · rw [tests_of_both h]
      simp [tests, Pat.tests]
    · simp [Settled, ofSelf]

theorem ofAny_mirrors : ∀ (ps : List Pat) {p : Spot} {ds : List Decision}, ofAny ps p = .ok ds →
    Forall₂ Mirrors ps ds
  | [], p, ds, h => by
    cases h
    exact .nil
  | q :: qs, p, ds, h => by
    rw [ofAny] at h
    obtain ⟨d, hd, h⟩ := exists_ok_of_bind h
    obtain ⟨ds, hds, h⟩ := exists_ok_of_bind h
    cases h
    exact .cons (ofPatAt_mirrors q hd) (ofAny_mirrors qs hds)

theorem ofAlts_height : ∀ (alts : List (List Pat)) {p : Spot} {ds : List Decision},
    ofAlts alts p = .ok ds → heightAll ds ≤ Pat.depthAlts alts ∧ ∀ d ∈ ds, d.Settled
  | [], p, ds, h => by
    cases h
    exact ⟨le_rfl, by simp⟩
  | ps :: rest, p, ds, h => by
    rw [ofAlts] at h
    obtain ⟨cs, hcs, h⟩ := exists_ok_of_bind h
    obtain ⟨d, hd, h⟩ := exists_ok_of_bind h
    obtain ⟨ds, hds, h⟩ := exists_ok_of_bind h
    cases h
    have mirrors := ofSources_mirrors ps hcs
    obtain ⟨hle, hsettled⟩ := ofAlts_height rest hds
    refine ⟨max_le_max ((height_both_le hd).trans (heightAll_le_of_mirrors mirrors)) hle, ?_⟩
    exact forall_mem_cons.mpr ⟨settled_both hd (settled_of_mirrors mirrors), hsettled⟩

theorem ofSources_mirrors : ∀ (ps : List Pat) {p : Spot} {i : Nat} {ds : List Decision},
    ofSources ps p i = .ok ds → Forall₂ Mirrors ps ds
  | [], p, i, ds, h => by
    cases h
    exact .nil
  | q :: qs, p, i, ds, h => by
    rw [ofSources] at h
    obtain ⟨d, hd, h⟩ := exists_ok_of_bind h
    obtain ⟨ds, hds, h⟩ := exists_ok_of_bind h
    cases h
    exact .cons (ofPatAt_mirrors q hd) (ofSources_mirrors qs hds)

end

/-- Sources whose choices are in order have decisions that are. -/
theorem inOrder_of_mirrors {ps : List Pat} (h : Forall₂ Mirrors ps ds)
    (hps : Pat.InOrder ps) : InOrder ds := by
  induction h with
  | nil => exact .nil
  | @cons q d qs ds hd hds ih =>
    obtain ⟨hq, hqs⟩ := pairwise_cons.mp hps
    refine pairwise_cons.mpr ⟨fun b hb hpos => ?_, ih hqs⟩
    obtain ⟨r, hr, hrb⟩ := exists_mem_of_forall₂ hds _ hb
    exact hd.height_le.trans (hq r hr (hpos.trans_le hrb.height_le))

end Decision

/-! ## The matches of a pattern -/

/-- A spot is a node of a graph, seen from the node looked at and the sources that loops are at. -/
structure Spot.Stands (e : Expr) (at' : List Expr) (p : Spot) (x : Expr) : Prop where
  reach : p.reach? at' = some x
  loops : at'.length = p.loops + 1
  within : ∀ y ∈ at', e.Reaches y

namespace Spot.Stands

variable {e x y : Expr} {at' : List Expr} {p : Spot}

theorem root (e : Expr) : Stands e [e] {} e :=
  ⟨rfl, rfl, fun _ hy => mem_singleton.mp hy ▸ .refl e⟩

theorem reaches (h : Stands e at' p x) : e.Reaches x := by
  obtain ⟨y, hy, hx⟩ := Option.bind_eq_some_iff.mp h.reach
  exact (h.within y (mem_of_getElem? hy)).trans (reaches_of_descend hx)

theorem source (h : Stands e at' p x) {i : Nat} (hy : x.src[i]? = some y) :
    Stands e at' (p.source i) y :=
  ⟨(reach?_source h.reach i).trans hy, h.loops, h.within⟩

/-- A loop over the sources of a node is at one of them. -/
theorem loop (h : Stands e at' p x) (hy : y ∈ x.src) :
    Stands e (at' ++ [y]) { loops := p.loops + 1 } y := by
  refine ⟨?_, by simp [h.loops], fun z hz => ?_⟩
  · rw [Spot.reach?, getElem?_append_right h.loops.le, h.loops]
    simp [descend]
  · rcases mem_append.mp hz with hz | hz
    · exact h.within z hz
    · obtain rfl := mem_singleton.mp hz
      exact h.reaches.trans (Expr.Reaches.of_src hy (.refl z))

end Spot.Stands

/-- A function that extends bindings takes steps on captures, in this order where a condition
holds. -/
structure Does (o : Prop) (e : Expr) (F : Bindings → List Bindings) (E : List Capture.Step) :
    Prop where
  alike : ∀ b, Bindings.Within e b → Alike o ((F b).map Bindings.find?) (E.filterMap (· b.find?))
  within : ∀ b, Bindings.Within e b → ∀ b' ∈ F b, Bindings.Within e b'

namespace Does

variable {o : Prop} {e : Expr} {F G : Bindings → List Bindings} {E E' : List Capture.Step}

theorem none (e : Expr) : Does o e (fun _ => []) [] := ⟨fun _ _ => .of_eq rfl, by simp⟩

theorem unit (e : Expr) : Does o e (fun b => [b]) [some] := ⟨fun _ _ => .of_eq rfl, by simp⟩

theorem of_alike (hF : Does o e F E) (hE : Alike o E' E) : Does o e F E' :=
  ⟨fun b hb => (hF.alike b hb).trans (hE.symm.filterMap _), hF.within⟩

theorem append (hF : Does o e F E) (hG : Does o e G E') :
    Does o e (fun b => F b ++ G b) (E ++ E') := by
  refine ⟨fun b hb => ?_, fun b hb b' h => ?_⟩
  · rw [map_append, filterMap_append]
    exact (hF.alike b hb).append (hG.alike b hb)
  · exact (mem_append.mp h).elim (hF.within b hb b') (hG.within b hb b')

/-- One function after another takes all combinations of their steps, the first varying slowest. -/
theorem comp (hF : Does o e F E) (hG : Does o e G E') :
    Does o e (fun b => (F b).flatMap G) (E.flatMap fun φ => E'.map (φ >=> ·)) := by
  refine ⟨fun b hb => ?_, fun b hb b' h => ?_⟩
  · have steps : (E.flatMap fun φ => E'.map (φ >=> ·)).filterMap (· b.find?) =
        (E.filterMap (· b.find?)).flatMap fun σ => E'.filterMap (· σ) := by
      rw [filterMap_eq_flatMap_toList (· b.find?) E, flatMap_assoc, filterMap_flatMap]
      refine flatMap_congr fun φ _ => ?_
      rw [filterMap_map]
      change (E'.filterMap fun ψ => (φ b.find?).bind ψ) = _
      cases φ b.find? <;> simp
    rw [steps, map_flatMap]
    have first : Alike o ((F b).flatMap fun c => (G c).map Bindings.find?)
        ((F b).flatMap fun c => E'.filterMap (· c.find?)) :=
      .flatMap (.of_eq rfl) fun c hc => hG.alike c (hF.within b hb c hc)
    have captured : (F b).flatMap (fun c => E'.filterMap (· c.find?)) =
        ((F b).map Bindings.find?).flatMap fun σ => E'.filterMap (· σ) := by
      rw [flatMap_map]
    refine first.trans ?_
    rw [captured]
    exact (hF.alike b hb).flatMap fun σ _ => .of_eq rfl
  · obtain ⟨c, hc, h⟩ := mem_flatMap.mp h
    exact hG.within c (hF.within b hb c hc) b' h

/-- Functions that each let all bindings pass or none, one after the other. -/
theorem foldl {P : Expr → Bool} {F : Expr → Bindings → List Bindings} {xs : List Expr}
    (h : ∀ x ∈ xs, Does o e (F x) (if P x then [some] else [])) :
    Does o e (fun b => xs.foldl (fun bs x => bs.flatMap (F x)) [b])
      (if xs.all P then [some] else []) := by
  have loop : ∀ (xs : List Expr) (bs : List Bindings), xs.foldl (fun bs x => bs.flatMap (F x)) bs =
      bs.flatMap fun b => xs.foldl (fun bs x => bs.flatMap (F x)) [b] := by
    intro xs
    induction xs with
    | nil => simp
    | cons x xs ih =>
      intro bs
      simp only [foldl_cons, flatMap_singleton]
      rw [ih, flatMap_assoc]
      exact flatMap_congr fun b _ => (ih (F x b)).symm
  induction xs with
  | nil => exact unit e
  | cons x xs ih =>
    have passed : (if (x :: xs).all P then [some] else []) = (if P x then [some] else []).flatMap
        fun φ : Capture.Step => (if xs.all P then [some] else []).map (φ >=> ·) := by
      rw [all_cons]
      cases P x <;> cases xs.all P <;> simp
    simp only [foldl_cons, flatMap_singleton, loop xs (F x _)]
    rw [passed]
    exact (h x (by simp)).comp (ih fun y hy => h y (by simp [hy]))

end Does

namespace Decision

open Spot (Stands)

variable {o : Prop} {e x : Expr} {at' : List Expr} {p : Spot} {s : Pat.Self} {d : Decision}
  {ds : List Decision}

theorem allHold_ops (h : p.reach? at' = some x) : allHold at' (s.ops.map (op p)).toList =
    (match s.ops with | none => true | some ops => ops.contains x.op) := by
  cases s.ops <;> simp [allHold, holds, h]

theorem allHold_arg (h : p.reach? at' = some x) :
    allHold at' (match s.arg with | .none => [] | a => [arg p a]) =
      (match s.arg with | .none => true | a => a == x.arg) := by
  cases s.arg <;> simp [allHold, holds, h]

theorem allHold_dtypes (h : p.reach? at' = some x) :
    allHold at' (s.dtypes.map (dtype p)).toList =
      (match s.dtypes with
        | none => true
        | some ds => ds.contains x.dtype || ds.contains x.dtype.scalar) := by
  cases s.dtypes <;> simp [allHold, holds, h]

/-- The tests of the conditions on a node itself. -/
theorem allHold_ofSelf (h : p.reach? at' = some x) :
    allHold at' (ofSelf s p).tests = s.admits x := by
  have harg := allHold_arg (s := s) h
  have hcount : allHold at'
      (if s.strict || s.required > 0 then [count p s.required s.strict] else []) =
      (decide (s.required ≤ x.src.length) && (!s.strict || decide (x.src.length = s.required))) := by
    cases s.strict <;> cases s.required <;> simp [allHold, holds, h]
    all_goals omega
  simp only [ofSelf, tests, allHold_append, Pat.Self.admits, allHold_ops h, hcount, allHold_dtypes h]
  grind

theorem noteAt_of_reach {n : String} (h : p.reach? at' = some x) :
    noteAt at' (n, p) = Capture.note n x := by
  funext σ
  rw [noteAt, h, Option.bind_some]

theorem ways_ofSelf (h : p.reach? at' = some x) : ways at' (ofSelf s p) =
    if s.admits x then [noteAll at' (s.name.map fun n => (n, p)).toList] else [] := by
  rw [← allHold_ofSelf h]
  rfl

theorem check_does (he : e.Distinct) (h : Stands e at' p x) :
    Does o e (s.check x) (ways at' (ofSelf s p)) := by
  rw [ways_ofSelf h.reach]
  unfold Pat.Self.check
  cases s.admits x with
  | false => simpa using Does.none e
  | true =>
    simp only [if_true]
    cases hn : s.name with
    | none => simpa [Pat.Self.bind?, hn] using Does.unit e
    | some n =>
      -- binding the name is the step that notes it
      have hbind : ∀ b, s.bind? x b = b.bind? n x := fun b => by rw [Pat.Self.bind?, hn]; rfl
      refine ⟨fun b hb => ?_, fun b hb b' hb' => ?_⟩
      · apply Alike.of_eq
        rw [hbind, ← Option.toList_map, Bindings.bind?_note he hb h.reaches]
        simp only [noteAt_of_reach h.reach, Option.map_some, Option.toList_some, noteAll_cons,
          noteAll_nil, Capture.fish_some, filterMap_cons]
        cases Capture.note n x b.find? <;> rfl
      · rw [hbind, Option.mem_toList] at hb'
        exact hb.bind? h.reaches hb'

/-- Conditions on a node itself, and then what is asked of a node that meets them. -/
theorem check_flatMap_does (he : e.Distinct) (h : Stands e at' p x) {F : Bindings → List Bindings}
    {E : List Capture.Step} (hF : s.admits x = true → Does o e F E) :
    Does o e (fun b => (s.check x b).flatMap F) (together [ways at' (ofSelf s p), E]) := by
  rw [together, together_single]
  cases hs : s.admits x with
  | false => simpa [ways_ofSelf h.reach, Pat.Self.check, hs] using Does.none e
  | true => exact (check_does he h).comp (hF hs)

theorem extendSeq_eq_flatMap (ps : List Pat) (es : List Expr) (bs : List Bindings) :
    Pat.extendSeq ps es bs = bs.flatMap fun b => Pat.extendSeq ps es [b] := by
  induction ps generalizing es bs with
  | nil => simp [Pat.extendSeq]
  | cons p ps ih =>
    cases bs with
    | nil => simp [Pat.extendSeq]
    | cons b bs =>
      cases es with
      | nil => simp [Pat.extendSeq]
      | cons e es =>
        simp only [Pat.extendSeq, flatMap_singleton]
        rw [ih, flatMap_assoc]
        exact flatMap_congr fun b _ => (ih es (p.extend e b)).symm

theorem inOrder_cons_ofSelf (h : InOrder ds) : InOrder (ofSelf s p :: ds) :=
  pairwise_cons.mpr ⟨fun _ _ _ => Nat.zero_le 1, h⟩

/-- The conditions on a node itself come before anything else. -/
theorem inOrder_ofSelf_single : InOrder [ofSelf s p, d] :=
  inOrder_cons_ofSelf (pairwise_singleton _ _)

/-- What is asked of patterns for the sources of a node. -/
structure Fit (o : Prop) (ps : List Pat) (x : Expr) : Prop where
  regular : ∀ q ∈ ps, q.Regular o
  ordered : o → Pat.InOrder ps
  length_le : ps.length ≤ x.src.length

theorem Fit.of_regular {alts : List (List Pat)} (h : (Pat.node s alts).Regular o)
    (hs : s.admits x = true) : ∀ ps ∈ alts, Fit o ps x := by
  intro ps hps
  refine ⟨fun q => h.node hps, h.inOrder hps, ?_⟩
  rw [h.length_eq hps]
  simp only [Pat.Self.admits, Bool.and_eq_true, decide_eq_true_eq] at hs
  exact hs.1.2

/-- A loop passes where its tests pass every source. -/
theorem ways_every {ts : List Probe} (h : p.reach? at' = some x) (hts : ts ≠ []) :
    ways at' (mk [.every p ts] [] none) =
      if x.src.all fun y => allHold (at' ++ [y]) ts then [some] else [] := by
  have hholds : allHold at' [.every p ts] =
      x.src.all fun y => allHold (at' ++ [y]) ts := by
    simp [allHold, holds, h, isEmpty_eq_false_iff.mpr hts]
  rw [ways, hholds, noteAll_nil]

mutual

/-- **The matches of a pattern** are the steps of its decisions, in order. -/
theorem ofPatAt_does (he : e.Distinct) : ∀ (q : Pat) {at' : List Expr} {p : Spot} {x : Expr}
    {d : Decision}, q.Regular o → ofPatAt q p = .ok d → Stands e at' p x →
    Does o e (q.extend x) (ways at' d)
  | .any ps, at', p, x, d, hq, h, hx => by
    rw [ofPatAt] at h
    obtain ⟨ds, hds, h⟩ := exists_ok_of_bind h
    cases choice_ok h
    simpa [ways, allHold, Pat.extend] using ofAny_does he ps (fun r => hq.any) hds hx
  | .leaf s, at', p, x, d, hq, h, hx => by
    rw [ofPatAt] at h
    cases h
    exact check_does he hx
  | .node s [], at', p, x, d, hq, h, hx => by cases h
  | .node s [ps], at', p, x, d, hq, h, hx => by
    rw [ofPatAt] at h
    obtain ⟨ds, hds, h⟩ := exists_ok_of_bind h
    have ordered : o → InOrder ds := fun ho =>
      inOrder_of_mirrors (ofSources_mirrors ps hds) (hq.inOrder (by simp) ho)
    refine .of_alike ?_ ((both_ways h).mono fun ho => inOrder_cons_ofSelf (ordered ho))
    have fit (hs : s.admits x = true) := Fit.of_regular hq hs ps (by simp)
    have := check_flatMap_does he hx fun hs =>
      ofSources_does he ps (fit hs).regular (fit hs).length_le hds hx
    simpa [together, Pat.extend, Pat.extendAlts] using this
  | .node s (ps :: qs :: rest), at', p, x, d, hq, h, hx => by
    rw [ofPatAt] at h
    · obtain ⟨ds, hds, h⟩ := exists_ok_of_bind h
      obtain ⟨d', hd', h⟩ := exists_ok_of_bind h
      cases choice_ok hd'
      refine .of_alike ?_ ((both_ways h).mono fun _ => inOrder_ofSelf_single)
      have := check_flatMap_does he hx fun hs => ofAlts_does he _ (Fit.of_regular hq hs) hds hx
      simpa [ways, allHold, Pat.extend] using this
    · simp
  | .each s q, at', p, x, d, hq, h, hx => by
    rw [ofPatAt] at h
    obtain ⟨inner, hinner, h⟩ := exists_ok_of_bind h
    obtain ⟨l, hl, h⟩ := exists_ok_of_bind h
    obtain ⟨ts, rfl, rfl⟩ := loop_ok hl
    have hts : ts ≠ [] := by
      rw [Ne, show ts = [] ↔ _ from (ofPatAt_mirrors q hinner).tests_eq rfl, hq.tests]
      simp
    refine .of_alike ?_ ((both_ways h).mono fun _ => inOrder_ofSelf_single)
    rw [map_cons, map_singleton, ways_every hx.reach hts]
    refine check_flatMap_does he hx fun _ => Does.foldl fun y hy => ?_
    exact ofPatAt_does he q hq.each hinner (hx.loop hy)

theorem ofAlts_does (he : e.Distinct) : ∀ (alts : List (List Pat)) {at' : List Expr} {p : Spot}
    {x : Expr} {ds : List Decision}, (∀ ps ∈ alts, Fit o ps x) → ofAlts alts p = .ok ds →
    Stands e at' p x → Does o e (Pat.extendAlts alts x.src) (waysAny at' ds)
  | [], at', p, x, ds, halts, h, hx => by
    cases h
    exact Does.none e
  | ps :: rest, at', p, x, ds, halts, h, hx => by
    rw [ofAlts] at h
    obtain ⟨cs, hcs, h⟩ := exists_ok_of_bind h
    obtain ⟨d, hd, h⟩ := exists_ok_of_bind h
    obtain ⟨ds, hds, h⟩ := exists_ok_of_bind h
    cases h
    have fit := halts ps (by simp)
    have ordered : o → InOrder cs := fun ho =>
      inOrder_of_mirrors (ofSources_mirrors ps hcs) (fit.ordered ho)
    have first := (ofSources_does he ps fit.regular fit.length_le hcs hx).of_alike
      ((both_ways hd).mono ordered)
    exact first.append (ofAlts_does he rest (fun qs hqs => halts qs (by simp [hqs])) hds hx)

theorem ofAny_does (he : e.Distinct) : ∀ (ps : List Pat) {at' : List Expr} {p : Spot} {x : Expr}
    {ds : List Decision}, (∀ q ∈ ps, q.Regular o) → ofAny ps p = .ok ds → Stands e at' p x →
    Does o e (Pat.extendAny ps x) (waysAny at' ds)
  | [], at', p, x, ds, hps, h, hx => by
    cases h
    exact Does.none e
  | q :: qs, at', p, x, ds, hps, h, hx => by
    rw [ofAny] at h
    obtain ⟨d, hd, h⟩ := exists_ok_of_bind h
    obtain ⟨ds, hds, h⟩ := exists_ok_of_bind h
    cases h
    exact (ofPatAt_does he q (hps q (by simp)) hd hx).append
      (ofAny_does he qs (fun r hr => hps r (by simp [hr])) hds hx)

theorem ofSources_does (he : e.Distinct) : ∀ (ps : List Pat) {at' : List Expr} {p : Spot} {x : Expr}
    {i : Nat} {ds : List Decision}, (∀ q ∈ ps, q.Regular o) → ps.length + i ≤ x.src.length →
    ofSources ps p i = .ok ds → Stands e at' p x →
    Does o e (fun b => Pat.extendSeq ps (x.src.drop i) [b]) (together (ds.map (ways at')))
  | [], at', p, x, i, ds, hps, hi, h, hx => by
    cases h
    exact Does.unit e
  | q :: qs, at', p, x, i, ds, hps, hi, h, hx => by
    rw [ofSources] at h
    obtain ⟨d, hd, h⟩ := exists_ok_of_bind h
    obtain ⟨ds, hds, h⟩ := exists_ok_of_bind h
    cases h
    rw [length_cons] at hi
    have hlt : i < x.src.length := by omega
    have first := ofPatAt_does he q (hps q (by simp)) hd (hx.source (getElem?_eq_getElem hlt))
    have rest := ofSources_does he qs (fun r hr => hps r (by simp [hr])) (by omega) hds hx
    rw [drop_eq_getElem_cons hlt]
    simp only [Pat.extendSeq, flatMap_singleton, extendSeq_eq_flatMap qs _ (q.extend _ _)]
    exact first.comp rest

end

/-! ## The first match -/

theorem bindAll_cons (n : String) (bs : List (String × Spot)) (b : Bindings) :
    bindAll e ((n, p) :: bs) b = (p.reach? [e]).bind fun x => (b.bind? n x).bind (bindAll e bs) := by
  rw [bindAll]
  cases p.reach? [e] with
  | none => rfl
  | some x =>
    rw [Option.bind_some, Bindings.bind?]
    cases b.find? n with
    | none => rfl
    | some y => cases h : x == y <;> simp [h]

/-- Binding names one after the other takes the steps that note them. -/
theorem bindAll_noteAll (he : e.Distinct) (bs : List (String × Spot)) {b : Bindings}
    (hb : b.Within e) : (bindAll e bs b).map Bindings.find? = noteAll [e] bs b.find? := by
  induction bs generalizing b with
  | nil => rfl
  | cons np bs ih =>
    obtain ⟨n, p⟩ := np
    rw [bindAll_cons, noteAll_cons]
    change _ = (noteAt [e] (n, p) b.find?).bind (noteAll [e] bs)
    cases hx : p.reach? [e] with
    | none => simp [noteAt, hx]
    | some x =>
      have reaches : e.Reaches x := by
        obtain ⟨y, hy, hyx⟩ := Option.bind_eq_some_iff.mp hx
        obtain rfl := mem_singleton.mp (mem_of_getElem? hy)
        exact Spot.reaches_of_descend hyx
      rw [noteAt_of_reach hx, ← Bindings.bind?_note he hb reaches, Option.bind_some]
      cases hb' : b.bind? n x with
      | none => rfl
      | some b' => exact ih (hb.bind? reaches hb')

variable {α : Type} (f : Capture → Option α)

mutual

/-- Running a decision goes through its steps until a capture is accepted. -/
theorem run_eq_findSome? (he : e.Distinct) : ∀ d : Decision, d.Settled →
    d.run e (fun b => f b.find?) = (ways [e] d).findSome? fun φ => (φ (Bindings.find? [])).bind f
  | mk ts bs none, _ => by
    have hf : (bindAll e bs []).bind (fun b => f b.find?) =
        (noteAll [e] bs (Bindings.find? [])).bind f := by
      rw [← bindAll_noteAll he bs (.nil e), Option.bind_map]
      rfl
    rw [run, ways, hf]
    split
    · rw [findSome?_singleton]
    · rfl
  | mk ts bs (some as), h => by
    obtain ⟨rfl, has⟩ := h
    rw [run, ways, runAny_eq_findSome? he as has]
    split
    · simp
    · rfl

theorem runAny_eq_findSome? (he : e.Distinct) : ∀ ds : List Decision, SettledAll ds →
    runAny e (fun b => f b.find?) ds =
      (waysAny [e] ds).findSome? fun φ => (φ (Bindings.find? [])).bind f
  | [], _ => rfl
  | d :: ds, h => by
    rw [runAny, waysAny, findSome?_append, run_eq_findSome? he d h.1,
      runAny_eq_findSome? he ds h.2]

end

/-- A loop over all sources that tests nothing passes no node that has sources. -/
theorem run_each_of_no_tests {q : Pat} (hq : q.tests = false) (hd : ofPat (.each s q) = .ok d)
    (he : e.src ≠ []) (f : Bindings → Option α) : d.run e f = none := by
  rw [ofPat, ofPatAt] at hd
  obtain ⟨inner, hinner, hd⟩ := exists_ok_of_bind hd
  obtain ⟨l, hl, hd⟩ := exists_ok_of_bind hd
  obtain ⟨ts, rfl, rfl⟩ := loop_ok hl
  obtain rfl : ts = [] := ((ofPatAt_mirrors q hinner).tests_eq rfl).mpr hq
  have refused : allHold [e] d.tests = false := by
    rw [tests_of_both hd]
    obtain ⟨x, hx⟩ := exists_mem_of_ne_nil _ he
    simp only [flatMap_cons, flatMap_nil, append_nil, allHold_append, tests]
    simp only [allHold, holds, Spot.reach?, Spot.descend]
    simpa using fun _ => ⟨x, hx⟩
  obtain ⟨ts, bs, _ | as⟩ := d <;> rw [run, if_neg (by simpa [tests] using refused)]

/-- The captures of the matches of a pattern are those that its decisions come to. -/
theorem matchesAt_alike {p : Pat} (he : e.Distinct) (hp : p.Formed) (hloops : p.LoopsTest)
    (hd : ofPat p = .ok d) : Alike p.ChoicesInOrder ((p.matchesAt e).map Bindings.find?)
      ((ways [e] d).filterMap (· (Bindings.find? []))) :=
  (ofPatAt_does he p ⟨hp, hloops, id⟩ hd (.root e)).alike [] (.nil e)

/-- **The decisions of a pattern find its first match**: a function of what the names stand for
gets its value at the first match that it accepts, where the choices of the pattern are in order.
In any case it gets its value at some match that it accepts, and it gets one if there is one. -/
theorem run_eq_first_match {p : Pat} (he : e.Distinct) (hp : p.Formed) (hloops : p.LoopsTest)
    (hd : ofPat p = .ok d) (f : Capture → Option α) :
    (p.ChoicesInOrder →
      d.run e (fun b => f b.find?) = (p.matchesAt e).findSome? fun b => f b.find?) ∧
    (∀ a, d.run e (fun b => f b.find?) = some a → ∃ b ∈ p.matchesAt e, f b.find? = some a) ∧
    (d.run e (fun b => f b.find?) = none ↔ ∀ b ∈ p.matchesAt e, f b.find? = none) := by
  have found : d.run e (fun b => f b.find?) =
      ((ways [e] d).filterMap (· (Bindings.find? []))).findSome? f := by
    rw [run_eq_findSome? f he d (ofPatAt_mirrors p hd).settled, ← List.head?_filterMap,
      ← List.head?_filterMap, List.filterMap_filterMap]
  have alike := matchesAt_alike he hp hloops hd
  refine ⟨fun hchoices => ?_, fun a h => ?_, ?_⟩
  · rw [found, ← alike.2 hchoices, List.findSome?_map]
    rfl
  · rw [found] at h
    obtain ⟨σ, hσ, hf⟩ := List.exists_of_findSome?_eq_some h
    obtain ⟨b, hb, rfl⟩ := List.mem_map.mp (alike.1.mem_iff.mpr hσ)
    exact ⟨b, hb, hf⟩
  · rw [found, List.findSome?_eq_none_iff]
    simp [← alike.1.mem_iff]

end Decision

/-! ## Like terms -/

namespace LikeTerms

open Decision Pat

/-- A term and a multiple of it. -/
def multiple : Pat := (var "x").add ((var "x").mul (cvar "c"))

/-- Two multiples of a term beside another term. -/
def multiples : Pat := ((var "y").add ((var "x").mul (cvar "c0"))).add ((var "x").mul (cvar "c1"))

/-- The choices of all simplifications that have decisions are in order, except for one, and their
loops test something. -/
theorem simplifications_in_order : ∀ r ∈ Full.rules.rules, (ofPat r.pat).isOk = true →
    r.pat.Formed ∧ r.pat.LoopsTest ∧ (r.pat.ChoicesInOrder ∨ r.pat = multiples) := by
  have formed : ∀ r ∈ Full.rules.rules, (ofPat r.pat).isOk = true →
      r.pat.Formed ∧ r.pat.LoopsTest := by decide +kernel
  have others : (Full.rules.rules.map Rule.pat).filter (fun p => ¬p.ChoicesInOrder) = [multiples] :=
    rfl
  intro r hr hok
  obtain ⟨hformed, hloops⟩ := formed r hr hok
  refine ⟨hformed, hloops, or_iff_not_imp_left.mpr fun hp => ?_⟩
  have hmem : r.pat ∈ (Full.rules.rules.map Rule.pat).filter fun p => ¬p.ChoicesInOrder :=
    mem_filter.mpr ⟨mem_map_of_mem hr, by simpa using hp⟩
  rw [others] at hmem
  exact mem_singleton.mp hmem

def n : Expr := .mk 0 .defineVar .int [] (.tuple [.text "n", .const (.int 0), .const (.int 7)]) .none

def two : Expr := .mk 1 .const .int [] (.const (.int 2)) .none

def double : Expr := .mk 2 .mul .int [two, n] .none .none

def triple : Expr := .mk 3 .add .int [double, n] .none .none

theorem triple_distinct : triple.Distinct :=
  Expr.distinct_of_listed [triple, double, two, n] (by simp)
    (by simp [show triple.src = [double, n] from rfl, show double.src = [two, n] from rfl,
      show two.src = [] from rfl, show n.src = [] from rfl]) (by decide)

/-- In `2 * n + n` the term is found to be `n`, though both the sum and the product are the other way
round than in the pattern. -/
theorem run_eq_first_match_triple : ∃ d, ofPat multiple = .ok d ∧ triple.Distinct ∧
    multiple.Formed ∧ multiple.LoopsTest ∧ multiple.ChoicesInOrder ∧
    d.run triple (fun b => (b.find? "x").map Expr.number) = some 0 := by
  obtain ⟨d, hd⟩ : ∃ d, ofPat multiple = .ok d := ⟨_, rfl⟩
  refine ⟨d, hd, triple_distinct, by decide, by decide, by decide, ?_⟩
  have first := (run_eq_first_match triple_distinct (by decide) (by decide) hd
    fun σ => (σ "x").map Expr.number).1 (by decide)
  exact first.trans (by decide)

def three : Expr := .mk 3 .const .int [] (.const (.int 3)) .none

/-- The sum `n + 2 * 3 + 3 * 2`. -/
def sum : Expr :=
  .mk 7 .add .int [.mk 6 .add .int [n, .mk 4 .mul .int [two, three] .none .none] .none .none,
    .mk 5 .mul .int [three, two] .none .none] .none .none

/-- Where the choices are not in order the first match may be missed: in `n + 2 * 3 + 3 * 2` the
first match has the term `2`, and the decisions find the one with `3`.  And a loop that tests nothing
passes no node with sources, though each of them matches. -/
theorem found_second : ∃ d d', ofPat multiples = .ok d ∧ ofPat (.each {} wild) = .ok d' ∧
    (multiples.matchesAt sum).findSome? (fun b => (b.find? "x").map Expr.number) = some 1 ∧
    d.run sum (fun b => (b.find? "x").map Expr.number) = some 3 ∧
    ((Pat.each {} wild).matchesAt double).findSome? (fun _ => some ()) = some () ∧
    d'.run double (fun _ => some ()) = none :=
  ⟨_, _, rfl, rfl, by decide, by decide, by decide, by decide⟩

end LikeTerms

end LazyTensor
