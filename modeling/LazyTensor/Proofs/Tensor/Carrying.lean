import LazyTensor.Proofs.Tensor.Recall

/-!
# Tensors follow index maps

A tensor follows an index map if its layout selects, at each index, the element that the index map
stands for.  The movements of tensors keep this: where an index map is moved to another, a tensor
that follows the one is moved to a tensor that follows the other, and nothing fails.  So do programs
of movements.

## Main results

* `Tensor.Follows.apply`: a movement of a tensor.
* `Tensor.Follows.act`, `Tensor.Follows.runAll`: a step of a program of movements, and a whole run.
* `Tensor.full_spec`: a tensor of one number.
-/

namespace LazyTensor

open Radix GraphM List

/-! ## Computations that add to the store -/

/-- A computation for each item that only gives a value. -/
theorem mapM_eq_pure {m : Type → Type} [Monad m] [LawfulMonad m] {α β : Type} {xs : List α}
    {f : α → m β} {q : α → β} (h : ∀ x ∈ xs, f x = pure (q x)) : xs.mapM f = pure (xs.map q) := by
  induction xs with
  | nil => simp
  | cons x xs ih => simp [h x (by simp), ih fun y hy => h y (by simp [hy])]

namespace Session

variable {α β : Type} {env : Env} {s : Session} {x : SessionM α} {Q : α → Store → Prop}

theorem liftM_pure (a : α) : (liftM (pure a : GraphM α) : SessionM α) = pure a := rfl

/-- The session with another store. -/
def withStore (s : Session) (st : Store) : Session := { s with store := st }

@[simp] theorem withStore_store (s : Session) (st : Store) : (s.withStore st).store = st := rfl

@[simp] theorem withStore_defaultFloat (s : Session) (st : Store) :
    (s.withStore st).defaultFloat = s.defaultFloat := rfl

/-- A computation succeeds, changes nothing but the store, and adds to it only. -/
def Builds (env : Env) (s : Session) (x : SessionM α) (Q : α → Store → Prop) : Prop :=
  ∃ a st, x env s = .ok a (s.withStore st) ∧ st.Remembers ∧ s.store.Onward st ∧ Q a st

namespace Builds

theorem pure {a : α} (hs : s.store.Remembers) (h : Q a s.store) : Builds env s (pure a) Q :=
  ⟨a, s.store, rfl, hs, .refl _, h⟩

theorem mono {R : α → Store → Prop} (h : Builds env s x Q)
    (hQR : ∀ a st, st.Remembers → s.store.Onward st → Q a st → R a st) : Builds env s x R := by
  obtain ⟨a, st, hrun, hst, honward, hq⟩ := h
  exact ⟨a, st, hrun, hst, honward, hQR a st hst honward hq⟩

theorem bind {f : α → SessionM β} {R : β → Store → Prop} (h : Builds env s x Q)
    (hf : ∀ a st, st.Remembers → s.store.Onward st → Q a st →
      Builds env (s.withStore st) (f a) R) : Builds env s (x >>= f) R := by
  obtain ⟨a, st, hrun, hst, honward, hq⟩ := h
  obtain ⟨b, st', hrun', hst', honward', hr⟩ := hf a st hst honward hq
  refine ⟨b, st', ?_, hst', honward.trans honward', hr⟩
  change EStateM.bind (x env) (fun a => f a env) s = _
  rw [EStateM.bind, hrun]
  exact hrun'

/-- A computation on graphs. -/
theorem lift {x : GraphM α} (h : Ensures False env s.store x fun a st =>
    st.Remembers ∧ s.store.Onward st ∧ Q a st) : Builds env s (liftM x : SessionM α) Q := by
  obtain ⟨a, st, hrun, hst, honward, hq⟩ := h.exists_ok
  refine ⟨a, st, ?_, hst, honward, hq⟩
  simp only [liftM, monadLift, MonadLift.monadLift, hrun]
  rfl

/-- A step that reads without a change. -/
theorem read {a : α} {f : α → SessionM β} {R : β → Store → Prop} (hx : x env s = .ok a s)
    (h : Builds env s (f a) R) : Builds env s (x >>= f) R := by
  obtain ⟨b, st, hrun, hst, honward, hr⟩ := h
  refine ⟨b, st, ?_, hst, honward, hr⟩
  change EStateM.bind (x env) (fun a => f a env) s = _
  rw [EStateM.bind, hx]
  exact hrun

/-- A step that leaves what it reads the next time, without a change. -/
theorem again {a : α} {st : Store} {f : α → SessionM β} {R : β → Store → Prop}
    (hx : x env s = .ok a (s.withStore st)) (honward : s.store.Onward st)
    (hx' : x env (s.withStore st) = .ok a (s.withStore st))
    (h : Builds env (s.withStore st) (x >>= f) R) : Builds env s (x >>= f) R := by
  obtain ⟨b, st', hrun, hst', honward', hr⟩ := h
  refine ⟨b, st', ?_, hst', honward.trans honward', hr⟩
  change EStateM.bind (x env) (fun a => f a env) _ = _ at hrun
  change EStateM.bind (x env) (fun a => f a env) s = _
  rw [EStateM.bind, hx'] at hrun
  rw [EStateM.bind, hx]
  exact hrun

end Builds

/-- A computation for each item that only reads. -/
theorem mapM_eq_ok {f : α → SessionM β} {q : α → β} {xs : List α}
    (h : ∀ x ∈ xs, f x env s = .ok (q x) s) : xs.mapM f env s = .ok (xs.map q) s := by
  induction xs with
  | nil => rfl
  | cons x xs ih =>
    rw [mapM_cons]
    change EStateM.bind (f x env) (fun y => EStateM.bind (xs.mapM f env) fun ys => .pure (y :: ys)) s = _
    rw [EStateM.bind, h x (by simp)]
    simp only [EStateM.bind, ih fun y hy => h y (by simp [hy]), map_cons]
    rfl

end Session

open Session (Builds)

/-! ## Tensors and index maps -/

namespace Movement

section Still

variable {β : Type} {k : Kind β} {still : Int → β}

/-- An argument of a kind of movement for which nothing moves along an axis. -/
structure Kind.Still (k : Kind β) (still : Int → β) : Prop where
  admits : ∀ s, 0 ≤ s → k.admits (s, still s) = true
  size : ∀ s, k.size (s, still s) = s
  source : ∀ s d, 0 ≤ d → d < s → k.source (s, still s) d = some d

theorem still_padding : padding.Still fun _ => (0, 0) where
  admits s _ := by simp [padding]
  size s := by simp [padding]
  source s d h0 h1 := by simp [padding, h0, h1]

theorem still_shrinking : shrinking.Still fun s => (0, s) where
  admits s hs := by simpa [shrinking] using hs
  size s := by simp [shrinking]
  source s d _ _ := by simp [shrinking]

theorem still_expanding : expanding.Still fun s => s where
  admits s hs := by simpa [expanding] using hs
  size _ := rfl
  source s d h0 h1 := by
    simp only [expanding]
    split
    · congr 1
      omega
    · rfl

theorem still_flipping : flipping.Still fun _ => false where
  admits _ _ := rfl
  size _ := rfl
  source _ _ _ _ := rfl

theorem still_tiling : tiling.Still fun _ => 1 where
  admits _ _ := rfl
  size := mul_one
  source _ _ h0 h1 := congrArg some (Int.emod_eq_of_lt h0 h1)

theorem zip_still (S : List Int) : S.zip (S.map still) = S.map fun s => (s, still s) := by
  conv_lhs => rw [← map_id S, map_map, zip_map']
  rfl

theorem Kind.Still.each_eq (h : k.Still still) {S i : List Int} (hi : IsIndex S i) :
    each k.source (S.zip (S.map still)) i = some i := by
  rw [zip_still, each_map]
  have hid : IsIndex (S.map id) i := by simpa using hi
  exact each_self (fun s _ d h0 h1 => h.source s d h0 h1) hid

theorem Kind.Still.map_size (h : k.Still still) (S : List Int) :
    (S.zip (S.map still)).map k.size = S := by
  rw [zip_still, map_map]
  exact (map_congr_left fun s _ => h.size s).trans (map_id S)

theorem Kind.Still.along (h : k.Still still) {S : List Int} {w : Movement}
    (hw : k.along? S (S.map still) = some w) :
    w.shape = S ∧ ∀ i, IsIndex S i → w.source i = some i := by
  obtain ⟨-, rfl⟩ := along?_eq_some.mp hw
  exact ⟨h.map_size S, fun i hi => h.each_eq hi⟩

theorem each_split {f : β → Int → Option Int} (zs zs' : List β) (i : List Int) :
    each f (zs ++ zs') i = (each f zs (i.take zs.length)).bind fun x =>
      (each f zs' (i.drop zs.length)).map (x ++ ·) := by
  induction zs generalizing i with
  | nil => simp [each]
  | cons z zs ih =>
    cases i with
    | nil => simp [each]
    | cons d ds =>
      simp only [cons_append, length_cons, take_succ_cons, drop_succ_cons, each, ih]
      cases f z d <;> simp [Option.map_bind, Function.comp_def, Option.bind_map]

theorem each_congr {f f' : β → Int → Option Int} {zs : List β} (h : ∀ z ∈ zs, f z = f' z)
    (i : List Int) : each f zs i = each f' zs i := by
  induction zs generalizing i with
  | nil => cases i <;> rfl
  | cons z zs ih =>
    cases i with
    | nil => rfl
    | cons d ds => rw [each, each, h z (by simp), ih fun y hy => h y (by simp [hy])]

theorem exists_each {f : β → Int → Option Int} (h : ∀ z d, ∃ x, f z d = some x) {zs : List β}
    {i : List Int} (hlen : i.length = zs.length) : ∃ j, each f zs i = some j := by
  induction zs generalizing i with
  | nil =>
    rw [length_eq_zero_iff.mp hlen]
    exact ⟨_, rfl⟩
  | cons z zs ih =>
    obtain ⟨d, ds, rfl⟩ := exists_cons_of_length_eq_add_one hlen
    obtain ⟨x, hx⟩ := h z d
    obtain ⟨js, hjs⟩ := ih (by simpa using hlen)
    exact ⟨_, each_cons_eq_some.mpr ⟨x, js, hx, hjs, rfl⟩⟩

/-- Movements of one shape with the same indices below. -/
structure Agrees (v w : Movement) : Prop where
  shape : v.shape = w.shape
  source : ∀ i, IsIndex w.shape i → v.source i = w.source i

/-- A kind of movement along the last axes, as one along all of them. -/
theorem along_front {K : Kind Int} {a : Int → β} (hstill : k.Still still)
    (hlast : ∀ z, K.admits z = true → k.admits (z.1, a z.2) = true ∧
      k.size (z.1, a z.2) = K.size z ∧ k.source (z.1, a z.2) = K.source z)
    {P R ns : List Int} {w : Movement} (hP : ∀ s ∈ P, 0 ≤ s) (hw : K.along? R ns = some w) :
    ∃ v, k.along? (P ++ R) (P.map still ++ ns.map a) = some v ∧ v.Agrees (w.behind P) := by
  obtain ⟨⟨hlen, hadm⟩, rfl⟩ := Kind.along?_eq_some.mp hw
  have hzip : (P ++ R).zip (P.map still ++ ns.map a) =
      P.zip (P.map still) ++ (R.zip ns).map fun z => (z.1, a z.2) := by
    rw [zip_append (by simp), @zip_map_right _ _ _ _ R ns]
    rfl
  have hfront : (P.zip (P.map still)).length = P.length := by simp
  have hall : ∀ z ∈ (P ++ R).zip (P.map still ++ ns.map a), k.admits z = true := by
    intro z hz
    rw [hzip, mem_append] at hz
    rcases hz with hz | hz
    · rw [zip_still] at hz
      obtain ⟨s, hs, rfl⟩ := mem_map.mp hz
      exact hstill.admits s (hP s hs)
    · obtain ⟨z', hz', rfl⟩ := mem_map.mp hz
      exact (hlast z' (hadm z' hz')).1
  refine ⟨_, Kind.along?_eq_some.mpr ⟨⟨by simp [hlen], hall⟩, rfl⟩, ?_, fun i hi => ?_⟩ <;> dsimp only
  · rw [hzip, map_append, hstill.map_size, map_map]
    exact congrArg (P ++ ·) (map_congr_left fun z hz => (hlast z (hadm z hz)).2.1)
  · rw [hzip, each_split, hfront, hstill.each_eq (isIndex_behind hi).1, Option.bind_some, each_map,
      each_congr fun z hz => (hlast z (hadm z hz)).2.2]
    rfl

/-- The same elements along the last axes, as the same elements along all of them. -/
theorem regrouping_front {P R T : List Int} {w : Movement} (hP : ∀ s ∈ P, 0 ≤ s)
    (hR : ∀ s ∈ R, 0 ≤ s) (hw : regrouping? R T = some w) :
    ∃ v, regrouping? (P ++ R) (P ++ T) = some v ∧ v.Agrees (w.behind P) := by
  obtain ⟨⟨hprod, hT⟩, ⟨⟩⟩ := Option.ite_none_right_eq_some.mp hw
  have hv : regrouping? (P ++ R) (P ++ T) = some _ := if_pos ⟨by simp [hprod], fun t ht => by
    rcases mem_append.mp ht with ht | ht
    · exact hP t ht
    · exact hT t ht⟩
  refine ⟨_, hv, rfl, fun i hi => congrArg some ?_⟩
  obtain ⟨hp, hq⟩ := isIndex_behind hi
  -- the index below stands at the same position
  obtain ⟨⟨h0, h1⟩, -⟩ := Stack.position_spec hprod hq
  have hpos := View.pos_of_prod_ne_zero hR (h0.trans_lt h1).ne'
  have hdigits := ofDigits_digits (S := R.reverse) (by simpa using hpos) h0 (by simpa using h1)
  have hfront : Shape.Aligned P P (i.take P.length) (i.take P.length) := ⟨hp, hp, rfl, rfl⟩
  have hlast : Shape.Aligned R T (Shape.index R (ofDigits T.reverse (i.drop P.length).reverse))
      (i.drop P.length) :=
    ⟨Shape.isIndex_index hpos _, hq, hprod, by rw [Shape.index, reverse_reverse, hdigits]⟩
  have := (hfront.append hlast).index_eq
  rwa [take_append_drop] at this

end Still

/-- Along each axis, the number of the copy and the index inside it. -/
theorem copies_below {ps : List ((Int × Int) × Int)}
    (hps : ∀ p ∈ ps, 0 ≤ p.1.1 ∧ 0 ≤ p.2 ∧ p.2 < p.1.1 * p.1.2) :
    Shape.Aligned (ps.flatMap fun p => [p.1.2, p.1.1]) (ps.flatMap fun p => [p.1.2 * p.1.1])
      (ps.flatMap fun p => [p.2 / p.1.1, p.2 % p.1.1]) (ps.flatMap fun p => [p.2]) ∧
    each expanding.source (ps.flatMap fun p => [(1, p.1.2), (p.1.1, p.1.1)])
      (ps.flatMap fun p => [p.2 / p.1.1, p.2 % p.1.1]) = some (ps.flatMap fun p => [0, p.2 % p.1.1]) ∧
    Shape.Aligned (ps.flatMap fun p => [p.1.1]) (ps.flatMap fun p => [1, p.1.1])
      (ps.flatMap fun p => [p.2 % p.1.1]) (ps.flatMap fun p => [0, p.2 % p.1.1]) := by
  have hcopy : ∀ p ∈ ps, (0 ≤ p.2 / p.1.1 ∧ p.2 / p.1.1 < p.1.2) ∧
      0 ≤ p.2 % p.1.1 ∧ p.2 % p.1.1 < p.1.1 := by
    intro p hp
    obtain ⟨hs, h0, h1⟩ := hps p hp
    have hpos : 0 < p.1.1 := lt_of_le_of_ne hs fun h => by
      rw [← h, zero_mul] at h1
      omega
    exact ⟨⟨Int.ediv_nonneg h0 hs, Int.ediv_lt_of_lt_mul hpos (by rwa [mul_comm])⟩,
      Int.emod_nonneg _ hpos.ne', Int.emod_lt_of_pos _ hpos⟩
  refine ⟨.flatMap fun p hp => ?_, each_flatMap fun p hp => ?_, .flatMap fun p hp => ?_⟩
  · have := (Shape.Aligned.split (hcopy p hp).1 (hcopy p hp).2).symm
    rwa [Int.ediv_mul_add_emod] at this
  · have := (hcopy p hp).2
    by_cases h : p.1.1 = 1
    · simp [each, expanding, h]
    · simp [each, expanding, h]
  · have hinside : Shape.Aligned [p.1.1] [p.1.1] [p.2 % p.1.1] [p.2 % p.1.1] :=
      .cons (hcopy p hp).2 ⟨.nil, .nil, rfl, rfl⟩
    exact Shape.Aligned.one.symm.append hinside

/-- Copies one after another, by an axis of size one that is repeated before each axis. -/
theorem tiling_by_parts {S ns : List Int} {w : Movement} (hS : ∀ s ∈ S, 0 ≤ s)
    (hw : tiling.along? S ns = some w) :
    ∃ w₁ w₂ w₃, regrouping? S (S.flatMap fun s => [1, s]) = some w₁ ∧
      expanding.along? (S.flatMap fun s => [1, s]) ((ns.zip S).flatMap fun z => [z.1, z.2]) =
        some w₂ ∧ w₂.shape = (ns.zip S).flatMap (fun z => [z.1, z.2]) ∧
      regrouping? ((ns.zip S).flatMap fun z => [z.1, z.2]) ((ns.zip S).map fun z => z.1 * z.2) =
        some w₃ ∧ (w₃.after (w₂.after w₁)).Agrees w := by
  obtain ⟨⟨hlen, hadm⟩, rfl⟩ := Kind.along?_eq_some.mp hw
  obtain ⟨zs, rfl, rfl⟩ : ∃ zs : List (Int × Int), S = zs.map Prod.fst ∧ ns = zs.map Prod.snd :=
    ⟨S.zip ns, (map_fst_zip hlen.ge).symm, (map_snd_zip hlen.le).symm⟩
  have hzip : (zs.map Prod.fst).zip (zs.map Prod.snd) = zs := by
    rw [zip_map']
    exact map_id zs
  have hback : (zs.map Prod.snd).zip (zs.map Prod.fst) = zs.map Prod.swap := zip_map' ..
  rw [hzip] at hadm
  have hzs : ∀ z ∈ zs, 0 ≤ z.1 ∧ 0 ≤ z.2 := fun z hz =>
    ⟨hS z.1 (mem_map_of_mem hz), by simpa [tiling] using hadm z hz⟩
  have hparts : ∀ z ∈ zs, ([z.2, z.1] : List Int).length = [1, z.1].length := fun _ _ => rfl
  simp only [hzip, hback, flatMap_map, map_map, Function.comp_def, Prod.fst_swap, Prod.snd_swap]
  have hprod₁ : (zs.map Prod.fst).prod = (zs.flatMap fun z => [1, z.1]).prod := by
    simp [flatMap_def, prod_flatten, Function.comp_def]
  have hnn₁ : ∀ t ∈ zs.flatMap fun z => [1, z.1], 0 ≤ t := fun t ht => by
    obtain ⟨z, hz, ht⟩ := mem_flatMap.mp ht
    have := hzs z hz
    simp only [mem_cons, not_mem_nil, or_false] at ht
    omega
  have hadm₂ : ∀ y ∈ (zs.flatMap fun z => [1, z.1]).zip (zs.flatMap fun z => [z.2, z.1]),
      expanding.admits y = true := fun y hy => by
    rw [zip_flatMap hparts] at hy
    obtain ⟨z, hz, hy⟩ := mem_flatMap.mp hy
    have := hzs z hz
    simp only [zip_cons_cons, zip_nil_left, mem_cons, not_mem_nil, or_false] at hy
    rcases hy with rfl | rfl <;> simp [expanding, this]
  have hprod₃ : (zs.flatMap fun z => [z.2, z.1]).prod = (zs.map fun z => z.2 * z.1).prod := by
    simp [flatMap_def, prod_flatten, Function.comp_def]
  have hnn₃ : ∀ t ∈ zs.map fun z => z.2 * z.1, 0 ≤ t := fun t ht => by
    obtain ⟨z, hz, rfl⟩ := mem_map.mp ht
    exact mul_nonneg (hzs z hz).2 (hzs z hz).1
  refine ⟨_, _, _, if_pos ⟨hprod₁, hnn₁⟩, Kind.along?_eq_some.mpr ⟨⟨?_, hadm₂⟩, rfl⟩, ?_,
    if_pos ⟨hprod₃, hnn₃⟩, ?_, fun i hi => ?_⟩
  · simp [length_flatMap]
  · exact map_snd_zip (by simp [length_flatMap])
  · exact map_congr_left fun z _ => mul_comm _ _
  -- along each axis, the number of the copy and the index inside it
  obtain ⟨ps, rfl, rfl⟩ : ∃ ps : List ((Int × Int) × Int),
      zs = ps.map Prod.fst ∧ i = ps.map Prod.snd := by
    have := hi.length_eq
    rw [length_map] at this
    exact ⟨zs.zip i, (map_fst_zip this.le).symm, (map_snd_zip this.ge).symm⟩
  have hps : ∀ p ∈ ps, 0 ≤ p.2 ∧ p.2 < p.1.1 * p.1.2 := by
    simpa [IsIndex, tiling, forall₂_map_left_iff, forall₂_map_right_iff, forall₂_same] using hi
  obtain ⟨h₃, h₂, h₁⟩ := copies_below fun p hp => ⟨(hzs p.1 (mem_map_of_mem hp)).1, hps p hp⟩
  have hbelow : each tiling.source (ps.flatMap fun p => [p.1]) (ps.flatMap fun p => [p.2]) =
      some (ps.flatMap fun p => [p.2 % p.1.1]) := each_flatMap fun _ _ => rfl
  have hpair : (ps.flatMap fun p => [1, p.1.1]).zip (ps.flatMap fun p => [p.1.2, p.1.1]) =
      ps.flatMap fun p => [(1, p.1.2), (p.1.1, p.1.1)] := zip_flatMap fun _ _ => rfl
  simp only [after_source, Option.bind_some, map_eq_flatMap, flatMap_assoc, flatMap_cons, flatMap_nil,
    append_nil, h₃.index_eq, hpair, h₂, h₁.index_eq, hbelow]

end Movement

namespace Tensor

variable {st : Store} {t : Tensor} {b : Expr} {S : List Int} {g : List Int → Option (List Int)}
  {m w : Movement}

/-- A tensor over a base of the given shape that shows, at each index, what an index map leads to. -/
structure Follows (st : Store) (t : Tensor) (b : Expr) (S : List Int)
    (g : List Int → Option (List Int)) (m : Movement) : Prop where
  holds : st.Holds t.node
  placed : t.node.Placed st
  base : t.node.base = b
  stack : ∃ l : Stack, st.layouts[t.node.number]? = some (some l.layout) ∧ l.shape = m.shape ∧
    ∀ i, IsIndex m.shape i → l.element? S i = (m.source i).bind g

namespace Follows

theorem mono {st' : Store} (h : t.Follows st b S g m) (hst : st.Onward st') :
    t.Follows st' b S g m := by
  obtain ⟨l, hl, hshape, helement⟩ := h.stack
  exact ⟨hst.holds h.holds, h.placed.mono hst, h.base, l, hst.layouts hl, hshape, helement⟩

/-- Index maps of one shape that lead to the same. -/
theorem congr {n : Movement} (h : t.Follows st b S g m) (hshape : n.shape = m.shape)
    (hsource : ∀ i, IsIndex m.shape i → (n.source i).bind g = (m.source i).bind g) :
    t.Follows st b S g n := by
  obtain ⟨l, hl, hlshape, helement⟩ := h.stack
  refine ⟨h.holds, h.placed, h.base, l, hl, hlshape.trans hshape.symm, fun i hi => ?_⟩
  rw [hshape] at hi
  rw [helement i hi, hsource i hi]

theorem nonneg (h : t.Follows st b S g m) : ∀ s ∈ m.shape, 0 ≤ s := by
  obtain ⟨l, -, hshape, -⟩ := h.stack
  rw [← hshape]
  exact l.canonical.nonneg

variable {env : Env} {k : Nat} {s : Session}

theorem shape (h : t.Follows s.store b S g m) : t.shape env s = .ok (m.shape.map .int) s := by
  obtain ⟨l, hl, hshape, -⟩ := h.stack
  have hrun : Ensures False env s.store t.node.shape fun r st =>
      r = m.shape.map .int ∧ st = s.store := by
    refine .bind (.bind ((Expr.layout?_known hl).mono ?_))
    rintro _ _ ⟨rfl, rfl⟩
    rw [← hshape, ← l.shapeOfViews_layout]
    exact ⟨rfl, rfl⟩
  obtain ⟨_, _, hok, rfl, rfl⟩ := hrun.exists_ok
  simp only [Tensor.shape, liftM, monadLift, MonadLift.monadLift, hok]

theorem noteOrigin_spec (hs : s.store.Remembers) (e : Expr) :
    Builds env s (noteOrigin e) fun _ _ => True := by
  refine .read (a := s) rfl ?_
  cases s.origin with
  | none => exact .pure hs trivial
  | some o =>
    refine .lift (Ensures.modify_iff.mpr ?_)
    obtain ⟨hnoted, honward⟩ := hs.of_same (t := { s.store with
      metadata := s.store.metadata.insert e.number [o] }) rfl rfl rfl rfl
    exact ⟨hnoted, honward, trivial⟩

theorem device_spec {e : Expr} (hs : s.store.Remembers) (he : s.store.Holds e)
    (hplaced : e.Placed s.store) : Builds env s (liftM e.device : SessionM Arg) fun _ _ => True := by
  refine .lift (.bind ((Expr.device?_spec hplaced hs he).mono ?_))
  rintro _ st ⟨⟨a, rfl⟩, hst, honward, -⟩
  exact .pure ⟨hst, honward, trivial⟩

/-- **A movement of a tensor.** -/
theorem apply {x : Move} (hs : s.store.Remembers) (h : t.Follows s.store b S g m)
    (hx : x.on? m.shape = some w) :
    Builds (Env.level (k + 1)) s (t.apply1 fun e => e.move x.op x.arg) fun t' st =>
      t'.Follows st b S g (w.after m) := by
  obtain ⟨l, hl, hshape, helement⟩ := h.stack
  rw [← hshape] at hx
  refine .bind (.lift (Expr.move_spec hs h.holds hl hx)) ?_
  rintro r st hst - ⟨hr, hbase, hplaced, l', hl', hmoved⟩
  have hfollows : Follows st { node := r, tracked := trackedFrom [t] } b S g (w.after m) := by
    refine ⟨hr, hplaced h.placed, hbase.trans h.base, l', hl', hmoved.shape, fun i hi => ?_⟩
    rw [hmoved.element S i hi, Movement.after_source, Option.bind_assoc]
    refine Option.bind_congr fun j hj => helement j ?_
    rw [← hshape]
    exact l.into_of_on hx i j hi hj
  refine .bind (noteOrigin_spec hst r) ?_
  rintro - st' hst' honward -
  refine .bind (device_spec hst' (honward.holds hr) (hfollows.placed.mono honward)) ?_
  rintro - st'' hst'' honward' -
  exact .pure hst'' (hfollows.mono (honward.trans honward'))

/-- A movement that leaves every index where it is. -/
theorem of_still (h : t.Follows st b S g m) (hshape : w.shape = m.shape)
    (hsource : ∀ i, IsIndex m.shape i → w.source i = some i) : t.Follows st b S g (w.after m) :=
  h.congr hshape fun i hi => by rw [Movement.after_source, hsource i hi, Option.bind_some]

/-- The same elements in another shape. -/
theorem reshape {T : List Int} (hs : s.store.Remembers) (h : t.Follows s.store b S g m)
    (hw : Movement.regrouping? m.shape T = some w) :
    Builds (Env.level (k + 1)) s (t.reshape (T.map .int)) fun t' st =>
      t'.Follows st b S g (w.after m) := by
  obtain ⟨⟨-, hT⟩, hweq⟩ := Option.ite_none_right_eq_some.mp hw
  have hknown : (T.map Dim.int).filter (fun d => d == .int (-1)) = [] := by
    rw [filter_eq_nil_iff]
    intro d hd
    obtain ⟨n, hn, rfl⟩ := mem_map.mp hd
    have := hT n hn
    rw [Dim.int_beq_int, beq_iff_eq]
    omega
  refine .read h.shape ?_
  simp only [hknown, length_nil, isEmpty_nil, if_true]
  rw [if_neg (by decide), pure_bind, Dim.map_int_beq]
  split_ifs with heq
  · refine .pure hs (h.of_still ?_ fun i hi => ?_)
    · rw [← Option.some.inj hweq]
      exact of_decide_eq_true heq
    · obtain rfl : T = m.shape := of_decide_eq_true heq
      rw [← Option.some.inj hweq]
      exact congrArg some (Stack.position_spec rfl hi).2
  · exact h.apply (x := .reshape T) hs hw

theorem reshape_same (hs : s.store.Remembers) (h : t.Follows s.store b S g m) :
    Builds (Env.level (k + 1)) s (t.reshape (m.shape.map .int)) fun t' st =>
      t'.Follows st b S g m := by
  have hw : Movement.regrouping? m.shape m.shape = some _ := if_pos ⟨rfl, h.nonneg⟩
  refine (h.reshape hs hw).mono fun t' st _ _ ht' => ht'.congr rfl fun i hi => ?_
  rw [Movement.after_source]
  dsimp only
  rw [(Stack.position_spec (T := m.shape) rfl hi).2, Option.bind_some]

/-- A part. -/
theorem shrink {bounds : List (Option (Dim × Dim))} {cs : List (Int × Int)}
    (hs : s.store.Remembers) (h : t.Follows s.store b S g m)
    (hbounds : (bounds.zip (m.shape.map Dim.int)).map (fun (b, s) => b.getD (0, s)) =
      cs.map Dim.pair) (hw : Movement.shrinking.along? m.shape cs = some w) :
    Builds (Env.level (k + 1)) s (t.shrink bounds) fun t' st =>
      t'.Follows st b S g (w.after m) := by
  refine .read h.shape ?_
  dsimp only
  rw [hbounds]
  split_ifs with heq
  · have hfull : cs = m.shape.map fun s => (0, s) := by
      have := eq_map_of_beq (fun _ _ => Dim.eq_pair_of_beq) heq
      have hinj : Function.Injective Dim.pair := fun x y hxy =>
        Prod.ext (Dim.int_injective (congrArg Prod.fst hxy)) (Dim.int_injective (congrArg Prod.snd hxy))
      refine (map_injective_iff.mpr hinj (this.symm.trans ?_))
      rw [map_map, map_map]
      rfl
    subst hfull
    obtain ⟨hshape, hsource⟩ := Movement.still_shrinking.along hw
    exact .pure hs (h.of_still hshape hsource)
  · exact h.apply (x := .shrink cs) hs hw

/-- Zeros around. -/
theorem pad {amounts : List (Option (Dim × Dim))} {cs : List (Int × Int)} (hs : s.store.Remembers)
    (h : t.Follows s.store b S g m) (hamounts : amounts.map (·.getD (0, 0)) = cs.map Dim.pair)
    (hw : Movement.padding.along? m.shape cs = some w) :
    Builds (Env.level (k + 1)) s (t.padSome amounts) fun t' st =>
      t'.Follows st b S g (w.after m) := by
  obtain ⟨⟨hlen, hadm⟩, -⟩ := Movement.Kind.along?_eq_some.mp hw
  have hnn : ∀ c ∈ cs, 0 ≤ c.1 ∧ 0 ≤ c.2 := by
    intro c hc
    rw [← map_snd_zip hlen.le] at hc
    obtain ⟨z, hz, rfl⟩ := mem_map.mp hc
    simpa [Movement.padding] using hadm z hz
  have hup (f : Dim × Dim → List Dim) (hf : ∀ a b, f (a, b) = [a, b]) :
      ((cs.map Dim.pair).flatMap f).allM (fun d => do (← d.ge 0).resolve) =
        (Pure.pure true : GraphM Bool) := by
    have hflat : (cs.map Dim.pair).flatMap f = (cs.flatMap fun c => [c.1, c.2]).map Dim.int := by
      rw [flatMap_map, map_flatMap]
      exact flatMap_congr fun c _ => hf _ _
    rw [hflat, allM_eq_not_anyM_not, anyM_map_eq_pure (q := fun n => decide (n < 0)),
      any_eq_false.mpr]
    · rfl
    · intro n hn
      obtain ⟨c, hc, hn⟩ := mem_flatMap.mp hn
      have := hnn c hc
      simp only [mem_cons, not_mem_nil, or_false] at hn
      simp only [decide_eq_true_eq]
      omega
    · intro n _
      simp [← decide_not]
  have hkept (c : Int × Int) : (do
      let x ← liftM (Dim.largest [Dim.int c.1, 0])
      let y ← liftM (Dim.largest [Dim.int c.2, 0])
      Pure.pure (x, y) : SessionM (Dim × Dim)) = Pure.pure (Dim.pair (Max.max c.1 0, Max.max c.2 0)) := rfl
  have hzero : Const.eq (.float 0) (.int 0) = true := by decide +kernel
  rw [padSome, hamounts, padBy]
  dsimp only
  rw [hup _ fun _ _ => rfl, Session.liftM_pure]
  simp only [mapM_map, Function.comp_def, Dim.pair, hkept, mapM_pure, pure_bind, if_true]
  refine .bind (h.apply (x := .pad cs) hs hw) ?_
  rintro t' st hst - ht'
  rw [if_pos hzero]
  exact .pure hst ht'

theorem ndim (h : t.Follows s.store b S g m) : t.ndim env s = .ok m.shape.length s := by
  have hshape : t.shape env s = _ := h.shape
  change EStateM.bind (t.shape env) (fun S => EStateM.pure S.length) s = _
  rw [EStateM.bind, hshape]
  simp [EStateM.pure]

/-- No axis backwards. -/
theorem flip_nil (hs : s.store.Remembers) (h : t.Follows s.store b S g m) :
    Builds (Env.level (k + 1)) s (t.flip []) fun t' st => t'.Follows st b S g m := by
  have hflags : (range m.shape.length).map (fun i => ([] : List Nat).contains i) =
      m.shape.map fun _ => false := by
    simp [map_const']
  obtain ⟨w, hw⟩ : ∃ w, Movement.flipping.along? m.shape (m.shape.map fun _ => false) = some w :=
    Movement.Kind.exists_along (by simp) fun _ _ => rfl
  obtain ⟨hshape, hsource⟩ := Movement.still_flipping.along hw
  have hrun := (h.apply (k := k) (x := .flip (m.shape.map fun _ => false)) hs hw).mono
    fun t' st _ _ ht' => ht'.congr (n := m) hshape.symm fun i hi => by
      rw [Movement.after_shape, hshape] at hi
      rw [Movement.after_source, hsource i hi, Option.bind_some]
  refine .read (a := []) rfl (.read h.ndim ?_)
  rw [hflags]
  exact hrun

/-- Axes of size one repeated. -/
theorem expand {T : List Int} (hs : s.store.Remembers) (h : t.Follows s.store b S g m)
    (hw : Movement.expanding.along? m.shape T = some w) :
    Builds (Env.level (k + 1)) s (t.expand (T.map .int)) fun t' st =>
      t'.Follows st b S g (w.after m) := by
  obtain ⟨⟨hlen, hadm⟩, -⟩ := Movement.Kind.along?_eq_some.mp hw
  have hadm' : ∀ z ∈ m.shape.zip T, 0 ≤ z.2 ∧ (z.1 = z.2 ∨ z.1 = 1) := fun z hz => by
    simpa [Movement.expanding] using hadm z hz
  have hgiven (f : Dim × Option Dim → Dim) (hf : ∀ a d, f (a, some d) = if d == .int (-1) then a else d) :
      ((m.shape.map Dim.int).zip ((T.map Dim.int).map some)).map f = T.map Dim.int := by
    rw [map_map, zip_map, map_map]
    conv_rhs => rw [← map_snd_zip hlen.le, map_map]
    refine map_congr_left fun z hz => ?_
    have := (hadm' z hz).1
    rw [Function.comp_apply, Prod.map, Function.comp_apply, hf, Dim.int_beq_int, if_neg]
    · rfl
    · rw [beq_iff_eq]
      omega
  have hall (f : Dim × Dim → Bool) (hf : ∀ a b, f (a, b) = (a == b || a == 1)) :
      ((m.shape.map Dim.int).zip (T.map Dim.int)).all f = true := by
    rw [zip_map, all_map, all_eq_true]
    intro z hz
    rw [Function.comp_apply, Prod.map, hf]
    simpa using (hadm' z hz).2
  rw [Tensor.expand, expandSome]
  refine .read h.shape ?_
  simp only [length_map, hlen, Nat.max_self, Nat.sub_self, replicate_zero, nil_append]
  rw [hgiven _ fun _ _ => rfl, broadcastTo]
  refine .read h.shape ?_
  rw [Dim.map_int_beq]
  split_ifs with heq hlt
  · obtain rfl : m.shape = T := of_decide_eq_true heq
    have hid : Movement.expanding.along? m.shape (m.shape.map fun s => s) = some w := by
      rw [map_id']
      exact hw
    obtain ⟨hshape, hsource⟩ := Movement.still_expanding.along hid
    exact .pure hs (h.of_still hshape hsource)
  · simp [hlen] at hlt
  · simp only [length_map, hlen, Nat.sub_self, replicate_zero, nil_append]
    rw [hall _ fun _ _ => rfl, Bool.not_true, if_neg Bool.false_ne_true]
    refine .bind (h.reshape_same hs) ?_
    rintro t' st hst - ht'
    exact ht'.apply (x := .expand T) hst hw

/-! ### Movements of the last axes -/

section Last

variable {front : Nat} {xs : List Int}

theorem after_congr {u : Movement} (h : t.Follows st b S g (w.after m)) (hw : w.Agrees u) :
    t.Follows st b S g (u.after m) := by
  refine h.congr hw.shape.symm fun i hi => ?_
  rw [Movement.after_shape, hw.shape] at hi
  rw [Movement.after_source, Movement.after_source, hw.source i hi]

theorem bounds_none {n : Nat} {ys : List Dim} (h : ys.length = n) :
    ((replicate n none).zip ys).map (fun (b, s) => b.getD ((0 : Dim), s)) =
      ys.map fun s => (0, s) := by
  subst h
  induction ys with
  | nil => rfl
  | cons y ys ih => simpa [replicate_succ] using ih

theorem bounds_some {xs ys : List Dim} (h : xs.length = ys.length) :
    ((xs.map fun d => some ((0 : Dim), d)).zip ys).map (fun (b, s) => b.getD (0, s)) =
      xs.map fun d => (0, d) := by
  induction xs generalizing ys with
  | nil => rfl
  | cons x xs ih =>
    obtain ⟨y, ys, rfl⟩ := exists_cons_of_length_eq_add_one h.symm
    simpa using ih (by simpa using h)

theorem take (hs : s.store.Remembers) (h : t.Follows s.store b S g m)
    (hfront : front ≤ m.shape.length)
    (hw : Movement.taking.along? (m.shape.drop front) xs = some w) :
    Builds (Env.level (k + 1)) s (Movable.take t front (xs.map .int)) fun t' st =>
      t'.Follows st b S g ((w.behind (m.shape.take front)).after m) := by
  obtain ⟨v, hv, hagrees⟩ := Movement.along_front Movement.still_shrinking
    (a := fun n => (0, n)) (fun z hz => ⟨by simpa [Movement.taking, Movement.shrinking] using hz,
      by simp [Movement.taking, Movement.shrinking], by simp [Movement.taking, Movement.shrinking]⟩)
    (P := m.shape.take front) (fun n hn => h.nonneg n (mem_of_mem_take hn)) hw
  rw [take_append_drop] at hv
  refine (h.shrink hs ?_ hv).mono fun t' st _ _ ht' => ht'.after_congr hagrees
  obtain ⟨⟨hlen, -⟩, -⟩ := Movement.Kind.along?_eq_some.mp hw
  conv_lhs => rw [← take_append_drop front m.shape]
  rw [map_append, zip_append (by simp [hfront]), map_append, map_append]
  congr 1
  · rw [bounds_none (by simp [hfront]), map_map, map_map]
    rfl
  · rw [bounds_some (by simpa using hlen), map_map, map_map]
    rfl

theorem extend (hs : s.store.Remembers) (h : t.Follows s.store b S g m)
    (hfront : front ≤ m.shape.length)
    (hw : Movement.extending.along? (m.shape.drop front) xs = some w) :
    Builds (Env.level (k + 1)) s (Movable.extend t front (xs.map .int)) fun t' st =>
      t'.Follows st b S g ((w.behind (m.shape.take front)).after m) := by
  obtain ⟨v, hv, hagrees⟩ := Movement.along_front Movement.still_padding
    (a := fun n => (0, n)) (fun z hz => ⟨by simpa [Movement.extending, Movement.padding] using hz,
      by simp [Movement.extending, Movement.padding], by simp [Movement.extending, Movement.padding]⟩)
    (P := m.shape.take front) (fun n hn => h.nonneg n (mem_of_mem_take hn)) hw
  rw [take_append_drop] at hv
  refine (h.pad hs ?_ hv).mono fun t' st _ _ ht' => ht'.after_congr hagrees
  simp [map_const', hfront, Dim.pair, Function.comp_def]

theorem itemAt_of_lt {xs : List Dim} {n : Nat} (h : n < xs.length) :
    itemAt xs (n : Int) = Pure.pure xs[n] := by
  have hn : ¬(n : Int) < 0 := by omega
  simp only [itemAt, hn, if_false, Int.toNat_natCast, getElem?_eq_getElem h]
  rfl

/-- Extents that are not given are the old ones. -/
theorem sizes_given {old : List Int} {front : Nat} (h : front ≤ old.length) (xs : List Int)
    {f : Option Dim × Nat → SessionM Dim} (hsome : ∀ d i, f (some d, i) = Pure.pure d)
    (hnone : ∀ i : Nat, f (none, i) = liftM (itemAt (old.map Dim.int) (i : Int))) :
    (replicate front none ++ (xs.map Dim.int).map some).zipIdx.mapM f =
      Pure.pure ((old.take front ++ xs).map Dim.int) := by
  have hfront : (replicate front (none : Option Dim)).zipIdx = (range front).map fun i => (none, i) :=
    ext_getElem (by simp) fun i _ _ => by simp
  have hgiven (ys : List Dim) (n : Nat) : ((ys.map some).zipIdx n).mapM f = Pure.pure ys := by
    induction ys generalizing n with
    | nil => rfl
    | cons y ys ih => simp [zipIdx_cons, hsome, ih]
  have hold : (range front).mapM (fun i => f (none, i)) =
      Pure.pure ((old.take front).map Dim.int) := by
    rw [mapM_eq_pure (q := fun i => (old.map Dim.int).getD i 0)]
    · congr 1
      refine ext_getElem (by simp [h]) fun i hi _ => ?_
      have : i < old.length := by
        simp only [length_map, length_range] at hi
        omega
      simp [this]
    · intro i hi
      have : i < (old.map Dim.int).length := by
        rw [mem_range] at hi
        rw [length_map]
        omega
      rw [hnone, itemAt_of_lt this, getD_eq_getElem _ _ this]
      rfl
  rw [zipIdx_append, mapM_append, hfront, mapM_map, hgiven, Function.comp_def, hold, pure_bind,
    pure_bind, map_append]

theorem regroup (hs : s.store.Remembers) (h : t.Follows s.store b S g m)
    (hfront : front ≤ m.shape.length)
    (hw : Movement.regrouping? (m.shape.drop front) xs = some w) :
    Builds (Env.level (k + 1)) s (Movable.regroup t front (xs.map .int)) fun t' st =>
      t'.Follows st b S g ((w.behind (m.shape.take front)).after m) := by
  obtain ⟨v, hv, hagrees⟩ := Movement.regrouping_front (P := m.shape.take front)
    (fun n hn => h.nonneg n (mem_of_mem_take hn)) (fun n hn => h.nonneg n (mem_of_mem_drop hn)) hw
  rw [take_append_drop] at hv
  refine .read h.shape (.read (congrFun (congrFun
    (sizes_given hfront xs (fun _ _ => rfl) fun _ => rfl) _) s) ?_)
  exact (h.reshape hs hv).mono fun t' st _ _ ht' => ht'.after_congr hagrees

/-- Copies one after another. -/
theorem repeats (hs : s.store.Remembers) (h : t.Follows s.store b S g m)
    (hw : Movement.tiling.along? m.shape xs = some w) :
    Builds (Env.level (k + 1)) s (t.repeats (xs.map .int)) fun t' st =>
      t'.Follows st b S g (w.after m) := by
  obtain ⟨w₁, w₂, w₃, h₁, h₂, hshape, h₃, hagrees⟩ := Movement.tiling_by_parts h.nonneg hw
  obtain ⟨⟨hlen, -⟩, -⟩ := Movement.Kind.along?_eq_some.mp hw
  have hbase : (Shape.alignLeft [m.shape.map Dim.int, xs.map Dim.int]).headD [] =
      m.shape.map .int := by
    simp [Shape.alignLeft, hlen]
  have hspread : ((m.shape.map Dim.int).flatMap fun n => [1, n]) =
      (m.shape.flatMap fun n => [1, n]).map .int := by
    rw [flatMap_map, map_flatMap]
    rfl
  have hgrown (f : Dim × Dim → List Dim) (hf : ∀ r n, f (r, n) = [r, n]) :
      ((xs.map Dim.int).zip (m.shape.map Dim.int)).flatMap f =
        ((xs.zip m.shape).flatMap fun z => [z.1, z.2]).map .int := by
    rw [zip_map, flatMap_map, map_flatMap]
    exact flatMap_congr fun z _ => hf _ _
  have hjoined (f : Dim × Dim → SessionM Dim) (hf : ∀ r n, f (r, n) = liftM (r.mul n)) :
      ((xs.map Dim.int).zip (m.shape.map Dim.int)).mapM f =
        Pure.pure (((xs.zip m.shape).map fun z => z.1 * z.2).map .int) := by
    rw [zip_map, mapM_map, mapM_eq_pure (q := fun z => .int (z.1 * z.2)), map_map]
    · rfl
    · intro z _
      exact hf _ _
  obtain ⟨-, ⟨⟩⟩ := Option.ite_none_right_eq_some.mp h₁
  rw [Tensor.repeats]
  refine .read h.shape ?_
  rw [hbase]
  dsimp only
  rw [hspread, hgrown _ fun _ _ => rfl, hjoined _ fun _ _ => rfl, pure_bind]
  refine .bind (h.reshape hs h₁) ?_
  rintro t₁ st₁ hst₁ - f₁
  refine .bind (f₁.expand (s := s.withStore st₁) hst₁ h₂) ?_
  rintro t₂ st₂ hst₂ - f₂
  rw [← hshape] at h₃
  refine (f₂.reshape (s := s.withStore st₂) hst₂ h₃).mono fun t₃ st₃ _ _ f₃ => ?_
  rw [Movement.after_assoc] at hagrees
  rw [Movement.after_assoc, Movement.after_assoc] at f₃
  exact f₃.after_congr hagrees

/-- The axes in another order. -/
theorem permute {order : List Int} (hs : s.store.Remembers) (h : t.Follows s.store b S g m)
    (horder : Movement.Reorders order m.shape.length) :
    Builds (Env.level (k + 1)) s (t.permute order) fun t' st =>
      t'.Follows st b S g ((Movement.reordering m.shape order).after m) := by
  have haxis : ∀ a ∈ order, t.axis a false (Env.level (k + 1)) s = .ok a.toNat s := by
    intro a ha
    obtain ⟨n, hn, rfl⟩ := horder.exists_natCast ha
    have hresolve : resolveAxis (m.shape.length + 0) n = .ok n := by
      rw [resolveAxis, if_pos, if_neg (by omega), Int.toNat_natCast]
      simp only [Bool.and_eq_true, decide_eq_true_eq]
      omega
    change EStateM.bind (t.ndim (Env.level (k + 1))) _ s = _
    rw [EStateM.bind, h.ndim]
    simp only [if_false, Bool.false_eq_true, hresolve]
    rfl
  have hback : (order.map Int.toNat).map Int.ofNat = order := by
    rw [map_map]
    refine (map_congr_left fun a ha => ?_).trans (map_id order)
    obtain ⟨n, hn, rfl⟩ := horder.exists_natCast ha
    rfl
  have hsorted : (order.map Int.toNat).mergeSort (· ≤ ·) = range m.shape.length := by
    have hperm : (order.map Int.toNat).Perm (range m.shape.length) := by
      have := List.Perm.map Int.toNat horder
      rwa [map_map, show Int.toNat ∘ Int.ofNat = id from rfl, map_id] at this
    refine List.Perm.eq_of_pairwise (fun _ _ _ _ => le_antisymm) ?_
      (pairwise_lt_range.imp le_of_lt) ((mergeSort_perm ..).trans hperm)
    simpa using @pairwise_mergeSort _ (fun a b : Nat => decide (a ≤ b))
      (by simpa using fun _ _ _ => le_trans) (by simpa using le_total) (order.map Int.toNat)
  refine .read h.ndim (.read (Session.mapM_eq_ok haxis) ?_)
  rw [if_neg (not_not.mpr hsorted), hback]
  exact h.apply (x := .permute order) hs (if_pos horder)

/-- **An act on a tensor.** -/
theorem act {a : Act} {m' : Movement} (hs : s.store.Remembers) (h : t.Follows s.store b S g m)
    (hm : a.on? m = some m') :
    Builds (Env.level (k + 1)) s (a.run t) fun t' st => t'.Follows st b S g m' := by
  cases a with
  | tile n xs =>
    rw [Act.on?] at hm
    obtain ⟨hfront, w, hw, rfl⟩ := Movement.onLast?_eq_some.mp hm
    obtain ⟨v, hv, hagrees⟩ := Movement.along_front Movement.still_tiling (a := id)
      (fun z hz => ⟨hz, rfl, rfl⟩) (P := m.shape.take n)
      (fun x hx => h.nonneg x (mem_of_mem_take hx)) hw
    rw [take_append_drop, map_const', length_take_of_le hfront, map_id] at hv
    have hcounts : (replicate n 1 ++ xs).map Dim.int = replicate n 1 ++ xs.map .int := by
      rw [map_append, map_replicate]
      rfl
    change Builds _ s (t.repeats (replicate n 1 ++ xs.map .int)) _
    rw [← hcounts]
    exact (h.repeats hs hv).mono fun t' st _ _ ht' => ht'.after_congr hagrees
  | extend n xs =>
    rw [Act.on?] at hm
    obtain ⟨hfront, w, hw, rfl⟩ := Movement.onLast?_eq_some.mp hm
    exact h.extend hs hfront hw
  | take n xs =>
    rw [Act.on?] at hm
    obtain ⟨hfront, w, hw, rfl⟩ := Movement.onLast?_eq_some.mp hm
    exact h.take hs hfront hw
  | regroup n xs =>
    rw [Act.on?] at hm
    obtain ⟨hfront, w, hw, rfl⟩ := Movement.onLast?_eq_some.mp hm
    exact h.regroup hs hfront hw
  | permute order =>
    rw [Act.on?] at hm
    obtain ⟨horder, ⟨⟩⟩ := Option.ite_none_right_eq_some.mp hm
    exact h.permute hs horder

/-- **A program on a tensor.** -/
theorem runAll {acts : List Act} {m' : Movement} (hs : s.store.Remembers)
    (h : t.Follows s.store b S g m) (hm : Act.onAll? acts m = some m') :
    Builds (Env.level (k + 1)) s (Act.runAll acts t) fun t' st => t'.Follows st b S g m' := by
  induction acts generalizing s t m with
  | nil =>
    cases hm
    exact .pure hs h
  | cons a acts ih =>
    rw [Act.onAll?_cons] at hm
    obtain ⟨m₁, hm₁, hm⟩ := Option.bind_eq_some_iff.mp hm
    rw [Act.runAll_cons]
    exact .bind (h.act hs hm₁) fun t' st hst _ ht' => ih (s := s.withStore st) hst ht' hm

end Last

end Follows

/-! ### Constants -/

theorem resolve_spec {x : Option Arg} {site : Arg} (h : Device.resolve x = .ok site) :
    site.isNone = false ∧ site.nodes = [] := by
  match x with
  | none | some .none | some (.text _) =>
    cases h
    exact ⟨rfl, rfl⟩
  | some (.tuple ds) =>
    obtain ⟨names, hnames, h⟩ := exists_ok_of_bind h
    cases h
    refine ⟨rfl, filterMap_eq_nil_iff.mpr fun a ha => ?_⟩
    obtain ⟨d, -, hd⟩ := exists_mem_of_forall₂ (forall₂_of_mapM hnames) a ha
    split at hd <;> cases hd <;> rfl
  | some (.const _) | some (.op _) | some (.dtype _) | some (.bytes _) | some (.expr _)
  | some (.layout _) | some (.view _) | some (.info _) | some (.block _) | some (.kernel ..) => cases h

/-- Asked for its shape, a constant has that of a single element from then on. -/
theorem constant_follows {k : Nat} {s : Session} {t : Tensor} {d : DType} {c : Const}
    (hs : s.store.Remembers) (hconst : t.node.IsConstant d c) (he : s.store.Holds t.node)
    (hplaced : t.node.Placed s.store) :
    Builds (Env.level (k + 1)) s t.shape fun S st =>
      S = [] ∧ t.Follows st t.node [] (fun _ => some []) ⟨[], some⟩ := by
  refine .lift (.bind (.bind ((hconst.layout? hs he).mono ?_)))
  rintro _ st ⟨hst, honward, rfl, hl⟩
  refine .pure (.pure ⟨hst, honward, rfl, honward.holds he, hplaced.mono honward, hconst.base,
    ⟨[], View.ofShape [], View.canonical_dense (by simp)⟩, hl, rfl, fun i hi => ?_⟩)
  cases hi
  rfl

/-- **A tensor of one number** shows it at every index. -/
theorem full_spec {k : Nat} {s : Session} {T : List Int} {x : Float} {c : Const} {site : Arg}
    {wish : Wish} (hs : s.store.Remembers) (hT : ∀ n ∈ T, 0 ≤ n)
    (hsite : Device.resolve wish.device = .ok site)
    (hc : (Const.float x).ofDType? (wish.dtype.getD s.defaultFloat) = .ok c) :
    Builds (Env.level (k + 1)) s (full (T.map .int) (.float x) wish) fun t st =>
      ∃ e : Expr, e.IsConstant (wish.dtype.getD s.defaultFloat) c ∧
        t.Follows st e [] (fun _ => some []) ⟨T, some⟩ := by
  obtain ⟨hnone, hnodes⟩ := resolve_spec hsite
  rw [full]
  refine .bind (Q := fun t st => t.node.IsConstant (wish.dtype.getD s.defaultFloat) c ∧
    st.Holds t.node ∧ t.node.Placed st) ?_ ?_
  · have hmake : Builds (Env.level (k + 1)) s (do
        let e ← liftM (Expr.constArg (wish.dtype.getD s.defaultFloat) (.const (.float x)) (some site)
          (some []))
        pure { node := e, tracked := wish.tracked } : TensorM) fun t st =>
          t.node.IsConstant (wish.dtype.getD s.defaultFloat) c ∧ st.Holds t.node ∧
            t.node.Placed st := by
      refine .bind (.lift (Expr.constArg_spec hs hc hnone hnodes)) ?_
      rintro e st hst - ⟨he, hconst, hplaced⟩
      exact .pure hst ⟨hconst, he, hplaced⟩
    rw [ofConst, hsite]
    refine .read (a := site) rfl ?_
    cases hd : wish.dtype with
    | some d =>
      rw [hd] at hmake
      exact .read (a := d) rfl hmake
    | none =>
      rw [hd] at hmake
      exact .read (a := s.defaultFloat) rfl hmake
  rintro t st hst - ⟨hconst, he, hplaced⟩
  -- a single element, along axes of size one
  obtain ⟨_, st₁, hrun, hst₁, honward, rfl, h₁⟩ :=
    constant_follows (k := k) (s := s.withStore st) hst hconst he hplaced
  have hones : Movement.regrouping? [] (T.map fun _ => 1) = some _ := if_pos ⟨by simp, by simp⟩
  have hsizes : (T.map Dim.int).map (fun _ => (1 : Dim)) = (T.map fun _ => (1 : Int)).map Dim.int := by
    rw [map_map, map_map]
    rfl
  obtain ⟨w, hw⟩ : ∃ w, Movement.expanding.along? (T.map fun _ => 1) T = some w := by
    refine Movement.Kind.exists_along (by simp) fun z hz => ?_
    obtain ⟨h1, h2⟩ := of_mem_zip hz
    obtain ⟨_, -, h1⟩ := mem_map.mp h1
    simpa [Movement.expanding, ← h1] using hT _ h2
  rw [hsizes]
  refine .bind (.again hrun honward (h₁.shape (s := s.withStore st₁))
    (h₁.reshape (s := s.withStore st₁) hst₁ hones)) ?_
  rintro t₂ st₂ hst₂ - h₂
  refine (h₂.expand (s := s.withStore st₂) hst₂ hw).mono
    fun t₃ st₃ _ _ h₃ => ⟨t.node, hconst, h₃.congr ?_ fun i hi => ?_⟩ <;>
    obtain ⟨-, rfl⟩ := Movement.Kind.along?_eq_some.mp hw
  · exact (map_snd_zip (by simp)).symm
  · obtain ⟨j, hj⟩ : ∃ j, Movement.each Movement.expanding.source ((T.map fun _ => 1).zip T) i =
        some j := by
      refine Movement.exists_each (fun z d => ⟨_, rfl⟩) ?_
      have := hi.length_eq
      simpa using this.symm
    change some [] = ((Movement.each _ ((T.map fun _ => 1).zip T) i).bind _).bind _
    rw [hj]
    rfl

end Tensor

end LazyTensor
