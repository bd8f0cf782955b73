import LazyTensor.Proofs.Ensures

/-!
# Sharing of nodes

Nodes are shared by content: operation, type, sources, argument and tag, where sources count by
number and constants by value.  This equality is an equivalence that the hash of a content respects,
so a store answers for a content as for any equal one.

A store is sound if its numbers tell its nodes apart, if with a node it holds everything below it,
and if what it remembers of a node is so.  Making a node keeps a store sound and gives a node of the
content asked for.

## Main results

* `nodeOf_spec`: a node asked for has the content asked for.
-/

namespace LazyTensor

/-! ## Equality of lists, options and pairs -/

section Containers

variable {α β : Type} [BEq α] [BEq β]

theorem list_beq_iff {xs ys : List α} :
    (xs == ys) = true ↔ List.Forall₂ (fun a b => a == b) xs ys := by
  induction xs generalizing ys with
  | nil => cases ys <;> simp
  | cons x xs ih => cases ys <;> simp [ih]

/-- A list equal to the images of items that equal only themselves. -/
theorem eq_map_of_beq {γ : Type} {f : γ → α} (hf : ∀ c a, (f c == a) = true → a = f c) {cs : List γ}
    {xs : List α} (h : (cs.map f == xs) = true) : xs = cs.map f := by
  rw [list_beq_iff] at h
  induction cs generalizing xs with
  | nil =>
    cases h
    rfl
  | cons c cs ih =>
    cases h with
    | cons hd htl => rw [hf _ _ hd, ih htl, List.map_cons]

theorem pair_beq_iff {x y : α × β} :
    (x == y) = true ↔ (x.1 == y.1) = true ∧ (x.2 == y.2) = true := by
  change (x.1 == y.1 && x.2 == y.2) = true ↔ _
  simp

instance listEquivBEq [EquivBEq α] : EquivBEq (List α) where
  rfl := list_beq_iff.mpr (List.forall₂_same.mpr fun _ _ => BEq.rfl)
  symm h := list_beq_iff.mpr ((list_beq_iff.mp h).flip.imp fun _ _ h => BEq.symm h)
  trans := by
    intro xs ys zs h h'
    rw [list_beq_iff] at h h' ⊢
    induction h generalizing zs with
    | nil => exact h'
    | cons hab _ ih => cases h' with
      | cons hbc h' => exact .cons (BEq.trans hab hbc) (ih h')

instance listLawfulHashable [Hashable α] [LawfulHashable α] : LawfulHashable (List α) where
  hash_eq xs ys h := by
    have hfold : ∀ (xs ys : List α) (r : UInt64), List.Forall₂ (fun a b => a == b) xs ys →
        xs.foldl (fun r a => mixHash r (hash a)) r = ys.foldl (fun r a => mixHash r (hash a)) r := by
      intro xs ys r h
      induction h generalizing r with
      | nil => rfl
      | cons hab _ ih => rw [List.foldl_cons, List.foldl_cons, LawfulHashable.hash_eq _ _ hab, ih]
    exact hfold xs ys 7 (list_beq_iff.mp h)

instance optionEquivBEq [EquivBEq α] : EquivBEq (Option α) where
  rfl := by
    intro x
    cases x <;> simp
  symm := by
    intro x y h
    cases x <;> cases y <;> simp_all [BEq.comm]
  trans := by
    intro x y z h h'
    cases x <;> cases y <;> cases z <;> simp_all
    exact BEq.trans h h'

instance optionLawfulHashable [Hashable α] [LawfulHashable α] : LawfulHashable (Option α) where
  hash_eq x y h := by
    cases x <;> cases y <;> simp_all [hash]
    rw [LawfulHashable.hash_eq _ _ h]

instance pairEquivBEq [EquivBEq α] [EquivBEq β] : EquivBEq (α × β) where
  rfl := pair_beq_iff.mpr ⟨BEq.rfl, BEq.rfl⟩
  symm h := pair_beq_iff.mpr ⟨BEq.symm (pair_beq_iff.mp h).1, BEq.symm (pair_beq_iff.mp h).2⟩
  trans h h' := pair_beq_iff.mpr ⟨BEq.trans (pair_beq_iff.mp h).1 (pair_beq_iff.mp h').1,
    BEq.trans (pair_beq_iff.mp h).2 (pair_beq_iff.mp h').2⟩

instance pairLawfulHashable [Hashable α] [LawfulHashable α] [Hashable β] [LawfulHashable β] :
    LawfulHashable (α × β) where
  hash_eq x y h := by
    obtain ⟨h1, h2⟩ := pair_beq_iff.mp h
    change mixHash (hash x.1) (hash x.2) = mixHash (hash y.1) (hash y.2)
    rw [LawfulHashable.hash_eq _ _ h1, LawfulHashable.hash_eq _ _ h2]

end Containers

/-! ## Equality of contents -/

namespace Expr

theorem beq_iff {a b : Expr} : (a == b) = true ↔ a.number = b.number := by
  change (a.number == b.number) = true ↔ _
  simp

instance : EquivBEq Expr where
  rfl := by simp [beq_iff]
  symm h := by simp_all [beq_iff]
  trans h h' := by simp_all [beq_iff]

instance : LawfulHashable Expr where
  hash_eq a b h := by
    change hash a.number = hash b.number
    rw [beq_iff.mp h]

end Expr

namespace Dim

instance : EquivBEq Dim where
  rfl := by
    intro a
    cases a <;> simp [BEq.beq, same]
  symm := by
    intro a b h
    cases a <;> cases b <;> simp_all [BEq.beq, same]
  trans := by
    intro a b c h h'
    cases a <;> cases b <;> cases c <;> simp_all [BEq.beq, same]

instance : LawfulHashable Dim where
  hash_eq a b h := by
    cases a <;> cases b <;> simp_all [BEq.beq, same, hash, hashOf]

end Dim

namespace View

variable {ι : Type} [BEq ι]

theorem beq_iff {a b : View ι} : (a == b) = true ↔ (a.contiguous == b.contiguous) = true ∧
    (a.offset == b.offset) = true ∧ (a.shape == b.shape) = true ∧
    (a.strides == b.strides) = true ∧ (a.mask == b.mask) = true := by
  change same a b = true ↔ _
  simp [same, and_assoc]

instance [EquivBEq ι] : EquivBEq (View ι) where
  rfl := by simp [beq_iff]
  symm := by
    intro a b h
    obtain ⟨hc, ho, hs, hst, hm⟩ := beq_iff.mp h
    exact beq_iff.mpr ⟨BEq.symm hc, BEq.symm ho, BEq.symm hs, BEq.symm hst, BEq.symm hm⟩
  trans := by
    intro a b c h h'
    obtain ⟨hc, ho, hs, hst, hm⟩ := beq_iff.mp h
    obtain ⟨hc', ho', hs', hst', hm'⟩ := beq_iff.mp h'
    exact beq_iff.mpr ⟨BEq.trans hc hc', BEq.trans ho ho', BEq.trans hs hs', BEq.trans hst hst',
      BEq.trans hm hm'⟩

instance [Hashable ι] [LawfulHashable ι] : LawfulHashable (View ι) where
  hash_eq a b h := by
    obtain ⟨-, ho, hs, hst, hm⟩ := beq_iff.mp h
    change mixHash (hash a.shape) (mixHash (hash a.strides) (mixHash (hash a.offset) (hash a.mask))) =
      mixHash (hash b.shape) (mixHash (hash b.strides) (mixHash (hash b.offset) (hash b.mask)))
    rw [LawfulHashable.hash_eq _ _ ho, LawfulHashable.hash_eq _ _ hs,
      LawfulHashable.hash_eq _ _ hst, LawfulHashable.hash_eq _ _ hm]

end View

namespace Arg

mutual

theorem same_refl : ∀ a : Arg, same a a = true
  | .tuple xs => by rw [same]; exact sameList_refl xs
  | .none | .const _ | .text _ | .op _ | .dtype _ | .bytes _ | .expr _ | .layout _ | .view _
  | .info _ | .block _ | .kernel .. => by simp [same, Const.same]

theorem sameList_refl : ∀ xs : List Arg, same.sameList xs xs = true
  | [] => by rw [same.sameList]
  | x :: xs => by rw [same.sameList, same_refl x, sameList_refl xs]; rfl

end

mutual

theorem same_symm : ∀ {a b : Arg}, same a b = true → same b a = true
  | .tuple xs, b, h => by
    cases b <;> simp [same] at h
    rw [same]
    exact sameList_symm h
  | .none, b, h | .const _, b, h | .text _, b, h | .op _, b, h | .dtype _, b, h | .bytes _, b, h
  | .expr _, b, h | .layout _, b, h | .view _, b, h | .info _, b, h | .block _, b, h
  | .kernel .., b, h => by
    cases b <;> simp_all [same, Const.same, BEq.comm]

theorem sameList_symm : ∀ {xs ys : List Arg}, same.sameList xs ys = true →
    same.sameList ys xs = true
  | [], ys, h => by
    cases ys <;> simp_all [same.sameList]
  | x :: xs, ys, h => by
    cases ys with
    | nil => simp [same.sameList] at h
    | cons y ys =>
      simp only [same.sameList, Bool.and_eq_true] at h ⊢
      exact ⟨same_symm h.1, sameList_symm h.2⟩

end

mutual

theorem same_trans : ∀ {a b c : Arg}, same a b = true → same b c = true → same a c = true
  | .tuple xs, b, c, h, h' => by
    cases b <;> simp [same] at h
    cases c <;> simp [same] at h'
    rw [same]
    exact sameList_trans h h'
  | .none, b, c, h, h' | .const _, b, c, h, h' | .text _, b, c, h, h' | .op _, b, c, h, h'
  | .dtype _, b, c, h, h' | .bytes _, b, c, h, h' | .info _, b, c, h, h' | .block _, b, c, h, h' => by
    cases b <;> cases c <;> simp_all [same, Const.same]
  | .expr _, b, c, h, h' | .layout _, b, c, h, h' | .view _, b, c, h, h' => by
    cases b <;> simp [same] at h
    cases c <;> simp [same] at h'
    rw [same]
    exact BEq.trans h h'
  | .kernel .., b, c, h, h' => by
    cases b <;> simp [same] at h
    cases c <;> simp [same] at h'
    simp only [same, Bool.and_eq_true, beq_iff_eq]
    exact ⟨BEq.trans h.1 h'.1, h.2.trans h'.2⟩

theorem sameList_trans : ∀ {xs ys zs : List Arg}, same.sameList xs ys = true →
    same.sameList ys zs = true → same.sameList xs zs = true
  | [], ys, zs, h, h' => by
    cases ys <;> simp_all [same.sameList]
  | x :: xs, ys, zs, h, h' => by
    cases ys with
    | nil => simp [same.sameList] at h
    | cons y ys => cases zs with
      | nil => simp [same.sameList] at h'
      | cons z zs =>
        simp only [same.sameList, Bool.and_eq_true] at h h' ⊢
        exact ⟨same_trans h.1 h'.1, sameList_trans h.2 h'.2⟩

end

mutual

theorem hashOf_eq : ∀ {a b : Arg}, same a b = true → hashOf a = hashOf b
  | .tuple xs, b, h => by
    cases b <;> simp [same] at h
    rw [hashOf, hashOf]
    exact hashList_eq h 23
  | .none, b, h | .text _, b, h | .op _, b, h | .dtype _, b, h | .bytes _, b, h | .info _, b, h
  | .block _, b, h => by
    cases b <;> simp_all [same, hashOf]
  | .const _, b, h => by
    cases b <;> simp_all [same, hashOf, Const.same, Const.hashOf]
  | .expr a, b, h => by
    cases b <;> simp [same] at h
    rw [hashOf, hashOf, Expr.beq_iff.mp h]
  | .layout _, b, h | .view _, b, h => by
    cases b <;> simp [same] at h
    rw [hashOf, hashOf, LawfulHashable.hash_eq _ _ h]
  | .kernel a m, b, h => by
    cases b <;> simp [same] at h
    rw [hashOf, hashOf, Expr.beq_iff.mp h.1]

theorem hashList_eq : ∀ {xs ys : List Arg}, same.sameList xs ys = true →
    ∀ h, hashOf.hashList h xs = hashOf.hashList h ys
  | [], ys, h, _ => by
    cases ys <;> simp_all [same.sameList]
  | x :: xs, ys, h, _ => by
    cases ys with
    | nil => simp [same.sameList] at h
    | cons y ys =>
      simp only [same.sameList, Bool.and_eq_true] at h
      rw [hashOf.hashList, hashOf.hashList, hashOf_eq h.1, hashList_eq h.2]

end

instance : EquivBEq Arg where
  rfl := same_refl _
  symm := same_symm
  trans := same_trans

instance : LawfulHashable Arg where
  hash_eq _ _ := hashOf_eq

end Arg

namespace Expr.Content

theorem beq_iff {a b : Content} : (a == b) = true ↔ a.op = b.op ∧ (a.src == b.src) = true ∧
    a.dtype = b.dtype ∧ (a.arg == b.arg) = true ∧ (a.tag == b.tag) = true := by
  change same a b = true ↔ _
  simp [same, and_assoc]

instance : EquivBEq Content where
  rfl := by simp [beq_iff]
  symm := by
    intro a b h
    obtain ⟨ho, hs, hd, ha, ht⟩ := beq_iff.mp h
    exact beq_iff.mpr ⟨ho.symm, BEq.symm hs, hd.symm, BEq.symm ha, BEq.symm ht⟩
  trans := by
    intro a b c h h'
    obtain ⟨ho, hs, hd, ha, ht⟩ := beq_iff.mp h
    obtain ⟨ho', hs', hd', ha', ht'⟩ := beq_iff.mp h'
    exact beq_iff.mpr ⟨ho.trans ho', BEq.trans hs hs', hd.trans hd', BEq.trans ha ha',
      BEq.trans ht ht'⟩

theorem foldl_hash_eq {xs ys : List Expr} (h : List.Forall₂ (fun a b => a == b) xs ys) (r : UInt64) :
    xs.foldl (fun h e => mixHash h (hash e.number)) r =
      ys.foldl (fun h e => mixHash h (hash e.number)) r := by
  induction h generalizing r with
  | nil => rfl
  | cons hab _ ih => rw [List.foldl_cons, List.foldl_cons, Expr.beq_iff.mp hab, ih]

instance : LawfulHashable Content where
  hash_eq a b h := by
    obtain ⟨ho, hs, hd, ha, ht⟩ := beq_iff.mp h
    change mixHash (a.src.foldl _ (mixHash (hash a.op) (hash a.dtype)))
      (mixHash a.arg.hashOf a.tag.hashOf) =
      mixHash (b.src.foldl _ (mixHash (hash b.op) (hash b.dtype)))
      (mixHash b.arg.hashOf b.tag.hashOf)
    rw [ho, hd, foldl_hash_eq (list_beq_iff.mp hs), Arg.hashOf_eq ha, Arg.hashOf_eq ht]

end Expr.Content

/-! ## Sound stores -/

/-- The nodes an argument refers to. -/
def Arg.nodes : Arg → List Expr
  | .expr e => [e]
  | .tuple xs => xs.filterMap fun
    | .expr e => some e
    | _ => Option.none
  | _ => []

/-- The nodes right below a content: its sources, and those its argument refers to. -/
def Expr.Content.below (c : Expr.Content) : List Expr := c.src ++ c.arg.nodes

theorem Expr.mem_below {n : Nat} {op : Op} {d : DType} {src : List Expr} {arg tag : Arg} {x : Expr}
    (h : x ∈ src) : x ∈ (Expr.mk n op d src arg tag).content.below :=
  List.mem_append_left _ h

namespace Store

variable {s t : Store} {c : Expr.Content} {e : Expr}

/-- A store holds a node as the one of its content. -/
def Holds (s : Store) (e : Expr) : Prop := s.nodes[e.content]? = some e

/-- A store in which numbers tell nodes apart, and which holds with a node all below it. -/
structure Sound (s : Store) : Prop where
  content : ∀ {c : Expr.Content} {e : Expr}, s.nodes[c]? = some e → (c == e.content) = true
  below : ∀ {e : Expr}, s.Holds e → ∀ x ∈ e.content.below, s.Holds x
  number_lt : ∀ {e : Expr}, s.Holds e → e.number < s.size
  eq_of_number : ∀ {e e' : Expr}, s.Holds e → s.Holds e' → e.number = e'.number → e = e'

/-- A later store holds all that an earlier one did. -/
def Extends (s t : Store) : Prop := ∀ ⦃e⦄, s.Holds e → t.Holds e

theorem Extends.refl (s : Store) : s.Extends s := fun _ h => h

theorem Extends.trans {u : Store} (hst : s.Extends t) (htu : t.Extends u) : s.Extends u :=
  fun _ h => htu (hst h)

theorem Extends.of_nodes (h : t.nodes = s.nodes) : s.Extends t := by
  intro e he
  rw [Holds, h]
  exact he

/-- Soundness is a matter of the nodes and of their count. -/
theorem Sound.of_nodes (hs : s.Sound) (hn : t.nodes = s.nodes) (hz : t.size = s.size) :
    t.Sound := by
  have back : t.Extends s := .of_nodes hn.symm
  have forth : s.Extends t := .of_nodes hn
  constructor
  · intro c e h
    rw [hn] at h
    exact hs.content h
  · intro e he x hx
    exact forth (hs.below (back he) x hx)
  · intro e he
    rw [hz]
    exact hs.number_lt (back he)
  · intro e e' he he' h
    exact hs.eq_of_number (back he) (back he') h

theorem Sound.holds (hs : s.Sound) (h : s.nodes[c]? = some e) : s.Holds e := by
  rw [Holds, ← Std.HashMap.getElem?_congr (hs.content h), h]

theorem Sound.src (hs : s.Sound) (he : s.Holds e) {x : Expr} (hx : x ∈ e.src) : s.Holds x :=
  hs.below he x (List.mem_append_left _ hx)

theorem Sound.of_empty (h : s.nodes = {}) : s.Sound := by
  have none_held : ∀ {c : Expr.Content} {e : Expr}, ¬s.nodes[c]? = some e := by
    intro c e he
    rw [h, Std.HashMap.getElem?_empty] at he
    cases he
  exact ⟨fun he => (none_held he).elim, fun he => (none_held he).elim,
    fun he => (none_held he).elim, fun he => (none_held he).elim⟩

/-- The store with a new node of a content. -/
def adding (s : Store) (c : Expr.Content) : Store :=
  { s with
    nodes := s.nodes.insert c (.mk s.size c.op c.dtype c.src c.arg c.tag)
    size := s.size + 1 }

theorem extends_adding (hc : s.nodes[c]? = none) : s.Extends (s.adding c) := by
  intro e he
  rw [Holds, adding, Std.HashMap.getElem?_insert]
  split
  · rw [Std.HashMap.getElem?_congr ‹_›, he] at hc
    cases hc
  · exact he

/-- A node of the new store is one of the old, or the new one. -/
theorem holds_adding (he : (s.adding c).Holds e) :
    s.Holds e ∨ e = .mk s.size c.op c.dtype c.src c.arg c.tag := by
  rw [Holds, adding, Std.HashMap.getElem?_insert] at he
  split at he
  · exact .inr (Option.some.inj he).symm
  · exact .inl he

theorem Sound.adding (hs : s.Sound) (hc : s.nodes[c]? = none) (hb : ∀ x ∈ c.below, s.Holds x) :
    (s.adding c).Sound := by
  have ext := extends_adding hc
  constructor
  · intro c' e h
    rw [Store.adding, Std.HashMap.getElem?_insert] at h
    split at h
    · cases h
      exact BEq.symm ‹_›
    · exact hs.content h
  · intro e he x hx
    rcases holds_adding he with he | rfl
    · exact ext (hs.below he x hx)
    · exact ext (hb x hx)
  · intro e he
    rcases holds_adding he with he | rfl
    · exact Nat.lt_succ_of_lt (hs.number_lt he)
    · exact Nat.lt_succ_self _
  · intro e e' he he' h
    rcases holds_adding he with he | rfl <;> rcases holds_adding he' with he' | rfl
    · exact hs.eq_of_number he he' h
    · exact absurd h (hs.number_lt he).ne
    · exact absurd h.symm (hs.number_lt he').ne
    · rfl

theorem holds_new : (s.adding c).Holds (.mk s.size c.op c.dtype c.src c.arg c.tag) := by
  change (s.nodes.insert c _)[c]? = _
  rw [Std.HashMap.getElem?_insert_self]

/-- A sound store that holds the given nodes and no others. -/
structure Consists (s : Store) (es : List Expr) : Prop where
  sound : s.Sound
  holds_iff : ∀ {e}, s.Holds e ↔ e ∈ es

theorem Consists.empty : Consists default [] :=
  ⟨.of_empty rfl, fun {e} => by simp [Holds, show (default : Store).nodes = {} from rfl]⟩

theorem Consists.eq_none {es : List Expr} (h : s.Consists es)
    (hne : ∀ x ∈ es, (c == x.content) = false) : s.nodes[c]? = none := by
  by_contra hc
  obtain ⟨e, he⟩ := Option.ne_none_iff_exists'.mp hc
  simpa [h.sound.content he] using hne e (h.holds_iff.mp (h.sound.holds he))

/-- A node of new content with the next number, above nodes that are there. -/
theorem Consists.adding {es : List Expr} (h : s.Consists es) (e : Expr) (hn : e.number = s.size)
    (hb : ∀ x ∈ e.content.below, x ∈ es) (hne : ∀ x ∈ es, (e.content == x.content) = false) :
    (s.adding e.content).Consists (e :: es) := by
  have hnone := h.eq_none hne
  obtain ⟨n, op, d, src, arg, tag⟩ := e
  cases hn
  refine ⟨h.sound.adding hnone fun x hx => h.holds_iff.mpr (hb x hx), fun {x} => ?_⟩
  rw [List.mem_cons]
  constructor
  · exact fun hx => (holds_adding hx).symm.imp id h.holds_iff.mp
  · rintro (rfl | hx)
    · exact holds_new
    · exact extends_adding hnone (h.holds_iff.mpr hx)

end Store

/-- **A node asked for is there or is added**, and has the content asked for. -/
theorem nodeOf_cases (env : Env) (s : Store) (c : Expr.Content) :
    (∃ e, s.nodes[c]? = some e ∧ nodeOf c env s = .ok e s) ∨
      (s.nodes[c]? = none ∧
        nodeOf c env s = .ok (.mk s.size c.op c.dtype c.src c.arg c.tag) (s.adding c)) := by
  have hread : (get : GraphM Store) env s = .ok s s := rfl
  cases h : s.nodes[c]? with
  | some e =>
    refine .inl ⟨e, rfl, (GraphM.bind_run hread _).trans ?_⟩
    rw [h]
    rfl
  | none =>
    refine .inr ⟨rfl, (GraphM.bind_run hread _).trans ?_⟩
    rw [h]
    rfl

/-- **Making a node** keeps a store sound and gives a node of the content asked for. -/
theorem nodeOf_spec {p : Prop} {env : Env} {s : Store} {c : Expr.Content} (hs : s.Sound)
    (hb : ∀ x ∈ c.below, s.Holds x) :
    GraphM.Ensures p env s (nodeOf c) fun e t =>
      t.Sound ∧ s.Extends t ∧ t.Holds e ∧ (c == e.content) = true := by
  rcases nodeOf_cases env s c with ⟨e, he, hrun⟩ | ⟨hnone, hrun⟩
  · rw [GraphM.Ensures, hrun]
    exact ⟨hs, .refl s, hs.holds he, hs.content he⟩
  · rw [GraphM.Ensures, hrun]
    exact ⟨hs.adding hnone hb, Store.extends_adding hnone, Store.holds_new, BEq.rfl⟩

/-- A node asked for again is found as it is. -/
theorem nodeOf_again {env : Env} {s s' t : Store} {c : Expr.Content} {e : Expr} (hs : s.Sound)
    (hrun : nodeOf c env s = .ok e t) (hts : t.Extends s') :
    nodeOf c env s' = .ok e s' := by
  have held : t.Holds e ∧ (c == e.content) = true := by
    rcases nodeOf_cases env s c with ⟨v, hv, hnode⟩ | ⟨-, hnode⟩
    · rw [hnode] at hrun
      cases hrun
      exact ⟨hs.holds hv, hs.content hv⟩
    · rw [hnode] at hrun
      cases hrun
      exact ⟨Store.holds_new, BEq.rfl⟩
  have hfound : s'.nodes[c]? = some e := (Std.HashMap.getElem?_congr held.2).trans (hts held.1)
  rcases nodeOf_cases env s' c with ⟨v, hv, hnode⟩ | ⟨hnone, -⟩
  · rw [hfound] at hv
    cases hv
    exact hnode
  · rw [hfound] at hnone
    cases hnone

theorem Store.Sound.eq_of_beq {s : Store} (hs : s.Sound) {xs ys : List Expr} (h : (xs == ys) = true)
    (hx : ∀ x ∈ xs, s.Holds x) (hy : ∀ y ∈ ys, s.Holds y) : xs = ys := by
  rw [list_beq_iff] at h
  induction h with
  | nil => rfl
  | @cons x y xs ys hxy _ ih =>
    rw [hs.eq_of_number (hx x (by simp)) (hy y (by simp)) (Expr.beq_iff.mp hxy),
      ih (fun x h => hx x (by simp [h])) fun y h => hy y (by simp [h])]

/-- A node asked for has exactly the content asked for, where no node of the store has an equal
argument or tag of another form. -/
theorem nodeOf_content {p : Prop} {env : Env} {s : Store} {c : Expr.Content} (hs : s.Sound)
    (hb : ∀ x ∈ c.below, s.Holds x)
    (hrigid : ∀ e, s.Holds e → (c == e.content) = true → e.arg = c.arg ∧ e.tag = c.tag) :
    GraphM.Ensures p env s (nodeOf c) fun e t =>
      e.content = c ∧ t.Sound ∧ t.Holds e ∧ s.Extends t ∧ (t = s ∨ t = s.adding c) := by
  rcases nodeOf_cases env s c with ⟨e, he, hrun⟩ | ⟨hnone, hrun⟩
  · rw [GraphM.Ensures, hrun]
    have hheld := hs.holds he
    have heq := hs.content he
    obtain ⟨harg, htag⟩ := hrigid e hheld heq
    obtain ⟨hop, hsrc, hd, -, -⟩ := Expr.Content.beq_iff.mp heq
    have hsrc : c.src = e.content.src := hs.eq_of_beq hsrc
      (fun x hx => hb x (List.mem_append_left _ hx)) fun x hx => hs.src hheld hx
    refine ⟨?_, hs, hheld, .refl s, .inl rfl⟩
    rw [Expr.content, harg, htag]
    cases c
    cases hop
    cases hd
    cases hsrc
    rfl
  · rw [GraphM.Ensures, hrun]
    exact ⟨rfl, hs.adding hnone hb, Store.holds_new, Store.extends_adding hnone, .inr rfl⟩

end LazyTensor
