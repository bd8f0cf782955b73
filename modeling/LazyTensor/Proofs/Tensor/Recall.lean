import LazyTensor.Proofs.Tensor.Stacks

/-!
# What a store remembers of movements

A store remembers the layout and the device of a node from the first time it is asked for them.  The
layout of a movement comes from that of its source, its device is that of its source, and both are
remembered after those of the source.  As long as this is so, a movement made of a node whose layout
is known has a known layout, which selects what the movement says.

## Main results

* `Expr.move_spec`: the node that a movement gives, and its layout.
* `Expr.device?_spec`: the device of a node on a device.
-/

namespace LazyTensor

open GraphM List

/-- A computation gives a result, in some store. -/
def GraphM.Gives {α : Type} (x : GraphM α) (a : α) : Prop := ∃ env s t, x env s = .ok a t

theorem GraphM.Ensures.gives {α : Type} {p : Prop} {env : Env} {s : Store} {x : GraphM α}
    {Q : α → Store → Prop} (h : Ensures p env s x Q) :
    Ensures p env s x fun a t => Q a t ∧ x.Gives a := by
  unfold Ensures at h ⊢
  cases hx : x env s with
  | ok a t =>
    rw [hx] at h
    exact ⟨h, env, s, t, hx⟩
  | error f t =>
    rw [hx] at h
    exact h

namespace Store

variable {s t u : Store}

/-- What a store remembers of movements and of constants is so. -/
structure Remembers (s : Store) : Prop where
  sound : s.Sound
  layout_lt : ∀ {n : Nat} {l : Option Layout}, s.layouts[n]? = some l → n < s.size
  device_lt : ∀ {n : Nat} {x : Option Arg}, s.devices[n]? = some x → n < s.size
  /-- An argument of a movement that equals one of integers is one of integers. -/
  plain : ∀ {e : Expr} (x : Move), s.Holds e → e.op = x.op → (x.arg == e.arg) = true → e.arg = x.arg
  moved : ∀ {n op d a arg tag m}, s.Holds (.mk n op d [a] arg tag) → op.isMovement = true →
    s.layouts[n]? = some m → ∃ l l' : Layout, s.layouts[a.number]? = some (some l) ∧
      m = some l' ∧ (l.move op arg).Gives l'
  constant : ∀ {n d a arg tag m}, s.Holds (.mk n .const d [a] arg tag) → a.op = .device →
    s.layouts[n]? = some m → m = some [(View.ofShape []).toDim]
  carried : ∀ {n op d a arg tag x}, s.Holds (.mk n op d [a] arg tag) →
    op.isMovement = true ∨ op = .const → s.devices[n]? = some x → s.devices[a.number]? = some x
  sited : ∀ {n d src arg tag x}, s.Holds (.mk n .device d src arg tag) → arg.isNone = false →
    s.devices[n]? = some x → x = some arg

/-- A later store holds all that an earlier one did, and remembers what it did. -/
structure Onward (s t : Store) : Prop where
  holds : s.Extends t
  layouts : ∀ {n : Nat} {l : Option Layout}, s.layouts[n]? = some l → t.layouts[n]? = some l
  devices : ∀ {n : Nat} {x : Option Arg}, s.devices[n]? = some x → t.devices[n]? = some x

theorem Onward.refl (s : Store) : s.Onward s := ⟨.refl s, id, id⟩

theorem Onward.trans (h : s.Onward t) (h' : t.Onward u) : s.Onward u :=
  ⟨h.holds.trans h'.holds, fun hl => h'.layouts (h.layouts hl), fun hd => h'.devices (h.devices hd)⟩

theorem Remembers.of_empty (hn : s.nodes = {}) (hl : s.layouts = {}) (hd : s.devices = {}) :
    s.Remembers := by
  have none_held : ∀ {e : Expr}, ¬s.Holds e := by
    intro e he
    rw [Holds, hn, Std.HashMap.getElem?_empty] at he
    cases he
  have no_layout : ∀ {n : Nat} {l : Option Layout}, ¬s.layouts[n]? = some l := by simp [hl]
  have no_device : ∀ {n : Nat} {x : Option Arg}, ¬s.devices[n]? = some x := by simp [hd]
  exact ⟨.of_empty hn, fun h => (no_layout h).elim, fun h => (no_device h).elim,
    fun _ h => (none_held h).elim, fun h => (none_held h).elim, fun h => (none_held h).elim,
    fun h => (none_held h).elim, fun h => (none_held h).elim⟩

/-- What is remembered is a matter of the nodes, their count and the two tables. -/
theorem Remembers.of_same (h : s.Remembers) (hn : t.nodes = s.nodes) (hz : t.size = s.size)
    (hl : t.layouts = s.layouts) (hd : t.devices = s.devices) : t.Remembers ∧ s.Onward t := by
  have back : t.Extends s := .of_nodes hn.symm
  refine ⟨⟨h.sound.of_nodes hn hz, ?_, ?_, fun x he => h.plain x (back he), ?_, ?_, ?_, ?_⟩,
    .of_nodes hn, fun hx => hl ▸ hx, fun hx => hd ▸ hx⟩
  · exact fun hx => hz ▸ h.layout_lt (hl ▸ hx)
  · exact fun hx => hz ▸ h.device_lt (hd ▸ hx)
  · intro n op d a arg tag m he hop hm
    rw [hl] at hm ⊢
    exact h.moved (back he) hop hm
  · exact fun he ha hm => h.constant (back he) ha (hl ▸ hm)
  · intro n op d a arg tag x he hop hx
    rw [hd] at hx ⊢
    exact h.carried (back he) hop hx
  · exact fun he ha hx => h.sited (back he) ha (hd ▸ hx)

theorem Onward.adding {c : Expr.Content} (hc : s.nodes[c]? = none) : s.Onward (s.adding c) :=
  ⟨extends_adding hc, id, id⟩

/-- Nothing is remembered yet of a new node. -/
theorem Remembers.adding (h : s.Remembers) {c : Expr.Content} (hc : s.nodes[c]? = none)
    (hb : ∀ x ∈ c.below, s.Holds x)
    (hplain : ∀ x : Move, c.op = x.op → (x.arg == c.arg) = true → c.arg = x.arg) :
    (s.adding c).Remembers := by
  have fresh_layout : ∀ {l : Option Layout}, ¬s.layouts[s.size]? = some l :=
    fun hl => lt_irrefl _ (h.layout_lt hl)
  have fresh_device : ∀ {x : Option Arg}, ¬s.devices[s.size]? = some x :=
    fun hx => lt_irrefl _ (h.device_lt hx)
  refine ⟨h.sound.adding hc hb, fun hl => Nat.lt_succ_of_lt (h.layout_lt hl),
    fun hx => Nat.lt_succ_of_lt (h.device_lt hx), ?_, ?_, ?_, ?_, ?_⟩
  · intro e x he hop heq
    rcases holds_adding he with he | rfl
    · exact h.plain x he hop heq
    · exact hplain x hop heq
  · intro n op d a arg tag m he hop hm
    rcases holds_adding he with he | heq
    · exact h.moved he hop hm
    · rw [show n = s.size from congrArg Expr.number heq] at hm
      exact (fresh_layout hm).elim
  · intro n d a arg tag m he ha hm
    rcases holds_adding he with he | heq
    · exact h.constant he ha hm
    · rw [show n = s.size from congrArg Expr.number heq] at hm
      exact (fresh_layout hm).elim
  · intro n op d a arg tag x he hop hx
    rcases holds_adding he with he | heq
    · exact h.carried he hop hx
    · rw [show n = s.size from congrArg Expr.number heq] at hx
      exact (fresh_device hx).elim
  · intro n d src arg tag x he ha hx
    rcases holds_adding he with he | heq
    · exact h.sited he ha hx
    · rw [show n = s.size from congrArg Expr.number heq] at hx
      exact (fresh_device hx).elim

/-- A layout that was not known is remembered. -/
theorem Remembers.learn_layout (h : s.Remembers) {e : Expr} (he : s.Holds e) {m : Option Layout}
    (hnew : s.layouts[e.number]? = none)
    (hmoved : ∀ a, e.src = [a] → e.op.isMovement = true → ∃ l l' : Layout,
      s.layouts[a.number]? = some (some l) ∧ m = some l' ∧ (l.move e.op e.arg).Gives l')
    (hconst : ∀ a, e.src = [a] → e.op = .const → a.op = .device →
      m = some [(View.ofShape []).toDim]) :
    Remembers { s with layouts := s.layouts.insert e.number m } ∧
      s.Onward { s with layouts := s.layouts.insert e.number m } := by
  obtain ⟨t, ht⟩ : ∃ t, t = { s with layouts := s.layouts.insert e.number m } := ⟨_, rfl⟩
  have hnodes : t.nodes = s.nodes := by rw [ht]
  have hsize : t.size = s.size := by rw [ht]
  have hdevices : t.devices = s.devices := by rw [ht]
  have hlayouts (n : Nat) : t.layouts[n]? = if e.number = n then some m else s.layouts[n]? := by
    simp [ht, Std.HashMap.getElem?_insert]
  rw [← ht]
  clear ht
  have back : t.Extends s := .of_nodes hnodes.symm
  have keeps : ∀ {n : Nat} {l : Option Layout}, s.layouts[n]? = some l → t.layouts[n]? = some l := by
    intro n l hl
    rw [hlayouts, if_neg, hl]
    rintro rfl
    rw [hnew] at hl
    cases hl
  refine ⟨⟨h.sound.of_nodes hnodes hsize, ?_, ?_, fun x he => h.plain x (back he), ?_, ?_, ?_, ?_⟩,
    .of_nodes hnodes, keeps, fun hx => hdevices ▸ hx⟩
  · intro n l hl
    rw [hlayouts] at hl
    rw [hsize]
    split at hl
    case isTrue heq => exact heq ▸ h.sound.number_lt he
    case isFalse => exact h.layout_lt hl
  · exact fun hx => hsize ▸ h.device_lt (hdevices ▸ hx)
  · intro n op d a arg tag m' he' hop hm'
    rw [hlayouts] at hm'
    split at hm'
    case isTrue heq =>
      cases h.sound.eq_of_number he (back he') heq
      obtain ⟨l, l', hl, hl', hgives⟩ := hmoved a rfl hop
      exact ⟨l, l', keeps hl, (Option.some.inj hm').symm.trans hl', hgives⟩
    case isFalse =>
      obtain ⟨l, l', hl, hl', hgives⟩ := h.moved (back he') hop hm'
      exact ⟨l, l', keeps hl, hl', hgives⟩
  · intro n d a arg tag m' he' ha hm'
    rw [hlayouts] at hm'
    split at hm'
    case isTrue heq =>
      cases h.sound.eq_of_number he (back he') heq
      exact (Option.some.inj hm').symm.trans (hconst a rfl rfl ha)
    case isFalse => exact h.constant (back he') ha hm'
  · intro n op d a arg tag x he' hop hx
    rw [hdevices] at hx ⊢
    exact h.carried (back he') hop hx
  · exact fun he' ha hx => h.sited (back he') ha (hdevices ▸ hx)

/-- A device is remembered, which was not known or known to be the same. -/
theorem Remembers.learn_device (h : s.Remembers) {e : Expr} (he : s.Holds e) {x : Option Arg}
    (hsame : ∀ y, s.devices[e.number]? = some y → y = x)
    (hcarried : ∀ a, e.src = [a] → e.op.isMovement = true ∨ e.op = .const →
      s.devices[a.number]? = some x)
    (hsited : e.op = .device → e.arg.isNone = false → x = some e.arg) :
    Remembers { s with devices := s.devices.insert e.number x } ∧
      s.Onward { s with devices := s.devices.insert e.number x } := by
  obtain ⟨t, ht⟩ : ∃ t, t = { s with devices := s.devices.insert e.number x } := ⟨_, rfl⟩
  have hnodes : t.nodes = s.nodes := by rw [ht]
  have hsize : t.size = s.size := by rw [ht]
  have hlayouts : t.layouts = s.layouts := by rw [ht]
  have hdevices (n : Nat) : t.devices[n]? = if e.number = n then some x else s.devices[n]? := by
    simp [ht, Std.HashMap.getElem?_insert]
  rw [← ht]
  clear ht
  have back : t.Extends s := .of_nodes hnodes.symm
  have keeps : ∀ {n : Nat} {y : Option Arg}, s.devices[n]? = some y → t.devices[n]? = some y := by
    intro n y hy
    rw [hdevices]
    split
    case isTrue heq => rw [hsame y (heq ▸ hy)]
    case isFalse => exact hy
  refine ⟨⟨h.sound.of_nodes hnodes hsize, ?_, ?_, fun x he => h.plain x (back he), ?_, ?_, ?_, ?_⟩,
    .of_nodes hnodes, fun hl => hlayouts ▸ hl, keeps⟩
  · exact fun hl => hsize ▸ h.layout_lt (hlayouts ▸ hl)
  · intro n y hy
    rw [hdevices] at hy
    rw [hsize]
    split at hy
    case isTrue heq => exact heq ▸ h.sound.number_lt he
    case isFalse => exact h.device_lt hy
  · intro n op d a arg tag m he' hop hm
    rw [hlayouts] at hm ⊢
    exact h.moved (back he') hop hm
  · exact fun he' ha hm => h.constant (back he') ha (hlayouts ▸ hm)
  · intro n op d a arg tag y he' hop hy
    rw [hdevices] at hy
    split at hy
    case isTrue heq =>
      cases h.sound.eq_of_number he (back he') heq
      cases hy
      exact keeps (hcarried a rfl hop)
    case isFalse => exact keeps (h.carried (back he') hop hy)
  · intro n d src arg tag y he' ha hy
    rw [hdevices] at hy
    split at hy
    case isTrue heq =>
      cases h.sound.eq_of_number he (back he') heq
      cases hy
      exact hsited rfl ha
    case isFalse => exact h.sited (back he') ha hy

end Store

/-! ## New nodes -/

variable {s t : Store} {env : Env} {e : Expr}

/-- A node asked for keeps what is remembered. -/
theorem nodeOf_remembers (h : s.Remembers) {c : Expr.Content} (hb : ∀ x ∈ c.below, s.Holds x)
    (hplain : ∀ x : Move, c.op = x.op → (x.arg == c.arg) = true → c.arg = x.arg) :
    Ensures False env s (nodeOf c) fun e t => t.Remembers ∧ s.Onward t ∧ t.Holds e ∧
      e.op = c.op ∧ e.dtype = c.dtype ∧ e.src = c.src ∧ (c.arg == e.arg) = true ∧
        (c.tag == e.tag) = true := by
  rcases nodeOf_cases env s c with ⟨e, he, hrun⟩ | ⟨hnone, hrun⟩
  · rw [Ensures, hrun]
    have hheld := h.sound.holds he
    obtain ⟨hop, hsrc, hd, harg, htag⟩ := Expr.Content.beq_iff.mp (h.sound.content he)
    have hsrc : c.src = e.content.src := h.sound.eq_of_beq hsrc
      (fun x hx => hb x (mem_append_left _ hx)) fun x hx => h.sound.src hheld hx
    exact ⟨h, .refl s, hheld, hop.symm, hd.symm, hsrc.symm, harg, htag⟩
  · rw [Ensures, hrun]
    exact ⟨h.adding hnone hb hplain, .adding hnone, Store.holds_new, rfl, rfl, rfl, BEq.rfl, BEq.rfl⟩

/-- The node of a movement. -/
theorem node_move_spec (h : s.Remembers) (he : s.Holds e) (x : Move) :
    Ensures False env s (node x.op e.dtype [e] x.arg) fun r t => t.Remembers ∧ s.Onward t ∧
      t.Holds r ∧ ∃ n d tag, r = .mk n x.op d [e] x.arg tag := by
  have hnodes : x.arg.nodes = [] := by
    cases x <;> simp [Move.arg, Arg.ofDims, Arg.ofInts, Arg.ofPairs, Arg.nodes, filterMap_map,
      Function.comp_def, Dim.arg]
  refine (nodeOf_remembers h ?_ ?_).mono ?_
  · simpa [Expr.Content.below, hnodes] using he
  · intro y hop heq
    exact congrArg Move.arg (Move.eq_of_arg hop (BEq.symm heq))
  · rintro ⟨n, op, d, src, arg, tag⟩ t ⟨ht, hst, hr, hop, -, hsrc, harg, -⟩
    obtain rfl : op = x.op := hop
    obtain rfl : src = [e] := hsrc
    obtain rfl : arg = x.arg := ht.plain x hr rfl harg
    exact ⟨ht, hst, hr, n, d, tag, rfl⟩

/-! ## Layouts of movements -/

namespace Expr

theorem computeLayout_known {m : Option Layout} (h : s.layouts[e.number]? = some m) :
    Ensures False env s e.computeLayout fun r t => r = m ∧ t = s := by
  obtain ⟨n, op, d, src, arg, tag⟩ := e
  unfold computeLayout
  refine Ensures.bind (Ensures.get_iff.mpr ?_)
  change s.layouts[n]? = some m at h
  rw [h]
  exact ⟨rfl, rfl⟩

theorem layout?_known {m : Option Layout} (h : s.layouts[e.number]? = some m) :
    Ensures False env s e.layout? fun r t => r = m ∧ t = s := by
  refine Ensures.bind (Ensures.get_iff.mpr ?_)
  rw [h]
  exact ⟨rfl, rfl⟩

/-- A layout that is not known is computed. -/
theorem layout?_fresh {k : Nat} {Q : Option Layout → Store → Prop}
    (hn : s.layouts[e.number]? = none) (h : Ensures False (Env.level k) s e.computeLayout Q) :
    Ensures False (Env.level (k + 1)) s e.layout? Q := by
  refine Ensures.bind (Ensures.get_iff.mpr ?_)
  rw [hn]
  exact h

theorem computeLayout_move (n : Nat) (x : Move) (d : DType) (a : Expr) (tag : Arg) :
    (mk n x.op d [a] x.arg tag).computeLayout = rememberedLayout n (do
      let some l ← a.computeLayout | throw (.broken "")
      do pure (some (← Layout.move l x.op x.arg))) := by
  conv_lhs => unfold computeLayout
  cases x <;> rfl

/-- The layout of a movement of a node with a known layout. -/
theorem layout?_move {k n : Nat} {d : DType} {tag : Arg} {x : Move} {m : Movement} {l : Stack}
    (h : s.Remembers) (hr : s.Holds (mk n x.op d [e] x.arg tag))
    (hl : s.layouts[e.number]? = some (some l.layout)) (hm : x.on? l.shape = some m) :
    Ensures False (Env.level (k + 1)) s (mk n x.op d [e] x.arg tag).layout? fun r t =>
      t.Remembers ∧ s.Onward t ∧ ∃ l' : Stack, r = some l'.layout ∧ l.Moved m l' ∧
        t.layouts[n]? = some (some l'.layout) := by
  cases hn : s.layouts[n]? with
  | some m' =>
    refine (layout?_known hn).mono ?_
    rintro _ _ ⟨rfl, rfl⟩
    obtain ⟨l₀, l', hl₀, rfl, env, s₁, s₂, hrun⟩ := h.moved hr x.isMovement_op hn
    cases hl.symm.trans hl₀
    obtain ⟨-, l', rfl, hmoved⟩ := (l.move_spec hm).of_ok hrun
    exact ⟨h, .refl _, l', rfl, hmoved, hn⟩
  | none =>
    refine layout?_fresh hn ?_
    rw [computeLayout_move]
    refine Ensures.bind (Ensures.get_iff.mpr ?_)
    rw [hn]
    refine .bind (.bind ((computeLayout_known hl).mono ?_))
    rintro _ _ ⟨rfl, rfl⟩
    refine .bind ((l.move_spec hm).gives.mono ?_)
    rintro _ _ ⟨⟨rfl, l', rfl, hmoved⟩, hgives⟩
    obtain ⟨hlearned, honward⟩ := h.learn_layout hr (m := some l'.layout) hn
      (fun a ha _ => ⟨_, _, by cases ha; exact hl, rfl, hgives⟩)
      fun a _ hop => absurd hop x.op_ne_const
    exact ⟨hlearned, honward, l', rfl, hmoved, Std.HashMap.getElem?_insert_self⟩

/-- A node that has a device: one that is known, or that of what it is over. -/
inductive Placed (s : Store) : Expr → Prop
  | known {e : Expr} {x : Arg} (h : s.devices[e.number]? = some (some x)) : Placed s e
  | device {n d src arg tag} (h : arg.isNone = false) : Placed s (.mk n .device d src arg tag)
  | above {n op d a arg tag} (hop : op.isMovement = true ∨ op = .const) (ha : Placed s a) :
    Placed s (.mk n op d [a] arg tag)

theorem Placed.mono (h : e.Placed s) (hst : s.Onward t) : e.Placed t := by
  induction h with
  | known h => exact .known (hst.devices h)
  | device h => exact .device h
  | above hop _ ih => exact .above hop ih

/-- What is remembered of the device of a node that has one. -/
theorem Placed.eq_some (h : e.Placed s) (hs : s.Remembers) (he : s.Holds e) {x : Option Arg}
    (hx : s.devices[e.number]? = some x) : ∃ a, x = some a := by
  induction h with
  | known h =>
    cases h.symm.trans hx
    exact ⟨_, rfl⟩
  | device h => exact ⟨_, hs.sited he h hx⟩
  | above hop _ ih => exact ih (hs.sound.src he (mem_singleton_self _)) (hs.carried he hop hx)

/-- A device found once is remembered. -/
theorem rememberedDevice_spec (h : e.Placed s) (hs : s.Remembers) (he : s.Holds e)
    {find : GraphM (Option Arg)}
    (hfind : s.devices[e.number]? = none → Ensures False env s find fun r t =>
      (∃ a, r = some a) ∧ Store.Remembers { t with devices := t.devices.insert e.number r } ∧
        s.Onward { t with devices := t.devices.insert e.number r }) :
    Ensures False env s (rememberedDevice e.number find) fun r t =>
      (∃ a, r = some a) ∧ t.Remembers ∧ s.Onward t ∧ t.devices[e.number]? = some r := by
  refine Ensures.bind (Ensures.get_iff.mpr ?_)
  cases hx : s.devices[e.number]? with
  | some x => exact ⟨h.eq_some hs he hx, hs, .refl s, hx⟩
  | none =>
    refine .bind ((hfind hx).mono ?_)
    rintro r t ⟨hr, ht, hst⟩
    exact ⟨hr, ht, hst, Std.HashMap.getElem?_insert_self⟩

theorem device?_above {n : Nat} {op : Op} {d : DType} {a : Expr} {arg tag : Arg}
    (hop : op.isMovement = true ∨ op = .const) :
    (mk n op d [a] arg tag).device? = rememberedDevice n a.device? := by
  have hmap : ([a].attach.mapM fun x => x.1.device?) >>= (fun ds => pure (ds.findSome? id)) =
      a.device? := by
    simp only [attach_cons, attach_nil, map_nil, mapM_cons, mapM_nil, bind_assoc, pure_bind]
    conv_rhs => rw [← bind_pure a.device?]
    refine bind_congr fun r => ?_
    cases r <;> rfl
  conv_lhs => unfold device?
  rw [← hmap]
  cases op <;> first | rfl | exact absurd hop (by decide)

/-- **The device of a node that has one** is found, and remembered. -/
theorem device?_spec (h : e.Placed s) (hs : s.Remembers) (he : s.Holds e) :
    Ensures False env s e.device? fun r t =>
      (∃ a, r = some a) ∧ t.Remembers ∧ s.Onward t ∧ t.devices[e.number]? = some r := by
  induction h with
  | @known e x h =>
    obtain ⟨n, op, d, src, arg, tag⟩ := e
    unfold device?
    refine rememberedDevice_spec (e := mk n op d src arg tag) (.known h) hs he fun hnone => ?_
    rw [hnone] at h
    cases h
  | @device n d src arg tag h =>
    unfold device?
    refine rememberedDevice_spec (e := mk n .device d src arg tag) (.device h) hs he fun hnone => ?_
    simp only [h, Bool.false_eq_true, if_false]
    obtain ⟨ht, hst⟩ := hs.learn_device he (x := some arg)
      (fun y hy => by rw [hnone] at hy; cases hy)
      (fun a _ hop => absurd hop (show ¬(Op.device.isMovement = true ∨ Op.device = .const) by decide))
      fun _ _ => rfl
    exact .pure ⟨⟨_, rfl⟩, ht, hst⟩
  | @above n op d a arg tag hop ha ih =>
    have hheld : s.Holds a := hs.sound.src he (mem_singleton_self a)
    rw [device?_above hop]
    refine rememberedDevice_spec (e := mk n op d [a] arg tag) (.above hop ha) hs he fun hnone => ?_
    refine (ih hheld).mono ?_
    rintro r t ⟨hr, ht, hst, hentry⟩
    obtain ⟨hlearned, honward⟩ := ht.learn_device (hst.holds he) (x := r)
      (fun y hy => by
        have := ht.carried (hst.holds he) hop hy
        exact Option.some.inj (this.symm.trans hentry))
      (fun b hb _ => by cases hb; exact hentry)
      fun hdevice => by
        obtain rfl : op = .device := hdevice
        exact absurd hop (by decide)
    exact ⟨hr, hlearned, hst.trans honward⟩

theorem base_move (n : Nat) (x : Move) (d : DType) (a : Expr) (tag : Arg) :
    (mk n x.op d [a] x.arg tag).base = a.base := by
  conv_lhs => unfold base
  rw [x.isMovement_op]
  simp

/-- **A movement of a node** whose layout is known gives a node over the same base, with a known
layout that selects what the movement says. -/
theorem move_spec {k : Nat} {x : Move} {m : Movement} {l : Stack} (h : s.Remembers)
    (he : s.Holds e) (hl : s.layouts[e.number]? = some (some l.layout))
    (hm : x.on? l.shape = some m) :
    Ensures False (Env.level (k + 1)) s (e.move x.op x.arg) fun r t =>
      t.Remembers ∧ s.Onward t ∧ t.Holds r ∧ r.base = e.base ∧ (e.Placed s → r.Placed t) ∧
        ∃ l' : Stack, t.layouts[r.number]? = some (some l'.layout) ∧ l.Moved m l' := by
  refine .bind ((node_move_spec h he x).mono ?_)
  rintro _ t ⟨ht, hst, hr, n, d, tag, rfl⟩
  refine .bind ((layout?_known (hst.layouts hl)).mono ?_)
  rintro _ _ ⟨rfl, rfl⟩
  refine .bind ((layout?_move ht hr (hst.layouts hl) hm).mono ?_)
  rintro _ u ⟨hu, htu, l', rfl, hmoved, hl'⟩
  have hsu := hst.trans htu
  refine .pure ?_
  split_ifs with heq
  · -- the movement changes nothing
    have hsame : l'.layout = l.layout := eq_map_of_beq (fun _ _ => View.eq_toDim_of_beq) heq
    exact ⟨hu, hsu, hsu.holds he, rfl, fun hp => hp.mono hsu, l', hsame ▸ hsu.layouts hl, hmoved⟩
  · exact ⟨hu, hsu, htu.holds hr, base_move n x d e tag,
      fun hp => .above (.inl x.isMovement_op) (hp.mono hsu), l', hl', hmoved⟩

/-! ## Constants -/

/-- A constant on a device. -/
structure IsConstant (e : Expr) (d : DType) (c : Const) : Prop where
  op : e.op = .const
  dtype : e.dtype = d
  arg : (Arg.const c == e.arg) = true
  src : ∃ a, e.src = [a] ∧ a.op = .device

theorem nodes_of_const {c : Const} {a : Arg} (h : (Arg.const c == a) = true) : a.nodes = [] := by
  change Arg.same _ a = true at h
  cases a <;> first | rfl | simp [Arg.same] at h

/-- A constant made on a device. -/
theorem constArg_spec (h : s.Remembers) {d : DType} {c c' : Const} {site : Arg}
    (hc : c.ofDType? d = .ok c') (hsite : site.isNone = false) (hnodes : site.nodes = []) :
    Ensures False env s (constArg d (.const c) (some site) (some [])) fun e t =>
      t.Remembers ∧ s.Onward t ∧ t.Holds e ∧ e.IsConstant d c' ∧ e.Placed t := by
  have hmoves (o : Op) (ho : o.isMovement = false) (a : Arg) (x : Move) (hx : o = x.op) :
      (x.arg == a) = true → a = x.arg := by
    rw [hx, x.isMovement_op] at ho
    cases ho
  unfold constArg
  dsimp only
  rw [hc]
  refine .bind (.pure (.bind ((nodeOf_remembers h (by simp [Content.below, Arg.nodes])
    (hmoves .const rfl _)).mono ?_)))
  rintro r t ⟨ht, hst, -, hrop, hrd, -, hrarg, hrtag⟩
  refine .bind ((nodeOf_remembers ht (by simp [Content.below, hnodes]) (hmoves .device rfl _)).mono ?_)
  rintro ⟨n, op, d', src, arg, tag⟩ u ⟨hu, htu, ha, hop, -, -, harg, -⟩
  obtain rfl : op = .device := hop
  have hplaced : arg.isNone = false := by
    cases arg with
    | none => exact absurd (Arg.eq_none_of_same (BEq.symm harg)) (by rintro rfl; cases hsite)
    | _ => rfl
  refine .bind ((nodeOf_remembers hu ?_ ?_).mono ?_)
  · intro x hx
    have : x = .mk n .device d' src arg tag := by
      simpa [Content.below, nodes_of_const hrarg] using hx
    exact this ▸ ha
  · exact hmoves _ (by rw [hrop]; rfl) _
  · rintro ⟨n', op, d'', src', arg', tag'⟩ w ⟨hw, huw, he, heop, hed, hesrc, hearg, -⟩
    obtain rfl : op = .const := heop.trans hrop
    obtain rfl : src' = [.mk n .device d' src arg tag] := hesrc
    exact .pure ⟨hw, (hst.trans htu).trans huw, he, ⟨rfl, hed.trans hrd, BEq.trans hrarg hearg, _, rfl,
      rfl⟩, .above (.inr rfl) (.device hplaced)⟩

/-- The layout of a constant on a device is that of a single element. -/
theorem IsConstant.layout? {k : Nat} {d : DType} {c : Const} (hc : e.IsConstant d c)
    (h : s.Remembers) (he : s.Holds e) :
    Ensures False (Env.level (k + 1)) s e.layout? fun r t => t.Remembers ∧ s.Onward t ∧
      r = some [(View.ofShape []).toDim] ∧ t.layouts[e.number]? = some r := by
  obtain ⟨n, op, d', src, arg, tag⟩ := e
  obtain rfl : op = .const := hc.op
  obtain ⟨a, hsrc, hdevice⟩ := hc.src
  obtain rfl : src = [a] := hsrc
  cases hn : s.layouts[n]? with
  | some m =>
    refine (layout?_known hn).mono ?_
    rintro _ _ ⟨rfl, rfl⟩
    exact ⟨h, .refl _, h.constant he hdevice hn, hn⟩
  | none =>
    refine layout?_fresh hn ?_
    unfold computeLayout
    refine Ensures.bind (Ensures.get_iff.mpr ?_)
    have hscalar : Layout.ofShape [] = pure [(View.ofShape []).toDim] := @ofShape_int [] (by simp)
    have hhead : (decide (Op.const = Op.const) && [a].head?.elim false fun a => a.is .device) = true := by
      simp [is, hdevice]
    rw [hn]
    dsimp only
    rw [if_pos hhead, hscalar, pure_bind, pure_bind]
    obtain ⟨hlearned, honward⟩ := h.learn_layout he (m := some [(View.ofShape []).toDim]) hn
      (fun b _ hop => absurd hop (show ¬Op.const.isMovement = true by decide)) fun _ _ _ _ => rfl
    exact ⟨hlearned, honward, rfl, Std.HashMap.getElem?_insert_self⟩

theorem IsConstant.base {d : DType} {c : Const} (hc : e.IsConstant d c) : e.base = e := by
  obtain ⟨n, op, d', src, arg, tag⟩ := e
  obtain rfl : op = .const := hc.op
  obtain ⟨a, hsrc, -⟩ := hc.src
  obtain rfl : src = [a] := hsrc
  unfold Expr.base
  rfl

end Expr

end LazyTensor
