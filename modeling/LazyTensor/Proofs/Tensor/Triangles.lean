import LazyTensor.Proofs.Tensor.Carrying
import LazyTensor.Tensor.Scan

/-!
# Triangles of ones

A triangle is made of a square of ones by movements, so an index map says where its ones are: at the
indices with an index below.  The tensor follows the index map, and shows a zero elsewhere.

## Main results

* `Tensor.triangle_entry`: the ones of a triangle are from the diagonal on.
-/

namespace LazyTensor

open Radix List

open Session (Builds)

/-- A slice within an axis. -/
theorem Index.sliceEffect_int {a b n : Int} (h : 0 ≤ a ∧ a ≤ b ∧ b ≤ n) :
    sliceEffect (.dim (.int a)) (.dim (.int b)) .none (.int n) =
      pure { size := .int (b - a), lo := .int a, hi := .int b } := by
  have hclip : clip (some a) (some b) none n = (a, b, 1) := by
    simp only [clip, Option.getD_none]
    rw [if_neg (by omega), if_neg (by omega), if_neg (by omega), if_neg (by omega)]
  have hsize : Shape.ceilDiv (.int (b - a)) (.int 1) = pure (.int (b - a)) := by
    rw [Shape.ceilDiv_int _ one_pos]
    simp
  simp [sliceEffect, Bound.int?, Bound.isNone, hclip, not_lt.mpr h.2.1, hsize]

namespace Movement

variable {m : Movement} {s i j : Int}

theorem onAxis_spec (k : Kind Int) {P : List Int} {n x : Int} (hm : m.shape = P ++ [n])
    (h : k.admits (n, x) = true) : ∃ v, m.onLast? P.length (k.along? · [x]) = some v ∧
      v.shape = P ++ [k.size (n, x)] ∧ ∀ p d, p.length = P.length →
        v.source (p ++ [d]) = (k.source (n, x) d).bind fun y => m.source (p ++ [y]) := by
  have hw : k.along? [n] [x] = some _ :=
    Kind.along?_eq_some.mpr ⟨⟨rfl, by simpa using h⟩, rfl⟩
  obtain ⟨v, hv, hshape, hsource⟩ := onLast?_spec (f := (k.along? · [x])) hm hw
  refine ⟨v, hv, hshape, fun p d hp => ?_⟩
  rw [hsource p [d] hp]
  cases hd : k.source (n, x) d <;> simp [each, hd]

/-- The same elements along all axes. -/
theorem regroupAll_spec {S T : List Int} (hm : m.shape = S) (h : S.prod = T.prod)
    (hT : ∀ t ∈ T, 0 ≤ t) : ∃ v, (Act.regroup 0 T).on? m = some v ∧ v.shape = T ∧
      ∀ i j, Shape.Aligned S T i j → v.source j = m.source i := by
  have hw : regrouping? S T = some _ := if_pos ⟨h, hT⟩
  obtain ⟨v, hv, hshape, hsource⟩ := onLast?_spec (P := []) (f := (regrouping? · T)) hm hw
  refine ⟨v, hv, hshape, fun i j hij => ?_⟩
  rw [← hij.index_eq]
  exact hsource [] j rfl

/-- A square is made longer, and read in rows of twice its size less one. -/
def upperActs (s : Int) : List Act :=
  [.extend 1 [s], .regroup 0 [s * (s + s)], .take 0 [s * (2 * s - 1)], .regroup 0 [s, 2 * s - 1],
    .take 1 [s]]

theorem upper_eq (full : List Dim → Bool → SessionM Tensor) (s : Int) :
    Movable.upper full s = full [.int s, .int s] true >>= Act.runAll (upperActs s) := by
  refine bind_congr fun t => ?_
  simp only [upperActs, Act.runAll, Act.run, foldlM_cons, foldlM_nil, bind_pure, map_cons, map_nil]

/-- In rows of twice the size less one, a row starts a place later than in rows of twice the size. -/
theorem upper_spec (hs : 0 < s) : ∃ m : Movement, Act.onAll? (upperActs s) ⟨[s, s], some⟩ = some m ∧
    m.shape = [s, s] ∧
    ∀ i j, 0 ≤ i ∧ i < s → 0 ≤ j ∧ j < s → ((m.source [i, j]).isSome ↔ i ≤ j) := by
  have hsq := mul_pos hs hs
  obtain ⟨m1, h1 : (Act.extend 1 [s]).on? _ = _, s1, r1⟩ :=
    onAxis_spec (m := ⟨[s, s], some⟩) extending (P := [s]) (x := s) rfl
      (by simpa [extending] using hs.le)
  obtain ⟨m2, h2, s2, r2⟩ := regroupAll_spec (T := [s * (s + s)]) s1 (by simp [extending])
    (by simp; linarith)
  obtain ⟨m3, h3 : (Act.take 0 _).on? m2 = _, s3, r3⟩ :=
    onAxis_spec taking (P := []) (x := s * (2 * s - 1)) s2
      (by simp [taking]; constructor <;> nlinarith)
  obtain ⟨m4, h4, s4, r4⟩ := regroupAll_spec (T := [s, 2 * s - 1]) s3 (by simp [taking])
    (by simp; omega)
  obtain ⟨m5, h5 : (Act.take 1 [s]).on? m4 = _, s5, r5⟩ :=
    onAxis_spec taking (P := [s]) (x := s) s4 (by simp [taking]; omega)
  refine ⟨m5, ?_, s5, fun i j hi hj => ?_⟩
  · simp only [upperActs, Act.onAll?_cons, h1, h2, h3, h4, h5, Option.bind_some, Act.onAll?_nil]
  have hrow : m5.source [i, j] = m2.source [i * (2 * s - 1) + j] := calc
    m5.source [i, j] = m4.source [i, j] := r5 [i] j rfl
    _ = m3.source [i * (2 * s - 1) + j] := r4 _ _ (.split hi (by omega))
    _ = m2.source [i * (2 * s - 1) + j] := r3 [] _ rfl
  have hplace {a b : Int} (ha : 0 ≤ a ∧ a < s) (hb : 0 ≤ b ∧ b < s + s)
      (hk : i * (2 * s - 1) + j = a * (s + s) + b) : (m5.source [i, j]).isSome ↔ b < s := by
    have hwide : m1.source [a, b] = _ := r1 [a] b rfl
    rw [hrow, hk, r2 [a, b] _ (.symm (.split ha hb)), hwide]
    by_cases h : b < s <;> simp [extending, hb.1, h]
  by_cases h : i ≤ j
  · rw [hplace (a := i) (b := j - i) hi (by omega) (by ring)]
    omega
  · rw [hplace (a := i - 1) (b := s + s + j - i) (by omega) (by omega) (by ring)]
    omega

end Movement

/-! ## Tensors -/

namespace Tensor

variable {st : Store} {t : Tensor} {b : Expr} {S : List Int} {g : List Int → Option (List Int)}
  {m : Movement} {k : Nat} {s : Session}

/-- A slice within each of two axes. -/
theorem Follows.slice {p n a e c d : Int} (hs : s.store.Remembers)
    (h : t.Follows s.store b S g m) (hm : m.shape = [p, n]) (hrows : 0 ≤ a ∧ a ≤ e ∧ e ≤ p)
    (hcols : 0 ≤ c ∧ c ≤ d ∧ d ≤ n) :
    Builds (Env.level (k + 1)) s (t.index [.between a e, .between c d]) fun t' st =>
      ∃ w : Movement, t'.Follows st b S g w ∧ w.shape = [e - a, d - c] ∧
        ∀ i j, w.source [i, j] = m.source [i + a, j + c] := by
  have hfill : t.fillGap [.between a e, .between c d] (Env.level (k + 1)) s =
      .ok [.between a e, .between c d] s := by
    have hrank : t.ndim (Env.level (k + 1)) s = .ok 2 s := by
      rw [h.ndim, hm]
      rfl
    change EStateM.bind (t.ndim (Env.level (k + 1))) _ s = _
    rw [EStateM.bind, hrank]
    rfl
  have heffects : t.effects [.between a e, .between c d] (Env.level (k + 1)) s =
      .ok [{ size := .int (e - a), lo := .int a, hi := .int e },
        { size := .int (d - c), lo := .int c, hi := .int d }] s := by
    change EStateM.bind (t.shape (Env.level (k + 1))) _ s = _
    rw [EStateM.bind, h.shape, hm]
    have hp : itemAt ([p, n].map Dim.int) 0 = pure (.int p) := rfl
    have hn : itemAt ([p, n].map Dim.int) (0 + 1) = pure (.int n) := rfl
    simp only [List.foldlM, effectOf, Index.between, hp, hn, Session.liftM_pure, pure_bind,
      Index.sliceEffect_int hrows, Index.sliceEffect_int hcols]
    rfl
  obtain ⟨w, hw⟩ : ∃ w, Movement.shrinking.along? m.shape [(a, e), (c, d)] = some w := by
    rw [hm]
    exact ⟨_, Movement.Kind.along?_eq_some.mpr
      ⟨⟨rfl, by simpa [Movement.shrinking] using ⟨hrows, hcols⟩⟩, rfl⟩⟩
  rw [index, indexWith]
  refine .read hfill (.read heffects
    (.bind (Q := fun t' st => t'.Follows st b S g (w.after m)) ?_ ?_))
  · refine .bind (h.shrink hs (by rw [hm]; rfl) hw) ?_
    rintro t₁ st₁ hst₁ - h₁
    refine .bind (h₁.flip_nil (s := s.withStore st₁) hst₁) ?_
    rintro t₂ st₂ hst₂ - h₂
    exact .pure hst₂ h₂
  · rintro t₁ st₁ hst₁ - h₁
    obtain ⟨hwshape, hwsource⟩ : w.shape = [e - a, d - c] ∧
        ∀ i j, w.source [i, j] = some [i + a, j + c] := by
      rw [hm] at hw
      obtain ⟨-, rfl⟩ := Movement.Kind.along?_eq_some.mp hw
      exact ⟨rfl, fun i j => rfl⟩
    have hsame := h₁.reshape_same (k := k) (s := s.withStore st₁) hst₁
    rw [Movement.after_shape, hwshape] at hsame
    refine .bind hsame ?_
    rintro t₂ st₂ hst₂ - h₂
    refine .pure hst₂ ⟨_, h₂, hwshape, fun i j => ?_⟩
    rw [Movement.after_source, hwsource, Option.bind_some]

/-- The entries of a tensor over a constant that is an integer, as its layout shows them. -/
def entries? (t : Tensor) (st : Store) : Option Entries := do
  let l ← st.layouts[t.node.number]?
  let views ← (← l).mapM View.toInt?
  match (← t.node.base.const?).key with
  | .int n => return Layout.read views [] fun _ => n
  | _ => none

theorem Follows.entries {d : DType} {c : Const} {n : Int} (hb : b.IsConstant d c) (hc : c.key = .int n)
    (h : t.Follows st b [] (fun _ => some []) m) : ∃ f, t.entries? st = some f ∧
      ∀ i, IsIndex m.shape i → f i = if (m.source i).isSome then n else 0 := by
  obtain ⟨l, hl, -, helement⟩ := h.stack
  obtain ⟨c', hconst, hkey⟩ : ∃ c', b.const? = some c' ∧ c'.key = .int n := by
    have hsame := hb.arg
    rw [Expr.const?, if_pos hb.op]
    cases harg : b.arg with
    | const c' =>
      rw [harg] at hsame
      exact ⟨c', rfl, (of_decide_eq_true hsame).symm.trans hc⟩
    | _ => rw [harg] at hsame; simp [BEq.beq, Arg.same] at hsame
  refine ⟨Layout.read l.views [] fun _ => n, ?_, fun i hi => ?_⟩
  · simp only [entries?, hl, h.base, hconst, hkey, Stack.layout, mapM_map_eq_some View.toInt?_toDim,
      Option.bind_eq_bind, Option.bind_some]
    rfl
  · rw [Layout.read, ← Stack.element?, helement i hi]
    cases m.source i <;> rfl

/-- One and zero are constants of every type. -/
theorem ofDType?_bit (one : Bool) (d : DType) : ∃ c,
    (Const.float (if one then 1 else 0)).ofDType? d = .ok c ∧ c.key = .int (if one then 1 else 0) := by
  rw [Const.ofDType?]
  cases one <;> split_ifs <;> exact ⟨_, rfl, by decide +kernel⟩

/-- A tensor of integers of the given rows and columns, where each is what a function says. -/
structure Shows (t : Tensor) (st : Store) (r c : Int) (x : Int → Int → Int) : Prop where
  shape : ∀ env (s : Session), s.store = st → t.shape env s = .ok [.int r, .int c] s
  entries : ∃ f, t.entries? st = some f ∧ ∀ i j, 0 ≤ i ∧ i < r → 0 ≤ j ∧ j < c → f [i, j] = x i j

theorem Shows.congr {r c : Int} {x y : Int → Int → Int} (h : t.Shows st r c x)
    (hxy : ∀ i j, 0 ≤ i ∧ i < r → 0 ≤ j ∧ j < c → x i j = y i j) : t.Shows st r c y := by
  obtain ⟨f, hf, hentry⟩ := h.entries
  exact ⟨h.shape, f, hf, fun i j hi hj => (hentry i j hi hj).trans (hxy i j hi hj)⟩

section Ones

variable {site : Arg} {wish : Wish} {r c : Int}

/-- A tensor of ones, or of zeros. -/
theorem full_shows (hs : s.store.Remembers) (hsite : Device.resolve wish.device = .ok site)
    (hr : 0 ≤ r) (hc : 0 ≤ c) (one : Bool) :
    Builds (Env.level (k + 1)) s (full [.int r, .int c] (.float (if one then 1 else 0)) wish) fun t st =>
      t.Shows st r c fun _ _ => if one then 1 else 0 := by
  obtain ⟨v, hv, hkey⟩ := ofDType?_bit one (wish.dtype.getD s.defaultFloat)
  refine (full_spec (T := [r, c]) hs (by simp [hr, hc]) hsite hv).mono ?_
  rintro t st - - ⟨e, he, h⟩
  obtain ⟨f, hf, hentry⟩ := h.entries he hkey
  refine ⟨fun _ _ hst => (hst ▸ h).shape, f, hf, fun i j hi hj => ?_⟩
  rw [hentry [i, j] (.cons hi (.cons hj .nil))]
  rfl

/-- The square of ones from the diagonal on. -/
theorem upper_follows {n : Int} {v : Const} (hs : s.store.Remembers) (hn : 0 < n)
    (hsite : Device.resolve wish.device = .ok site)
    (hv : (Const.float 1).ofDType? (wish.dtype.getD s.defaultFloat) = .ok v) :
    Builds (Env.level (k + 1)) s
      (Movable.upper (fun shape one => full shape (.float (if one then 1 else 0)) wish) n) fun t st =>
        ∃ e : Expr, e.IsConstant (wish.dtype.getD s.defaultFloat) v ∧ ∃ m : Movement,
          t.Follows st e [] (fun _ => some []) m ∧ m.shape = [n, n] ∧
            ∀ i j, 0 ≤ i ∧ i < n → 0 ≤ j ∧ j < n → ((m.source [i, j]).isSome ↔ i ≤ j) := by
  obtain ⟨m, hm, hshape, hsource⟩ := Movement.upper_spec hn
  rw [Movement.upper_eq]
  refine .bind (full_spec (T := [n, n]) hs (by simp [hn.le]) hsite hv) ?_
  rintro t₀ st₀ hst₀ - ⟨e, he, h₀⟩
  refine (h₀.runAll (s := s.withStore st₀) hst₀ hm).mono ?_
  rintro t₁ st₁ - - h₁
  exact ⟨e, he, m, h₁, hshape, hsource⟩

/-- A part of the square of ones from the diagonal on. -/
theorem slice_shows {v : Const} {e : Expr} {d : DType} {n a b x : Int} (hs : s.store.Remembers)
    (he : e.IsConstant d v) (hv : v.key = .int 1) (h : t.Follows s.store e [] (fun _ => some []) m)
    (hm : m.shape = [n, n])
    (hsource : ∀ i j, 0 ≤ i ∧ i < n → 0 ≤ j ∧ j < n → ((m.source [i, j]).isSome ↔ i ≤ j))
    (hrows : 0 ≤ a ∧ 0 ≤ r ∧ a + r ≤ n) (hcols : 0 ≤ b ∧ 0 ≤ c ∧ b + c ≤ n) (hx : x = a - b) :
    Builds (Env.level (k + 1)) s (t.index [.between a (a + r), .between b (b + c)]) fun t st =>
      t.Shows st r c fun i j => if x ≤ j - i then 1 else 0 := by
  refine (h.slice hs hm (by omega) (by omega)).mono ?_
  rintro t' st - - ⟨w, hw, hshape, hwsource⟩
  obtain ⟨f, hf, hentry⟩ := hw.entries he hv
  rw [show [a + r - a, b + c - b] = [r, c] by simp] at hshape
  refine ⟨fun _ _ hst => ?_, f, hf, fun i j hi hj => ?_⟩
  · subst hst
    rw [hw.shape, hshape]
    rfl
  have hone := hsource (i + a) (j + b) (by omega) (by omega)
  rw [hentry [i, j] (hshape ▸ .cons hi (.cons hj .nil)), hwsource, if_congr hone rfl rfl]
  congr 1
  simp only [eq_iff_iff]
  omega

end Ones

/-- **The ones of a triangle** are from the diagonal on. -/
theorem triangle_entry (hs : s.store.Remembers) {wish : Wish} {site : Arg}
    (hsite : Device.resolve wish.device = .ok site) (r c : Nat) (d : Int) :
    Builds (Env.level (k + 1)) s (triangle (.int r) (.int c) d wish) fun t st =>
      t.Shows st r c fun i j => if d ≤ j - i then 1 else 0 := by
  rw [triangle, Movable.triangle]
  split
  case isTrue h =>
    simp only [Bool.or_eq_true, decide_eq_true_iff] at h
    refine (full_shows hs hsite r.cast_nonneg c.cast_nonneg false).mono fun t st _ _ ht =>
      ht.congr fun i j hi hj => ?_
    rw [if_neg Bool.false_ne_true, if_neg (by omega)]
  case isFalse h =>
    simp only [Bool.or_eq_true, decide_eq_true_iff, not_or] at h
    split
    case isTrue h' =>
      refine (full_shows hs hsite r.cast_nonneg c.cast_nonneg true).mono fun t st _ _ ht =>
        ht.congr fun i j hi hj => ?_
      rw [if_pos rfl, if_pos (by omega)]
    case isFalse h' =>
      obtain ⟨v, hv, hkey⟩ := ofDType?_bit true (wish.dtype.getD s.defaultFloat)
      refine .bind (upper_follows (n := r + c - 1) hs (by omega) hsite hv) ?_
      rintro t st hst - ⟨e, he, m, hm, hshape, hsource⟩
      split
      case isTrue hd =>
        have := slice_shows (k := k) (s := s.withStore st) (r := r) (c := c) (a := 0) (b := -d)
          (x := d) hst he hkey hm hshape hsource (by omega) (by omega) (by omega)
        rw [zero_add, neg_add_eq_sub] at this
        exact this
      case isFalse hd =>
        have := slice_shows (k := k) (s := s.withStore st) (r := r) (c := c) (a := d) (b := 0)
          (x := d) hst he hkey hm hshape hsource (by omega) (by omega) (by omega)
        rw [zero_add, add_comm d] at this
        exact this

/-- A diagonal below the main one, in a new session. -/
theorem triangle_entry_below : Device.resolve ({} : Wish).device = .ok (.text Device.default) ∧
    Builds (Env.level 1) {} (triangle (.int 3) (.int 2) (-1) {}) fun t st =>
      ∃ f, t.entries? st = some f ∧ f [1, 0] = 1 ∧ f [2, 0] = 0 := by
  refine ⟨rfl, (triangle_entry (Store.Remembers.of_empty rfl rfl rfl)
    (show Device.resolve ({} : Wish).device = .ok _ from rfl) 3 2 (-1)).mono ?_⟩
  rintro t st - - ⟨-, f, hf, h⟩
  exact ⟨f, hf, h 1 0 (by decide) (by decide), h 2 0 (by decide) (by decide)⟩

end Tensor

end LazyTensor
