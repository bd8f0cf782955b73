import LazyTensor.Proofs.Graph.Interval
import LazyTensor.Proofs.Graph.Sharing

/-!
# Bounds enclose values

Expressions on integers and truth values are made of constants and variables by arithmetic,
comparisons, choices, bits and shifts.  An assignment gives a number to every variable; under it an
expression has a value where no divisor is zero and every part fits its type.  The bounds of a node
are found from those of its sources by the rules `HasBounds` and remembered in the store.

The bounds enclose every value, with one exception.  A conjunction of truth values takes a least value
of its left operand that is not zero for true; that of a difference of truth values may be minus one,
and then the conjunction counts as true whatever the values are.

## Main results

* `Expr.HasBounds.enclose`: bounds are around every value.
* `Expr.Numeric.findsBounds`: the bounds of a node are those that the rules give.
* `Expr.bounds_enclose_values`: the bounds of a node of a store are around its value.
* `Difference.value_below_bounds`: they are not where truth values are subtracted.
-/

namespace LazyTensor

open Bounds

namespace Expr

/-! ## Expressions and their values -/

/-- Expressions on integers and truth values.  Only where `loose` holds are there differences of
truth values, and variables for truth values that may be below zero. -/
inductive Numeric (loose : Prop) : Expr → Prop
  | const {n d src c k tag} (hd : d.Counted) (hc : c.int? = some k) (hk : d.Fits k) :
      Numeric loose (.mk n .const d src (.const c) tag)
  | var {n d src name lo hi l h tag} (hd : d.Counted) (hl : lo.int? = some l) (hh : hi.int? = some h)
      (h0 : d = .bool → loose ∨ 0 ≤ l) :
      Numeric loose (.mk n .defineVar d src (.tuple [name, .const lo, .const hi]) tag)
  | special {n d src name c k tag} (hd : d.Counted) (hc : c.int? = some k) :
      Numeric loose (.mk n .special d src (.tuple [name, .const c]) tag)
  | extent {n d src name x tag} (hd : d.Counted) (hx : Numeric loose x) :
      Numeric loose (.mk n .special d src (.tuple [name, .expr x]) tag)
  | range {n d stop arg tag} (hd : d.Counted) (hs : Numeric loose stop) :
      Numeric loose (.mk n .range d [stop] arg tag)
  | bind {n v c arg tag} (hv : Numeric loose v) : Numeric loose (.mk n .bind v.dtype [v, c] arg tag)
  | arith {n op d a b arg tag} (hop : op.isArith = true) (hd : d.Counted) (ha : Numeric loose a)
      (hb : Numeric loose b) (had : a.dtype = d) (hbd : b.dtype = d) :
      Numeric loose (.mk n op d [a, b] arg tag)
  | sub {n d a b arg tag} (hd : d.Counted) (hl : d = .bool → loose) (ha : Numeric loose a)
      (hb : Numeric loose b) (had : a.dtype = d) (hbd : b.dtype = d) :
      Numeric loose (.mk n .sub d [a, b] arg tag)
  | test {n op a b arg tag} (hop : op.isTest = true) (ha : Numeric loose a) (hb : Numeric loose b) :
      Numeric loose (.mk n op .bool [a, b] arg tag)
  | and {n d a b arg tag} (hd : d.Counted) (ha : Numeric loose a) (hb : Numeric loose b)
      (had : a.dtype = d) (hbd : b.dtype = d) : Numeric loose (.mk n .and d [a, b] arg tag)
  | or {n a b arg tag} (ha : Numeric loose a) (hb : Numeric loose b) (had : a.dtype = .bool)
      (hbd : b.dtype = .bool) : Numeric loose (.mk n .or .bool [a, b] arg tag)
  | shift {n op d a m d' src c k t arg tag} (hop : op.isShift = true) (hd : d.Counted)
      (ha : Numeric loose a) (hb : Numeric loose (.mk m .const d' src (.const c) t))
      (had : a.dtype = d) (hc : c.int? = some k) (hk : 0 ≤ k) :
      Numeric loose (.mk n op d [a, .mk m .const d' src (.const c) t] arg tag)
  | choice {n d c a b arg tag} (hd : d.Counted) (ha : Numeric loose a) (hb : Numeric loose b)
      (had : a.dtype = d) (hbd : b.dtype = d) : Numeric loose (.mk n .select d [c, a, b] arg tag)

/-- The value of an expression under an assignment of numbers to variables: variables stay within
their bounds, loops below their ends, every result exists and fits its type, and a choice looks only
at the side taken.  A bound variable may be read as the variable or as what is bound to it. -/
inductive Value (σ : Expr → Int) : Expr → Int → Prop
  | const {n d src c k tag} (hc : c.int? = some k) (hf : d.Fits k) :
      Value σ (.mk n .const d src (.const c) tag) k
  | var {n d src name lo hi l h tag} {v : Int} (hl : lo.int? = some l) (hh : hi.int? = some h)
      (hv : σ (.mk n .defineVar d src (.tuple [name, .const lo, .const hi]) tag) = v)
      (hlo : l ≤ v) (hhi : v ≤ h) (hf : d.Fits v) :
      Value σ (.mk n .defineVar d src (.tuple [name, .const lo, .const hi]) tag) v
  | special {n d src name c k tag} {v : Int} (hc : c.int? = some k)
      (hv : σ (.mk n .special d src (.tuple [name, .const c]) tag) = v)
      (hlo : 0 ≤ v) (hhi : v < k) (hf : d.Fits v) :
      Value σ (.mk n .special d src (.tuple [name, .const c]) tag) v
  | extent {n d src name x tag} {k v : Int} (hx : Value σ x k)
      (hv : σ (.mk n .special d src (.tuple [name, .expr x]) tag) = v)
      (hlo : 0 ≤ v) (hhi : v < k) (hf : d.Fits v) :
      Value σ (.mk n .special d src (.tuple [name, .expr x]) tag) v
  | range {n d stop arg tag} {k v : Int} (hs : Value σ stop k)
      (hv : σ (.mk n .range d [stop] arg tag) = v) (hlo : 0 ≤ v) (hhi : v < k) (hf : d.Fits v) :
      Value σ (.mk n .range d [stop] arg tag) v
  | bind {n d a c arg tag} {v : Int} (ha : Value σ a v) (hf : d.Fits v) :
      Value σ (.mk n .bind d [a, c] arg tag) v
  | bound {n d m d' src name lo hi l h c arg tag tag'} {v : Int} (hl : lo.int? = some l)
      (hh : hi.int? = some h) (hc : Value σ c v) (hlo : l ≤ v) (hhi : v ≤ h) (hf : d.Fits v) :
      Value σ (.mk n .bind d [.mk m .defineVar d' src (.tuple [name, .const lo, .const hi]) tag', c]
        arg tag) v
  | binary {n op d a b arg tag} {p q v : Int} (ha : Value σ a p) (hb : Value σ b q)
      (hv : op.onIntegers? p q = some v) (hf : d.Fits v) : Value σ (.mk n op d [a, b] arg tag) v
  | left {n d c a b arg tag} {z v : Int} (hc : Value σ c z) (hz : z ≠ 0) (ha : Value σ a v)
      (hf : d.Fits v) : Value σ (.mk n .select d [c, a, b] arg tag) v
  | right {n d c a b arg tag} {v : Int} (hc : Value σ c 0) (hb : Value σ b v) (hf : d.Fits v) :
      Value σ (.mk n .select d [c, a, b] arg tag) v

theorem Value.fits {σ : Expr → Int} {e : Expr} {v : Int} (h : e.Value σ v) : e.dtype.Fits v := by
  cases h <;> assumption

theorem Numeric.counted {loose : Prop} {e : Expr} (h : e.Numeric loose) : e.dtype.Counted := by
  induction h with
  | const hd | var hd | special hd | extent hd | range hd | arith _ hd | sub hd | and hd
  | shift _ hd | choice hd => exact hd
  | bind _ ih => exact ih
  | test | or => exact .inr rfl

/-- The bounds of an expression, from those of its sources. -/
inductive HasBounds : Expr → Bounds → Prop
  | const {n d src c tag} : HasBounds (.mk n .const d src (.const c) tag) (c, c)
  | var {n d src name lo hi tag} :
      HasBounds (.mk n .defineVar d src (.tuple [name, .const lo, .const hi]) tag) (lo, hi)
  | special {n d src name c h tag} (hh : Const.sub c (.int 1) = .ok h) :
      HasBounds (.mk n .special d src (.tuple [name, .const c]) tag) (.int 0, h)
  | extent {n d src name x b tag} (hx : HasBounds x b) :
      HasBounds (.mk n .special d src (.tuple [name, .expr x]) tag) (.int 0, b.2)
  | range {n d stop arg tag b one h} (hs : HasBounds stop b)
      (hone : Const.ofDType? (.int (-1)) stop.dtype = .ok one) (hh : Const.add b.2 one = .ok h) :
      HasBounds (.mk n .range d [stop] arg tag) (.int 0, h)
  | bind {n d a c arg tag b} (ha : HasBounds a b) : HasBounds (.mk n .bind d [a, c] arg tag) b
  | binary {n op d a b arg tag x y r} (hop : op.isBinary = true) (ha : HasBounds a x)
      (hb : HasBounds b y) (hr : binary? op d x y = .ok r) :
      HasBounds (.mk n op d [a, b] arg tag) (r.getD (ofDType d))
  | choice {n d c a b arg tag x y} (hd : d.isInt = true) (ha : HasBounds a x) (hb : HasBounds b y) :
      HasBounds (.mk n .select d [c, a, b] arg tag) (Const.min x.1 y.1, Const.max x.2 y.2)
  | truths {n d src arg tag} (hd : d.isInt = false) :
      HasBounds (.mk n .select d src arg tag) (ofDType d)

/-! ## Bounds are around values -/

section Binary

variable {loose : Prop} {n : Nat} {op : Op} {d : DType} {a b : Expr} {arg tag : Arg} {x y : Bounds}
  {xl xh yl yh : Int}

theorem Numeric.operands (h : Numeric loose (.mk n op d [a, b] arg tag))
    (hop : op.isBinary = true) : a.Numeric loose ∧ b.Numeric loose := by
  cases h with
  | const | var | special | extent | bind => cases hop
  | arith _ _ ha hb | sub _ _ ha hb | test _ ha hb | and _ ha hb | or ha hb | shift _ _ ha hb =>
    exact ⟨ha, hb⟩

/-- The distance of a shift to the left by more than can be held. -/
def FarShift (op : Op) (b : Expr) : Prop :=
  op = .shl ∧ ∃ c k, b.const? = some c ∧ c.int? = some k ∧ 100000000 < k

/-- The bounds of an operation of an expression are found and enclose its results, but for shifts to
the left, which may be too far. -/
theorem Numeric.finds (h : Numeric loose (.mk n op d [a, b] arg tag)) (hop : op.isBinary = true)
    (hx : x.Spans xl xh) (hy : y.Spans yl yh) (hb : b.HasBounds y) :
    Bounds.Finds op d x y xl xh yl yh ∨
      op = .shl ∧ 0 ≤ yl ∧ yh = yl ∧ ∃ c, b.const? = some c ∧ c.int? = some yl := by
  cases h with
  | const | var | special | extent | bind => cases hop
  | arith h hd _ _ _ _ =>
    left
    cases op <;> cases h
    · exact finds_add hx hy
    · exact finds_mul hx hy
    · exact finds_idiv hx hy hd
    · exact finds_max hx hy
    · exact finds_mod hx hy hd
  | sub => exact .inl (finds_sub hx hy)
  | test h =>
    left
    cases op <;> cases h
    · exact finds_cmplt hx hy
    · exact finds_cmpne hx hy
  | and hd => exact .inl (finds_and hx hy hd)
  | or => exact .inl (finds_or hx hy (.inr rfl))
  | shift h hd _ _ _ hc hk =>
    cases hb with
    | const =>
      obtain ⟨rfl, rfl⟩ := hy.unique ⟨hc, hc⟩
      cases op <;> cases h
      · exact .inr ⟨rfl, hk, rfl, _, rfl, hc⟩
      · exact .inl (finds_shr hx hy hd hk)
    | binary hop => cases hop

theorem Numeric.binary?_ok (h : Numeric loose (.mk n op d [a, b] arg tag)) (hop : op.isBinary = true)
    (hx : x.Spans xl xh) (hy : y.Spans yl yh) (hb : b.HasBounds y) (hfar : ¬FarShift op b) :
    ∃ r, binary? op d x y = .ok r := by
  rcases h.finds hop hx hy hb with ⟨r, _, _, hr, _⟩ | ⟨rfl, h0, rfl, c, hc, hk⟩
  · exact ⟨r, hr⟩
  · refine binary?_shl_ok hx hy h0 ?_
    by_contra hlt
    exact hfar ⟨rfl, c, _, hc, hk, not_le.mp hlt⟩

/-- The bounds found for an operation of an expression enclose its results. -/
theorem Numeric.encloses {r : Option Bounds} (h : Numeric loose (.mk n op d [a, b] arg tag))
    (hop : op.isBinary = true) (hx : x.Spans xl xh) (hy : y.Spans yl yh) (hb : b.HasBounds y)
    (hr : binary? op d x y = .ok r) :
    ∃ lo hi, (r.getD (ofDType d)).Spans lo hi ∧
      Bounds.Encloses op d xl xh yl yh lo hi := by
  rcases h.finds hop hx hy hb with ⟨r', lo, hi, hr', h⟩ | ⟨rfl, h0, rfl, -⟩
  · cases hr'.symm.trans hr
    exact ⟨lo, hi, h⟩
  · exact encloses_shl hx hy h0 hr

theorem Numeric.admits {p q : Int} (h : Numeric loose (.mk n op d [a, b] arg tag))
    (hop : op.isBinary = true) (hp : a.dtype.Fits p) (hq : b.dtype.Fits q) : op.Admits d p q := by
  cases h with
  | const | var | special | extent | bind => cases hop
  | arith h | test h =>
    cases op <;> cases h <;> trivial
  | sub => trivial
  | and _ _ _ had hbd | or _ _ had hbd =>
    rw [had] at hp
    rw [hbd] at hq
    exact ⟨hp, hq⟩
  | shift h _ _ _ had _ _ =>
    rw [had] at hp
    cases op <;> cases h
    · trivial
    · exact hp

/-- Operands of an operation on truth values, comparisons apart, are truth values, or the distance
of a shift. -/
theorem Numeric.truths (h : Numeric False (.mk n op d [a, b] arg tag)) (hop : op.isBinary = true)
    (hd : d = .bool) :
    op ≠ .sub ∧ (op.isTest = false → a.dtype = .bool ∧
      (b.dtype = .bool ∨ ∃ c k, b.const? = some c ∧ c.int? = some k ∧ 0 ≤ k)) := by
  cases h with
  | const | var | special | extent | bind => cases hop
  | arith h _ _ _ had hbd =>
    refine ⟨?_, fun _ => ⟨had.trans hd, .inl (hbd.trans hd)⟩⟩
    rintro rfl
    cases h
  | sub _ hl => exact (hl hd).elim
  | test h =>
    refine ⟨?_, fun h' => absurd h (by simp [h'])⟩
    rintro rfl
    cases h
  | and _ _ _ had hbd | or _ _ had hbd =>
    exact ⟨by simp, fun _ => ⟨had.trans hd, .inl (hbd.trans hd)⟩⟩
  | shift h _ _ _ had hc hk =>
    refine ⟨?_, fun _ => ⟨had.trans hd, .inr ⟨_, _, rfl, hc, hk⟩⟩⟩
    rintro rfl
    cases h

end Binary

/-- What is added to the end of a loop: minus one, as a number of its type. -/
theorem exists_minusOne {d : DType} (hd : d.Counted) :
    ∃ one k, Const.ofDType? (.int (-1)) d = .ok one ∧ one.int? = some k ∧ -1 ≤ k := by
  rcases hd with ⟨s, hs, rfl⟩ | rfl
  · have hint : (DType.vec s 1).isInt = true := by
      cases s <;> first | rfl | cases hs
    rw [Const.ofDType?, if_pos hint]
    exact ⟨_, -1, rfl, rfl, le_rfl⟩
  · exact ⟨_, 1, rfl, rfl, by norm_num⟩

theorem HasBounds.const_spans {e : Expr} {b : Bounds} {c : Const} {k lo hi : Int} (h : e.HasBounds b)
    (hc : e.const? = some c) (hk : c.int? = some k) (hb : b.Spans lo hi) : lo = k := by
  have hop : e.op = .const := by
    by_contra hne
    simp [const?, hne] at hc
  cases h with
  | const =>
    cases hc
    exact (hb.unique ⟨hk, hk⟩).1
  | binary hb =>
    cases hop
    cases hb
  | var | special | extent | range | bind | choice | truths => cases hop

theorem HasBounds.spans {loose : Prop} {e : Expr} {b : Bounds} (h : e.HasBounds b)
    (he : e.Numeric loose) : ∃ lo hi, b.Spans lo hi := by
  induction h with
  | const =>
    cases he with
    | const _ hc _ => exact ⟨_, _, hc, hc⟩
    | arith h | test h | shift h => cases h
  | var =>
    cases he with
    | var _ hl hh _ => exact ⟨_, _, hl, hh⟩
    | arith h | test h | shift h => cases h
  | special hh =>
    cases he with
    | special _ hc =>
      rw [Const.sub_eq hc Const.int?_int] at hh
      cases hh
      exact ⟨_, _, rfl, rfl⟩
    | arith h | test h | shift h => cases h
  | extent _ ih =>
    cases he with
    | extent _ hx =>
      obtain ⟨lo, hi, h⟩ := ih hx
      exact ⟨0, hi, rfl, h.2⟩
    | arith h | test h | shift h => cases h
  | range _ hone hh ih =>
    cases he with
    | range _ hs =>
      obtain ⟨lo, hi, h⟩ := ih hs
      obtain ⟨_, k, hone', hk, -⟩ := exists_minusOne hs.counted
      cases hone.symm.trans hone'
      rw [Const.add_eq h.2 hk] at hh
      cases hh
      exact ⟨_, _, rfl, rfl⟩
  | bind _ ih =>
    cases he with
    | bind hv => exact ih hv
    | arith h | test h | shift h => cases h
  | binary hop ha hb hr iha ihb =>
    obtain ⟨hna, hnb⟩ := he.operands hop
    obtain ⟨xl, xh, hx⟩ := iha hna
    obtain ⟨yl, yh, hy⟩ := ihb hnb
    obtain ⟨lo, hi, h, -⟩ := he.encloses hop hx hy hb hr
    exact ⟨lo, hi, h⟩
  | choice _ _ _ iha ihb =>
    cases he with
    | choice _ ha hb _ _ =>
      obtain ⟨xl, xh, hx⟩ := iha ha
      obtain ⟨yl, yh, hy⟩ := ihb hb
      exact ⟨_, _, Const.min_int? hx.1 hy.1, Const.max_int? hx.2 hy.2⟩
  | truths =>
    obtain ⟨lo, hi, h, -⟩ := spans_ofDType he.counted
    exact ⟨lo, hi, h⟩

/-- **Bounds are around every value**, and those of truth values do not go below zero. -/
theorem HasBounds.enclose {σ : Expr → Int} {e : Expr} {v : Int} (hv : e.Value σ v) {b : Bounds}
    (hb : e.HasBounds b) (he : e.Numeric False) :
    ∃ lo hi, b.Spans lo hi ∧ (lo ≤ v ∧ v ≤ hi) ∧ (e.dtype = .bool → 0 ≤ lo) := by
  induction hv generalizing b with
  | const hc hf =>
    cases hb with
    | const => exact ⟨_, _, ⟨hc, hc⟩, ⟨le_rfl, le_rfl⟩, fun h => (DType.fits_bool_iff.mp (h ▸ hf)).1⟩
    | binary hop => cases hop
  | var hl hh _ hlo hhi _ =>
    cases hb with
    | var =>
      cases he with
      | var _ hl' _ h0 =>
        cases hl.symm.trans hl'
        exact ⟨_, _, ⟨hl, hh⟩, ⟨hlo, hhi⟩, fun h => (h0 h).resolve_left id⟩
      | arith h | test h | shift h => cases h
    | binary hop => cases hop
  | special hc _ hlo hhi _ =>
    cases hb with
    | special hh =>
      rw [Const.sub_eq hc Const.int?_int] at hh
      cases hh
      exact ⟨_, _, ⟨rfl, rfl⟩, ⟨hlo, by omega⟩, fun _ => le_rfl⟩
    | binary hop => cases hop
  | extent _ _ hlo hhi _ ih =>
    cases hb with
    | extent hx =>
      cases he with
      | extent _ hxn =>
        obtain ⟨lo, hi, hs, hmem, -⟩ := ih hx hxn
        exact ⟨0, hi, ⟨rfl, hs.2⟩, ⟨hlo, by omega⟩, fun _ => le_rfl⟩
      | arith h | test h | shift h => cases h
    | binary hop => cases hop
  | range _ _ hlo hhi _ ih =>
    cases hb with
    | range hs hone hh =>
      cases he with
      | range _ hsn =>
        obtain ⟨lo, hi, hspan, hmem, -⟩ := ih hs hsn
        obtain ⟨_, k, hone', hk, hge⟩ := exists_minusOne hsn.counted
        cases hone.symm.trans hone'
        rw [Const.add_eq hspan.2 hk] at hh
        cases hh
        exact ⟨0, _, ⟨rfl, rfl⟩, ⟨hlo, by omega⟩, fun _ => le_rfl⟩
  | bind _ _ ih =>
    cases hb with
    | bind ha =>
      cases he with
      | bind hvn => exact ih ha hvn
      | arith h | test h | shift h => cases h
    | binary hop => cases hop
  | bound hl hh _ hlo hhi _ _ =>
    cases hb with
    | bind ha =>
      cases ha with
      | var =>
        cases he with
        | bind hvn =>
          cases hvn with
          | var _ hl' _ h0 =>
            cases hl.symm.trans hl'
            exact ⟨_, _, ⟨hl, hh⟩, ⟨hlo, hhi⟩, fun h => (h0 h).resolve_left id⟩
          | arith h | test h | shift h => cases h
        | arith h | test h | shift h => cases h
      | binary hop => cases hop
    | binary hop => cases hop
  | @binary n op d a b arg tag p q v ha hb' hv hf iha ihb =>
    have hop : op.isBinary = true := by
      cases op <;> first | rfl | cases hv
    cases hb with
    | binary _ hba hbb hr =>
      obtain ⟨hna, hnb⟩ := he.operands hop
      obtain ⟨xl, xh, hx, hp, hx0⟩ := iha hba hna
      obtain ⟨yl, yh, hy, hq, hy0⟩ := ihb hbb hnb
      obtain ⟨lo, hi, hs, henc⟩ := he.encloses hop hx hy hbb hr
      have hle : xl ≤ xh := hp.1.trans hp.2
      have hle' : yl ≤ yh := hq.1.trans hq.2
      have operands : d = .bool → op ≠ .sub ∧ (op.isTest = false → 0 ≤ xl ∧ 0 ≤ yl) := by
        intro hd
        obtain ⟨hsub, hops⟩ := he.truths hop hd
        refine ⟨hsub, fun h => ?_⟩
        obtain ⟨had, hbd | ⟨c, k, hc, hk, h0⟩⟩ := hops h
        · exact ⟨hx0 had, hy0 hbd⟩
        · exact ⟨hx0 had, h0.trans (hbb.const_spans hc hk hy).ge⟩
      refine ⟨lo, hi, hs, henc.value hp hq hv hf (he.admits hop ha.fits hb'.fits) ?_, fun h => ?_⟩
      · rintro rfl h
        exact ((operands h).2 rfl).1
      · exact henc.nonneg h (operands h).1 hle hle' (operands h).2
    | const | var | special | extent | bind | truths => cases hop
  | left _ _ ha hf _ iha =>
    cases hb with
    | choice hd hba hbb =>
      cases he with
      | choice _ hna hnb had hbd =>
        obtain ⟨xl, xh, hx, hmem, h0⟩ := iha hba hna
        obtain ⟨yl, yh, hy⟩ := hbb.spans hnb
        refine ⟨_, _, ⟨Const.min_int? hx.1 hy.1, Const.max_int? hx.2 hy.2⟩, by omega, fun h => ?_⟩
        cases h
        cases hd
    | truths hd =>
      obtain ⟨lo, hi, hs, h0⟩ := spans_ofDType he.counted
      exact ⟨lo, hi, hs, mem_ofDType hs hf, fun h => (h0 h).ge⟩
  | right _ hb' hf _ ihb =>
    cases hb with
    | choice hd hba hbb =>
      cases he with
      | choice _ hna hnb had hbd =>
        obtain ⟨yl, yh, hy, hmem, h0⟩ := ihb hbb hnb
        obtain ⟨xl, xh, hx⟩ := hba.spans hna
        refine ⟨_, _, ⟨Const.min_int? hx.1 hy.1, Const.max_int? hx.2 hy.2⟩, by omega, fun h => ?_⟩
        cases h
        cases hd
    | truths hd =>
      obtain ⟨lo, hi, hs, h0⟩ := spans_ofDType he.counted
      exact ⟨lo, hi, hs, mem_ofDType hs hf, fun h => (h0 h).ge⟩

/-! ## Bounds in a store -/

/-- Expressions in which a number is shifted to the left by more than can be held. -/
inductive ShiftsFar : Expr → Prop
  | here {n op d a b arg tag} (h : FarShift op b) : ShiftsFar (.mk n op d [a, b] arg tag)
  | inside {e x : Expr} (hx : x ∈ e.content.below) (h : ShiftsFar x) : ShiftsFar e

theorem not_shiftsFar_of_below {e : Expr} (hop : e.op ≠ .shl)
    (h : ∀ x ∈ e.content.below, ¬x.ShiftsFar) : ¬e.ShiftsFar := by
  rintro (⟨hfar⟩ | ⟨hx, hfar⟩)
  · exact hop hfar.1
  · exact h _ hx hfar

theorem Numeric.mono {loose : Prop} {e : Expr} (h : e.Numeric loose) : e.Numeric True := by
  induction h with
  | const hd hc hk => exact .const hd hc hk
  | var hd hl hh _ => exact .var hd hl hh fun _ => .inl trivial
  | special hd hc => exact .special hd hc
  | extent hd _ ih => exact .extent hd ih
  | range hd _ ih => exact .range hd ih
  | bind _ ih => exact .bind ih
  | arith hop hd _ _ had hbd iha ihb => exact .arith hop hd iha ihb had hbd
  | sub hd _ _ _ had hbd iha ihb => exact .sub hd (fun _ => trivial) iha ihb had hbd
  | test hop _ _ iha ihb => exact .test hop iha ihb
  | and hd _ _ had hbd iha ihb => exact .and hd iha ihb had hbd
  | or _ _ had hbd iha ihb => exact .or iha ihb had hbd
  | shift hop hd _ _ had hc hk iha ihb => exact .shift hop hd iha ihb had hc hk
  | choice hd _ _ had hbd iha ihb => exact .choice hd iha ihb had hbd

end Expr

namespace Store

/-- What a store remembers of bounds is so. -/
structure KeepsBounds (s : Store) : Prop where
  lt_size : ∀ {n : Nat} {b : Bounds}, s.bounds[n]? = some b → n < s.size
  right : ∀ {e : Expr} {b : Bounds}, s.Holds e → e.Numeric True → s.bounds[e.number]? = some b →
    e.HasBounds b

/-- A store that differs from a sound one in the bounds it remembers. -/
structure Recalls (s t : Store) : Prop where
  nodes : t.nodes = s.nodes
  size : t.size = s.size
  keeps : t.KeepsBounds

variable {s t u : Store}

theorem Recalls.refl (h : s.KeepsBounds) : s.Recalls s := ⟨rfl, rfl, h⟩

theorem Recalls.trans (h : s.Recalls t) (h' : t.Recalls u) : s.Recalls u :=
  ⟨h'.nodes.trans h.nodes, h'.size.trans h.size, h'.keeps⟩

theorem Recalls.holds (h : s.Recalls t) {e : Expr} (he : s.Holds e) : t.Holds e :=
  Extends.of_nodes h.nodes he

theorem Recalls.sound (h : s.Recalls t) (hs : s.Sound) : t.Sound := hs.of_nodes h.nodes h.size

theorem KeepsBounds.of_empty (h : s.bounds = {}) : s.KeepsBounds := by
  have none_kept : ∀ {n : Nat} {b : Bounds}, ¬s.bounds[n]? = some b := by
    intro n b hb
    rw [h, Std.HashMap.getElem?_empty] at hb
    cases hb
  exact ⟨fun hb => (none_kept hb).elim, fun _ _ hb => (none_kept hb).elim⟩

/-- Nothing is remembered yet of a new node. -/
theorem KeepsBounds.adding (h : s.KeepsBounds) (c : Expr.Content) : (s.adding c).KeepsBounds := by
  constructor
  · intro n b hb
    exact Nat.lt_succ_of_lt (h.lt_size hb)
  · intro e b he hn hb
    rcases holds_adding he with he | rfl
    · exact h.right he hn hb
    · exact absurd (h.lt_size hb) (lt_irrefl _)

/-- The bounds of a node may be remembered. -/
theorem KeepsBounds.insert (h : s.KeepsBounds) (hs : s.Sound) {e : Expr} {b : Bounds}
    (he : s.Holds e) (hb : e.HasBounds b) :
    s.Recalls { s with bounds := s.bounds.insert e.number b } := by
  refine ⟨rfl, rfl, ?_, ?_⟩
  · intro n b' hb'
    rw [Std.HashMap.getElem?_insert] at hb'
    split at hb'
    case isTrue heq =>
      rw [← beq_iff_eq.mp heq]
      exact hs.number_lt he
    case isFalse => exact h.lt_size hb'
  · intro e' b' he' hn hb'
    rw [Std.HashMap.getElem?_insert] at hb'
    split at hb'
    case isTrue heq =>
      cases hb'
      rw [← hs.eq_of_number he he' (beq_iff_eq.mp heq)]
      exact hb
    case isFalse => exact h.right he' hn hb'

end Store

namespace Expr

open GraphM

section Run

variable {p : Prop} {env : Env} {s : Store} {e : Expr}

/-- In every sound store that holds a node its bounds are found, but for shifts too far, and nothing
else changes in the store. -/
def FindsBounds (p : Prop) (env : Env) (e : Expr) : Prop :=
  ∀ ⦃s : Store⦄, s.Sound → s.KeepsBounds → s.Holds e → (e.ShiftsFar → p) →
    Ensures p env s e.bounds fun b t => e.HasBounds b ∧ s.Recalls t

/-- Bounds found once are remembered. -/
theorem remembered_spec (hs : s.Sound) (hk : s.KeepsBounds) (he : s.Holds e) (hn : e.Numeric True)
    {find : GraphM Bounds} (hf : Ensures p env s find fun b t => e.HasBounds b ∧ s.Recalls t) :
    Ensures p env s (remembered e.number find) fun b t => e.HasBounds b ∧ s.Recalls t := by
  refine Ensures.bind (Ensures.get_iff.mpr ?_)
  cases h : s.bounds[e.number]? with
  | some b => exact ⟨hk.right he hn h, .refl hk⟩
  | none =>
    refine Ensures.bind (hf.mono fun b t hb => ?_)
    obtain ⟨hb, ht⟩ := hb
    exact ⟨hb, ht.trans (ht.keeps.insert (ht.sound hs) (ht.holds he) hb)⟩

/-- The bounds of a node right below another. -/
theorem FindsBounds.inside {x : Expr} (h : FindsBounds p env x) (hs : s.Sound) (hk : s.KeepsBounds)
    (he : s.Holds e) (hp : e.ShiftsFar → p) (hx : x ∈ e.content.below) :
    Ensures p env s x.bounds fun b t => x.HasBounds b ∧ s.Recalls t :=
  h hs hk (hs.below he x hx) fun hfar => hp (.inside hx hfar)

/-- The bounds of two nodes right below another, one after the other. -/
theorem FindsBounds.both {a b : Expr} {f : Bounds → Bounds → GraphM Bounds}
    (ha : FindsBounds p env a) (hb : FindsBounds p env b) (hs : s.Sound) (hk : s.KeepsBounds)
    (he : s.Holds e) (hp : e.ShiftsFar → p) (hax : a ∈ e.content.below) (hbx : b ∈ e.content.below)
    (hf : ∀ {x y u}, a.HasBounds x → b.HasBounds y → s.Recalls u →
      Ensures p env u (f x y) fun r t => e.HasBounds r ∧ s.Recalls t) :
    Ensures p env s (do
      let x ← a.bounds
      let y ← b.bounds
      f x y) fun r t => e.HasBounds r ∧ s.Recalls t := by
  refine .bind ((ha.inside hs hk he hp hax).mono fun x t hx => ?_)
  have hnext := hb.inside (hx.2.sound hs) hx.2.keeps (hx.2.holds he) hp hbx
  exact .bind (hnext.mono fun y u hy => hf hx.1 hy.1 (hx.2.trans hy.2))

/-- The bounds of an operation on two operands. -/
theorem FindsBounds.binary {n : Nat} {op : Op} {d : DType} {a b : Expr} {arg tag : Arg}
    (ha : FindsBounds p env a) (hb : FindsBounds p env b) (hop : op.isBinary = true)
    (hn : Numeric True (.mk n op d [a, b] arg tag)) :
    FindsBounds p env (.mk n op d [a, b] arg tag) := by
  intro s hs hk he hp
  obtain ⟨hna, hnb⟩ := hn.operands hop
  have hd : d.isFloat = false := hn.counted.isFloat
  unfold bounds
  refine remembered_spec hs hk he hn ?_
  rw [if_pos (by rw [hop, hd]; rfl)]
  refine ha.both hb hs hk he hp (mem_below (by simp)) (mem_below (by simp)) fun {x y u} hx hy hu => ?_
  obtain ⟨xl, xh, hxs⟩ := hx.spans hna
  obtain ⟨yl, yh, hys⟩ := hy.spans hnb
  refine .bind (.ofExcept (fun r hr => ⟨.binary hop hx hy hr, hu⟩) fun hfail => ?_)
  refine hp (.here ?_)
  by_contra hfar
  obtain ⟨r, hr⟩ := hn.binary?_ok hop hxs hys hy hfar
  exact hfail r hr

/-- **The bounds of a node** are those that the rules give. -/
theorem Numeric.findsBounds (hn : e.Numeric True) : FindsBounds p env e := by
  induction hn with
  | const hd hc hv =>
    intro s hs hk he hp
    rw [bounds]
    exact remembered_spec hs hk he (.const hd hc hv) ⟨.const, .refl hk⟩
  | var hd hl hh h0 =>
    intro s hs hk he hp
    rw [bounds]
    exact remembered_spec hs hk he (.var hd hl hh h0) ⟨.var, .refl hk⟩
  | special hd hc =>
    intro s hs hk he hp
    rw [bounds]
    refine remembered_spec hs hk he (.special hd hc) ?_
    refine .bind (.ofExcept (fun h hh => ⟨.special hh, .refl hk⟩) fun hfail => ?_)
    exact (hfail _ (Const.sub_eq hc Const.int?_int)).elim
  | @extent n d src name x tag hd hx ih =>
    intro s hs hk he hp
    have hmem : x ∈ (mk n .special d src (.tuple [name, .expr x]) tag).content.below :=
      List.mem_append_right _ (List.mem_filterMap.mpr ⟨.expr x, by simp, rfl⟩)
    rw [bounds]
    refine remembered_spec hs hk he (.extent hd hx) ?_
    exact .bind ((ih.inside hs hk he hp hmem).mono fun b t hb => ⟨.extent hb.1, hb.2⟩)
  | @range n d stop arg tag hd hx ih =>
    intro s hs hk he hp
    have hstop : stop.dtype.isFloat = false := hx.counted.isFloat
    rw [bounds]
    refine remembered_spec hs hk he (.range hd hx) ?_
    simp only [hstop]
    obtain ⟨one, k, hone, hk', -⟩ := exists_minusOne hx.counted
    rw [hone]
    refine .bind (.pure ?_)
    refine .bind ((ih.inside hs hk he hp (mem_below (by simp))).mono fun b t hb => ?_)
    obtain ⟨lo, hi, hspan⟩ := hb.1.spans hx
    refine .bind (.ofExcept (fun r hr => ⟨.range hb.1 hone hr, hb.2⟩) fun hfail => ?_)
    exact (hfail _ (Const.add_eq hspan.2 hk')).elim
  | @bind n v c arg tag hv ih =>
    intro s hs hk he hp
    rw [bounds]
    refine remembered_spec hs hk he (.bind hv) ?_
    exact (ih.inside hs hk he hp (mem_below (by simp))).mono
      fun b t hb => ⟨.bind hb.1, hb.2⟩
  | @arith n op d a b arg tag hop hd ha hb had hbd iha ihb =>
    refine iha.binary ihb ?_ (.arith hop hd ha hb had hbd)
    cases op <;> cases hop <;> rfl
  | sub hd hl ha hb had hbd iha ihb => exact iha.binary ihb rfl (.sub hd hl ha hb had hbd)
  | @test n op a b arg tag hop ha hb iha ihb =>
    refine iha.binary ihb ?_ (.test hop ha hb)
    cases op <;> cases hop <;> rfl
  | and hd ha hb had hbd iha ihb => exact iha.binary ihb rfl (.and hd ha hb had hbd)
  | or ha hb had hbd iha ihb => exact iha.binary ihb rfl (.or ha hb had hbd)
  | @shift n op d a m d' src c k t arg tag hop hd ha hb had hc hk iha ihb =>
    refine iha.binary ihb ?_ (.shift hop hd ha hb had hc hk)
    cases op <;> cases hop <;> rfl
  | @choice n d c a b arg tag hd ha hb had hbd iha ihb =>
    intro s hs hk he hp
    rw [bounds]
    refine remembered_spec hs hk he (.choice hd ha hb had hbd) ?_
    rw [if_neg (by simp [Op.isBinary])]
    by_cases hint : d.isInt = true
    · rw [if_pos hint]
      exact iha.both ihb hs hk he hp (mem_below (by simp)) (mem_below (by simp)) fun hx hy hu => ⟨.choice hint hx hy, hu⟩
    · rw [if_neg hint]
      exact ⟨.truths (by simpa using hint), .refl hk⟩

/-- **The bounds of a node are around its value**, whatever numbers its variables stand for, where no
truth values are subtracted. -/
theorem bounds_enclose_values {σ : Expr → Int} {v : Int} (hs : s.Sound) (hk : s.KeepsBounds)
    (he : s.Holds e) (hn : e.Numeric False) (hv : e.Value σ v) :
    Ensures e.ShiftsFar env s e.vmin (fun c _ => ∃ lo, c.int? = some lo ∧ lo ≤ v) ∧
      Ensures e.ShiftsFar env s e.vmax (fun c _ => ∃ hi, c.int? = some hi ∧ v ≤ hi) := by
  have hfound : FindsBounds e.ShiftsFar env e := hn.mono.findsBounds
  constructor
  all_goals
    refine Ensures.bind ((hfound hs hk he id).mono fun b t hb => ?_)
    obtain ⟨lo, hi, hspan, hmem, -⟩ := hb.1.enclose hv hn
  · exact ⟨lo, hspan.1, hmem.1⟩
  · exact ⟨hi, hspan.2, hmem.2⟩

end Run

end Expr

open GraphM

def Env.idle : Env := ⟨fun e => pure e, fun _ => pure none⟩

namespace Third

def dividend : Expr :=
  .mk 1 .defineVar .int [] (.tuple [.text "x", .const (.int (-7)), .const (.int 7)]) .none

def divisor : Expr := .mk 2 .const .int [] (.const (.int 3)) .none

def quotient : Expr := .mk 3 .idiv .int [dividend, divisor] .none .none

def store : Store :=
  (((default : Store).adding dividend.content).adding divisor.content).adding quotient.content

theorem store_consists : store.Consists [quotient, divisor, dividend] :=
  ((Store.Consists.empty.adding dividend rfl (by rintro _ ⟨⟩) (by decide)).adding divisor rfl
    (by rintro _ ⟨⟩) (by decide)).adding quotient rfl (show ∀ x ∈ [dividend, divisor], _ by simp)
    (by decide)

/-- A third of minus seven is minus two, which is within the bounds of a third of the number. -/
theorem bounds_enclose_third : ∃ σ : Expr → Int,
    store.Sound ∧ store.KeepsBounds ∧ store.Holds quotient ∧ quotient.Numeric False ∧
      quotient.Value σ (-2) ∧
      Ensures quotient.ShiftsFar .idle store quotient.vmin
        (fun c _ => ∃ lo, c.int? = some lo ∧ lo ≤ -2) ∧
      Ensures quotient.ShiftsFar .idle store quotient.vmax
        (fun c _ => ∃ hi, c.int? = some hi ∧ -2 ≤ hi) := by
  have hs := store_consists.sound
  have he : store.Holds quotient := store_consists.holds_iff.mpr (.head _)
  have hd : DType.int.Counted := .inl ⟨.int32, rfl, rfl⟩
  have hf : ∀ v : Int, -7 ≤ v ∧ v ≤ 7 → DType.int.Fits v := fun v hv =>
    ⟨-2 ^ 31, 2 ^ 31 - 1, rfl, rfl, by omega, by omega⟩
  have hk : store.KeepsBounds := (((Store.KeepsBounds.of_empty rfl).adding _).adding _).adding _
  have hn : quotient.Numeric False :=
    .arith rfl hd (.var hd rfl rfl (by rintro ⟨⟩)) (.const hd rfl (hf 3 (by decide))) rfl rfl
  have hv : quotient.Value (fun _ => -7) (-2) :=
    .binary (.var rfl rfl rfl (by decide) (by decide) (hf (-7) (by decide)))
      (.const rfl (hf 3 (by decide))) rfl (hf (-2) (by decide))
  exact ⟨fun _ => -7, hs, hk, he, hn, hv, Expr.bounds_enclose_values hs hk he hn hv⟩

end Third

namespace Difference

def truth : Expr :=
  .mk 1 .defineVar .bool [] (.tuple [.text "x", .const (.int 0), .const (.int 1)]) .none

def difference : Expr := .mk 2 .sub .bool [truth, truth] .none .none

def certain : Expr := .mk 3 .const .bool [] (.const (.bool true)) .none

def conjunction : Expr := .mk 4 .and .bool [difference, certain] .none .none

def store : Store :=
  ((((default : Store).adding truth.content).adding difference.content).adding
    certain.content).adding conjunction.content

theorem store_consists : store.Consists [conjunction, certain, difference, truth] :=
  (((Store.Consists.empty.adding truth rfl (by rintro _ ⟨⟩) (by decide)).adding difference rfl
    (show ∀ x ∈ [truth, truth], _ by simp) (by decide)).adding certain rfl (by rintro _ ⟨⟩)
    (by decide)).adding conjunction rfl (show ∀ x ∈ [difference, certain], _ by simp) (by decide)

theorem not_shiftsFar : ¬conjunction.ShiftsFar := by
  have leaf : ∀ e : Expr, e.op ≠ .shl → e.content.below = [] → ¬e.ShiftsFar := fun e hop h =>
    Expr.not_shiftsFar_of_below hop (by simp [h])
  refine Expr.not_shiftsFar_of_below (by decide) fun x hx => ?_
  obtain rfl | rfl : x = difference ∨ x = certain := List.mem_pair.mp hx
  · refine Expr.not_shiftsFar_of_below (by decide) fun x hx => ?_
    obtain rfl : x = truth := by simpa using List.mem_pair.mp hx
    exact leaf _ (by decide) rfl
  · exact leaf _ (by decide) rfl

/-- The least value of the difference is minus one, which counts as true. -/
theorem least_bound {b : Bounds} (h : conjunction.HasBounds b) : b.1.int? = some 1 := by
  cases h with
  | binary _ hd hc hr =>
    cases hc with
    | const =>
      cases hd with
      | binary _ hx hy hr' =>
        cases hx with
        | var =>
          cases hy with
          | var =>
            cases hr'
            cases hr
            rfl

/-- **Truth values may be outside the bounds** where they are subtracted: the conjunction of true with
the difference of a truth value with itself is false, and its least value is true. -/
theorem value_below_bounds : ∃ σ : Expr → Int,
    store.Sound ∧ store.KeepsBounds ∧ store.Holds conjunction ∧ conjunction.Numeric True ∧
      conjunction.Value σ 0 ∧
      ∃ c t, conjunction.vmin .idle store = .ok c t ∧ c.int? = some 1 := by
  have hs := store_consists.sound
  have he : store.Holds conjunction := store_consists.holds_iff.mpr (.head _)
  have hf : ∀ v : Int, 0 ≤ v ∧ v ≤ 1 → DType.bool.Fits v := fun v => DType.fits_bool_iff.mpr
  have hk : store.KeepsBounds :=
    ((((Store.KeepsBounds.of_empty rfl).adding _).adding _).adding _).adding _
  have ht : truth.Numeric True := .var (.inr rfl) rfl rfl fun _ => .inl trivial
  have hn : conjunction.Numeric True :=
    .and (.inr rfl) (.sub (.inr rfl) (fun _ => trivial) ht ht rfl rfl)
      (.const (.inr rfl) rfl (hf 1 (by decide))) rfl rfl
  have htv : truth.Value (fun _ => 1) 1 :=
    .var rfl rfl rfl (by decide) (by decide) (hf 1 (by decide))
  have hv : conjunction.Value (fun _ => 1) 0 :=
    .binary (.binary htv htv rfl (hf 0 (by decide))) (.const rfl (hf 1 (by decide))) rfl
      (hf 0 (by decide))
  have hrun : Ensures False .idle store conjunction.vmin fun c _ => c.int? = some 1 := by
    refine Ensures.bind ((hn.findsBounds hs hk he not_shiftsFar).mono fun b t hb => ?_)
    exact least_bound hb.1
  obtain ⟨c, t, hrun, hc⟩ := hrun.exists_ok
  exact ⟨fun _ => 1, hs, hk, he, hn, hv, c, t, hrun, hc⟩

end Difference

end LazyTensor
