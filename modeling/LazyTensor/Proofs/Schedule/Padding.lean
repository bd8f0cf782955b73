import LazyTensor.Proofs.Graph.Interval
import LazyTensor.Proofs.Graph.Walk
import LazyTensor.Schedule.Memory

/-!
# Padding at the leaves

Where a tensor is padded, its elements are zero.  Padding may be moved from a graph of elementwise
operations to its leaves if the graph turns zeros into zero.  The test for that only looks for
operations on a list, so it is right if every other operation keeps zeros.  On integers and truth
values the operations with a value of their own do; the generator of random bits and the test for
equality are not on the list either, and do not.

## Main results

* `Expr.zero_of_canPad`: a graph that passes the test turns zeros into zero.
-/

namespace LazyTensor

namespace Op

def isPointwise (op : Op) : Bool := op.isAlu || op == .cast

/-- How many operands an operation has, if it has a value on integers. -/
def integerArity? : Op → Option Nat
  | .cast | .neg | .exp2 => some 1
  | .add | .sub | .mul | .idiv | .mod | .max | .pow | .cmplt | .cmpne | .xor | .or | .and | .shl
  | .shr => some 2
  | .select | .mulacc => some 3
  | _ => none

/-- An elementwise operation on the machine. -/
def pointwise (op : Op) (d : DType) (xs : List Const) : Except Failure Const :=
  match op, xs with
  | .cast, [x] => do Const.truncate d (← x.ofDType? d)
  | _, _ => op.eval d xs

end Op

namespace Expr

/-- The value of a graph of elementwise operations, from those of its leaves. -/
def pointwise (leaf : Expr → Const) (e : Expr) : Except Failure Const :=
  match e with
  | .mk number op d src arg tag =>
    if op.isPointwise then do op.pointwise d (← src.attach.mapM fun ⟨a, _⟩ => a.pointwise leaf)
    else .ok (leaf (.mk number op d src arg tag))
termination_by e

/-- All elementwise operations, down to the leaves, are on integers and truth values. -/
inductive OnIntegers : Expr → Prop
  | leaf {e : Expr} (hop : e.op.isPointwise = false) : OnIntegers e
  | node {e : Expr} (hop : e.op.integerArity? = some e.src.length) (hd : e.dtype.Counted)
      (hsrc : ∀ x ∈ e.src, OnIntegers x) : OnIntegers e

end Expr

/-! ## Operations on zeros -/

namespace Const

variable {c : Const} {d : DType}

/-- The two constants that are zero. -/
theorem eq_of_int?_zero (h : c.int? = some 0) : c = .int 0 ∨ c = .bool false := by
  cases c with
  | bool b =>
    cases b
    · exact .inr rfl
    · cases h
  | int n =>
    cases h
    exact .inl rfl
  | float x => cases h

theorem truncate_zero (hd : d.Counted) (hc : c.int? = some 0) :
    ∃ c', c.truncate d = .ok c' ∧ c'.int? = some 0 := by
  rcases hd with ⟨s, hs, rfl⟩ | rfl
  · refine ⟨.int 0, ?_, rfl⟩
    simp [truncate, hs, hc]
  · exact ⟨.bool c.truthy, rfl, by rw [truthy_eq hc]; rfl⟩

theorem ofDType?_zero (hd : d.Counted) (hc : c.int? = some 0) :
    ∃ c', c.ofDType? d = .ok c' ∧ c'.int? = some 0 := by
  obtain rfl | rfl := eq_of_int?_zero hc <;> rcases hd with ⟨s, hs, rfl⟩ | rfl
  · exact ⟨.int 0, if_pos hs, rfl⟩
  · exact ⟨.bool false, rfl, rfl⟩
  · exact ⟨.int 0, if_pos hs, rfl⟩
  · exact ⟨.bool false, rfl, rfl⟩

end Const

namespace Op

variable {op : Op} {d : DType} {cs : List Const}

/-- An operation on integers that is not on the list keeps zeros. -/
theorem evalExact_zero (hop : op.integerArity? = some cs.length) (hcast : op ≠ .cast)
    (hsafe : op.isUnsafePad = false) (h0 : ∀ c ∈ cs, c.int? = some 0) :
    ∃ c, op.evalExact cs = .ok c ∧ c.int? = some 0 := by
  -- each operand is one of two constants, on which the operation is a computation
  match cs, h0 with
  | [], _ => cases op <;> cases hop
  | [a], h0 =>
    have ha := Const.eq_of_int?_zero (h0 a (by simp))
    cases op <;> cases hop <;> cases hsafe
    · exact absurd rfl hcast
    · obtain rfl | rfl := ha <;> exact ⟨_, rfl, rfl⟩
  | [a, b], h0 =>
    have ha := Const.eq_of_int?_zero (h0 a (by simp))
    have hb := Const.eq_of_int?_zero (h0 b (by simp))
    cases op <;> cases hop <;> cases hsafe <;> obtain rfl | rfl := ha <;> obtain rfl | rfl := hb <;>
      exact ⟨_, rfl, rfl⟩
  | [a, b, c], h0 =>
    have ha := Const.eq_of_int?_zero (h0 a (by simp))
    have hb := Const.eq_of_int?_zero (h0 b (by simp))
    have hc := Const.eq_of_int?_zero (h0 c (by simp))
    cases op <;> cases hop <;> obtain rfl | rfl := ha <;> obtain rfl | rfl := hb <;>
      obtain rfl | rfl := hc <;> exact ⟨_, rfl, rfl⟩
  | _ :: _ :: _ :: _ :: _, _ => cases op <;> cases hop

theorem pointwise_zero (hop : op.integerArity? = some cs.length) (hd : d.Counted)
    (hsafe : op.isUnsafePad = false) (h0 : ∀ c ∈ cs, c.int? = some 0) :
    ∃ c, op.pointwise d cs = .ok c ∧ c.int? = some 0 := by
  by_cases hcast : op = .cast
  · subst hcast
    obtain ⟨a, rfl⟩ := List.length_eq_one_iff.mp (Option.some.inj hop).symm
    obtain ⟨b, hb, hb0⟩ := Const.ofDType?_zero hd (h0 a (by simp))
    obtain ⟨c, hc, hc0⟩ := Const.truncate_zero hd hb0
    refine ⟨c, ?_, hc0⟩
    change (a.ofDType? d >>= Const.truncate d) = _
    rw [hb]
    exact hc
  · obtain ⟨b, hb, hb0⟩ := evalExact_zero hop hcast hsafe h0
    obtain ⟨c, hc, hc0⟩ := Const.truncate_zero hd hb0
    refine ⟨c, ?_, hc0⟩
    rw [pointwise.eq_2 _ _ _ fun _ h _ => hcast h]
    change (op.evalExact cs >>= Const.truncate d) = _
    rw [hb]
    exact hc

theorem isPointwise_of_integerArity? {n : Nat} (hop : op.integerArity? = some n) :
    op.isPointwise = true := by
  cases op <;> first | rfl | cases hop

end Op

/-! ## Graphs on zeros -/

namespace Expr

variable {e : Expr} {leaf : Expr → Const}

theorem mapM_zero {α : Type} {f : α → Except Failure Const} {xs : List α}
    (h : ∀ x ∈ xs, ∃ c, f x = .ok c ∧ c.int? = some 0) :
    ∃ cs, xs.mapM f = .ok cs ∧ cs.length = xs.length ∧ ∀ c ∈ cs, c.int? = some 0 := by
  induction xs with
  | nil => exact ⟨[], rfl, rfl, by simp⟩
  | cons x xs ih =>
    obtain ⟨c, hc, hc0⟩ := h x (by simp)
    obtain ⟨cs, hcs, hlen, hcs0⟩ := ih fun y hy => h y (by simp [hy])
    refine ⟨c :: cs, ?_, by simp [hlen], by simpa [hc0] using hcs0⟩
    rw [List.mapM_cons, hc, hcs]
    rfl

theorem pointwise_zero (h : e.OnIntegers) (hsafe : ∀ x, e.Reaches x → x.op.isUnsafePad = false)
    (h0 : ∀ x, (leaf x).int? = some 0) : ∃ c, e.pointwise leaf = .ok c ∧ c.int? = some 0 := by
  induction h with
  | @leaf e hop =>
    cases e with
    | mk number op d src arg tag =>
      refine ⟨_, ?_, h0 (.mk number op d src arg tag)⟩
      rw [pointwise]
      exact if_neg (ne_true_of_eq_false hop)
  | @node e hop hd _ ih =>
    cases e with
    | mk number op d src arg tag =>
      have hvalues : ∀ a ∈ src.attach, ∃ c, a.1.pointwise leaf = .ok c ∧ c.int? = some 0 :=
        fun a _ => ih a.1 a.2 fun x hx => hsafe x (.of_src a.2 hx)
      obtain ⟨cs, hcs, hlen, hcs0⟩ := mapM_zero hvalues
      rw [List.length_attach] at hlen
      have hop' : op.integerArity? = some cs.length := hlen ▸ hop
      obtain ⟨c, hc, hc0⟩ := Op.pointwise_zero hop' hd (hsafe _ (.refl _)) hcs0
      refine ⟨c, ?_, hc0⟩
      rw [pointwise]
      refine (if_pos (Op.isPointwise_of_integerArity? hop)).trans ?_
      change (src.attach.mapM (fun a => a.1.pointwise leaf) >>= op.pointwise d) = _
      rw [hcs]
      exact hc

theorem canPad_iff (he : e.Distinct) :
    e.canPad (fun _ => false) = true ↔ ∀ x, e.Reaches x → x.op.isUnsafePad = false := by
  rw [canPad, Array.all_eq_true_iff_forall_mem]
  simp [mem_toposortGated_iff he]

/-- **Padding may be moved to the leaves.**  A graph of operations on integers that passes the test
is zero where all its leaves are. -/
theorem zero_of_canPad (he : e.Distinct) (hint : e.OnIntegers)
    (hpad : e.canPad (fun _ => false) = true) (h0 : ∀ x, (leaf x).int? = some 0) :
    ∃ c, e.pointwise leaf = .ok c ∧ c.int? = some 0 :=
  pointwise_zero hint ((canPad_iff he).mp hpad) h0

/-! ### A graph that passes: `(x < y) + x * y` -/

namespace Comparison

def x : Expr := .mk 0 .load .int [] .none .none
def y : Expr := .mk 1 .load .int [] .none .none
def less : Expr := .mk 2 .cmplt .bool [x, y] .none .none
def number : Expr := .mk 3 .cast .int [less] .none .none
def product : Expr := .mk 4 .mul .int [x, y] .none .none
def sum : Expr := .mk 5 .add .int [number, product] .none .none

def nodes : List Expr := [x, y, less, number, product, sum]

theorem nodes_closed : ∀ e ∈ nodes, ∀ a ∈ e.src, a ∈ nodes := by
  simp [nodes, x, y, less, number, product, sum, src]

theorem sum_distinct : sum.Distinct :=
  distinct_of_listed nodes (by simp [nodes]) nodes_closed (by decide)

theorem sum_onIntegers : sum.OnIntegers := by
  have hint : DType.int.Counted := .inl ⟨.int32, rfl, rfl⟩
  have hx : x.OnIntegers := .leaf rfl
  have hy : y.OnIntegers := .leaf rfl
  have hless : less.OnIntegers := .node rfl (.inr rfl) (by simp [less, src, hx, hy])
  have hnumber : number.OnIntegers := .node rfl hint (by simp [number, src, hless])
  have hproduct : product.OnIntegers := .node rfl hint (by simp [product, src, hx, hy])
  exact .node rfl hint (by simp [sum, src, hnumber, hproduct])

theorem sum_canPad : sum.canPad (fun _ => false) = true := by
  have hall : ∀ e ∈ nodes, e.op.isUnsafePad = false := by decide
  rw [canPad_iff sum_distinct]
  exact fun e he => hall e (he.mem_of_closed nodes_closed (by simp [nodes]))

end Comparison

theorem zero_of_canPad_comparison :
    Comparison.sum.Distinct ∧ Comparison.sum.OnIntegers ∧
      Comparison.sum.canPad (fun _ => false) = true ∧
      ∃ c, Comparison.sum.pointwise (fun _ => .int 0) = .ok c ∧ c.int? = some 0 :=
  ⟨Comparison.sum_distinct, Comparison.sum_onIntegers, Comparison.sum_canPad,
    zero_of_canPad Comparison.sum_distinct Comparison.sum_onIntegers Comparison.sum_canPad
      fun _ => rfl⟩

end Expr

end LazyTensor
