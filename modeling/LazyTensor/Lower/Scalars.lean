import LazyTensor.Symbolic.Full

/-!
# Vectors as scalars

Operations on vectors become vectors of operations on scalars, and the last forms before a program is
written: vectors of constants, selected lanes one by one, loads with an alternative, stores behind a
branch.
-/

namespace LazyTensor.Scalars

open Pat

def perLane (e : Expr) : RuleM := do
  let n := e.dtype.lanes
  if n = 1 then return none
  let each ← (List.range n).mapM fun i => do
    node e.op e.dtype.scalar (← e.src.mapM fun s => s.lane i) e.arg
  giving (node .vectorize e.dtype each)

private def runFrom (start n : Nat) : List Int := (List.range n).map fun i => ((start + i : Nat) : Int)

/-- The lists of the items at each position of some lists, as many as the shortest has. -/
def columns {α : Type} : List (List α) → List (List α)
  | [] => []
  | xss =>
    let n := (xss.map List.length).foldl min (xss.headD []).length
    (List.range n).map fun i => xss.filterMap fun xs => xs[i]?

/-- A matrix instruction over more elements than one makes, as several. -/
def matrix (w : Expr) : RuleM := do
  let some spread := w.arg.items[6]? | throw .outOfRange
  let sizes ← spread.items.mapM Lanes.volumeOf
  let out ← sizes.getLast?.getDM (throw .outOfRange)
  if w.dtype.count = out then return none
  let parts ← (w.src.zip sizes).mapM fun (s, n) => do
    if n = 0 then throw .invalidValue
    (List.range ((s.dtype.count + n - 1) / n)).mapM fun g => s.gep (runFrom (g * n) n)
  let d ← w.dtype.scalar.vec? out
  let each ← (columns parts).mapM fun src => node .wmma d src w.arg
  let lanes ← each.flatMapM fun e => (List.range out).mapM e.lane
  giving (node .vectorize w.dtype lanes)

def accumulator (acc : Expr) : RuleM := do
  let n := acc.dtype.count
  if n = 1 then return none
  let each ← (List.range n).mapM fun i => do
    let src ← match acc.src with
      | [] => pure []
      | a :: rest => pure ((← a.lane i) :: rest)
    let .tuple xs := acc.arg | throw .wrongType
    node acc.op acc.dtype.scalar src (.tuple (xs ++ [.int i]))
  giving (node .vectorize acc.dtype each)

def rules : RuleSet Expr := .ofList [
  on (of (Op.alus ++ [.cast, .bitcast, .assign])) perLane,
  on (of [.wmma]) matrix,
  on (of [.defineReg]) accumulator]

private def gated : Pat :=
  .node { name := some "idx", required := 3, strict := true } [[wild, wild, typed [.bool]]]

/-- Vectors written out by lanes, and accesses with an alternative or in a branch. -/
def final : RuleSet Expr := .ofList [
  on (of [.const]) fun c =>
    givingIf (c.dtype.lanes > 1) do
      let one ← Expr.constArg c.dtype.scalar c.arg
      node .vectorize c.dtype (List.replicate c.dtype.lanes one),
  on (of [.vconst]) fun c => giving do
    node .vectorize c.dtype (← c.arg.items.mapM fun x => Expr.constArg c.dtype.scalar x),
  on (of [.gep]) fun g => do
    let lanes ← Lanes.lanesOf g
    givingIf (lanes.length > 1) do
      let a ← g.nth 0
      node .vectorize g.dtype (← lanes.mapM fun i => a.gep [i]),
  on (of [.gep]) fun g => do
    let a ← g.nth 0
    return if a.dtype.lanes = 1 && g.arg == .tuple [.int 0] then some a else none,
  on1 (seq [.vectorize] [var "x"]) "x" fun x => return some x,
  -- a load behind a condition has an alternative
  on (seq [.load] [(seq [.index] [wild, wild, wild]).orCasted] none none .none true) fun x =>
    givingIf (x.src.length = 1 || x.srcIs 1 .custom) do
      x.withSrc ((← x.nth 0) :: (← x.constLike (.int 0)) :: x.src.drop 1),
  -- a store behind a condition stands in a branch
  on2 (seq [.store] [gated.orCasted, wild] "store" (some [.void])) "store" "idx" fun st idx => giving do
    node .store .void (st.src ++ [← node .branch .void [← idx.nth 2]])]

end LazyTensor.Scalars
