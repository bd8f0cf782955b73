import LazyTensor.Graph.Bounds
import LazyTensor.Graph.Rules

/-!
# Lanes

Selections of lanes move toward what the lanes are made of: through vectors, constants and
elementwise operations.
-/

namespace LazyTensor.Lanes

open Pat

def pick {α : Type} (xs : List α) (i : Int) : GraphM α :=
  let i := if i < 0 then i + xs.length else i
  (if i < 0 then none else xs[i.toNat]?).getDM (throw .outOfRange)

def lanesOf (g : Expr) : GraphM (List Int) :=
  g.arg.ints?.getDM (throw .wrongType)

def every {α : Type} (n start : Nat) (xs : List α) : List α :=
  ((xs.drop start).zipIdx.filter fun (_, i) => i % n = 0).map (·.1)

/-- The product of the sizes in a list of pairs of axis and size. -/
def volumeOf (a : Arg) : GraphM Nat := do
  let sizes ← a.items.mapM fun p => match p.items with
    | [_, .const c] => c.int?.elim (throw Failure.wrongType) fun n => pure n.toNat
    | _ => throw Failure.wrongType
  return sizes.foldl (· * ·) 1

/-- A selection of whole results of a matrix instruction is the instruction on selected operands. -/
def throughMatrix (gep wmma : Expr) : RuleM := do
  let groups := (wmma.arg.items.getD 6 .none).items
  let out ← volumeOf (groups.getLastD .none)
  if out = 0 then throw .invalidValue
  let lanes ← lanesOf gep
  let firsts := every out 0 lanes
  for i in List.range out do
    if (every out i lanes).map (fun x => x - (i : Int)) != firsts then return none
  let mut srcs : List Expr := []
  for (s, g) in wmma.src.zip groups do
    let n ← volumeOf g
    let args := firsts.flatMap fun w =>
      (List.range n).map fun (k : Nat) => Int.fdiv w out * n + k
    srcs := srcs ++ [← s.gep args]
  return some (← node .wmma gep.dtype srcs wmma.arg)

/-- Lanes are taken from where they come from. -/
def rules : RuleSet Expr := .ofList [
  on2 (seq [.gep] [of [.gep] "g2"] "g1") "g1" "g2" fun g1 g2 => do
    let inner ← lanesOf g2
    let lanes ← (← lanesOf g1).mapM (pick inner)
    giving (g2.src0.gep lanes),
  on2 (seq [.gep] [of [.vectorize] "vec"] "gep") "gep" "vec" fun gep vec => do
    match ← lanesOf gep with
    | [i] => return some (← pick vec.src i)
    | [] => throw .outOfRange
    | lanes => giving (do node .vectorize gep.dtype (← lanes.mapM (pick vec.src))),
  on2 (seq [.gep] [cvar1 "c"] "gep") "gep" "c" fun gep c => giving (gep.constLikeArg c.arg),
  on2 (seq [.gep] [of [.vconst] "c"] "gep") "gep" "c" fun gep c => do
    let xs ← (← lanesOf gep).mapM (pick c.arg.items)
    giving (gep.constLikeArg (.tuple xs)),
  on1 (seq [.gep] [var "x" (some [.void])]) "x" fun x => return some x,
  on (of [.gep]) fun g => do
    if g.dtype.isPtr then return none
    let s ← g.nth 0
    return if g.arg == .ofInts ((List.range s.dtype.count).map Int.ofNat) then some s else none,
  on2 (seq [.gep] [of (Op.alus ++ [.cast, .bitcast]) "alu"] "gep") "gep" "alu" fun gep a => do
    if gep.dtype.isPtr then return none
    let lanes ← lanesOf gep
    let src ← a.src.mapM fun x => x.gep lanes
    giving (do node a.op (← a.dtype.scalar.vec? gep.dtype.count) src a.arg),
  on (of [.cat]) fun x => do
    if x.dtype.isPtr then return none
    let lanes ← x.src.flatMapM fun y => (List.range y.dtype.count).mapM y.lane
    giving (node .vectorize x.dtype lanes),
  on2 (all [.vectorize] (seq [.gep] [var "x"]) "v") "v" "x" fun v x => do
    let lanes ← v.src.mapM fun i => do
      let [k] ← lanesOf i | throw (.broken s!"{i.arg.literal} must only have 1 element")
      pure k
    giving (x.gep lanes),
  on2 (seq [.gep] [of [.wmma] "wmma"] "gep") "gep" "wmma" throughMatrix]

end LazyTensor.Lanes
