import LazyTensor.Drawing
import LazyTensor.Text.Difference

/-!
# Recorded rewritings

A rewriting of a graph can be recorded: every step is a node and what a rule made of it.  The
recording is shown step by step: the whole graph after the step, the nodes that are new, and the
difference between the two printed nodes.

A recorded rewriting accepts every answer of a rule, also one that is the node itself.
-/

namespace LazyTensor

structure Recording where
  start : Expr
  steps : List (Expr × Expr)
  name : Option String
  bottomUp : Bool

namespace RuleSet

/-- The first answer of a rule at a node, put into the journal. -/
def noted? (rs : RuleSet Expr) (e : Expr) : RuleM := do
  let some r ← rs.first? e | return none
  modify fun s => match s.context with
    | .journal steps => { s with context := .journal (steps.push (e, r)) }
    | _ => s
  return some r

/-- Transform a graph by a set of rules and record the steps. -/
def record (rs : RuleSet Expr) (e : Expr) (bottomUp : Bool := false) (name : Option String := none) :
    GraphM (Expr × Recording) := do
  let (r, c) ← Rewriting.within (.journal #[]) do
    return (← Rewriting.start rs.noted? bottomUp e {}).1
  let steps := match c with
    | .journal steps => steps.toList
    | _ => []
  return (r, { start := e, steps, name, bottomUp })

end RuleSet

/-- What is shown of a recording after a step: the graph and its drawing, and for a step the nodes
that are new in it and the difference of the printed nodes. -/
structure Detail where
  graph : Expr
  items : List Drawing.Item
  changed : Option (List Expr) := none
  difference : Option (List String) := none

namespace Recording

/-- The name of the recording with a number of a function: a label takes the place of the
function's name. -/
def keyText (function : String) (number : Nat) (label : Option String) : String :=
  let plain := s!"{function} n{number}"
  match label with
  | none => plain
  | some l => if function.isEmpty then l ++ plain else plain.replace function l

def replaceAll (e : Expr) (subs : List (Expr × Expr)) : ExprM :=
  tryCatch (e.substitute subs) fun f =>
    match f.kind with
    | .misuse | .recursionLimit =>
      node .noop .void [] (.text (f.message.getD "")) .none
    | _ => throw f

/-- What is shown after each of the steps.  A rewriting from the sources on goes on from the graph
after the step, one from the outside from the first graph. -/
def detailsFrom (bottomUp : Bool) :
    Expr → List (Expr × Expr) → List (Expr × Expr) → GraphM (List Detail)
  | _, _, [] => return []
  | graph, done, (a, b) :: rest => do
    let done := done ++ [(a, b)]
    let next ← replaceAll graph done
    let items ← Drawing.ofGraph next
    let shown : Std.HashSet Nat := items.foldl (fun s i => s.insert i.node.number) {}
    let detail : Detail := {
      graph := next
      items
      changed := some (b.toposort.toList.filter fun x => shown.contains x.number)
      difference := some (Difference.unified (a.text.splitOn "\n") (b.text.splitOn "\n")) }
    return detail :: (← detailsFrom bottomUp (if bottomUp then graph else next) done rest)

def details (r : Recording) : GraphM (List Detail) := do
  let first : Detail := { graph := r.start, items := ← Drawing.ofGraph r.start }
  return first :: (← detailsFrom r.bottomUp r.start [] r.steps)

end Recording

end LazyTensor
