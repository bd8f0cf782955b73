import LazyTensor.Graph.Pattern
import LazyTensor.Graph.Store
import LazyTensor.Graph.Traverse

/-!
# Rules and rewriting

A rule pairs a pattern with what to do where it matches; it may decline.  A set of rules tries them
in order.  Rewriting a graph applies a set of rules everywhere until none applies.
-/

namespace LazyTensor

structure Rule (α : Type) where
  pat : Pat
  run : Expr → Bindings → GraphM (Option α)

namespace Rule

variable {α : Type}

/-- The answer of a rule at the first match where it does not decline. -/
def answer? (r : Rule α) (e : Expr) : GraphM (Option α) :=
  go (r.pat.matchesAt e)
where
  go : List Bindings → GraphM (Option α)
    | [] => pure none
    | b :: bs => do
      match ← r.run e b with
      | some a => pure (some a)
      | none => go bs

end Rule

section Named

variable {α : Type} (p : Pat) (a b c d : String)

def on (f : Expr → GraphM (Option α)) : Rule α := ⟨p, fun e _ => f e⟩

def on1 (f : Expr → GraphM (Option α)) : Rule α := ⟨p, fun _ m => f (m.get a)⟩

def on2 (f : Expr → Expr → GraphM (Option α)) : Rule α := ⟨p, fun _ m => f (m.get a) (m.get b)⟩

def on3 (f : Expr → Expr → Expr → GraphM (Option α)) : Rule α :=
  ⟨p, fun _ m => f (m.get a) (m.get b) (m.get c)⟩

def on4 (f : Expr → Expr → Expr → Expr → GraphM (Option α)) : Rule α :=
  ⟨p, fun _ m => f (m.get a) (m.get b) (m.get c) (m.get d)⟩

end Named

@[inline] def giving {α : Type} (x : GraphM α) : GraphM (Option α) := do return some (← x)

@[inline] def givingIf {α : Type} (c : Bool) (x : GraphM α) : GraphM (Option α) :=
  if c then giving x else pure none

/-- An ordered set of rules, indexed by the operation of the node they apply to. -/
structure RuleSet (α : Type) where
  rules : List (Rule α)
  byOp : Array (Array (Rule α × List Op))

namespace RuleSet

variable {α : Type}

def ofList (rules : List (Rule α)) : RuleSet α :=
  let add (t : Array (Array (Rule α × List Op))) (r : Rule α) : Array (Array (Rule α × List Op)) :=
    let early := r.pat.early
    (r.pat.ops?.getD []).foldl (fun t o => t.modify o.rank fun a => a.push (r, early)) t
  ⟨rules, rules.foldl add (Array.replicate (Op.all.length + 1) #[])⟩

def append (a b : RuleSet α) : RuleSet α := ofList (a.rules ++ b.rules)

instance : Append (RuleSet α) := ⟨append⟩

def forOp (rs : RuleSet α) (o : Op) : Array (Rule α × List Op) := rs.byOp.getD o.rank #[]

/-- Whether the operations a rule looks for occur among the sources. -/
def fits (early : List Op) (e : Expr) : Bool :=
  early.all fun o => e.src.any fun s => s.op == o

/-- The first answer of some rules at a node that a test accepts. -/
def firstOf? (accept : α → Bool) (e : Expr) : List (Rule α × List Op) → GraphM (Option α)
  | [] => pure none
  | (r, early) :: rest => do
    if fits early e then
      match ← r.answer? e with
      | some a => if accept a then return some a else firstOf? accept e rest
      | none => firstOf? accept e rest
    else firstOf? accept e rest

def first? (rs : RuleSet α) (e : Expr) : GraphM (Option α) :=
  firstOf? (fun _ => true) e (rs.forOp e.op).toList

def step? (rs : RuleSet Expr) (e : Expr) : RuleM :=
  firstOf? (fun a => !(a == e)) e (rs.forOp e.op).toList

end RuleSet

namespace Rewriting

/-- What remains to be done for a node: to visit it, to rebuild it from its rewritten sources, or to
take over the result of the node it became. -/
inductive Stage where
  | visit
  | rebuild
  | adopt

/-- A task of the machine: a node, the stage it is in, and the node it has become so far. -/
structure Task where
  node : Expr
  stage : Stage
  current : Expr

/-- Apply a step until it gives nothing; the fuel bounds the number of steps. -/
def fixpoint (step : Expr → RuleM) : Nat → Expr → ExprM
  | 0, _ => throw .exhausted
  | fuel + 1, e => do
    let some e' ← step e | return e
    fixpoint step fuel e'

def plenty : Nat := 1000000000

/-- The rewriting of graphs as a machine.  `done` holds the result of every finished node.  A node
is visited: its sources are to be rewritten first (bottom-up, the node itself is rewritten before).
Then it is rebuilt with the new sources; if those are the old ones it is rewritten itself, and the
result, if any, is visited in turn. -/
def run (step : Expr → RuleM) (bottomUp : Bool) :
    Nat → List Task → Std.HashMap Nat Expr → GraphM (Std.HashMap Nat Expr)
  | 0, _, _ => throw .exhausted
  | _ + 1, [], done => return done
  | fuel + 1, t :: stack, done => do
    if done.contains t.node.number then run step bottomUp fuel stack done
    else
      match t.stage with
      | .visit =>
        let e ← if bottomUp then fixpoint step plenty t.current else pure t.current
        run step bottomUp fuel
          (e.src.foldr (fun s k => ⟨s, .visit, s⟩ :: k) (⟨t.node, .rebuild, e⟩ :: stack)) done
      | .rebuild =>
        let e := t.current
        let src := e.src.map fun s => (done[s.number]?).getD s
        if src == e.src then
          let next ← if bottomUp then pure none else step e
          match next with
          | none => run step bottomUp fuel stack (done.insert t.node.number e)
          | some e' =>
            run step bottomUp fuel (⟨e', .visit, e'⟩ :: ⟨t.node, .adopt, e'⟩ :: stack) done
        else
          let e' ← node e.op e.dtype src e.arg e.tag
          run step bottomUp fuel (⟨e', .visit, e'⟩ :: ⟨t.node, .adopt, e'⟩ :: stack) done
      | .adopt =>
        let some r := done[t.current.number]? | throw .missingKey
        run step bottomUp fuel stack (done.insert t.node.number r)

/-- Transform one graph, with the results of earlier ones at hand. -/
def start (step : Expr → RuleM) (bottomUp : Bool) (e : Expr)
    (done : Std.HashMap Nat Expr) : GraphM (Expr × Std.HashMap Nat Expr) := do
  let done ← run step bottomUp plenty [⟨e, .visit, e⟩] done
  let some r := done[e.number]? | throw .missingKey
  return (r, done)

/-- Run with a context, and put the previous one back in any case; gives the context at the end. -/
def within {α : Type} (c : Context) (x : GraphM α) : GraphM (α × Context) := do
  let old := (← get).context
  modify fun s => { s with context := c }
  try
    let r ← x
    return (r, (← get).context)
  finally
    modify fun s => { s with context := old }

end Rewriting

namespace RuleSet

variable (rs : RuleSet Expr)

/-- Transform a graph by a set of rules in a context; gives the context at the end too. -/
def applyIn (e : Expr) (c : Context) (bottomUp : Bool := false) : GraphM (Expr × Context) :=
  Rewriting.within c do return (← Rewriting.start rs.step? bottomUp e {}).1

def apply (e : Expr) (c : Context := .none) (bottomUp : Bool := false) : ExprM := do
  return (← rs.applyIn e c bottomUp).1

/-- Transform every node of a graph; what is known about the origin of a node passes to its result. -/
def applyMap (e : Expr) (c : Context := .none) (bottomUp : Bool := false) :
    GraphM (Array (Expr × Expr)) := do
  let go (acc : Array (Expr × Expr) × Std.HashMap Nat Expr) (k : Expr) :
      GraphM (Array (Expr × Expr) × Std.HashMap Nat Expr) := do
    let (v, done) ← Rewriting.start rs.step? bottomUp k acc.2
    if !(k == v) then
      modify fun s =>
        match s.metadata[k.number]? with
        | some m =>
          let known := ((s.metadata[v.number]?).getD []).eraseDups ++ m
          { s with metadata := s.metadata.insert v.number known }
        | none => s
    return (acc.1.push (k, v), done)
  let r ← Rewriting.within c (e.toposort.foldlM go (#[], {}))
  return r.1.1

end RuleSet

def Expr.substitute (e : Expr) (subs : List (Expr × Expr)) : ExprM := do
  let subs := subs.filter fun (k, v) => !(k == v)
  if subs.isEmpty then return e
  let table : Std.HashMap Nat Expr := subs.foldl (fun t (k, v) => t.insert k.number v) {}
  let step (x : Expr) : RuleM := pure table[x.number]?
  let step' (x : Expr) : RuleM := do
    return (← step x).filter fun r => !(r == x)
  return (← Rewriting.start step' true e {}).1

end LazyTensor
