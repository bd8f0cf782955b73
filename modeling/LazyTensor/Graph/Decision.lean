import LazyTensor.Graph.Pattern

/-!
# Patterns as decisions

A pattern can be matched without trying all ways to bind its names: it is turned into tests on nodes
that are reached from the one looked at, and choices between alternatives.  Where there are several
choices at one place, they become one choice between all combinations, the first choice varying
slowest; the choices inside come after them.  Names are bound when all tests on the way are passed; a
name that is bound twice has to stand for one node.

Patterns with four or more choices at one place are refused, and so are loops over all sources that
bind names or make choices.
-/

namespace LazyTensor

/-- A node that is reached by taking sources: from the node looked at, or from the source that a loop
is at. -/
structure Spot where
  /-- How many loops are around. -/
  loops : Nat := 0
  path : List Nat := []
  deriving DecidableEq, Repr

namespace Spot

def source (s : Spot) (i : Nat) : Spot := { s with path := s.path ++ [i] }

def descend (e : Expr) : List Nat → Option Expr
  | [] => some e
  | i :: rest => (e.src[i]?).bind fun x => descend x rest

/-- The node at a spot; the node looked at comes first, then the sources that loops are at. -/
def reach? (s : Spot) (at' : List Expr) : Option Expr :=
  (at'[s.loops]?).bind fun e => descend e s.path

end Spot

inductive Probe where
  | op (s : Spot) (ops : List Op)
  | arg (s : Spot) (a : Arg)
  /-- So many sources, or at least so many. -/
  | count (s : Spot) (n : Nat) (strict : Bool)
  | dtype (s : Spot) (ds : List DType)
  /-- Every source passes these tests; where there are none, no source does. -/
  | every (s : Spot) (tests : List Probe)

mutual

def Probe.holds (at' : List Expr) : Probe → Bool
  | .op s ops => (s.reach? at').any fun e => ops.contains e.op
  | .arg s a => (s.reach? at').any fun e => a == e.arg
  | .count s n strict => (s.reach? at').any fun e =>
    if strict then e.src.length = n else n ≤ e.src.length
  | .dtype s ds => (s.reach? at').any fun e => ds.contains e.dtype || ds.contains e.dtype.scalar
  | .every s tests => (s.reach? at').any fun e =>
    e.src.all fun x => !tests.isEmpty && Probe.allHold (at' ++ [x]) tests

def Probe.allHold (at' : List Expr) : List Probe → Bool
  | [] => true
  | t :: ts => Probe.holds at' t && Probe.allHold at' ts

end

/-- Tests, names for nodes, and the alternatives that follow. -/
inductive Decision where
  | mk (tests : List Probe) (binds : List (String × Spot)) (alts : Option (List Decision))

inductive Decision.Refusal where
  | tooMany
  /-- A loop that binds names or makes choices. -/
  | loop
  | empty
  deriving DecidableEq, Repr

namespace Decision

def tests : Decision → List Probe
  | mk ts _ _ => ts

def binds : Decision → List (String × Spot)
  | mk _ bs _ => bs

def alts : Decision → Option (List Decision)
  | mk _ _ as => as

mutual

def push (more : List (String × Spot)) : Decision → Decision
  | mk ts bs none => mk ts (bs ++ more) none
  | mk ts bs (some as) => mk ts [] (some (pushAll (bs ++ more) as))

def pushAll (more : List (String × Spot)) : List Decision → List Decision
  | [] => []
  | d :: ds => push more d :: pushAll more ds

end

mutual

def height : Decision → Nat
  | mk _ _ none => 0
  | mk _ _ (some as) => heightAll as + 1

def heightAll : List Decision → Nat
  | [] => 0
  | d :: ds => max (height d) (heightAll ds)

end

/-- All ways to take one item of each list, the first list varying slowest. -/
def combinations {α : Type} : List (List α) → List (List α)
  | [] => [[]]
  | xs :: rest => xs.flatMap fun x => (combinations rest).map (x :: ·)

/-- All of some decisions at once; the fuel is greater than their heights. -/
def both : Nat → List Decision → Except Refusal Decision
  | 0, _ => .error .tooMany
  | fuel + 1, ds => do
    let ts := ds.flatMap tests
    let bs := ds.flatMap binds
    let choices := ds.filterMap alts
    if choices.length ≥ 4 then throw .tooMany
    match choices with
    | [] => return mk ts bs none
    | [as] => return mk ts [] (some (pushAll bs as))
    | many =>
      let as ← (combinations many).mapM (both fuel)
      return mk ts [] (some (pushAll bs as))

def all (ds : List Decision) : Except Refusal Decision := both (heightAll ds + 1) ds

/-- The tests and names of the conditions on a node itself. -/
def ofSelf (s : Pat.Self) (p : Spot) : Decision :=
  let ts := (s.ops.map (Probe.op p)).toList
    ++ (match s.arg with
      | .none => []
      | a => [Probe.arg p a])
    ++ (if s.strict || s.required > 0 then [Probe.count p s.required s.strict] else [])
    ++ (s.dtypes.map (Probe.dtype p)).toList
  mk ts (s.name.map fun n => (n, p)).toList none

def choice (ds : List Decision) : Except Refusal Decision :=
  if ds.isEmpty then .error .empty else .ok (mk [] [] (some ds))

def loop (p : Spot) (d : Decision) : Except Refusal Decision :=
  match d with
  | mk ts [] none => .ok (mk [.every p ts] [] none)
  | _ => .error .loop

mutual

def ofPatAt : Pat → Spot → Except Refusal Decision
  | .any ps, p => do choice (← ofAny ps p)
  | .leaf s, p => .ok (ofSelf s p)
  | .node s [ps], p => do all (ofSelf s p :: (← ofSources ps p 0))
  | .node s alts, p => do all [ofSelf s p, ← choice (← ofAlts alts p)]
  | .each s q, p => do
    let inner ← ofPatAt q { loops := p.loops + 1 }
    all [ofSelf s p, ← loop p inner]

def ofAny : List Pat → Spot → Except Refusal (List Decision)
  | [], _ => .ok []
  | q :: qs, p => return (← ofPatAt q p) :: (← ofAny qs p)

def ofAlts : List (List Pat) → Spot → Except Refusal (List Decision)
  | [], _ => .ok []
  | ps :: rest, p => return (← all (← ofSources ps p 0)) :: (← ofAlts rest p)

def ofSources : List Pat → Spot → Nat → Except Refusal (List Decision)
  | [], _, _ => .ok []
  | q :: qs, p, i => return (← ofPatAt q (p.source i)) :: (← ofSources qs p (i + 1))

end

def ofPat (p : Pat) : Except Refusal Decision := ofPatAt p {}

/-- What names are bound to, where no name stands for two nodes. -/
def bindAll (e : Expr) : List (String × Spot) → Bindings → Option Bindings
  | [], b => some b
  | (n, s) :: rest, b =>
    match s.reach? [e] with
    | none => none
    | some x =>
      match b.find? n with
      | none => bindAll e rest ((n, x) :: b)
      | some y => if x == y then bindAll e rest b else none

mutual

/-- What a function gives for the first match that it accepts. -/
def run {α : Type} (e : Expr) (f : Bindings → Option α) : Decision → Option α
  | mk ts bs none => if Probe.allHold [e] ts then (bindAll e bs []).bind f else none
  | mk ts _ (some as) => if Probe.allHold [e] ts then runAny e f as else none

def runAny {α : Type} (e : Expr) (f : Bindings → Option α) : List Decision → Option α
  | [] => none
  | d :: ds => (run e f d).or (runAny e f ds)

end

end Decision

end LazyTensor
