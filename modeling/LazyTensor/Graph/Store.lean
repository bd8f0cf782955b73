import Std.Data.HashMap
import LazyTensor.Graph.Expr
import LazyTensor.Graph.Settings
import LazyTensor.Graph.Target

/-!
# The store of nodes

Building a graph needs a store: the nodes made so far, by content, so that a node asked for twice
is the same node.  The store also remembers what was computed about nodes (bounds, layouts), the
settings in force, and the context of the rewriting that is running.

Two services that building a graph needs are themselves rewritings of graphs: simplification of an
extent, and the layout of a node.  They reach the builder through an `Env`; `Env.level` in
`Symbolic.Env` ties the knot.
-/

namespace LazyTensor

/-- The context of lowering: the loops of the current position and how many there have been. -/
structure LowerContext where
  ranges : List Expr := []
  next : Nat := 0

structure BlockContext where
  childCount : Std.HashMap Nat Nat := {}
  blockCtxs : Std.HashMap Nat (List Expr) := {}
  childCtxs : Std.HashMap Nat (List Expr) := {}

/-- What a pass of rules keeps from node to node. -/
inductive Context where
  | none
  | target (t : Target)
  /-- The number of accumulators made. -/
  | reduce (next : Nat)
  | lower (c : LowerContext)
  | table (entries : Std.HashMap Nat Expr)
  /-- An ordered set of nodes: nodes in the order of their insertion, and the set of numbers. -/
  | marks (order : Array Expr) (present : Std.HashMap Nat Unit)
  | blocks (c : BlockContext)
  | gradient (g : Expr)
  /-- The texts of the nodes rendered so far, for a target. -/
  | rendering (t : Target) (texts : Std.HashMap Nat String)
  /-- The steps of a rewriting that is recorded: each node and what it became. -/
  | journal (steps : Array (Expr × Expr))

/-- The nodes made so far and what is remembered about them. -/
structure Store where
  nodes : Std.HashMap Expr.Content Expr := {}
  size : Nat := 1
  bounds : Std.HashMap Nat (Const × Const) := {}
  layouts : Std.HashMap Nat (Option (List (View Dim))) := {}
  devices : Std.HashMap Nat (Option Arg) := {}
  axes : Std.HashMap Nat (Option Int) := {}
  shapes : Std.HashMap Nat (List Dim) := {}
  keys : Std.HashMap Nat (List UInt8) := {}
  metadata : Std.HashMap Nat (List Metadata) := {}
  settings : Settings := {}
  uniques : Nat := 0
  blocks : Nat := 0
  context : Context := .none
  printed : String := ""
  deriving Inhabited

/-- The two services that rewriting provides to the builder of graphs. -/
structure Env where
  simplify : Expr → EStateM Failure Store Expr
  layout : Expr → EStateM Failure Store (Option (List (View Dim)))

abbrev GraphM := ReaderT Env (EStateM Failure Store)

abbrev ExprM := GraphM Expr

abbrev RuleM := GraphM (Option Expr)

namespace GraphM

@[inline] def setting (f : Flag) : GraphM Int := do return (← get).settings.get f

@[inline] def settingOn (f : Flag) : GraphM Bool := do return (← get).settings.on f

def print (s : String) : GraphM Unit :=
  modify fun st => { st with printed := st.printed ++ s ++ "\n" }

@[inline] def ofExcept {α : Type} : Result α → GraphM α
  | .ok a => pure a
  | .error f => throw f

end GraphM

/-- A result that may be a failure is a computation that builds nothing. -/
instance : MonadLift Result GraphM := ⟨GraphM.ofExcept⟩

/-- The node of the given content, made when it is asked for the first time. -/
def nodeOf (c : Expr.Content) : ExprM := do
  let s ← get
  match s.nodes[c]? with
  | some e => return e
  | none =>
    let e := Expr.mk s.size c.op c.dtype c.src c.arg c.tag
    modify fun s => { s with nodes := s.nodes.insert c e, size := s.size + 1 }
    return e

@[inline] def node (op : Op) (dtype : DType := .void) (src : List Expr := []) (arg : Arg := .none)
    (tag : Arg := .none) : ExprM :=
  nodeOf ⟨op, dtype, src, arg, tag⟩

def freshUnique : GraphM Nat := do
  let s ← get
  modify fun s => { s with uniques := s.uniques + 1 }
  return s.uniques

def freshBlock : GraphM Nat := do
  let s ← get
  modify fun s => { s with blocks := s.blocks + 1 }
  return s.blocks

end LazyTensor
