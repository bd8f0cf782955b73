import LazyTensor.Graph.Expr

/-!
# Patterns of nodes

A pattern says which nodes it accepts, by operation, element type, argument and sources, and names
some of them.  Matching a pattern against a node gives every consistent way to bind the names, in a
fixed order: a list of sources in any order is tried in lexicographic order of its permutations, and
the first source varies slowest.
-/

namespace LazyTensor

structure Pat.Self where
  ops : Option (List Op) := none
  dtypes : Option (List DType) := none
  /-- The argument to have; `Arg.none` asks nothing. -/
  arg : Arg := .none
  name : Option String := none
  required : Nat := 0
  strict : Bool := false
  /-- Operations to look for among the sources first, when they are not those of the sources'
  patterns. -/
  hint : Option (List Op) := none

inductive Pat where
  | any (alts : List Pat)
  | leaf (self : Pat.Self)
  /-- A node whose sources match one of these lists of patterns. -/
  | node (self : Pat.Self) (alts : List (List Pat))
  /-- A node all of whose sources match a pattern. -/
  | each (self : Pat.Self) (p : Pat)

abbrev Bindings := List (String × Expr)

namespace Bindings

def find? (b : Bindings) (n : String) : Option Expr :=
  match b with
  | [] => none
  | (m, e) :: rest => if m == n then some e else find? rest n

def get (b : Bindings) (n : String) : Expr := (b.find? n).getD default

end Bindings

namespace Pat

def self? : Pat → Option Self
  | .any _ => none
  | .leaf s | .node s _ | .each s _ => some s

variable (p : Pat)

def ops? : Option (List Op) := p.self?.bind (·.ops)

def dtypes? : Option (List DType) := p.self?.bind (·.dtypes)

def picks {α : Type} : List α → List (α × List α)
  | [] => []
  | x :: xs => (x, xs) :: (picks xs).map fun (y, ys) => (y, x :: ys)

/-- The arrangements of `n` items of a list, in lexicographic order of positions. -/
def arrangements {α : Type} : Nat → List α → List (List α)
  | 0, _ => [[]]
  | n + 1, xs => (picks xs).flatMap fun (y, ys) => (arrangements n ys).map (y :: ·)

def permutations {α : Type} (xs : List α) : List (List α) := arrangements xs.length xs

/-- Bind a name, or check that it is bound to the same node. -/
def Self.bind? (s : Self) (e : Expr) (b : Bindings) : Option Bindings :=
  match s.name with
  | none => some b
  | some n =>
    match b.find? n with
    | none => some ((n, e) :: b)
    | some e' => if e == e' then some b else none

/-- Whether a node meets the conditions on itself, names apart. -/
def Self.admits (s : Self) (e : Expr) : Bool :=
  (match s.ops with
    | none => true
    | some ops => ops.contains e.op)
  && (match s.dtypes with
    | none => true
    | some ds => ds.contains e.dtype || ds.contains e.dtype.scalar)
  && (match s.arg with
    | .none => true
    | a => a == e.arg)
  && s.required ≤ e.src.length && (!s.strict || e.src.length = s.required)

def Self.check (s : Self) (e : Expr) (b : Bindings) : List Bindings :=
  if s.admits e then (s.bind? e b).toList else []

mutual

/-- All matches of a pattern at a node that extend some bindings. -/
def extend : Pat → Expr → Bindings → List Bindings
  | .any alts, e, b => extendAny alts e b
  | .leaf s, e, b => s.check e b
  | .node s alts, e, b => (s.check e b).flatMap fun b => extendAlts alts e.src b
  | .each s p, e, b =>
    (s.check e b).flatMap fun b => e.src.foldl (fun bs x => bs.flatMap (extend p x)) [b]

def extendAny : List Pat → Expr → Bindings → List Bindings
  | [], _, _ => []
  | p :: ps, e, b => extend p e b ++ extendAny ps e b

def extendAlts : List (List Pat) → List Expr → Bindings → List Bindings
  | [], _, _ => []
  | ps :: rest, es, b => extendSeq ps es [b] ++ extendAlts rest es b

def extendSeq : List Pat → List Expr → List Bindings → List Bindings
  | [], _, bs => bs
  | p :: ps, es, bs =>
    match es, bs with
    | _, [] => []
    | [], bs => bs
    | e :: es, bs => extendSeq ps es (bs.flatMap (extend p e))

end

def matchesAt (e : Expr) : List Bindings := p.extend e []

def single? : Option Op :=
  match p.ops? with
  | some [o] => some o
  | _ => none

/-- Operations that must occur among the sources of a matching node. -/
def early : Pat → List Op
  | .any alts => alts.filterMap single?
  | .leaf s => s.hint.getD []
  | .node s alts => s.hint.getD ((alts.headD []).filterMap single?)
  | .each s p => s.hint.getD ([p].filterMap single?)

variable (ops : List Op)

def of (name : Option String := none) (dtypes : Option (List DType) := none)
    (arg : Arg := .none) : Pat :=
  .leaf { ops := some ops, name, dtypes, arg }

/-- A node with sources in this order; `more` admits further sources. -/
def seq (src : List Pat) (name : Option String := none)
    (dtypes : Option (List DType) := none) (arg : Arg := .none) (more : Bool := false) : Pat :=
  .node { ops := some ops, name, dtypes, arg, required := src.length, strict := !more } [src]

def perm (src : List Pat) (name : Option String := none)
    (dtypes : Option (List DType) := none) (arg : Arg := .none) : Pat :=
  .node { ops := some ops, name, dtypes, arg, required := src.length, strict := true }
    (permutations src)

def all (p : Pat) (name : Option String := none)
    (dtypes : Option (List DType) := none) (arg : Arg := .none) : Pat :=
  .each { ops := some ops, name, dtypes, arg } p

def mapSelf (f : Self → Self) : Pat → Pat
  | .any alts => .any alts
  | .leaf s => .leaf (f s)
  | .node s alts => .node (f s) alts
  | .each s p => .each (f s) p

def named (n : String) : Pat := p.mapSelf fun s => { s with name := some n }

/-- The pattern with other operations to look for among the sources first. -/
def hinted : Pat := p.mapSelf fun s => { s with hint := some ops }

def wild : Pat := .leaf {}

def var (name : String) (dtypes : Option (List DType) := none) : Pat :=
  .leaf { name := some name, dtypes }

def typed (dtypes : List DType) : Pat := .leaf { dtypes := some dtypes }

def cvar (name : String) (dtypes : Option (List DType) := none) : Pat :=
  .leaf { ops := some [.const, .vconst], name := some name, dtypes }

def cvar1 (name : String) (dtypes : Option (List DType) := none) : Pat :=
  .leaf { ops := some [.const], name := some name, dtypes }

def const (dtypes : Option (List DType)) (c : Const) : Pat :=
  .leaf { ops := some [.const], dtypes, arg := .const c }

def constLike (c : Const) : Pat := const p.dtypes? c

/-- An elementwise operation; operands of a commutative one may stand in any order. -/
def alu (op : Op) (rest : List Pat := []) : Pat :=
  let src := p :: rest
  let dtypes := if op = .cmplt || op = .cmpne then some [DType.bool]
    else (rest.getLast?.getD p).dtypes?
  if op.isCommutative then perm [op] src none dtypes else seq [op] src none dtypes

/-- Something that can stand beside a pattern in an operation. -/
class Beside (α : Type) where
  fix : Pat → α → Pat

instance : Beside Pat := ⟨fun _ p => p⟩
instance : Beside Int := ⟨fun p n => p.constLike (.int n)⟩
instance : Beside Nat := ⟨fun p n => p.constLike (.int n)⟩
instance : Beside Bool := ⟨fun p b => p.constLike (.bool b)⟩

section Operators

variable {α : Type} [Beside α]

def add (x : α) : Pat := p.alu .add [Beside.fix p x]

def mul (x : α) : Pat := p.alu .mul [Beside.fix p x]

def idiv (x : α) : Pat := p.alu .idiv [Beside.fix p x]

def mod (x : α) : Pat := p.alu .mod [Beside.fix p x]

variable (x : α)

def land : Pat := p.alu .and [Beside.fix p x]

def lor : Pat := p.alu .or [Beside.fix p x]

def lxor : Pat := p.alu .xor [Beside.fix p x]

def addTo : Pat := (Beside.fix p x).alu .add [p]

def mulBy : Pat := (Beside.fix p x).alu .mul [p]

def lt : Pat := p.alu .cmplt [Beside.fix p x]

def ne : Pat := p.alu .cmpne [Beside.fix p x]

def maximum : Pat := p.alu .max [Beside.fix p x]

def fdiv : Pat := p.alu .mul [(Beside.fix p x).alu .recip]

def choose (p q : Pat) (x : α) : Pat := p.alu .select [q, Beside.fix q x]

end Operators

def lnot : Pat := p.ne true

def recip : Pat := p.alu .recip

def cast (d : Option DType := none) (name : Option String := none) : Pat :=
  seq [.cast] [p] name (d.map fun d => [d])

def orCasted (name : Option String := none) : Pat :=
  .any [match name with | some n => p.named n | none => p, seq [.cast] [p] name]

def index (p i : Pat) (valid : Option Pat := none) : Pat :=
  seq [.index] (match valid with | some v => [p, i, v] | none => [p, i]) none p.dtypes?

def load (rest : List Pat := []) (name : Option String := none)
    (dtypes : Option (List DType) := none) (more : Bool := false) : Pat :=
  seq [.load] (p :: rest) name dtypes .none more

def store (rest : List Pat) (name : Option String := none) (more : Bool := false) : Pat :=
  seq [.store] (p :: rest) name (some [.void]) .none more

def view (name : Option String := none) : Pat := seq [.view] [p] name p.dtypes?

def reduce (name : Option String := none) (arg : Arg := .none) (more : Bool := true) : Pat :=
  seq [.reduce] [p] name p.dtypes? arg more

end Pat

end LazyTensor
