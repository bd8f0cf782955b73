import LazyTensor.Graph.Order
import LazyTensor.Graph.Rules
import LazyTensor.Graph.Text
import LazyTensor.Graph.Waits

/-!
# Blocks and the order of their nodes

The nodes of a block are put in an order that is as close as possible to an ideal one, loads first,
while every node still stands after its sources.
-/

namespace LazyTensor.Reorder

variable (es : List Expr)

/-- The nodes of a list, each waiting for those of its sources that are in the list, as often as it
uses them. -/
def waits : Waits :=
  let inside := Std.HashSet.ofList (es.map Expr.number)
  es.foldl (fun w u =>
    (u.src.filter fun s => inside.contains s.number).foldl (·.read · u) (w.meet u)) {}

/-- The priority of each node: the least of its users', and low for loads and barriers. -/
def priorities (w : Waits) : Std.HashMap Nat Int :=
  es.reverse.foldl (fun m u =>
    let own : Int := match u.op with
      | .load => -1000
      | .barrier => -1500
      | _ => 0
    m.insert u.number ((w.after u.number).foldl (fun p x => min p ((m[x.number]?).getD 0)) own)) {}

def ideal? (prio : Std.HashMap Nat Int) : Result (Std.HashMap Nat Nat) := do
  let before (a b : Expr) : Result Bool := do
    let p := (prio[a.number]?).getD 0
    let q := (prio[b.number]?).getD 0
    if p = q then a.before? b else return p < q
  let sorted ← Sorting.sort? before es
  return sorted.zipIdx.foldl (fun m (e, i) => m.insert e.number i) {}

def enqueue (place : Nat) (e : Expr) : List (Nat × Expr) → List (Nat × Expr)
  | [] => [(place, e)]
  | (p, x) :: rest =>
    if place < p then (place, e) :: (p, x) :: rest else (p, x) :: enqueue place e rest

def enqueueAll (place : Std.HashMap Nat Nat) (es : List Expr) (ready : List (Nat × Expr)) :
    List (Nat × Expr) :=
  es.foldl (fun q e => enqueue ((place[e.number]?).getD 0) e q) ready

/-- Take the ready node with the least place, and make ready the users that waited for it only; at
most as many times as there are nodes. -/
def drain (place : Std.HashMap Nat Nat) : Nat → List (Nat × Expr) → Waits → Array Expr → Array Expr
  | fuel + 1, (_, u) :: ready, w, out =>
    let (new, w) := w.finish u
    drain place fuel (enqueueAll place new ready) w (out.push u)
  | _, _, _, out => out

/-- The nodes of a block, sources before users, as near to the ideal order as that allows. -/
def order? : Result (List Expr) := do
  let w := waits es
  let place ← ideal? es (priorities es w)
  let out := (drain place es.length (enqueueAll place w.ready []) w #[]).toList
  if out.length ≠ es.length then
    throw (.broken s!"len mismatch {out.length} != {es.length}")
  return out

end LazyTensor.Reorder

/-!
## Blocks of a linear program

A graph with loops and branches becomes a list of nodes.  Nodes in the same loops and branches form
blocks; the ends of loops and branches are blocks of their own; blocks are merged until one is left,
which is the program.
-/

namespace LazyTensor.Blocks

def sortCtx (es : List Expr) : Result (List Expr) := Expr.sort? (Expr.dedup es)

def lastCtx (c : BlockContext) (e : Expr) : List Expr :=
  match c.childCtxs[e.number]? with
  | some x => x
  | none => (c.blockCtxs[e.number]?).getD []

/-- What a node adds to the counts of children and to the loops it is in. -/
def observe (c : BlockContext) (u : Expr) : Result BlockContext := do
  let counts := u.src.foldl (fun m s => m.alter s.number fun n => some (n.getD 0 + 1))
    (c.childCount.insert u.number 0)
  let own ← sortCtx (u.src.flatMap (lastCtx c))
  let c := { c with childCount := counts, blockCtxs := c.blockCtxs.insert u.number own }
  match u.op with
  | .range | .branch => return { c with childCtxs := c.childCtxs.insert u.number (← sortCtx (own ++ [u])) }
  | .store =>
    match u.src with
    | [] => throw .outOfRange
    | a :: rest =>
      if a.toposort.any fun x => x.is .defineLocal then
        match rest with
        | [] => throw .outOfRange
        | b :: _ =>
          let outer := lastCtx c a
          let left := (lastCtx c b).filter fun y => !(outer.contains y) && y.is .range
          return { c with childCtxs := c.childCtxs.insert u.number left }
      else return { c with childCtxs := c.childCtxs.insert u.number [] }
  | .assign =>
    match u.src with
    | a :: rest =>
      if !(a.is .defineReg) then throw (.broken "")
      match rest with
      | b :: _ =>
        let left := (lastCtx c b).filter fun y => !((a.src.drop 1).contains y)
        return { c with childCtxs := c.childCtxs.insert u.number left }
      | [] => throw .outOfRange
    | [] => throw .outOfRange
  | _ => return c

def contextOf (sink : Expr) : Result BlockContext := sink.toposort.foldlM observe {}

/-- Operations that stand in no block: they come first in the program. -/
def isLoose : Op → Bool
  | .defineGlobal | .defineLocal | .defineVar | .special | .const => true
  | _ => false

def looseOps : List Op := Op.all.filter isLoose

def blockArg (body ctx : List Expr) (closes : Option Expr := none) (count : Nat := 0)
    (childCtx : Option (List Expr) := none) : GraphM Arg := do
  return .block { number := ← freshBlock, body, ctx, closes, count, childCtx }

def blockOf (e : Expr) : GraphM (Block Expr) :=
  match e.arg with
  | .block b => pure b
  | _ => throw .missingMember

/-- The ends of the loops and branches that a block stands in and its surroundings do not. -/
def addEnds (base : Expr) (newCtx current : List Expr) (count : Nat) : ExprM := do
  let ends := (newCtx.filter fun z => !(current.contains z)).reverse
  let mut base := base
  let mut ctx := newCtx
  for r in ends do
    ctx := ctx.filter fun z => !(z == r)
    let closing ← node (if r.is .branch then .endBranch else .endRange) .void [r]
    base ← node .blockEnd .void (List.replicate count base) (← blockArg [closing] ctx (some r) count)
  return base

/-- Nodes that could not join a block so far, with how often they were met, in order. -/
structure Waiting where
  entries : Std.HashMap Nat (Nat × Expr × Nat) := {}
  next : Nat := 0

namespace Waiting

def count (w : Waiting) (e : Expr) : Nat := ((w.entries[e.number]?).map fun x => x.2.2).getD 0

def bump (w : Waiting) (e : Expr) : Waiting :=
  match w.entries[e.number]? with
  | some (i, x, n) => { w with entries := w.entries.insert e.number (i, x, n + 1) }
  | none => ⟨w.entries.insert e.number (w.next, e, 1), w.next + 1⟩

def erase (w : Waiting) (e : Expr) : Waiting := { w with entries := w.entries.erase e.number }

def toList (w : Waiting) : List (Expr × Nat) :=
  (w.entries.toList.mergeSort fun a b => a.2.1 ≤ b.2.1).map fun x => (x.2.2.1, x.2.2.2)

end Waiting

/-- The start of a block in other loops: the loops before and after, and the nodes it starts from. -/
structure Seed where
  ctx : List Expr
  childCtx : Option (List Expr)
  nodes : List Expr

def addSeed (ctx : List Expr) (childCtx : Option (List Expr)) (e : Expr) : List Seed → List Seed
  | [] => [⟨ctx, childCtx, [e]⟩]
  | s :: rest =>
    if s.ctx == ctx && s.childCtx == childCtx then { s with nodes := s.nodes ++ [e] } :: rest
    else s :: addSeed ctx childCtx e rest

/-- A block that grows from its last nodes: its nodes, last first; the sources still to look at; and
what could not join. -/
structure Growth where
  nodes : Array Expr
  frontier : List Expr
  waiting : Waiting := {}
  seeds : List Seed := []

/-- A node whose users have all come joins the block, or starts another for other loops. -/
def Growth.step (c : BlockContext) (current : List Expr) (g : Growth) (u : Expr) (rest : List Expr) :
    Result Growth := do
  let g := { g with frontier := rest }
  if isLoose u.op then return { g with waiting := g.waiting.bump u }
  let some total := c.childCount[u.number]? | throw .missingKey
  if total = g.waiting.count u + 1 then
    let some ctx := c.blockCtxs[u.number]? | throw .missingKey
    let g := { g with waiting := g.waiting.erase u }
    if ctx == current then
      return { g with nodes := g.nodes.push u, frontier := rest ++ u.src.reverse }
    return { g with seeds := addSeed ctx c.childCtxs[u.number]? u g.seeds }
  return { g with waiting := g.waiting.bump u }

def Growth.run (c : BlockContext) (current : List Expr) : Nat → Growth → Result Growth
  | 0, _ => .error .exhausted
  | fuel + 1, g =>
    match g.frontier with
    | [] => .ok g
    | u :: rest => do Growth.run c current fuel (← g.step c current u rest)

private def exprs (a : Arg) : List Expr :=
  a.items.filterMap fun x => match x with
    | .expr e => some e
    | _ => none

/-- The block that a node is the last of, with all that can join it. -/
def createAt (x : Expr) : RuleM := do
  let .blocks c := (← get).context | throw .missingMember
  let (current, count, childCtx, start) ←
    if x.is .blockStart then
      match x.arg with
      | .tuple [cur, child] =>
        pure (exprs cur, 1, (if child.isNone then none else some (exprs child)), x.src)
      | _ => throw .invalidValue
    else
      match c.blockCtxs[x.number]?, c.childCount[x.number]? with
      | some cur, some n => pure (cur, n, c.childCtxs[x.number]?, [x])
      | _, _ => throw .missingKey
  let g ← Growth.run c current Rewriting.plenty
    { nodes := start.toArray, frontier := start.flatMap fun y => y.src.reverse }
  let mut src : Array Expr := #[]
  for (u, n) in g.waiting.toList do
    let ctx := (c.blockCtxs[u.number]?).getD []
    let e ← addEnds u ctx current n
    src := src ++ Array.replicate n e
  for s in g.seeds do
    let child := match s.childCtx with
      | some xs => Arg.tuple (xs.map Arg.expr)
      | none => .none
    let base ← node .blockStart .void s.nodes (.tuple [.tuple (s.ctx.map Arg.expr), child])
    src := src.push (← addEnds base s.ctx current 1)
  let body ← Reorder.order? g.nodes.toList.reverse
  giving do node .block .void src.toList (← blockArg body current none count childCtx)

def create : RuleSet Expr := .ofList [
  on (Pat.of (Op.allBut (looseOps ++ [.block, .blockEnd]))) createAt]

/-- Ends of the same loop join, under the block of the sink. -/
def mergeEndsAt (sink : Expr) : RuleM := do
  let b ← blockOf sink
  match b.body.getLast? with
  | none => throw .outOfRange
  | some l =>
    if !(l.is .sink) then return none
    let mut groups : Array (Expr × List Expr) := #[]
    for be in sink.toposort do
      if be.is .blockEnd then
        if let some k := (← blockOf be).closes then
          match groups.findIdx? fun g => g.1 == k with
          | some i => groups := groups.modify i fun g => (g.1, g.2 ++ [be])
          | none => groups := groups.push (k, [be])
    let mut subs : List (Expr × Expr) := []
    for (k, ends) in groups do
      match ends with
      | first :: _ :: _ =>
        let bs ← ends.mapM blockOf
        let ctx ← sortCtx (bs.flatMap (·.ctx))
        let one ← blockArg (← blockOf first).body ctx (some k) (bs.foldl (fun n b => n + b.count) 0)
        let out ← node .blockEnd .void (ends.flatMap Expr.src) one
        subs := subs ++ ends.map fun u => (u, out)
      | _ => pure ()
    if subs.isEmpty then return none
    giving (sink.substitute subs)

def mergeEnds : RuleSet Expr := .ofList [on (Pat.of [.block]) mergeEndsAt]

private def tally (e : Expr) : List (Expr × Nat) → List (Expr × Nat)
  | [] => [(e, 1)]
  | (x, n) :: rest => if x == e then (x, n + 1) :: rest else (x, n) :: tally e rest

/-- A block takes in the blocks among its sources that stand in the same loops and that nothing else
uses. -/
def absorb (x : Expr) : RuleM := do
  let b ← blockOf x
  let mut apart : Array Expr := #[]
  let mut near : List (Expr × Nat) := []
  for y in x.src do
    let same ← if !(y.is .block) then pure false
      else do
        let c ← blockOf y
        pure (if x.is .block then b.ctx == c.ctx else b.closes.elim false fun r => c.ctx.contains r)
    if same then near := tally y near else apart := apart.push y
  let mut taken : Array Expr := #[]
  for (k, n) in near do
    if n = (← blockOf k).count then taken := taken.push k
    else apart := apart ++ Array.replicate n k
  if taken.isEmpty then return none
  let bodies ← taken.toList.flatMapM fun y => do return (← blockOf y).body
  let arg := Arg.block { b with number := ← freshBlock, body := bodies ++ b.body }
  giving (node x.op .void (taken.toList.flatMap Expr.src ++ apart.toList) arg)

/-- An end that nothing more goes into joins the block of its loop. -/
def closeEnd (x : Expr) : RuleM := do
  let b ← blockOf x
  let some r := b.closes | throw .missingMember
  let mut parents : Array Expr := #[]
  for y in x.src do
    if y.is .block || y.is .blockEnd then
      let c ← blockOf y
      if c.ctx.contains r then return none
      if y.is .block && c.childCtx.elim false fun z => z.contains r then parents := parents.push y
  match parents[0]? with
  | none => return none
  | some p =>
    if !(parents.all fun y => y == p) then
      throw (.broken s!"should never have two parent blocks (has {parents.size})")
    let pb ← blockOf p
    if parents.size ≠ pb.count then throw (.broken "")
    let isEarly (y : Expr) : Bool := y.is .defineReg && y.src.contains r
    let early := b.body.filter isEarly
    let late := b.body.filter fun y => !(isEarly y)
    let late ← if late.any (fun y => y.is .barrier) && late.getLast?.elim false (fun y => y.is .endRange)
      then do pure ((← node .barrier) :: late)
      else pure late
    let arg ← blockArg (early ++ pb.body ++ late) (b.ctx.filter fun y => !(y == r)) none b.count
    giving (node .block .void ((x.src.filter fun y => !(y == p)) ++ p.src) arg)

def merge : RuleSet Expr := .ofList [
  on (Pat.of [.block, .blockEnd]) absorb,
  on (Pat.of [.blockEnd]) closeEnd]

/-- The one block left is the program, after the nodes that stand in no block. -/
def finishAt (sink : Expr) : RuleM := do
  if !(sink.src.all fun x => isLoose x.op) then throw (.misused "linearize failure")
  let first ← sortCtx sink.src
  giving do node .blockFinal .void [] (← blockArg (first ++ (← blockOf sink).body) [])

def finish : RuleSet Expr := .ofList [on (Pat.of [.block]) finishAt]

def stage (i : Nat) (e : Expr) : ExprM :=
  match i with
  | 0 => do create.apply e (.blocks (← contextOf e)) true
  | 1 => mergeEnds.apply e
  | 2 => merge.apply e
  | _ => finish.apply e

def stages (n : Nat) (e : Expr) : ExprM :=
  (List.range (min n 4)).foldlM (fun e i => stage i e) e

def programOf (e : Expr) : GraphM (List Expr) := do return (← blockOf e).body

private def shortText (e : Expr) : String :=
  match e.op with
  | .branch => "IF" ++ toString e.number
  | .range => e.arg.bareText
  | _ => "<NONE>"

def text (b : Block Expr) : String :=
  let ctxText (xs : List Expr) : String := listOf (xs.map fun x => Quoted.text (shortText x))
  (b.closes.elim "" fun r => shortText r ++ " ") ++ "f" ++ toString b.count ++ " " ++ ctxText b.ctx ++ " "
    ++ (b.childCtx.elim "-" ctxText) ++ " " ++ toString b.body.length ++ "\n"
    ++ "\n".intercalate (b.body.map fun x => x.op.text)

def linearize (e : Expr) : GraphM (List Expr) := do programOf (← stages 4 e)

end LazyTensor.Blocks
