import LazyTensor.Check.Nodes
import LazyTensor.Code.Kernel
import LazyTensor.Lower.Stages
import LazyTensor.Program.Cost

/-!
# Programs

A program is a kernel made ready for a target: its linear form, its text, the buffers it reads and
writes, the variables it needs and the extent of its grid.
-/

namespace LazyTensor

structure Program where
  name : String
  text : String
  target : Target
  kernel : Expr
  nodes : List Expr
  grid : Option (List Dim)
  group : Option (List Dim)
  vars : List Expr
  globals : List Int
  outs : List Int
  ins : List Int

namespace Program

structure Gathered where
  grid : Option (List Dim)
  group : Option (List Dim)
  vars : List Expr := []
  globals : List Int := []
  outs : List Int := []
  ins : List Int := []

def buffersBelow (e : Expr) : List Int :=
  e.toposort.toList.filterMap fun x => if x.is .defineGlobal then x.arg.int? else none

def lastDigit (s : String) : GraphM Nat :=
  match s.toList.getLast? with
  | some c => if c.isDigit then pure (c.toNat - '0'.toNat) else throw .invalidValue
  | none => throw .outOfRange

def setExtent (g : Option (List Dim)) (i : Nat) (n : Dim) : GraphM (Option (List Dim)) :=
  match g with
  | none => pure none
  | some xs => if i < xs.length then pure (some (xs.set i n)) else throw .outOfRange

/-- What a node of a program says about its arguments. -/
def gather (g : Gathered) (u : Expr) : GraphM Gathered := do
  match u.op with
  | .defineVar => return { g with vars := g.vars ++ [u] }
  | .defineGlobal => return { g with globals := g.globals ++ u.arg.int?.toList }
  | .store => return { g with outs := g.outs ++ buffersBelow (← u.nth 0) }
  | .load => return { g with ins := g.ins ++ buffersBelow (← u.nth 0) }
  | .special =>
    let .tuple (.text name :: n :: _) := u.arg | throw .wrongType
    let first := name.toList.head?
    let g := if first = some 'i' then { g with group := none } else g
    let some n := n.dim? | throw .wrongType
    let isGroup := first = some 'l'
    let extents := if isGroup then g.group else g.grid
    if extents.isNone then return g
    let extents ← setExtent extents (← lastDigit name) n
    return if isGroup then { g with group := extents } else { g with grid := extents }
  | _ => return g

def distinct (xs : List Int) : List Int := xs.eraseDups.mergeSort (· ≤ ·)

/-- The program of a kernel in a language. -/
def ofKernel (t : Target) (ast : Expr) : GraphM Program := do
  Check.verify ast.toposort.toList
  let nodes ← Stages.toProgram t ast
  let last := nodes.getLast?
  let l ← last.getDM (throw .outOfRange)
  if !(l.is .sink) then throw (.broken "last uop must be sink")
  if (← GraphM.setting .debug) ≥ 6 then GraphM.print (Check.listing nodes)
  let text ← Code.write t nodes
  let name ← match l.arg with
    | .info k => pure k.name
    | _ => throw .missingMember
  let start : Option (List Dim) := if t.hasLocal then some [1, 1, 1] else none
  let g ← nodes.foldlM gather { grid := start, group := start }
  let vars ← Sorting.sort? (fun a b => do return (← Arg.order? a.arg b.arg) == .lt) g.vars
  return { name, text, target := t, kernel := ast, nodes, grid := g.grid, group := g.group, vars,
           globals := g.globals, outs := distinct g.outs, ins := distinct g.ins }

def runsBy {α : Type} (same : α → α → Bool) : List α → List (List α)
  | [] => []
  | x :: xs =>
    match runsBy same xs with
    | (y :: ys) :: rest => if same x y then (x :: y :: ys) :: rest else [x] :: (y :: ys) :: rest
    | rest => [x] :: rest

variable (p : Program)

/-- The bytes of the buffers a kernel touches: of neighbouring accesses to the same buffer the
largest counts. -/
def memory : GraphM Int := do
  let touching := p.kernel.toposort.toList.filter fun x =>
    (x.is .load || x.is .store) && x.src0.base.is .defineGlobal && !x.src.isEmpty
  let same (a b : Expr) : Bool := a.op == b.op && a.src0.base.arg == b.src0.base.arg
  let sizes ← (runsBy same touching).mapM fun g => do
    let ns ← g.mapM fun x => x.src0.dtype.nbytes
    return ns.foldl max (ns.headD 0)
  return sizes.foldl (· + ·) 0

def cost : GraphM Cost := do
  let c ← Cost.ofProgram p.nodes true
  return { c with memory := .int (← p.memory) }

def functionName : String := Code.identifier p.name

def launch (vals : List (Expr × Int)) : GraphM (Option (List Int) × Option (List Int)) := do
  let eval (d : Dim) : GraphM Int := do
    match d with
    | .int n => return n
    | .sym e =>
      (← e.evaluate vals).int?.getDM (throw .wrongType)
  return (← p.grid.mapM fun ds => ds.mapM eval, ← p.group.mapM fun ds => ds.mapM eval)

end Program

end LazyTensor
