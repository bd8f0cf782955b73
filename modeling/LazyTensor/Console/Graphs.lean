import LazyTensor.Console.Expression
import LazyTensor.Drawing
import LazyTensor.Gradient
import LazyTensor.Program.Spec
import LazyTensor.Schedule.Order

/-!
# Answers about drawings and expressions

Drawings show serial numbers, which depend on everything made before.  In answers they are numbered
anew, in the order in which they appear.
-/

namespace LazyTensor

/-- The serial numbers met so far, as they were written, in the order of their appearance. -/
abbrev Serials := List String

namespace Serials

def number (s : Serials) (digits : String) : Nat × Serials :=
  match s.findIdx? (· == digits) with
  | some i => (i, s)
  | none => (s.length, s ++ [digits])

def after? (p cs : List Char) : Option (List Char) :=
  match p, cs with
  | [], cs => some cs
  | a :: p, c :: cs => if a = c then after? p cs else none
  | _ :: _, [] => none

/-- The start of a line for a serial number: the operation, its place among the sources, a blank. -/
def labelHead? (cs : List Char) : Option (List Char × List Char) := do
  let rest ← after? "UNIQUE".toList cs
  let place := rest.takeWhile Char.isDigit
  if place.isEmpty then none
  let rest ← after? [' '] (rest.dropWhile Char.isDigit)
  return ("UNIQUE".toList ++ place ++ [' '], rest)

def nodeHead? (cs : List Char) : Option (List Char × List Char) := do
  let head := "Ops.UNIQUE, dtypes.void, arg=".toList
  return (head, ← after? head cs)

/-- Number anew the numbers after every head; the fuel is at least the number of characters. -/
def renumber (head? : List Char → Option (List Char × List Char)) :
    Nat → List Char → Serials → List Char × Serials
  | 0, cs, s => (cs, s)
  | _ + 1, [], s => ([], s)
  | fuel + 1, c :: cs, s =>
    match head? (c :: cs) with
    | some (head, rest) =>
      let digits := rest.takeWhile Char.isDigit
      if digits.isEmpty then
        let (out, s) := renumber head? fuel cs s
        (c :: out, s)
      else
        let (n, s) := s.number (String.ofList digits)
        let (out, s) := renumber head? fuel (rest.dropWhile Char.isDigit) s
        (head ++ (toString n).toList ++ out, s)
    | none =>
      let (out, s) := renumber head? fuel cs s
      (c :: out, s)

def renew (head? : List Char → Option (List Char × List Char)) (s : Serials) (text : String) :
    String × Serials :=
  (renumber head? (text.length + 1) text.toList s).map String.ofList id

def relabel : Serials → String → String × Serials := renew labelHead?

def reprint : Serials → String → String × Serials := renew nodeHead?

end Serials

/-- The document of a drawing: for every shown node its position in the graph, its label, the
positions of its sources, its color and its tag. -/
def Answer.drawing (e : Expr) : GraphM Json := do
  let items ← Drawing.ofGraph e
  let order := e.toposort
  let place (x : Expr) : Json := .int ((order.findIdx? (· == x)).getD 0)
  let (rows, _) ← items.foldlM (fun (acc : List Json × Serials) item => do
    let (label, s) := acc.2.relabel item.label
    let row : Json := .list [place item.node, .text label, .list (item.src.map place),
      .text item.color, ← Answer.arg item.node.tag]
    return (row :: acc.1, s)) ([], [])
  return .list rows.reverse

end LazyTensor

/-!
## Questions about one expression

A request names an expression and a list of questions about it; each question has one answer.
-/

namespace LazyTensor.Inquiry

open Answer

def formulas (es : List Expr) : GraphM Json := do
  return .list (← es.mapM fun e => do return .text (← e.formula))

def varText (e : Expr) : GraphM String := do
  if e.is .bind then
    let (v, n) ← e.unbind
    return (← v.formula) ++ "=" ++ toString n
  else e.formula

def sortedTexts (ss : List String) : Json := .list ((ss.mergeSort (· ≤ ·)).map .text)

def variablesOf (e : Expr) : GraphM (List Expr) := do
  let fromViews ← (e.toposort.toList.filter fun x => x.op.isBufferOp).mapM fun x => do
    let some l ← x.layout? | throw (Failure.broken "")
    return Layout.vars l
  let own ← e.vars.mapM fun x => do
    if x.is .defineVar then return x else return (← x.unbind).1
  let all := Expr.dedup (fromViews.flatten ++ own)
  Sorting.sort? (fun a b => do return (← Arg.order? a.arg b.arg) == .lt) all

def ruleSets : List (String × RuleSet Expr) :=
  [("symbolic_simple", Folding.rules), ("symbolic", Algebra.rules), ("symbolic_flat", Algebra.flat),
   ("sym", Full.rules), ("gep_pushing", Lanes.rules), ("commutative", Algebra.commutative),
   ("renderer", Formula.rules), ("renderer_infer", Formula.callRules), ("pm_upcast", Layout.upcast),
   ("expander", Unroll.rules), ("migrate_indexing", Gate.rules), ("pm_reduce", Accumulate.rules),
   ("pm_reduce_collapse", Accumulate.collapsing), ("devectorize", Scalars.rules),
   ("load_store_folding", Access.grouping), ("correct_load_store", Access.splitting),
   ("load_store_indexing", Access.indexing), ("pm_render", Scalars.final), ("pm_lowerer", Loops.rules),
   ("extra_pm", Adapt.general), ("clang_extra", Adapt.clang), ("metal_extra", Adapt.metal),
   ("amd_extra", Adapt.amd), ("merge_views", Views.merge), ("view_left", Views.inStores),
   ("early_view_left", Views.toSources), ("early_rules", Kernels.cleaning),
   ("remove_tags", Kernels.untagging), ("do_fuse", Kernels.fusing), ("kernel_fixup", Views.atLoads),
   ("gbarrier_to_buffer", Kernels.buffers)]

def targets : List (String × Target) :=
  [("clang", .clang), ("opencl", .opencl), ("intel", .intel), ("metal", .metal), ("cuda80", .cuda 80),
   ("cuda75", .cuda 75), ("cuda60", .cuda 60), ("nv", .nv 80), ("amd", .amd "gfx1100"),
   ("gfx942", .amd "gfx942"), ("gfx1201", .amd "gfx1201"), ("hip", .hip "gfx1100"), ("qcom", .qcom),
   ("python", .machine), ("base", .base)]

def targetOf (j : Json) : GraphM Target :=
  match j with
  | .text s => (targets.lookup s).getDM badInput
  | _ => badInput

def targetOr (j : Option Json) : GraphM Target :=
  match j with
  | none | some .null => pure .machine
  | some j => targetOf j

def ruleSet (names : List Json) (t : Target := .machine) : GraphM (RuleSet Expr) := do
  let sets ← names.mapM fun n => do
    match n with
    | .text "late" => return Strength.rules t.ops
    | .text "late!" => return Strength.rules t.ops true
    | .text s => (ruleSets.lookup s).getDM badInput
    | _ => badInput
  let s :: rest := sets | return .ofList []
  return rest.foldl (· ++ ·) s

def context (j : Option Json) (t : Target) : GraphM Context :=
  match j with
  | none | some .null => return .none
  | some (.text "renderer") => return .target t
  | some (.text "reduce") => return .reduce 0
  | some (.text "lowerer") => return .lower {}
  | some (.text "dict") => return .table {}
  | _ => badInput

def replaced (sc : Scope) (e : Expr) (fields : List Json) : ExprM := do
  let mut c := e.content
  let mut unknown : List String := []
  for f in fields do
    match f with
    | .list [.text "op", x] => c := { c with op := ← (← sc.argument x).toOp }
    | .list [.text "dtype", x] => c := { c with dtype := ← (← sc.argument x).toDType }
    | .list [.text "src", .list xs] => c := { c with src := ← xs.mapM sc.expr }
    | .list [.text "arg", x] => c := { c with arg := ← (← sc.argument x).arg }
    | .list [.text "tag", x] => c := { c with tag := ← (← sc.argument x).arg }
    | .list [.text k, x] =>
      let _ ← sc.argument x
      unknown := unknown ++ [k]
    | _ => badInput
  if !unknown.isEmpty then
    throw (.broken s!"unused kwargs in replace {listOf (unknown.map Quoted.text)}")
  nodeOf c

def admission (j : Json) : GraphM (RuleSet Bool) :=
  match j with
  | .text "spec" => return Check.programs
  | .text "tensor" => return Check.tensors
  | .text "ast" => return Check.kernels
  | .text "buffer" => return Check.buffers
  | .text "assign" => return Check.assigns
  | _ => badInput

def costAnswer (c : Cost) : GraphM Json := dims [c.ops, c.accessed, c.memory]

def programAnswer (p : Program) : GraphM Json := do
  let ints (xs : List Int) : Json := .list (xs.map .int)
  let body ← if p.target = .machine then do pure ("uops", ← program p.nodes)
    else pure ("src", .text p.text)
  return .record [("name", .text p.name), ("fn", .text p.functionName), ("globals", ints p.globals),
    ("ins", ints p.ins), ("outs", ints p.outs), ("gs", ← option dims p.grid),
    ("ls", ← option dims p.group),
    ("vars", .list (← p.vars.mapM fun v => do return .text (← v.formula))),
    ("est", ← costAnswer (← p.cost)), body]

/-- A question about a node. -/
def answer (sc : Scope) (e : Expr) (name : String) (args : List Json) : GraphM Json := do
  let arg? (i : Nat) : GraphM (Option Value) :=
    match (args[i]? : Option Json) with
    | some j => return some (← sc.argument j)
    | none => return none
  match name, args with
  | "ser", _ => graph e
  | "repr", _ => return .text e.text
  | "key", _ => return .text (Quoted.hex (← e.key))
  | "simplify", _ => graph (← e.simplify)
  | "ssimplify", _ =>
    let s ← e.simplify
    if s.is .const then arg s.arg else expr s
  | "render", [] | "render", [.bool true] => return .text (← e.render)
  | "render", _ => return .text (← e.formula)
  | "minmax", _ =>
    let (a, b) ← e.bounds
    return .list [const a, const b]
  | "const_factor", _ => return const (← e.constFactor)
  | "divides", [n] =>
    let n ← (← sc.argument n).toInt
    let some d ← e.divides n | return .null
    return .text (← d.formula)
  | "is_increasing", _ => return .bool (← e.isIncreasing)
  | "vars", _ => return sortedTexts (← e.vars.mapM varText)
  | "variables", _ =>
    return .list (← (← variablesOf e).mapM fun v => do return .text (← v.formula))
  | "sym_infer", [.list ps] =>
    let vals ← ps.mapM fun p => match p with
      | .list [a, b] => return (← sc.expr a, ← (← sc.argument b).toInt)
      | _ => badInput
    return const (← e.evaluate vals)
  | "substitute", [ps] => graph (← e.substitute (← sc.pairs ps))
  | "int", _ => return const (← e.toInt)
  | "float", _ => return const (← e.toFloat)
  | "bool", _ => return .bool (← e.toBool)
  | "shape", _ => dims (← e.shape)
  | "full_shape", _ => dims (← e.fullShape)
  | "st", _ => option layout (← e.layout?)
  | "size", _ => return .int (← e.size)
  | "axis", _ => option (fun n => return .int n) (← e.shardAxis)
  | "bounds", _ =>
    return .list (← (← e.shardBounds).mapM fun (a, b) => do
      return .list [← dim a, ← dim b])
  | "device", _ => option arg (← e.device?)
  | "base", _ => graph e.base
  | "unbind", _ =>
    let (v, n) ← e.unbind
    return .list [.text (← v.formula), .int n]
  | "resolve", _ =>
    let d ← match ← arg? 0 with
      | some v => pure (v.const?.elim false Const.truthy)
      | none => pure true
    return .bool (← e.resolve d)
  | "toposort", _ => return .list (e.toposort.toList.map fun x => .text x.op.name)
  | "parents", _ => return .list (e.parents.map fun x => .text x.op.name)
  | "children", _ =>
    return .list (e.children.map fun (x, cs) =>
      .list [.text x.op.name, .list (cs.map fun c => .text c.op.name)])
  | "cmp", [o] =>
    let o ← sc.expr o
    return .list [.bool (← e.before? o), .bool (e == o)]
  | "split", [o] => formulas (e.split (← (← sc.argument o).toOp))
  | "parse_valid", _ =>
    let some b ← Validity.parse? e | throw Validity.notABound
    return .list [.text (← b.expr.formula), .bool b.isUpper, const b.limit]
  | "given_valid", [v] =>
    option expr (← Validity.given? (← sc.expr v) e)
  | "simplify_valid", _ => option expr (← Validity.simplify? e)
  | "replace", [.list fields] => graph (← replaced sc e fields)
  | "rewrite", .list names :: rest =>
    let t ← targetOr (rest[2]? : Option Json)
    let rs ← ruleSet names t
    let c ← context rest.head? t
    graph (← rs.apply e c ((rest[1]? : Option Json).elim false Json.isOn))
  | "match", .list names :: rest =>
    let rs ← ruleSet names
    let c ← context rest.head? .machine
    let (r, _) ← Rewriting.within c (rs.step? e)
    option expr r
  | "verify", rest =>
    let extra ← match rest with
      | [] | .null :: _ => pure none
      | x :: _ => pure (some (← admission x))
    Check.verify e.toposort.toList extra
    return .bool true
  | "check", [x] =>
    let rs ← admission x
    return .list (← e.toposort.toList.mapM fun u => do
      match ← rs.first? u with
      | some b => return .bool b
      | none => return .null)
  | "sink", [r] => graph (← Stages.toGraph (← targetOf r) e)
  | "linear", [r] => program (← Stages.toProgram (← targetOf r) e)
  | "linearize", _ => program (← Blocks.linearize e)
  | "blocks", [.int n] =>
    let r ← Blocks.stages n.toNat e
    return .list (r.toposort.toList.filterMap fun x => match x.arg with
      | .block b => some (.text (Blocks.text b))
      | _ => none)
  | "code", [r] => return .text (← Code.write (← targetOf r) e.toposort.toList)
  | "program", [r] => programAnswer (← Program.ofKernel (← targetOf r) e)
  | "estimates", rest =>
    let ignore := match rest with
      | .bool b :: _ => b
      | _ => false
    costAnswer (← Cost.ofProgram e.toposort.toList ignore)
  | "reduce_collapse", _ => option expr (← Accumulate.collapse? e)
  | "print", _ => return .text (Check.listing e.toposort.toList)
  | "viz", _ => drawing e
  | "can_pad", rest =>
    let ends ← rest.mapM sc.expr
    return .bool (e.canPad fun x => ends.contains x)
  | "kernelize", _ =>
    let t ← Kernels.build e
    graph (← t.find e)
  | "realizes", _ =>
    let start ← (Views.merge ++ Kernels.cleaning).apply e
    let order := start.toposort
    let stored ← Realize.nodes start
    return .list (stored.order.toList.filterMap fun x => (order.findIdx? (· == x)).map fun i => .int i)
  | "gradient", [g, .list targets] =>
    let g ← sc.expr g
    let targets ← targets.mapM sc.expr
    let grads ← Gradient.compute e g targets
    return .list (← targets.mapM fun t => option expr grads[t.number]?)
  | "pickle", _ =>
    return .list [.bool (e.toposort.all fun x => !x.arg.hasNaN), ← graph e]
  | "buf", _ =>
    let m ← e.memory
    return .list [.text (← m.text fun _ => false), .int (← m.size)]
  | _, _ => badInput

end LazyTensor.Inquiry
