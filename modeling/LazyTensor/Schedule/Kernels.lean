import LazyTensor.Schedule.Realize
import LazyTensor.Sorting
import LazyTensor.Text.Escape

/-!
# Kernels

A graph of tensors becomes a graph of kernels.  What has to be stored gets a barrier; barriers
become stores to new buffers; views move toward the sources; and every store becomes a kernel, with
the buffers it reads and writes as its sources.
-/

namespace LazyTensor.Kernels

/-- A rule that replaces nodes by the table that the rewriting carries. -/
def substituting : RuleSet Expr := .ofList [
  on (.of Op.all) fun e => do
    match (← get).context with
    | .table entries => return entries[e.number]?
    | _ => throw .missingMember]

/-- Whether one shape comes before another: by the first extent that differs. -/
def shapeBefore : List Dim → List Dim → GraphM Bool
  | a :: as, b :: bs => do
    if a == b then shapeBefore as bs else (← a.lt b).holds
  | [], _ :: _ => return true
  | _, [] => return false

def coloredExtents (shape : List Dim) (color : String) : GraphM (List String) := do
  let ds ← shape.filterM fun d => d.differs 1
  return ds.map fun d => Escape.colored (d.textWith Expr.text) color

def name (ast : Expr) : GraphM String := do
  let shapes ← ast.toposort.toList.filterMapM Expr.shape?
  let shapes ← Sorting.sort? shapeBefore shapes.eraseDups
  match shapes, shapes.getLast? with
  | first :: _, some last =>
    let outer ← coloredExtents first "blue"
    let inner ← coloredExtents (last.drop outer.length) "red"
    return "k_" ++ String.intercalate (Escape.colored "_" "BLACK") (outer ++ inner)
  | _, _ => throw .outOfRange

/-- What a kernel is made from: the nodes of its buffers, the nodes to replace, and the values of
variables. -/
structure Parts where
  buffers : List Expr := []
  replaced : List (Expr × Expr) := []
  values : List (Expr × Int) := []

/-- Whether a node ends a kernel: memory that another kernel, or nobody, writes. -/
def isInput (e : Expr) : Bool := e.is .store || e.is .buffer || e.is .bufferView

/-- Take note of a node of a kernel: inputs become arguments, views lose the values of their
variables, and constants their device. -/
def Parts.visit (p : Parts) (e : Expr) : GraphM Parts := do
  if isInput e then return { p with buffers := p.buffers ++ [e] }
  match e.op with
  | .view =>
    let l ← Views.layoutOf e
    let (free, values) ← Layout.unbind l
    if free == l then return p
    return { p with
      replaced := p.replaced ++ [(e, ← e.withArg (.layout free))]
      values := p.values ++ values }
  | .const =>
    let d :: _ := e.src | return p
    if !(d.is .device) then throw (.broken "")
    let c ← e.withSrc []
    return { p with replaced := p.replaced ++ [(e, ← c.view (← Layout.ofShape (← e.shape)))] }
  | _ => return p

/-- The kernel of a store, over the buffers it reads and writes. -/
def ofStore (x : Expr) : ExprM := do
  let target ← x.nth 0
  let value ← x.nth 1
  let parts ← (value.preorder isInput).foldlM Parts.visit { buffers := [target] }
  let buffers := Expr.dedup parts.buffers
  let mut table : Std.HashMap Nat Expr := {}
  for (b, i) in buffers.zipIdx do
    let n ← (← b.memory).size
    let pointer ← node .defineGlobal (← b.dtype.ptr? n false) [] (.int (i : Nat))
    let shape ← if i = 0 then value.shape else pure [(n : Dim)]
    table := table.insert b.number (← (← pointer.view (← Layout.ofShape shape)).load)
  for (k, v) in parts.replaced do table := table.insert k.number v
  let values ← Layout.mergeValues parts.values
  let srcs := buffers ++ (← values.mapM fun (k, n) => k.bind n)
  let copies ← match srcs with
    | [a, b] => pure (!((← a.device) == (← b.device)))
    | _ => pure false
  let ast ← if copies then node .copy
    else
      let rules := substituting ++ Views.merge ++ Views.atLoads
      let ast ← rules.apply x (.table table) true
      let info : KernelInfo := { name := ← name ast }
      Expr.sink [ast] (.info info)
  target.store [← node .kernel .void srcs (.kernel ast [])]

def fromStores : RuleSet Expr := .ofList [
  on (.seq [.store] [.wild, .of (Op.allBut [.kernel])]) fun x => giving (ofStore x)]

def bufferView? (view : Expr) : RuleM := do
  let l ← Views.layoutOf view
  let [v] := l | return none
  if !Layout.contiguous (← Layout.ofShape v.shape (some v.strides)) then return none
  let src ← view.nth 0
  let n ← Layout.size l
  let b ← if n ≠ (← src.size) || !(v.offset == 0) then
      node .bufferView view.dtype [src] (.tuple [.int n, v.offset.arg])
    else pure src
  giving (b.reshape v.shape)

def barriers : RuleSet Expr := Views.merge ++ .ofList [
  on (.of Op.all) fun x => do
    if (← Realize.marks).has x && x.tag.isNone then giving (do (← x.withTag (.int 1)).gbarrier)
    else return none]

def isConstant (e : Expr) : Bool :=
  e.toposort.all fun x =>
    [Op.const, .view, .device, .reduceAxis, .cast, .bitcast].contains x.op || x.op.isAlu

/-- Rules that make buffers of barriers, where there has to be one. -/
def buffers : RuleSet Expr := Views.merge ++ .ofList [
  on1 (.seq [.gbarrier] [.of [.gbarrier, .buffer] (some "x")]) "x" fun x => return some x,
  on1 (.seq [.gbarrier] [.var "x"]) "x" fun x => return if isConstant x then some x else none,
  on1 (.seq [.gbarrier] [.seq [.view] [.of [.buffer, .gbarrier]] (some "view")]) "view" bufferView?,
  on (.of [.gbarrier]) fun x => do
    let shape ← x.shape
    let b ← Expr.newBuffer (← x.device) (← Dim.prod shape) x.dtype
    giving (do (← b.store [← x.nth 0]).reshape shape)]

def cleaning : RuleSet Expr := .ofList [
  on1 (.seq [.store] [.of (Op.allBut [.buffer, .store]), .var "x"]) "x" fun x => return some x,
  on (.of [.detach]) fun x => giving (x.nth 0),
  on (.of (Op.allBut [.sink])) fun x => do
    let b := x.base
    let some _ ← b.layout? | return none
    if (← x.size) ≠ 0 then return none
    match b.op, b.const? with
    | .const, some c => if Const.eq c (.int 0) then return none else giving (x.constLike (.int 0))
    | _, _ => giving (x.constLike (.int 0))]

def untagging : RuleSet Expr := .ofList [
  on (.of Op.all) fun x => givingIf (!x.tag.isNone) (x.withTag .none)]

def fusing : RuleSet Expr := .ofList [
  on1 (.seq [.fuse] [.of [.gbarrier] (some "x")]) "x" fun x => giving (do (← x.nth 0).fuse),
  on (.of [.fuse]) fun x => giving (do
    let y ← x.nth 0
    y.withSrc (← y.src.mapM Expr.fuse))]

abbrev Outcome := Std.HashMap Nat Expr

def Outcome.find (t : Outcome) (e : Expr) : ExprM :=
  t[e.number]?.getDM (throw .missingKey)

/-- One more rewriting of a graph: what became of every node in the end. -/
def Outcome.then (t : Outcome) (sink : Expr) (rules : RuleSet Expr) (c : Context := .none)
    (bottomUp : Bool := false) : GraphM Outcome := do
  let step ← rules.applyMap (← t.find sink) c bottomUp
  let new : Outcome := step.foldl (fun m (k, v) => m.insert k.number v) {}
  return t.fold (fun m k v => m.insert k ((new[v.number]?).getD v)) new

def build (sink : Expr) : GraphM Outcome := do
  let start ← (Views.merge ++ cleaning).applyMap sink
  let t : Outcome := start.foldl (fun m (k, v) => m.insert k.number v) {}
  let stored ← Realize.nodes (← t.find sink)
  let t ← t.then sink barriers (.marks stored.order stored.present) true
  let t ← t.then sink untagging
  let t ← t.then sink fusing
  let t ← t.then sink buffers
  let t ← t.then sink Views.inStores
  t.then sink fromStores

end LazyTensor.Kernels
