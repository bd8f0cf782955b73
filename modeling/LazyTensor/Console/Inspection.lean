import LazyTensor.Console.Graphs
import LazyTensor.Console.Workspace

/-!
# Looking at tensors

Steps that ask something about a tensor: its elements, its graph, its memory, the kernels that would
compute it, the operations its nodes come from.
-/

namespace LazyTensor

/-- A step that may use the workspace: its arguments by position and by name, and the targets that
programs are wanted for. -/
structure Command where
  name : String
  run : List Value → Fields → List String → WorkM Value

namespace Command

def one (name : String) (f : Value → WorkM Value) : Command :=
  ⟨name, fun args _ _ => match args with
    | [v] => f v
    | _ => throw .wrongType⟩

def act (name : String) (f : Value → SessionM Unit) : Command :=
  one name fun v => do
    f v
    return .null

def bound (name parameters : String) (f : Workspace → Call → SessionM Value) : Command :=
  ⟨name, fun args names _ => do f (← get) (← (Signature.parse parameters).bind args names)⟩

def onTensor (name : String) (f : Tensor → SessionM Value) : Command :=
  one name fun v => do f (← v.toTensor)

end Command

namespace Inspection

def data (t : Tensor) : SessionM Value := do
  let x ← Session.traced "data" t.elements
  return .done (.record [("shape", .list (x.shape.map .int)), ("dtype", .text x.dtype.short),
    ("data", .list (x.items.map Answer.datum))])

def isRealized (e : Expr) : SessionM Bool := do
  if e.is .buffer || e.is .mstack then Session.isAllocated (← e.memory) else return false

def inMemory (t : Tensor) : SessionM Bool := do
  let base := t.node.base
  if base.is .multi then
    let each ← base.src.mapM fun s => isRealized s.base
    return each.all id
  else isRealized base

def info (t : Tensor) : SessionM Value := do
  let shown ← Workspace.showTensor (← t.placeOf)
  let layout ← match ← t.node.layout? with
    | none => pure Json.null
    | some l => Answer.layout l
  let realized ← inMemory t
  let device ← Answer.arg (← t.device)
  return .done (.list [shown, layout, .text t.node.op.name, .text t.node.base.op.name,
    .bool realized, device])

def memoryText (e : Expr) : SessionM String := do
  if !(← isRealized e) then return "None"
  match ← e.memory with
  | .single r => Heap.text (← Session.bufferOf r)
  | m@(.several rs) =>
    let r ← m.first
    let devices := tupleOf (rs.map fun r => Quoted.text r.device)
    return s!"<multibuf real:True device:{devices} size:{r.size} dtype:{r.dtype.text}>"

def deviceText : Arg → String
  | .text s => s
  | a => a.bareText

def unnumbered (s : String) : String :=
  let rec go : Nat → List Char → List Char
    | 0, cs => cs
    | _ + 1, [] => []
    | fuel + 1, c :: cs =>
      match Serials.nodeHead? (c :: cs) with
      | some (head, rest) => head ++ 'N' :: go fuel (rest.dropWhile Char.isDigit)
      | none => c :: go fuel cs
  String.ofList (go (s.length + 1) s.toList)

def text (t : Tensor) : SessionM Value := do
  let e := t.node
  let device := deviceText (← e.device)
  let what ← if e.base == e then do pure s!"({e.op.detail}, {← memoryText e})"
    else
      match ← e.layout? with
      | some l => pure (Arg.layout l).bareText
      | none => pure "None"
  let shape := Dim.shapeText (← e.shape)
  let grad ← match ← t.grad? with
    | some g => pure g.node.text
    | none => pure "None"
  return .text (unnumbered (s!"<Tensor <UOp {device} {shape} {e.dtype.short} {what}> on {device} " ++
    s!"with grad {grad}>"))

def arrayCode : Char → String
  | '?' => "|b1"
  | 'b' => "|i1"
  | 'B' => "|u1"
  | 'h' => "<i2"
  | 'H' => "<u2"
  | 'i' => "<i4"
  | 'I' => "<u4"
  | 'q' => "<i8"
  | 'Q' => "<u8"
  | 'e' => "<f2"
  | 'f' => "<f4"
  | _ => "<f8"

def array (t : Tensor) : SessionM Value := Session.traced "numpy" do
  let shape ← t.shape
  let ns ← (Dim.ints? shape).getDM (throw (Tensor.symbolicFailure shape))
  let t ← if t.dtype.base = .bfloat16 then t.cast .float else pure t
  let code := (t.dtype.base.code?).getD 'd'
  let items ← if ns.contains 0 then pure [] else do
    pure (Bytes.elements code (← t.bytes))
  return .done (.list [.list (ns.map .int), .text (arrayCode code), .list (items.map Answer.datum)])

def origins (t : Tensor) : SessionM Value := do
  let ms := ((← get).store.metadata[t.node.number]?).getD []
  return .done (.list (ms.map fun m => .list [.text m.name, .bool m.backward, .text m.text]))

def task (wanted : List String) (t : Task) : SessionM Json := do
  let buffers ← t.buffers.mapM fun m => do
    let r ← m.first
    return Json.list [.int r.size, .text r.dtype.short, .text r.device]
  let base := [("op", Json.text t.ast.op.name), ("bufs", .list buffers)]
  if !t.ast.is .sink then return .record base
  let ast ← if wanted.contains "ast" then do pure [("ast", ← Answer.graph t.ast)]
    else pure []
  let programs ← (wanted.filter (· ≠ "ast")).mapM fun r => do
    let work : GraphM Json := do
      Inquiry.programAnswer (← Program.ofKernel (← Inquiry.targetOf (.text r)) t.ast)
    return (r, ← liftM work)
  return .record (base ++ ast ++ [("prog", Json.record programs)])

def kernels (ts : List Tensor) (wanted : List String) : SessionM Value := do
  let s ← Session.traced "schedule_with_vars" do
    Session.schedule (← ts.mapM Tensor.placeOf)
  let tasks ← s.tasks.mapM (task wanted)
  let values ← s.values.mapM fun (v, n) => do
    let name ← v.formula
    return Json.list [.text name, .int n]
  return .done (.record [("kernels", .list tasks), ("vars", .list values)])

def commands : List Command :=
  [ .onTensor "data" data,
    .onTensor "info" info,
    .onTensor "uop" fun t => do return .done (← Answer.graph t.node),
    .onTensor "viz" fun t => do return .done (← Answer.drawing t.node),
    .onTensor "grad" fun t => Workspace.tensorPart t "grad",
    .onTensor "repr" text,
    .onTensor "numpy" array,
    .onTensor "meta" origins,
    .onTensor "spec" fun t => do
      Check.verify t.node.toposort.toList (some Check.tensors)
      return .bool true,
    .onTensor "kernelize" fun t => do
      Session.traced "kernelize" do Session.kernelize [← t.placeOf]
      return .done (← Answer.graph (← t.current).node),
    ⟨"kernels", fun args _ wanted => do kernels (← (args.mapM Value.toTensor : SessionM _)) wanted⟩,
    ⟨"stats", fun _ _ _ => do
      let s : Session ← (get : SessionM Session)
      return .list [.int s.counts.kernels, .int s.counts.ops, .int s.counts.memory]⟩ ]

end Inspection

end LazyTensor
