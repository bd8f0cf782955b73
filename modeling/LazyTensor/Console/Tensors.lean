import LazyTensor.Console.Archives
import LazyTensor.Console.Layers

/-!
# Requests of many steps

A request of steps works on tensors: every step calls something by name with arguments by position
and by name, and may give its result a name that later steps refer to.
-/

namespace LazyTensor.Tensors

def settings : List Command :=
  [ .act "seed" fun v => do Tensor.seed (← v.toConst),
    .act "training" fun v => modify fun s => { s with training := v.truthy },
    .act "default_float" fun v => do
      let d ← v.asDType
      modify fun s => { s with defaultFloat := d },
    .act "default_int" fun v => do
      let d ← v.asDType
      modify fun s => { s with defaultInt := d } ]

def shapeOf (v : Value) : SessionM (List Dim) :=
  match v.items? with
  | some xs => xs.mapM fun x => liftM x.toDim
  | none => throw .wrongType

def shapes : List Command :=
  [ .one "get_shape" fun v => do
      return .tuple ((← v.toNested.shape).map fun (n : Nat) => .int n),
    ⟨"broadcast_shape", fun args _ _ => do
      let ds ← (do Shape.broadcast (← args.mapM shapeOf) : SessionM _)
      return .tuple (ds.map .ofDim)⟩,
    .one "flat_to_grouped" fun v => do
      return .tuple ((Padding.grouped (← shapeOf v)).map fun (a, b) => .tuple [.ofDim a, .ofDim b]),
    ⟨"sequential", fun args _ _ => match args with
      | [v, fs] => do
        let some names := fs.items? | throw .wrongType
        names.foldlM (fun x f => do
          match f with
          | .text n =>
            let o ← (Operations.byName[n]?).getDM (throw .missingMember)
            o.call [x] []
          | _ => throw .wrongType) v
      | _ => throw .wrongType⟩ ]

def commands : Std.HashMap String Command :=
  (settings ++ shapes ++ Inspection.commands ++ Saving.commands ++ Layers.commands ++
    Archives.commands).foldl (fun m c => m.insertIfNew c.name c) {}

def new : Operation :=
  ⟨"new", "data device? dtype? requires_grad?", fun c => do
    Value.ofTensor (← Operations.new c)⟩

variable (j : Json)

def positional : WorkM (List Value) := do
  match j.field? "a" with
  | none | some .null => return []
  | some (.list xs) =>
    let plain ← xs.mapM fun x => Scope.plain [] x
    plain.mapM Workspace.resolve
  | some _ => throw .badInput

def named : WorkM Fields := do
  match j.field? "k" with
  | none | some .null => return []
  | some (.record fs) =>
    fs.mapM fun (k, x) => do
      let v ← Scope.plain [] x
      return (k, ← Workspace.resolve v)
  | some _ => throw .badInput

def targets : List String :=
  ((j.field? "r").bind Json.items?).elim [] (·.filterMap Json.text?)

def result : WorkM Value := do
  let some (.text fn) := j.field? "fn" | throw .badInput
  let args ← positional j
  let names ← named j
  match commands[fn]? with
  | some c => c.run args names (targets j)
  | none =>
    if fn = "new" then new.run (← (Signature.parse new.parameters).bind args names)
    else
      let some o := Operations.byName[fn]? | throw .badInput
      o.call args names

/-- One step: its answer.  The result is named, and what nobody refers to is forgotten. -/
def step : WorkM Json := do
  let v ← result j
  let answer ← Workspace.answer v
  match j.field? "o" with
  | some (.text n) =>
    modify fun w => { w with names := (n, v) :: w.names.filter (·.1 ≠ n) }
  | _ => pure ()
  return answer

/-- All steps, each with its answer; a failure leaves the state as it is then. -/
def steps (fault : Failure → Json) : List Json → Workspace → SessionM (List Json)
  | [], _ => return []
  | j :: rest, w => do
    let (answer, w) ← tryCatch (do
      let (a, w) ← (step j).run w
      return (a, w)) fun f => return (fault f, w)
    let (_, w) ← Workspace.tidy.run w
    return answer :: (← steps fault rest w)

def run (fault : Failure → Json) (todo : List Json) (step : Float := 0) :
    GraphM (List Json × Session) :=
  Session.begin (do return (← steps fault todo {}, ← get)) step

end LazyTensor.Tensors
