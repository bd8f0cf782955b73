import LazyTensor.Console.Benchmarks
import LazyTensor.Console.Caches
import LazyTensor.Console.Clocks
import LazyTensor.Console.Layouts
import LazyTensor.Console.Targets
import LazyTensor.Console.Records
import LazyTensor.Console.Patterns
import LazyTensor.Console.Sources
import LazyTensor.Console.Tensors
import LazyTensor.Console.Viewers
import LazyTensor.Symbolic.Env

/-!
# Answering requests

A request is a document with the name of what is asked; the answer is a document.  Failures are
answers too.
-/

namespace LazyTensor

open Fault

namespace Request

variable (j : Json)

def each (f : List Value → GraphM Value) : GraphM Json := do
  return .list (← (← items j "l").mapM fun x => guarded do
    match x with
    | .list xs => (← f (← xs.mapM (Scope.plain []))).json
    | _ => badInput)

def scope : GraphM Scope :=
  match j.field? "let" with
  | none => return []
  | some (.list bs) =>
    bs.foldlM (fun (sc : Scope) b => match b with
      | .list [.text n, x] => return (n, ← sc.expr x) :: sc
      | _ => badInput) []
  | _ => badInput

def inquire (sc : Scope) (e : Json) (questions : List Json) : GraphM Json := do
  let e ← sc.expr e
  return .list (← questions.mapM fun q => guarded do
    match q with
    | .list (.text name :: args) => Inquiry.answer sc e name args
    | _ => badInput)

def steps {α : Type} (show' : α → GraphM Json)
    (step : α → String → List Json → GraphM (Layouts.Outcome α)) (start : α) (todo : List Json) :
    GraphM Json := do
  let mut now := start
  let mut out := #[← show' start]
  for q in todo do
    match q with
    | .list (.text name :: args) =>
      let state := now
      let (next, j) ← tryCatch (do
        match ← step state name args with
        | .became a => return (a, ← show' a)
        | .stayed => return (state, .null)
        | .answered j => return (state, j)) fun f => return (state, json f)
      now := next
      out := out.push j
    | _ => out := out.push (json .badInput)
  return .list out.toList

def settings : Settings :=
  match j.field? "ctx" with
  | some (.record fs) => fs.foldl (fun s (k, v) => match Flag.ofName? k, v with
      | some f, .int n => s.set f n
      | _, _ => s) {}
  | _ => {}

def tick (j : Json) : Float :=
  match j.field? "tick" with
  | some (.text s) => (Decimal.parse? s).getD 0
  | _ => 0

/-- The answer to a request. -/
def answer (j : Json) : GraphM Json := do
  match ← text j "op" with
  | "alu" =>
    let op ← Value.opOf (← text j "alu")
    let d ← DType.parse (← text j "dtype")
    each j fun xs => DTypes.elementwise op d xs (flag j "trunc" true)
  | "dtype" =>
    let fn ← text j "fn"
    (← DTypes.answer fn (← (← items j "a").mapM (Scope.plain []))).json
  | "dtypes" => each j (DTypes.answer (← text j "fn"))
  | "helpers" => each j (Functions.call (← text j "fn"))
  | "uop" =>
    let sc ← scope j
    inquire sc (← need j "e") (← items j "do")
  | "uops" =>
    let sc ← scope j
    let todo ← items j "do"
    return .list (← (← items j "l").mapM fun e => guarded (inquire sc e todo))
  | "upat" =>
    let p ← Patterns.read (← need j "pat")
    Patterns.allMatches p (← Scope.expr [] (← need j "e"))
  | "upat_repr" =>
    let p ← Patterns.read (← need j "pat")
    return Patterns.printed p (← Scope.expr [] (← need j "e"))
  | "shapefn" =>
    Layouts.shapeAnswer (← text j "fn") (← (← items j "a").mapM (Layouts.tupleArg []))
  | "tc" => Targets.units j
  | "pyprog" => Machines.answer j
  | "buffer" =>
    let todo ← items j "do"
    let heap : Heap := { recycling := ← GraphM.settingOn .lru }
    match (Buffers.run json todo).run heap with
    | .ok xs _ => return .list xs
    | .error f _ => throw f
  | "lru" =>
    return .list (Buffers.recycle json (flag j "lru" true) (← int j "limit") (← items j "do"))
  | "tensor" => return .list (← Tensors.run json (← items j "steps")).1
  | "debug" =>
    let (answers, s) ← Tensors.run json (← items j "steps") (tick j)
    let some (.bool false) := j.field? "text"
      | return .list [.list answers, .text s.store.printed, .text s.notes]
    return .list [.list answers]
  | "tqdm" => Clocks.bar j { step := tick j }
  | "timing" => Clocks.durations (← items j "l") { step := tick j }
  | "context" =>
    return .list (Clocks.settings (settings j) (← items j "do"))
  | "runner" => return .list (Runners.answer (← items j "do"))
  | "fetch" => return .list (Caches.pages (← items j "do"))
  | "diskcache" => return .list (← Caches.results (← items j "do"))
  | "elf" => Objects.answer j
  | "bench" => Benchmarks.answer j
  | "sz" => Sources.statistics j
  | "import_files" => Sources.adoption j
  | "profile" => (← Viewers.profile j).json
  | "profbuf" =>
    Viewers.memory (← items j "do") { step := tick j } (← GraphM.settingOn .lru)
  | "http" => Viewers.answer j
  | "track" => Tracks.answer j
  | "libc" => Records.answer j
  | "devices" =>
    let names (xs : List String) : Json := .list (xs.map Json.text)
    return .list [names (Device.available Device.candidates), names Device.modules,
      .text Device.default]
  | "default_device" => liftM (Buffers.chooseDevice j)
  | "render_dtype" => Targets.typeTexts j guarded
  | "view" =>
    let v ← Scope.view [] (← need j "init")
    steps Answer.view (Layouts.viewStep []) v (← items j "do")
  | "st" =>
    let l ← (← items j "init").mapM (Scope.view [])
    steps Answer.views (Layouts.layoutStep []) l (← items j "do")
  | _ => badInput

end Request

def respond (j : Json) : Json :=
  let store : Store := { settings := Request.settings j }
  let all : GraphM Json := do
    let _ ← Expr.const .bool (.bool true)
    guarded (Request.answer j)
  match (GraphM.runOn all store).1 with
  | .ok a => a
  | .error f => json f

def respondText (line : String) : String :=
  match Json.parse? line with
  | some j => (respond j).write
  | none => (json .badInput).write

end LazyTensor
