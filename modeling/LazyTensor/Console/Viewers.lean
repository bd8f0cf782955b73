import LazyTensor.Console.Buffers
import LazyTensor.Console.Graphs
import LazyTensor.Profile.Report
import LazyTensor.Tracking
import LazyTensor.Viewer.Route

/-!
# Recorded rewritings and the viewer
-/

namespace LazyTensor.Tracks

open Request

inductive Key where
  | text (s : String)
  | graph (e : Expr)

/-- The recordings of a request: the results, the keys and what is filed under each, and how often a
rule answered. -/
structure Log where
  results : List Expr := []
  entries : List (Key × List Recording) := []
  matched : Nat := 0
  printed : Nat := 0

def text? (j : Json) (k : String) : Option String := (j.field? k).bind Json.text?

def keyOf (j : Json) (number : Nat) (e : Expr) : Key :=
  let function := (text? j "fname").getD "run"
  match j.field? "name" with
  | none | some .null => .graph e
  | some (.text l) => .text (Recording.keyText function number (some l))
  | some _ => .text (Recording.keyText function number none)

def run (j : Json) : GraphM Log := do
  let rs ← Inquiry.ruleSet (← items j "pm")
  let level := ((j.field? "level").bind Json.int?).getD 2
  let up := flag j "bottom_up"
  let name := text? j "rname"
  let start ← (← items j "l").mapM fun x => do
    let e ← Scope.expr {} x
    if flag j "kernelize" then (← Kernels.build e).find e else pure e
  start.zipIdx.foldlM (fun (log : Log) (e, i) => do
    let (r, recording) ← rs.record e up name
    let n := recording.steps.length
    return {
      results := log.results ++ [r]
      entries := if level ≥ 2 then log.entries ++ [(keyOf j (i + 1) e, [recording])] else log.entries
      matched := log.matched + n
      printed := if level ≥ 3 then log.printed + n else log.printed }) {}

def detail (d : Detail) : Json :=
  let (text, s) := Serials.reprint [] d.graph.text
  let (difference, s) := match d.difference with
    | none => (Json.null, s)
    | some lines =>
      let (out, s) := lines.foldl (fun (acc : List Json × Serials) line =>
        let (line, s) := acc.2.reprint line
        (.text line :: acc.1, s)) ([], s)
      (.list out.reverse, s)
  let (labels, _) := d.items.foldl (fun (acc : List Json × Serials) item =>
    let (label, s) := acc.2.relabel item.label
    (.text label :: acc.1, s)) ([], s)
  let place (x : Expr) : Json := .int ((d.items.findIdx? (·.node == x)).getD 0)
  let changed := match d.changed with
    | none => Json.null
    | some xs => .list (xs.map place)
  .record [("labels", .list labels.reverse), ("src", .list (d.items.map fun i =>
      .list (i.src.map place))), ("uop", .text text), ("changed", changed), ("diff", difference)]

def key : Key → GraphM Json
  | .text s => return .text s
  | .graph e => Answer.graph e

def answer (j : Json) : GraphM Json := do
  let log ← run j
  let each (f : Recording → Json) : Json :=
    .list (log.entries.map fun (_, rs) => .list (rs.map f))
  let details ← log.entries.mapM fun (_, rs) => do
    .list <$> rs.mapM fun (r : Recording) => do return .list ((← r.details).map detail)
  return .record [
    ("ret", .list (← log.results.mapM Answer.graph)),
    ("keys", .list (← log.entries.mapM fun (k, _) => key k)),
    ("names", each fun r => match r.name with
      | some s => .text s
      | none => .null),
    ("counts", each fun r => .int r.steps.length),
    ("bottom_up", each fun r => .bool r.bottomUp),
    ("details", .list details),
    ("matched", .int log.matched),
    ("printed", .int log.printed)]

end LazyTensor.Tracks

/-!
## Requests to the viewer

Reports of profiles, alone or as the viewer sends them, and the other answers of the viewer.
-/

namespace LazyTensor.Viewers

abbrev Note := Fields

def bytesOf (note : Note) : Result Int :=
  match note.lookup "nbytes" with
  | some v => v.int?.getDM (.error .wrongType)
  | none => .error .missingKey

def dict (es : Fields) : Value := .dict (es.map fun (k, v) => (.text k, v))

def optional (n : Option Int) : Value :=
  match n with
  | some n => .int n
  | none => .null

def timeline (t : Timeline) : Value :=
  dict [("shapes", .list (t.bars.map fun b => dict [("name", .text b.span.name),
      ("st", .int b.span.start), ("dur", .float b.span.duration.toFloat), ("depth", .int b.depth)])),
    ("maxDepth", .int t.rows)]

def plot (p : MemoryPlot Note) (times : List Int) : Value :=
  dict [("shapes", .list (p.blocks.map fun b => dict [
      ("x", .list (b.xs.map fun (n : Nat) => .int n)), ("y", .list (b.ys.map .int)), ("arg", dict b.note)])),
    ("peak", .int p.peak), ("timestamps", .list (times.map .int))]

def report (r : Report Note) : Value :=
  dict [("layout", dict (r.devices.map fun d =>
      (d.device, dict [("timeline", timeline d.timeline), ("mem", plot d.memory d.times)]))),
    ("st", optional r.start), ("et", optional r.stop)]

variable (j : Json)

def time : GraphM Exact :=
  match j with
  | .text s => match Exact.parse? s with
    | some x => pure x
    | none => badInput
  | _ => badInput

def entry : GraphM GraphEntry :=
  match j with
  | .list [.text device, .text name, .int start, .int stop, copy] =>
    pure { device, name, start, stop, isCopy := copy.isOn }
  | _ => badInput

def note : GraphM Note := do
  let .list es := j | badInput
  es.mapM fun e => do
  let .list [.text k, v] := e | badInput
  return (k, ← Scope.plain {} v)

def event : GraphM (ProfileEvent Note) := do
  let zero : Exact := ⟨0, 0⟩
  match j with
  | .list [.text "dev", .text d] => return .device d zero (some zero)
  | .list [.text "dev", .text d, a] => return .device d (← time a) (some zero)
  | .list [.text "dev", .text d, a, .null] => return .device d (← time a) none
  | .list [.text "dev", .text d, a, b] => return .device d (← time a) (some (← time b))
  | .list [.text "range", .text d, .text n, a, .null, copy] =>
    return .range d n (← time a) none copy.isOn
  | .list [.text "range", .text d, .text n, a, b, copy] =>
    return .range d n (← time a) (some (← time b)) copy.isOn
  | .list [.text "point", .text d, .text n, a, .int ref] => return .point d n (← time a) ref []
  | .list [.text "point", .text d, .text n, a, .int ref, ns] =>
    return .point d n (← time a) ref (← note ns)
  | .list [.text "graph", .list es, _, .list ts] =>
    return .graph (← es.mapM entry) (← ts.mapM time)
  | _ => badInput

def profile : GraphM Value := do
  let events ← (← Request.items j "events").mapM event
  return report (← Report.ofEvents bytesOf events)

def reading (nanoseconds : Nat) : Exact := ⟨nanoseconds, 3⟩

def memoryEvent (e : MemoryEvent) : ProfileEvent Note :=
  .point e.device (if e.isAlloc then "alloc" else "free") (reading e.nanoseconds) e.number
    (if e.isAlloc then [("dtype", .text e.dtype.text), ("sz", .int e.size), ("nbytes", .int e.bytes)]
     else [])

/-- Steps on buffers inside a stretch of time that is measured: their answers, a second measurement,
and the report. -/
def memory (todo : List Json) (clock : Clock) (recycling : Bool) : GraphM Json := do
  let work : HeapM (List Json × Nat × Nat × Nat × Nat) := do
    let start ← Heap.now
    let (xs, names) ← Buffers.runKeeping Fault.json todo
    Buffers.forget names
    let stop ← Heap.now
    let first ← Heap.now
    let second ← Heap.now
    return (xs, start, stop, first, second)
  match work.run { recycling, clock, profiling := true } with
  | .error f _ => throw f
  | .ok (xs, start, stop, first, second) heap =>
    let zero : Exact := ⟨0, 0⟩
    let events := .device "CPU" zero (some zero) ::
      .range "CPU" "outer" (reading start) (some (reading stop)) false ::
      heap.events.toList.map memoryEvent
    let r ← Report.ofEvents bytesOf events
    return .list [.list xs, .list [.int first, .int second], ← (report r).json]

def written : Value → String := Value.fold fun v xs es => match v with
  | .bool b => if b then "true" else "false"
  | .int n => toString n
  | .float x => Decimal.text x
  | .text s => Json.quote s
  | .list _ | .tuple _ => listOf xs
  | .dict _ => "\x7b" ++ ", ".intercalate (es.map fun (k, v) => k ++ ": " ++ v) ++ "\x7d"
  | _ => "null"

/-- The document of an answer: status, type, length, how long it may be kept, and the body. -/
def reply (status type : String) (length : Json) (kept : Json) (body : Json) : Json :=
  .list [.text ("HTTP/1.0 " ++ status), .text type, length, kept, body]

def keyText : Tracks.Key → String
  | .text s => s
  | .graph e => e.text

def page (log : Option Tracks.Log) (report : Option Value) (closed : Bool) (path : String) :
    GraphM Json := do
  match ← Route.ofPath path with
  | .recording key index =>
    if closed then return .null
    let log ← log.getDM (throw .wrongType)
    let (_, rs) ← Report.item log.entries key
    let r ← Report.item rs index
    let events := (← r.details).map Tracks.detail
    return reply "200 OK" "text/event-stream" .null (.text "no-cache")
      (.list (events ++ [.text "data: END", .text ""]))
  | route =>
    if closed then throw (.bare .brokenPipe)
    match route, report with
    | .file type size, _ =>
      return reply "200 OK" type (.text (toString size)) .null (.int size)
    | .recordings, _ =>
      let entries := match log with
        | some log => log.entries
        | none => []
      return .list [.text "HTTP/1.0 200 OK", .text "application/json",
        .list (entries.map fun (k, rs) => .list [.text (keyText k), .list (rs.map fun r =>
          .list [match r.name with
            | some s => .text s
            | none => .null, .int 0, .int r.steps.length])])]
    | .profile, some r =>
      return reply "200 OK" "application/json" (.text (toString (written r).length)) .null
        (← r.json)
    | _, _ => return reply "404 Not Found" "text/html" (.text "0") .null (.int 0)

def answer : GraphM Json := do
  let log ← match j.field? "track" with
    | none | some .null => pure none
    | some t => pure (some (← Tracks.run t))
  let report ← match j.field? "events" with
    | none | some .null => pure none
    | some _ => pure (some (← profile j))
  .list <$> (← Request.items j "paths").mapM fun p => Fault.guarded do
    let .text s := p | badInput
    page log report (Request.flag j "closed") s

end LazyTensor.Viewers
