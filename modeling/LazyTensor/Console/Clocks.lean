import LazyTensor.Console.Fault
import LazyTensor.Console.Functions
import LazyTensor.Text.Progress

/-!
# Requests about time and settings

Progress bars, measured durations and settings that hold for a while.  Time is that of a clock which
advances by one step whenever it is read.
-/

namespace LazyTensor.Clocks

/-! ### Progress bars -/

structure Shown where
  bar : Progress
  clock : Clock
  columns : Nat
  written : String := ""

def Shown.update (s : Shown) (n : Int) (close : Bool) : Shown :=
  let (bar, clock, out) := s.bar.update s.clock s.columns n close
  { s with bar, clock, written := s.written ++ out }

def labelOf : Value → String
  | .text s => Progress.labelOf s
  | v => if v.truthy then v.shown ++ ": " else ""

/-- The bar that options describe; `count` is the number of items where it is known. -/
def newBar (c : Call) (count : Int) : Result Progress := do
  let total ← match c.get "total" with
    | .null => .ok count
    | v => v.int?.getDM (.error .wrongType)
  let rate ← (c.get "rate").int?.getDM (.error .wrongType)
  return { label := labelOf (c.get "desc"), silent := c.flag "disable",
           unit := Plain.inText (c.get "unit"), scaled := c.flag "unit_scale", total, rate }

def begin (bar : Progress) (clock : Clock) (columns : Nat) : Shown :=
  let (bar, clock, written) := bar.new clock columns
  { bar, clock, columns, written }

def barStep (s : Shown) (name : String) (args : List Value) : Result Shown := do
  let amount (v : Value) : Result Int := v.int?.getDM (.error .wrongType)
  match name, args with
  | "update", [] => return s.update 0 false
  | "update", [n] => return s.update (← amount n) false
  | "update", [n, close] => return s.update (← amount n) close.truthy
  | "set_description", [v] =>
    return { s with bar := { s.bar with label := labelOf v } }
  | "write", [v] =>
    return { s with written := s.written ++ Progress.interjection (Plain.inText v) }
  | "__iter__", [] | "__enter__", [] => return s
  | "__exit__", _ => return s.update 0 true
  | _, _ =>
    if ["update", "set_description", "write", "__iter__", "__enter__"].contains name then
      throw .wrongType
    else throw .missingMember

def itemsOf (v : Value) : Result (List Value) :=
  match v with
  | .null => .error (.broken "need an iterable to iterate")
  | v => Plain.items v

def bar (j : Json) (clock : Clock) : GraphM Json := do
  let columns := ((j.field? "cols").bind Json.int?).elim 80 Int.toNat
  let named ← match j.field? "k" with
    | some (.record fs) => fs.mapM fun (k, x) => return (k, ← Scope.plain [] x)
    | _ => pure []
  let known := ["desc", "disable", "unit", "unit_scale", "total", "rate"]
  if !named.all fun (k, _) => known.contains k then wrongType
  let defaults : Fields := [("desc", .text ""), ("disable", .bool false),
    ("unit", .text "it"), ("unit_scale", .bool false), ("total", .null), ("rate", .int 100)]
  let c : Call := { values := named ++ defaults }
  let through (items : List Value) (count : Int) : GraphM Json := do
    let s := begin (← newBar c count) clock columns
    let s := items.foldl (fun (s : Shown) _ => s.update 1 false) s
    let s := s.update 0 true
    return .list [.list (← items.mapM Value.json), .text s.written]
  match j.field? "iter", j.field? "range", j.field? "do" with
  | some x, _, _ =>
    let v ← Scope.plain [] x
    let items ← itemsOf v
    through items items.length
  | _, some x, _ =>
    let n ← (← Scope.plain [] x).toInt
    if named.any (·.1 = "total") then wrongType
    through ((List.range n.toNat).map fun (i : Nat) => .int i) n
  | _, _, some (.list todo) =>
    let s := begin (← newBar c 0) clock columns
    let s ← todo.foldlM (fun (s : Shown) q => do
      match q with
      | .list (.text name :: args) => liftM (barStep s name (← args.mapM (Scope.plain [])))
      | _ => badInput) s
    return .list [.list [], .text (s.update 0 true).written]
  | _, _, _ => badInput

/-! ### Durations -/

def measure (clock : Clock) (readings : Nat) : Clock × Nat :=
  let start := clock.tick
  let last := { start with readings := start.readings + readings }.tick
  (last, last.nanoseconds - start.nanoseconds)

/-- Durations that are printed when they end: what was printed so far after each, then the duration of
nothing, measured and not, and a place in a program. -/
def durations (todo : List Json) (clock : Clock) : GraphM Json := do
  let (clock, _, out) ← todo.foldlM
    (fun ((clock, text, out) : Clock × String × List Json) q => do
      match q with
      | .list [.text start, onExit, enabled, .int n] =>
        let (clock, ns) := measure clock n.toNat
        let enabled := (← Scope.plain [] enabled).truthy
        let tail := if (← Scope.plain [] onExit).truthy then s!" <{ns}>" else ""
        let ms := Decimal.padLeft 6 (Decimal.fixed 2 (ns.toFloat * 1e-6))
        let text := if enabled then text ++ s!"{start}{ms} ms{tail}\n" else text
        return (clock, text, out ++ [.text text])
      | _ => badInput) (clock, "", [])
  let start := clock.tick
  let spent := start.tick.seconds - start.seconds
  return .list (out ++ [.list [Answer.float spent, .null], .text "a.py:3:f"])

/-! ### Settings for a while -/

def watched : List Flag := [.debug, .noopt, .beam, .wino]

def shownSettings (s : Settings) : Json :=
  .list (watched.map fun f => .list [.text f.name, .int (s.get f)])

def flagOf (n : String) : Result Flag :=
  (Flag.ofName? n).getDM (.error .missingKey)

def setAll (s : Settings) : List (String × Json) → Settings × Option Failure
  | [] => (s, none)
  | (n, v) :: rest =>
    match flagOf n, v with
    | .ok f, .int k => setAll (s.set f k) rest
    | .ok f, .bool b => setAll (s.set f (Const.ofBool b)) rest
    | .error e, _ => (s, some e)
    | _, _ => (s, some .badInput)

def settingStep (s : Settings) (outer : List Settings) (q : Json) :
    Settings × List Settings × Json :=
  match q with
  | .list [.text "enter", .record fs] =>
    match setAll s fs with
    | (new, none) => (new, s :: outer, shownSettings new)
    | (new, some f) => (new, outer, Fault.json f)
  | .list [.text "exit"] =>
    match outer with
    | old :: outer => (old, outer, shownSettings old)
    | [] => (s, [], Fault.json .outOfRange)
  | .list [.text "set", .text n, v] =>
    match setAll s [(n, v)] with
    | (new, none) => (new, outer, shownSettings new)
    | (_, some f) => (s, outer, Fault.json f)
  | .list [.text "cmp", .text n, .int k] =>
    match flagOf n with
    | .ok f =>
      let v := s.get f
      (s, outer, .list [.bool (v ≠ 0), .bool (v ≥ k), .bool (v > k), .bool (v < k)])
    | .error f => (s, outer, Fault.json f)
  | .list [.text "get"] => (s, outer, shownSettings s)
  | _ => (s, outer, Fault.json .badInput)

def settings (start : Settings) (todo : List Json) : List Json :=
  (todo.foldl (fun ((s, outer, out) : Settings × List Settings × List Json) q =>
    let (s, outer, j) := settingStep s outer q
    (s, outer, out ++ [j])) (start, [], [])).2.2

end LazyTensor.Clocks
