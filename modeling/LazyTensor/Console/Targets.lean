import LazyTensor.Console.Graphs
import LazyTensor.Machine.Run
import LazyTensor.Program.MatrixUnit

/-!
# Programs and targets

A request names the instructions of a program, its memories with their contents, the extents of its
grid, and the values of its variables.  The answer is what the memories hold at the end.
-/

namespace LazyTensor.Machines

open Request

def element (c : Const) : Json :=
  match c with
  | .float x => .text (Answer.bits x)
  | .int n => .int n
  | .bool b => .bool b

def instruction (j : Json) : GraphM Instr :=
  match j with
  | .list [.text op, .text d, .list src, arg] => do
    let src ← src.mapM fun s => match s with
      | .int n => if n < 0 then badInput else pure n.toNat
      | _ => badInput
    return { op := ← Value.opOf op, dtype := ← DType.parse d, src,
             arg := ← (← Scope.argument [] arg).arg }
  | _ => badInput

def memory (j : Json) : GraphM (Char × ByteArray) :=
  match j with
  | .list [.text code, .list xs] => do
    let c ← match code.toList with
      | [c] => pure c
      | _ => badInput
    let bytes ← xs.mapM fun x => do
      let v ← ((← Scope.plain [] x).const?).getDM (throw .badPacking)
      liftM (Packing.pack c v)
    return (c, ByteArray.mk bytes.flatten.toArray)
  | _ => badInput

def intList (j : Json) : GraphM (List Int) := (j.items?.bind (·.mapM Json.int?)).getDM badInput

def ints (j : Json) (k : String) (other : List Int) : GraphM (List Int) :=
  (j.field? k).elim (return other) intList

def answer (j : Json) : GraphM Json := do
  let program ← (← items j "uops").mapM instruction
  let memories ← (← items j "bufs").mapM memory
  let (out, failure) := Machine.run program.toArray (memories.map (·.2)).toArray
    (← ints j "vals" []) (← ints j "gs" [1, 1, 1]) (← ints j "ls" [1, 1, 1])
  if let some f := failure then throw f
  return .list ((memories.zip out.toList).map fun ((c, _), b) =>
    .list ((Bytes.elements c b).map element))

end LazyTensor.Machines

/-! ## Questions about targets -/

namespace LazyTensor.Targets

open Request Machines

def unit (m : MatrixUnit) : GraphM Json := do
  let axes ← m.reduceAxes
  return .list [.text m.name,
    .list (axes.map fun (a, b) => .list [.int a, .int b]),
    .list (m.elementCuts.map .text), .list (m.threadCuts.map .text)]

variable (j : Json)

private def triple (k : String) : GraphM (Int × Int × Int) := do
  let [a, b, c] ← intList (← need j k) | badInput
  return (a, b, c)

private def order : GraphM (Option AxisOrder) :=
  match j with
  | .null | .list [] => return none
  | .list [a, b] => return some ⟨← intList a, ← intList b⟩
  | _ => badInput

def described : GraphM MatrixUnit := do
  let cuts ← ((← items j "opts").mapM Json.text?).getDM badInput
  let orders ← match j.field? "swizzle" with
    | some (.list os) => os.mapM order
    | _ => pure [none, none]
  let m : MatrixUnit := {
    dims := ← triple j "dims", threads := ← int j "threads", perThread := ← triple j "ept"
    input := ← DType.parse (← text j "in"), output := ← DType.parse (← text j "out"), cuts, orders }
  m.check
  return m

/-- The matrix units of the target a request names, or of the unit it describes. -/
def units : GraphM Json := do
  match j.field? "new" with
  | some d => return .list [← unit (← described d)]
  | none =>
    do return .list (← (← Inquiry.targetOf (← need j "renderer")).matrixUnits.mapM unit)

def typeTexts (guarded : GraphM Json → GraphM Json) : GraphM Json := do
  let t ← Inquiry.targetOf (← need j "renderer")
  let mutable := match j.field? "mutable" with
    | some (.list (.bool b :: _)) => b
    | _ => true
  return .list (← (← items j "l").mapM fun d => guarded do
    match d with
    | .text s =>
      let d ← DType.parse s
      let dl ← t.dialect?.getDM (throw .missingMember)
      return .text (dl.typeText d mutable)
    | _ => badInput)

end LazyTensor.Targets
