import LazyTensor.Console.Expression
import LazyTensor.Console.Fault
import LazyTensor.Source.Adoption

/-!
# Requests about source code
-/

namespace LazyTensor.Sources

open Request

variable (j : Json)

def filesOf : GraphM (List (String × String)) := do
  (← items j "files").foldlM (fun (acc : List (String × String)) x => match x with
    | .list [.text p, .text s] => pure (acc.filter (·.1 ≠ p) ++ [(p, s)])
    | _ => badInput) []

def number : GraphM Const := do
  (← Scope.plain {} j).const?.getDM (throw .wrongType)

def row : GraphM SourceRow := do
  let .list [.text name, lines, tokens] := j | badInput
  return ⟨name, ← number lines, ← number tokens⟩

def shown (c : Const) : GraphM Json := (Value.ofConst c).json

def statistics : GraphM Json := do
  match ← text j "fn" with
  | "stats" =>
    let files := (← filesOf j).map fun (p, s) => (⟨p, s⟩ : SourceFile)
    let rows ← Statistics.ofFiles files
    .list <$> rows.mapM fun r => do
      return .list [.text r.name, ← shown r.lines, ← shown r.tokens]
  | "diff" =>
    let some (.list [.list before, .list after]) := j.field? "a" | badInput
    let before ← before.mapM row
    let after ← after.mapM row
    let cs ← Statistics.changes before after
    .list <$> cs.mapM fun c => do
      return .list [.text c.name, ← shown c.lines, ← shown c.moreLines, ← shown c.tokens,
        ← shown c.moreTokens]
  | "display" =>
    .list <$> (← items j "l").mapM fun x => Fault.guarded do return .text (Statistics.signed (← number x))
  | _ => badInput

def adoption : GraphM Json := do
  let files ← filesOf j
  let wanted ← ((← items j "args").mapM Json.text?).getDM badInput
  let place (p : String) : List String := Adoption.walk [] p
  let tree : FileTree :=
    { files := files.map fun (p, s) => (place p, s), folders := [[], ["work"], ["tinygrad"]] }
  let (failure, after) : Json × Adoption.Work :=
    match (Adoption.run wanted).run { tree } with
    | .ok _ w => (.null, w)
    | .error f w => (Fault.json f, w)
  let new := after.tree.files.filter fun (p, _) => !tree.isFile p
  let rows := (new.map fun (p, s) => ("/".intercalate p, s)).mergeSort fun a b => a.1 ≤ b.1
  return .list [failure, .text after.printed, .list (rows.map fun (p, s) => .list [.text p, .text s])]

end LazyTensor.Sources
