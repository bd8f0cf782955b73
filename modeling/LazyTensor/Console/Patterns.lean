import LazyTensor.Console.Expression
import LazyTensor.Console.Fault
import LazyTensor.Graph.Decision

/-!
# Requests about patterns

A pattern is read from a document and matched against a node: in all ways, and by its decisions.
-/

namespace LazyTensor.Patterns

/-- The conditions on the node itself, but for those on the number of sources. -/
def readSelf (fs : List (String × Json)) : GraphM Pat.Self := do
  let oneOf {α : Type} (k : String) (f : String → Result α) : GraphM (Option (List α)) :=
    match fs.lookup k with
    | none | some .null => return none
    | some (.list xs) => some <$> xs.mapM fun x => match x with
      | .text s => liftM (f s)
      | _ => badInput
    | some _ => badInput
  let ops ← oneOf "op" Value.opOf
  let dtypes ← oneOf "dtype" DType.parse
  let arg ← match fs.lookup "arg" with
    | none => pure Arg.none
    | some x => liftM (← Scope.plain [] x).arg
  let name ← match fs.lookup "name" with
    | none | some .null => pure none
    | some (.text "ctx") => throw (.broken "UPat can't be named ctx")
    | some (.text s) => pure (some s)
    | some _ => badInput
  return { ops, dtypes, arg, name }

def readDepth : Nat → Json → GraphM Pat
  | 0, _ => badInput
  | fuel + 1, j =>
    match j with
    | .record [("any", .list ps)] => return .any (← ps.mapM (readDepth fuel))
    | .record fs =>
      let more := (fs.lookup "any_len").elim false Json.isOn
      let several (xs : List Json) (alts : List Pat → List (List Pat)) : GraphM Pat := do
        let ps ← xs.mapM (readDepth fuel)
        let s ← readSelf fs
        return .node { s with required := ps.length, strict := !more } (alts ps)
      match fs.lookup "src" with
      | none | some .null => return .leaf (← readSelf fs)
      | some (.list xs) => several xs fun ps => [ps]
      | some (.record [("perm", .list xs)]) => several xs Pat.permutations
      | some (.record [("rep", x)]) => do
        let p ← readDepth fuel x
        return .each (← readSelf fs) p
      | some _ => badInput
    | _ => badInput

def read (j : Json) : GraphM Pat := readDepth (j.depth + 1) j

/-! ### Printed forms -/

/-- The printed form of the conditions on a node, with its sources between others. -/
def selfText (s : Pat.Self) (more : Bool) (sources : String) : String :=
  let ops := match s.ops with
    | none => "None"
    | some os => "(" ++ String.intercalate ", " (os.map Op.text) ++ ")"
  let arg := match s.arg with
    | .text t => t
    | a => a.textWith Expr.text
  let name := match s.name with
    | none => "None"
    | some n => Quoted.text n
  let dtypes := match s.dtypes with
    | none | some [] => "None"
    | some ds => "\x7b" ++ String.intercalate ", " (ds.map DType.text) ++ "\x7d"
  let any := if more then "True" else "False"
  s!"UPat({ops}, {arg}, name={name}, dtype={dtypes}, allow_any_len={any}, src={sources})"

mutual

def textAt (d : Nat) (p : Pat) : String :=
  Decimal.rep ' ' d ++ match p with
    | .any ps => selfText {} false ("(" ++ textsAt (d + 2) ps ++ ")")
    | .leaf s => selfText s true "None"
    | .node s [] => selfText s (!s.strict) "()"
    | .node s [ps] => selfText s (!s.strict) ("(" ++ textsAt (d + 2) ps ++ ")")
    | .node s (ps :: _ :: _) => selfText s (!s.strict) ("[" ++ textsAt (d + 2) ps ++ "]")
    | .each s p => selfText s true ("(\n" ++ textAt (d + 2) p ++ ",)")

def textsAt (d : Nat) : List Pat → String
  | [] => ""
  | p :: ps => "\n" ++ textAt d p ++ "," ++ textsAt d ps

end

def text (p : Pat) : String := textAt 0 p

mutual

/-- A pattern after it was saved and loaded: a choice becomes a node with these sources. -/
def saved : Pat → Pat
  | .any ps => .node { required := ps.length, strict := true } [savedAll ps]
  | .leaf s => .leaf s
  | .node s alts => .node s (savedAlts alts)
  | .each s p => .each s (saved p)

def savedAll : List Pat → List Pat
  | [] => []
  | p :: ps => saved p :: savedAll ps

def savedAlts : List (List Pat) → List (List Pat)
  | [] => []
  | ps :: rest => savedAll ps :: savedAlts rest

end

/-! ### Answers -/

/-- What names are bound to, in the order of the names, by positions in an order of nodes. -/
def bindingsJson (order : List Expr) (b : Bindings) : Json :=
  .list ((b.mergeSort fun x y => x.1 ≤ y.1).map fun (n, e) =>
    .list [.text n, .int (order.findIdx (· == e))])

/-- All matches of a pattern at a node, the first match by its decisions, and what is looked for among
the sources first. -/
def allMatches (p : Pat) (e : Expr) : GraphM Json := do
  let order := e.toposort.toList
  let decided ← match Decision.ofPat p with
    | .error .empty => throw (.broken "")
    | .error _ => pure (Json.text "uncompiled")
    | .ok d => pure (match d.run e some with
      | none => Json.null
      | some b => bindingsJson order b)
  let early := ((p.early.map Op.name).eraseDups).mergeSort (· ≤ ·)
  return .record [("graph", ← Answer.graph e),
    ("match", .list ((p.matchesAt e).map (bindingsJson order))),
    ("compiled", decided), ("early_reject", .list (early.map .text))]

/-- The printed form of a pattern, that it is the same after saving and loading, and the names of all
matches of the loaded pattern. -/
def printed (p : Pat) (e : Expr) : Json :=
  let found := (saved p).matchesAt e
  .list [.text (text p), .bool (text (saved p) == text p), .list (found.map fun b =>
    .list (((b.map (·.1)).mergeSort (· ≤ ·)).map .text))]

end LazyTensor.Patterns
