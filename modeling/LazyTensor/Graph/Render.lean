import LazyTensor.Graph.Build
import LazyTensor.Graph.Rules

/-!
# Formulas

The text of an index expression as a formula: names, numbers and operators between parentheses.
Nodes that have no place in a formula print as graphs.
-/

namespace LazyTensor

namespace Formula

open Pat

def textNode (s : String) : RuleM := giving (node .noop .void [] (.text s))

def part (x : Expr) (i : Nat) : GraphM String := do return (← x.nth i).arg.bareText

def symbol? : Op → Option String
  | .add => some "+" | .sub => some "-" | .idiv => some "//" | .mod => some "%"
  | .shl => some "<<" | .shr => some ">>" | .mul => some "*" | .cmplt => some "<"
  | .cmpne => some "!=" | .and => some "&" | .or => some "|" | .xor => some "^"
  | _ => none

def nameNode (x : Expr) : RuleM :=
  match x.arg with
  | .tuple (a :: _) => giving (node .noop .void [] a)
  | .tuple [] => throw .outOfRange
  | _ => throw .wrongType

def done : Pat := of [.noop]

/-- Rules that turn an expression into a node that holds its formula. -/
def rules : RuleSet Expr := .ofList [
  on (of [.defineVar, .special]) nameNode,
  on (of [.range]) fun x => textNode ("ridx" ++ x.arg.bareText),
  on (of [.const, .vconst]) fun x => textNode x.arg.bareText,
  on (of [.unroll]) fun x => do
    textNode ("UNROLL(" ++ (← part x 0) ++ ", " ++ x.arg.bareText ++ ")"),
  on (of [.cast]) fun x => do textNode ("(" ++ x.dtype.short ++ ")(" ++ (← part x 0) ++ ")"),
  on (of [.load]) fun _ => textNode "load",
  on (all [.bind] done) fun x => do return some (← x.nth 0),
  on (all [.neg] done) fun x => do textNode ("(-" ++ (← part x 0) ++ ")"),
  on (all [.max] done) fun x => do
    textNode ("max(" ++ (← part x 0) ++ ", " ++ (← part x 1) ++ ")"),
  on (all [.mulacc] done) fun x => do
    textNode ("(" ++ (← part x 0) ++ "*" ++ (← part x 1) ++ "+" ++ (← part x 2) ++ ")"),
  on (all [.select] done) fun x => do
    textNode ("(" ++ (← part x 1) ++ " if " ++ (← part x 0) ++ " else " ++ (← part x 2) ++ ")"),
  on (Pat.all Op.alus done) fun x => do
    let a ← part x 0
    match symbol? x.op with
    | some s => textNode ("(" ++ a ++ s ++ (← part x 1) ++ ")")
    | none => throw .missingKey]

/-- The same, with quotients and remainders toward zero written as calls. -/
def callRules : RuleSet Expr := .ofList [
  on (all [.mod] done) fun x => do
    textNode ("cmod(" ++ (← part x 0) ++ ", " ++ (← part x 1) ++ ")"),
  on (all [.idiv] done) fun x => do
    textNode ("cdiv(" ++ (← part x 0) ++ ", " ++ (← part x 1) ++ ")")] ++ rules

end Formula

def Expr.formula (e : Expr) (rs : RuleSet Expr := Formula.rules) : GraphM String := do
  let r ← rs.apply e
  return if r.is .noop then r.arg.bareText else r.text

def Expr.render (e : Expr) : GraphM String := do (← e.simplify).formula

end LazyTensor
