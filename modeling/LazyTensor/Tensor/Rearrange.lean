import LazyTensor.Tensor.Basic

/-!
# Rearranging axes by a formula

A formula names the axes of a tensor before and after an arrow: `a b c -> c (a b)`.  Names in brackets
are one axis made of several; a one is an axis of extent one; three dots are all axes that are not
named.
-/

namespace LazyTensor

/-- One side of a formula: its names, and the groups of names in brackets, from the first to before
the last. -/
structure AxisNames where
  names : List String
  groups : List (Int × Int)

namespace AxisNames

def dots : String := "..."

def words (s : String) : List String :=
  let blank (c : Char) : Bool := c.isWhitespace || c = '\x0b' || c = '\x0c'
  let spread := s.toList.flatMap fun c =>
    if c = '(' || c = ')' then [' ', c, ' ']
    else if c = '…' then ['.', '.', '.'] else [c]
  let parts := (String.ofList (spread.map fun c => if blank c then ' ' else c)).splitOn " "
  (parts.filter (· ≠ "")).flatMap fun w => if w = "1" then ["(", ")"] else [w]

/-- Where a word stands among words, the first of which has some number. -/
def positions (ws : List String) (w : String) (first : Nat := 0) : List Int :=
  ((ws.zipIdx first).filter (·.1 = w)).map fun p => (p.2 : Int)

def ascending : List Int → Bool
  | a :: b :: rest => a ≤ b && ascending (b :: rest)
  | _ => true

def ofWords (ws : List String) : Result AxisNames :=
  let opened := positions ws "("
  let closed := positions ws ")"
  let pairs := opened.zip closed
  if opened.length ≠ closed.length || !ascending (pairs.flatMap fun g => [g.1, g.2]) then
    .error (.broken "bracket mismatch")
  else .ok {
    names := ws.filter fun w => w ≠ "(" && w ≠ ")"
    groups := pairs.zipIdx.map fun g => (g.1.1 - 2 * g.2, g.1.2 - 1 - 2 * g.2) }

def parse (s : String) : Result AxisNames := ofWords (words s)

def isName (s : String) : Bool :=
  match s.toList with
  | [] => false
  | c :: cs =>
    let last := (c :: cs).getLastD c
    (c.isAlpha || c.toNat > 127) && cs.all (fun c => c.isAlphanum || c = '_' || c.toNat > 127) &&
      last ≠ '_'

def between (ns : List String) (a b : Int) : List String :=
  (ns.take b.toNat).drop a.toNat

/-- Where a position comes to stand when the dots have been replaced by so many of the names. -/
def moved (names : List String) (count p : Int) : Int :=
  if (names.take p.toNat).contains "...0" then p + count - 1 else p

/-- One side with the dots replaced by so many names, and the groups moved accordingly. -/
def fill (x : AxisNames) (count : Int) : AxisNames :=
  match x.names.findIdx? (· = dots) with
  | none => x
  | some i =>
    let names := x.names.take i ++ (List.range count.toNat).map (fun j => s!"...{j}") ++
      x.names.drop (i + 1)
    { names, groups := x.groups.map fun g => (moved names count g.1, moved names count g.2) }

/-- How many axes of a tensor the dots stand for. -/
def dotted (x : AxisNames) (rank : Int) : Int :=
  rank - x.names.length + 1 + x.groups.foldr (fun g n => g.2 - g.1 - 1 + n) 0

end AxisNames

/-- What is done with axes: one is split into those of a stretch of names, all are checked against
their names, they are put in another order, neighbours are joined, one of extent one is put in. -/
structure AxisMoves (m : Type → Type) (α : Type) where
  split : α → List String → Int → Int → m α
  check : α → List String → m Unit
  permute : α → List Nat → m α
  join : α → Int → Int → m α
  insert : α → Int → m α

/-- Split all groups of one side, and join all groups of the other, from the last on. -/
def AxisMoves.rearrange {m : Type → Type} [Monad m] {α : Type} (o : AxisMoves m α)
    (lhs rhs : AxisNames) (rank : Int) (t : α) : m α := do
  let count := lhs.dotted rank
  let lhs := lhs.fill count
  let rhs := rhs.fill count
  let t ← lhs.groups.foldlM (fun t g => o.split t lhs.names g.1 g.2) t
  o.check t lhs.names
  let t ← o.permute t (rhs.names.map fun name => lhs.names.idxOf name)
  rhs.groups.reverse.foldlM (fun t g =>
    if g.1 < g.2 then o.join t g.1 (g.2 - 1) else o.insert t g.1) t

def sameTexts (a b : List String) : Bool :=
  let sorted (xs : List String) : List String := xs.mergeSort fun x y => decide (x ≤ y)
  sorted a == sorted b

namespace Tensor

/-- The tensor that a formula describes, with the extents of some names given. -/
def rearrange (t : Tensor) (formula : String) (sizes : List (String × Dim)) : TensorM := do
  let [left, right] := formula.splitOn "->" | throw (.broken "need exactly one \"->\" in formula")
  let lhs ← AxisNames.parse left
  let rhs ← AxisNames.parse right
  for (name, _) in sizes do
    if !(lhs.names.contains name) then
      throw (.broken s!"axis {name} is not used in transform")
  if !(sameTexts lhs.names rhs.names) || lhs.names.eraseDups.length ≠ lhs.names.length then
    throw (.broken s!"name mismatch in {formula}")
  for name in lhs.names ++ rhs.names do
    if name ≠ AxisNames.dots && !(AxisNames.isName name) then
      throw (.broken s!"invalid axis name {name}")
  if lhs.groups.any fun (a, b) => (AxisNames.between lhs.names a b).contains AxisNames.dots then
    throw (.broken s!"cannot have collapsed ellipsis (...) in lhs of {formula}")
  let moves : AxisMoves SessionM Tensor := {
    split := fun x names a b => do
      let parts ← (List.range (b - a).toNat).mapM fun (k : Nat) => do
        return (sizes.lookup (← itemAt names (a + k))).getD (.int (-1))
      x.unflatten a parts
    check := fun x names => do
      let shape ← x.shape
      for (name, i) in names.zipIdx do
        if let some d := sizes.lookup name then
          if !((← itemAt shape (i : Int)) == d) then
            throw (.broken s!"size provided for dimension {name} incorrect")
    permute := fun x order => x.permute (order.map Int.ofNat)
    join := fun x a b => x.flatten a b
    insert := fun x a => x.unsqueeze a }
  moves.rearrange lhs rhs (← t.ndim) t

end Tensor

end LazyTensor
