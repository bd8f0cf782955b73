import Std.Data.HashMap

/-!
# Differences of texts

Two lists of lines are compared by their longest common run: of the longest runs of equal lines the
first is taken, and what stands before it and after it is compared in the same way.  Lines that are
very frequent in a long text do not begin a run.

The difference is written in groups, each with up to three lines of what did not change around it.
-/

namespace LazyTensor.Difference

structure Block where
  left : Nat
  right : Nat
  size : Nat
  deriving DecidableEq

/-- Where each line occurs in a list, in order.  In a list of two hundred lines or more, a line that
is more than a hundredth of it is left out. -/
def places (lines : Array String) : Std.HashMap String (List Nat) :=
  let all := lines.foldr (fun (s : String) (acc : Std.HashMap String (List Nat) × Nat) =>
    let i := acc.2 - 1
    (acc.1.insert s (i :: (acc.1[s]?).getD []), i)) ({}, lines.size)
  if lines.size < 200 then all.1
  else all.1.filter fun _ is => is.length ≤ lines.size / 100 + 1

/-- The runs that end at a line of the first list, by their ends in the second, and the longest run
so far. -/
structure Runs where
  lengths : Std.HashMap Nat Nat := {}
  best : Block

/-- Go on with the runs at the next line of the first list, which occurs at some places of the
second. -/
def Runs.next (r : Runs) (i low high : Nat) (js : List Nat) : Runs :=
  let js := (js.dropWhile (· < low)).takeWhile (· < high)
  js.foldl (fun (acc : Runs) j =>
    let k := (if j = 0 then 0 else (r.lengths[j - 1]?).getD 0) + 1
    { lengths := acc.lengths.insert j k
      best := if k > acc.best.size then ⟨i + 1 - k, j + 1 - k, k⟩ else acc.best })
    { lengths := {}, best := r.best }

def equalBefore (a b : Array String) (lowA lowB : Nat) : Nat → Nat → Nat
  | i + 1, j + 1 =>
    if lowA ≤ i && lowB ≤ j && a[i]? == b[j]? then equalBefore a b lowA lowB i j + 1 else 0
  | _, _ => 0

def equalAfter (a b : Array String) (highA highB : Nat) : Nat → Nat → Nat → Nat
  | 0, _, _ => 0
  | fuel + 1, i, j =>
    if i < highA && j < highB && a[i]? == b[j]? then
      equalAfter a b highA highB fuel (i + 1) (j + 1) + 1
    else 0

variable (a b : Array String)

/-- The longest common run of two stretches; of several the first in the first list, then in the
second.  It is extended by frequent lines. -/
def longest (table : Std.HashMap String (List Nat))
    (lowA highA lowB highB : Nat) : Block :=
  let start : Runs := { best := ⟨lowA, lowB, 0⟩ }
  let runs := (List.range (highA - lowA)).foldl (fun (r : Runs) k =>
    let i := lowA + k
    r.next i lowB highB ((a[i]?.bind (table[·]?)).getD [])) start
  let m := runs.best
  let before := equalBefore a b lowA lowB m.left m.right
  let size := m.size + before
  let left := m.left - before
  let right := m.right - before
  ⟨left, right, size + equalAfter a b highA highB (highA - lowA) (left + size) (right + size)⟩

/-- The common runs of two stretches, in order.  Each run shortens what is left of the first list,
so its length bounds the depth. -/
def blocksFrom (a b : Array String) (table : Std.HashMap String (List Nat)) :
    Nat → Nat → Nat → Nat → Nat → List Block
  | 0, _, _, _, _ => []
  | fuel + 1, lowA, highA, lowB, highB =>
    let m := longest a b table lowA highA lowB highB
    if m.size = 0 then []
    else
      let before := if lowA < m.left && lowB < m.right then
          blocksFrom a b table fuel lowA m.left lowB m.right else []
      let endA := m.left + m.size
      let endB := m.right + m.size
      let after := if endA < highA && endB < highB then
          blocksFrom a b table fuel endA highA endB highB else []
      before ++ m :: after

def merge : List Block → List Block
  | m :: n :: rest =>
    if m.left + m.size = n.left && m.right + m.size = n.right then
      merge (⟨m.left, m.right, m.size + n.size⟩ :: rest)
    else m :: merge (n :: rest)
  | ms => ms
termination_by ms => ms.length

def blocks : List Block :=
  merge (blocksFrom a b (places b) (a.size + 1) 0 a.size 0 b.size) ++ [⟨a.size, b.size, 0⟩]

inductive Kind where
  | keep
  | change
  deriving DecidableEq

structure Edit where
  kind : Kind
  startA : Nat
  stopA : Nat
  startB : Nat
  stopB : Nat
  deriving DecidableEq

def editsFrom : Nat → Nat → List Block → List Edit
  | _, _, [] => []
  | i, j, m :: rest =>
    let change := if i < m.left || j < m.right then [⟨.change, i, m.left, j, m.right⟩] else []
    let keep := if m.size = 0 then []
      else [⟨Kind.keep, m.left, m.left + m.size, m.right, m.right + m.size⟩]
    change ++ keep ++ editsFrom (m.left + m.size) (m.right + m.size) rest

def edits : List Edit := editsFrom 0 0 (blocks a b)

def around : Nat := 3

def Edit.tail (e : Edit) : Edit :=
  match e.kind with
  | .keep =>
    { e with startA := max e.startA (e.stopA - around), startB := max e.startB (e.stopB - around) }
  | .change => e

def Edit.head (e : Edit) : Edit :=
  match e.kind with
  | .keep =>
    { e with stopA := min e.stopA (e.startA + around), stopB := min e.stopB (e.startB + around) }
  | .change => e

def onFirst {α : Type} (f : α → α) : List α → List α
  | [] => []
  | x :: xs => f x :: xs

def cut : List Edit → List Edit → List (List Edit)
  | group, [] => [group]
  | group, e :: rest =>
    if e.kind = .keep && e.stopA - e.startA > 2 * around then
      (group ++ [e.head]) :: cut [e.tail] rest
    else cut (group ++ [e]) rest

def groups (es : List Edit) : List (List Edit) :=
  let es := onFirst Edit.tail es
  let es := (onFirst Edit.head es.reverse).reverse
  (cut [] es).filter fun g => g.any (·.kind = .change)

/-- A stretch of lines in the head of a group, counted from one; an empty one stands after the line
before it. -/
def rangeText (start stop : Nat) : String :=
  match stop - start with
  | 1 => toString (start + 1)
  | 0 => s!"{start},0"
  | n => s!"{start + 1},{n}"

def marked (mark : String) (lines : Array String) (start stop : Nat) : List String :=
  (lines.extract start stop).toList.map (mark ++ ·)

def groupText (g : List Edit) : List String :=
  match g, g.getLast? with
  | first :: _, some last =>
    s!"@@ -{rangeText first.startA last.stopA} +{rangeText first.startB last.stopB} @@\n" ::
      g.flatMap fun e => match e.kind with
        | .keep => marked " " a e.startA e.stopA
        | .change => marked "-" a e.startA e.stopA ++ marked "+" b e.startB e.stopB
  | _, _ => []

/-- The written difference of two lists of lines; nothing if they are equal. -/
def unified (a b : List String) : List String :=
  let a := a.toArray
  let b := b.toArray
  match groups (edits a b) with
  | [] => []
  | gs => "--- \n" :: "+++ \n" :: gs.flatMap (groupText a b)

end LazyTensor.Difference
