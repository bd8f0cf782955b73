import LazyTensor.Failure

/-!
# Sorting by runs

A stable sort whose comparison may fail: items that have no order make the sort fail.  The list is
cut into runs that rise already; short runs are lengthened by binary insertion; neighbouring runs are
merged, with long stretches found by galloping.  Where the comparison is a weak order the result is
that of any stable sort.  Where it is not, as with values that are neither before nor after any
other, the result depends on which items are compared, and this is the one it is.
-/

namespace LazyTensor.Sorting

variable {α : Type} {m : Type → Type} [Monad m] [MonadExceptOf Failure m]

abbrev Before (m : Type → Type) (α : Type) := α → α → m Bool

def look (a : Array α) (i : Nat) : m α :=
  a[i]?.getDM (throw .exhausted)

section Search

variable (test : Nat → m Bool)

/-- The least position from `lo` to `hi` at which a test fails, if the test holds first and then
fails. -/
def bisect : Nat → Nat → Nat → m Nat
  | 0, _, hi => pure hi
  | fuel + 1, lo, hi =>
    if lo < hi then do
      let mid := lo + (hi - lo) / 2
      if ← test mid then bisect fuel (mid + 1) hi else bisect fuel lo mid
    else pure hi

/-- Steps that about double: 1, 3, 7, …, as long as a test holds and they stay below a limit; gives
the last step that held, or zero, and the one that did not. -/
def gallop (limit : Nat) : Nat → Nat → Nat → m (Nat × Nat)
  | 0, last, step => pure (last, step)
  | fuel + 1, last, step =>
    if step < limit then do
      if ← test step then gallop limit fuel step (2 * step + 1) else pure (last, step)
    else pure (last, min step limit)

/-- How many of `n` places pass a test that holds first and then fails, starting the search from a
hint. -/
def place (n hint : Nat) : m Nat := do
  let (lo, hi) ← if ← test hint then do
      let (last, step) ← gallop (fun s => test (hint + s)) (n - hint) n 0 1
      pure (hint + last + 1, hint + min step (n - hint))
    else do
      let (last, step) ← gallop (fun s => do return !(← test (hint - s))) (hint + 1) n 0 1
      pure (hint + 1 - min step (hint + 1), hint - last)
  bisect test (n + 1) lo hi

end Search

variable (before : Before m α)

/-- Put an item into a sorted array, after those it is not before. -/
def insertInto (a : Array α) (x : α) : m (Array α) := do
  let i ← bisect (fun k => do return !(← before x (← look a k))) (a.size + 1) 0 a.size
  return a.insertIdx! i x

/-- How long a run may be extended while the comparison of each item with the one before it gives
the same answer. -/
def extent (falling : Bool) (a : Array α) : Nat → Nat → m Nat
  | 0, i => pure i
  | fuel + 1, i =>
    if i < a.size then do
      let b ← before (← look a i) (← look a (i - 1))
      if b = falling then extent falling a fuel (i + 1) else pure i
    else pure i

/-- The run at the start of an array: its items in rising order, and how many they are. -/
def firstRun (a : Array α) : m (Array α) := do
  if h : 1 < a.size then
    let falling ← before a[1] a[0]
    let n ← extent before falling a a.size 2
    let run := a.extract 0 n
    return if falling then run.reverse else run
  else return a

def leastRun (n : Nat) : Nat :=
  go n n 0
where
  /-- Halve down to below 64, remembering whether anything was lost. -/
  go : Nat → Nat → Nat → Nat
    | 0, n, r => n + r
    | fuel + 1, n, r => if n ≥ 64 then go fuel (n / 2) (r ||| n % 2) else n + r

/-- Cut an array into runs, each at least as long as asked, the last apart. -/
def cutRuns (least : Nat) : Nat → Array α → m (List (Array α))
  | 0, _ => pure []
  | fuel + 1, a =>
    if a.isEmpty then pure []
    else do
      let run ← firstRun before a
      let n := run.size
      let k := if n < least then min least a.size else n
      let run ← (a.extract n k).foldlM (insertInto before) run
      return run :: (← cutRuns least fuel (a.extract k a.size))

/-- The first of `n` places from a base where a key could go. -/
def leftPlace (key : α) (a : Array α) (base : Nat) : Nat → Nat → m Nat :=
  place fun i => do before (← look a (base + i)) key

/-- The last of `n` places from a base where a key could go. -/
def rightPlace (key : α) (a : Array α) (base : Nat) : Nat → Nat → m Nat :=
  place fun i => do return !(← before key (← look a (base + i)))

/-- So many items in a row from one side make a merge gallop. -/
def eager : Nat := 7

/-- How many items in a row from the same side make a merge gallop, now and for the merges to come. -/
structure Pace where
  now : Nat
  later : Nat

/-- A part of a merge: so many items from the first or, if true, from the second run. -/
abbrev Move := Bool × Nat

/-- Merge by moves.  What no move takes comes last, the second run first. -/
def carryOut : List Move → List α → List α → List α
  | [], xs, ys => ys ++ xs
  | (false, n) :: ms, xs, ys => xs.take n ++ carryOut ms (xs.drop n) ys
  | (true, n) :: ms, xs, ys => ys.take n ++ carryOut ms xs (ys.drop n)

section Merge

variable (a b : Array α)

/-- How a merge reads its runs, from how many items of each are left. -/
structure Reading (m : Type → Type) where
  /-- Whether the next item of the second run comes first. -/
  isSecond : Nat → Nat → m Bool
  /-- How many items of the first or, if true, of the second run come before the next of the other. -/
  stretch : Bool → Nat → Nat → m Nat
  /-- The run in which stretches are looked for first. -/
  leading : Bool

def fromFront : Reading m where
  isSecond s l := do before (← look b (b.size - l)) (← look a (a.size - s))
  stretch
    | false, s, l => do rightPlace before (← look b (b.size - l)) a (a.size - s) s 0
    | true, s, l => do leftPlace before (← look a (a.size - s)) b (b.size - l) l 0
  leading := false

/-- From the back the first run comes second. -/
def fromBack : Reading m where
  isSecond s l := do before (← look b (s - 1)) (← look a (l - 1))
  stretch
    | false, s, l => return s - (← leftPlace before (← look a (l - 1)) b 0 s (s - 1))
    | true, s, l => return l - (← rightPlace before (← look b (s - 1)) a 0 l (l - 1))
  leading := true

/-- A merge under way: the moves, and how many items of the runs are left. -/
structure Partial where
  moves : Array Move
  first : Nat
  second : Nat

def Partial.take (w : Partial) (second : Bool) (n : Nat) : Partial :=
  if second then ⟨w.moves.push (true, n), w.first, w.second - n⟩
  else ⟨w.moves.push (false, n), w.first - n, w.second⟩

def Partial.isOver (w : Partial) : Bool := w.first ≤ 1 || w.second = 0

/-- Place a stretch of one run and the next item of the other. -/
def placeStretch (r : Reading m) (second : Bool) (w : Partial) : m (Partial × Nat) := do
  let n ← r.stretch second w.first w.second
  let w := w.take second n
  return (if n > 0 && w.isOver then w else w.take (!second) 1, n)

/-- The moves of a merge.  The last `k` items came from one of the runs in a row.  In the galloping
mode stretches are placed at once. -/
def merge (r : Reading m) : Nat → Bool → Bool → Nat → Partial → Pace → m (Array Move × Nat)
  | 0, _, _, _, _, _ => throw .exhausted
  | fuel + 1, galloping, last, k, w, p => do
    if !galloping then
      let second ← r.isSecond w.first w.second
      let w := w.take second 1
      let k := if second = last then k + 1 else 1
      if w.isOver then pure (w.moves, p.later)
      else if k ≥ p.now then merge r fuel true second 0 w { p with now := p.now + 1 }
      else merge r fuel false second k w p
    else
      let g := if p.now > 1 then p.now - 1 else p.now
      let (w, x) ← placeStretch r r.leading w
      if w.isOver then pure (w.moves, g)
      else
        let (w, y) ← placeStretch r (!r.leading) w
        if w.isOver then pure (w.moves, g)
        else if x ≥ eager || y ≥ eager then merge r fuel true last 0 w ⟨g, g⟩
        else merge r fuel false last 0 w ⟨g + 1, g + 1⟩

/-- The moves that merge two runs, from the end where the shorter one is. -/
def movesOf (pace : Nat) : m (Array Move × Nat) :=
  let go (r : Reading m) (first second : Nat) : m (Array Move × Nat) :=
    merge r (a.size + b.size + 1) false true 0 ⟨#[(true, 1)], first, second - 1⟩ ⟨pace, pace⟩
  if a.size ≤ 1 || b.size ≤ 1 then pure (#[], pace)
  else if a.size ≤ b.size then go (fromFront before a b) a.size b.size
  else go (fromBack before a b) b.size a.size

def merged (moves : List Move) (xs ys : List α) : List α :=
  if xs.length ≤ ys.length then carryOut moves xs ys
  else (carryOut moves ys.reverse xs.reverse).reverse

/-- Merge two neighbouring runs: what is in place at either end stays there, and the shorter rest is
merged into the longer. -/
def mergeRuns (pace : Nat) : m (Array α × Nat) := do
  match b[0]?, a[0]? with
  | some b0, some _ =>
    let k ← rightPlace before b0 a 0 a.size 0
    let front := a.extract 0 k
    let a' := a.extract k a.size
    match a'.back? with
    | none => return (front ++ b, pace)
    | some z =>
      let n ← leftPlace before z b 0 b.size (b.size - 1)
      let b' := b.extract 0 n
      let (moves, pace) ← movesOf before a' b' pace
      return (front ++ merged moves.toList a'.toList b'.toList ++ b.extract n b.size, pace)
  | _, _ => return (a ++ b, pace)

end Merge

/-- A run that waits to be merged: where it starts, its items, and the depth in the tree of merges of
the border to the next run. -/
structure Pending (α : Type) where
  start : Nat
  items : Array α
  depth : Nat := 0

/-- The depth of the border between two runs in the tree of merges of a list of a length. -/
def borderDepth (start n k length : Nat) : Nat :=
  go (2 * length + 64) (2 * start + n) (2 * start + n + n + k) 0
where
  /-- The first binary digit in which the middles of the runs, as parts of the list, differ. -/
  go : Nat → Nat → Nat → Nat → Nat
    | 0, _, _, d => d
    | fuel + 1, x, y, d =>
      if x ≥ length then go fuel (2 * (x - length)) (2 * (y - length)) (d + 1)
      else if y ≥ length then d + 1
      else go fuel (2 * x) (2 * y) (d + 1)

/-- Merge the last two runs while their border is deeper than asked; the last run stands first. -/
def settle (depth : Nat) : Nat → List (Pending α) → Nat → m (List (Pending α) × Nat)
  | fuel + 1, y :: x :: rest, pace =>
    if x.depth > depth then do
      let (items, pace) ← mergeRuns before x.items y.items pace
      settle depth fuel (⟨x.start, items, y.depth⟩ :: rest) pace
    else pure (y :: x :: rest, pace)
  | _, stack, pace => pure (stack, pace)

/-- Merge all runs that wait; the last run stands first. -/
def collapse : Nat → List (Pending α) → Nat → m (Array α)
  | fuel + 1, z :: y :: x :: rest, pace => do
    if x.items.size < z.items.size then
      let (items, pace) ← mergeRuns before x.items y.items pace
      collapse fuel (z :: ⟨x.start, items, y.depth⟩ :: rest) pace
    else
      let (items, pace) ← mergeRuns before y.items z.items pace
      collapse fuel (⟨y.start, items, z.depth⟩ :: x :: rest) pace
  | _, [y, x], pace => do return (← mergeRuns before x.items y.items pace).1
  | _, [x], _ => pure x.items
  | _, stack, _ => pure (stack.reverse.foldl (fun a x => a ++ x.items) #[])

def sort? (xs : List α) : m (List α) := do
  let a := xs.toArray
  let n := a.size
  let runs ← cutRuns before (leastRun n) n a
  let push (acc : List (Pending α) × Nat) (run : Array α) : m (List (Pending α) × Nat) := do
    match acc.1 with
    | [] => return ([⟨0, run, 0⟩], acc.2)
    | last :: _ =>
      let d := borderDepth last.start last.items.size run.size n
      let (stack, pace) ← settle before d acc.1.length acc.1 acc.2
      match stack with
      | [] => return ([⟨0, run, 0⟩], pace)
      | last :: rest =>
        return (⟨last.start + last.items.size, run, 0⟩ :: { last with depth := d } :: rest, pace)
  let (stack, pace) ← runs.foldlM push ([], eager)
  return (← collapse before stack.length stack pace).toList

end LazyTensor.Sorting
