import LazyTensor.Symbolic.Full

/-!
# Unrolled axes as lanes

An unrolled axis is a set of lanes: `UNROLL` marks a vector whose lanes run over some axes, and
`CONTRACT` turns axes back into lanes of its own value.  Operations over unrolled operands become
operations on vectors whose lanes run over all the axes of the operands.

A set of axes is a list of pairs, the number of the axis and its size; the last axis runs fastest.
-/

namespace LazyTensor

/-- Axes that the lanes of a vector run over: number and size of each. -/
abbrev Axes := List (Int × Nat)

namespace Axes

abbrev Position := List (Int × Nat)

def size (a : Axes) : Nat := a.foldl (fun n x => n * x.2) 1

/-- The positions on the axes; the last axis runs fastest. -/
def choices : Axes → List Position
  | [] => [[]]
  | (axis, m) :: rest => (List.range m).flatMap fun i => (choices rest).map ((axis, i) :: ·)

/-- The place of a position on an axis; of two places on the same axis the last counts. -/
def place? (p : Position) (axis : Int) : Option Nat :=
  (p.reverse.find? fun x => x.1 = axis).map Prod.snd

def lane (a : Axes) (p : Position) : Result Nat := do
  let step (x : Int × Nat) (acc : Nat × Nat) : Result (Nat × Nat) :=
    match place? p x.1 with
    | some i => .ok (acc.1 + i * acc.2, acc.2 * x.2)
    | none => .error .missingKey
  return (← a.foldrM step (0, 1)).1

/-- For every position on some axes the lane on others, with some axes held at zero. -/
def swizzle (target source : Axes) (exclude : List Int) : Result (List Nat) :=
  target.choices.mapM fun p => source.lane (p ++ exclude.map fun x => (x, 0))

def without (a own : Axes) : Axes := List.filter (fun x => !own.contains x) a

/-- The lanes that a contraction takes: for every position on the axes it leaves, those of all
positions on its own. -/
def contracted (a own : Axes) : Result (List Nat) :=
  (a.without own).choices.flatMapM fun p => own.choices.mapM fun q => a.lane (p ++ q)

def ofArg? (a : Arg) : Option Axes := do
  (← a.items?).mapM fun p => do
    match ← p.items? with
    | [x, y] => return (← x.int?, (← y.int?).toNat)
    | _ => none

def arg (a : Axes) : Arg := .tuple (a.map fun (x, n) => .tuple [.int x, .int n])

end Axes

namespace Unroll

open Pat

def axesOf (e : Expr) : GraphM Axes :=
  (Axes.ofArg? e.arg).getDM (throw .wrongType)

/-- The axes that a matrix instruction sums over or spreads over its own lanes. -/
def matrixAxes (e : Expr) : GraphM (List Int) := do
  let items := e.arg.items.reverse
  let reduced :: spread :: _ := items | throw .outOfRange
  let some rs := reduced.ints? | throw .wrongType
  let some groups := spread.items?.bind fun gs => gs.mapM Axes.ofArg? | throw .wrongType
  return (rs ++ groups.flatten.map Prod.fst).eraseDups

def sortAxes (a : Axes) : Axes :=
  a.eraseDups.mergeSort fun x y => x.1 < y.1 || (x.1 = y.1 && x.2 ≤ y.2)

def commonAxes (all : List Axes) (exclude : List Int) : Axes :=
  match all with
  | [] => []
  | a :: rest =>
    if rest.all (· == a) && exclude.isEmpty then a
    else (sortAxes all.flatten).filter fun x => !exclude.contains x.1

/-- Lane by lane, with the lanes of each element kept together. -/
def spreadLanes (count : Nat) (lanes : List Nat) : List Int :=
  if count > 1 then lanes.flatMap fun i => (List.range count).map fun j => ((i * count + j : Nat) : Int)
  else lanes.map fun (n : Nat) => (n : Int)

/-- An operand of a node whose axes are unrolled. -/
def operand (root : Expr) (axes : Axes) (exclude : List Int) (i : Nat) (s : Expr) : ExprM := do
  let n := axes.size
  if s.is .unroll then
    if root.is .branch && i = 0 then
      let a ← s.nth 0
      let lanes ← (List.range n).mapM a.lane
      let x :: xs := lanes | throw .wrongType
      xs.foldlM (fun r y => r.lor y) x
    else
      let own ← axesOf s
      if own == axes then s.nth 0
      else
        let lanes ← axes.swizzle own exclude
        (← s.nth 0).gep (spreadLanes s.dtype.count lanes)
  else if root.is .branch then pure s
  else if root.is .reduce && s.is .range then pure s
  else if s.dtype.count > 1 then
    node .cat (← s.dtype.scalar.vec? (n * s.dtype.count)) (List.replicate n s)
  else s.broadcast n

def steps (start stop step : Nat) : List Int :=
  if step = 0 then [] else
    (List.range ((stop - start + step - 1) / step)).map fun i => ((start + i * step : Nat) : Int)

/-- An operation over unrolled operands is an operation on vectors over all their axes. -/
def expand (root : Expr) : RuleM := do
  let unrolled := root.src.filter fun x => x.is .unroll
  if unrolled.isEmpty then return none
  let exclude ← if root.is .wmma then matrixAxes root else pure []
  let axes := commonAxes (← unrolled.mapM axesOf) exclude
  let n := axes.size
  let src ← root.src.zipIdx.mapM fun (s, i) => operand root axes exclude i s
  let arg ← if root.is .gep then do
      if root.dtype.count ≠ 1 then throw (.broken "")
      match root.arg.ints?, src with
      | some (i :: _), a :: _ =>
        if n = 0 || a.dtype.count / n = 0 then throw .invalidValue
        pure (Arg.ofInts (steps i.toNat a.dtype.count (a.dtype.count / n)))
      | some [], _ => throw .outOfRange
      | _, _ => throw .wrongType
    else pure root.arg
  let wide ← node root.op (← root.dtype.scalar.vec? (root.dtype.count * n)) src arg
  giving (node .unroll root.dtype [wide] axes.arg)

/-- A contraction takes axes of an unrolled operand as lanes of its own. -/
def contract (con : Expr) : RuleM := do
  let ex ← con.nth 0
  if !(ex.is .unroll) then
    return some (← node .vectorize con.dtype (List.replicate con.dtype.count con.src).flatten)
  let own ← axesOf con
  if con.dtype.count ≠ own.size then throw (.broken "dtype is wrong")
  let all ← axesOf ex
  let lanes ← all.contracted own
  let taken ← (← ex.nth 0).gep (lanes.map fun (n : Nat) => (n : Int))
  giving (node .unroll con.dtype [taken] (all.without own).arg)

/-- How many sums of lanes are joined into one sum of vectors. -/
def joined : Nat := 8

def rules : RuleSet Expr := .ofList [
  on2 (seq [.unroll] [of [.unroll] "inner"] "outer") "outer" "inner" fun outer inner => giving do
    node .unroll outer.dtype [← inner.nth 0] (.tuple (inner.arg.items ++ outer.arg.items)),
  on ((of (Op.alus ++ [.cast, .bitcast, .gep, .wmma, .load, .store, .index, .assign, .vectorize,
    .branch, .reduce])).hinted [.unroll]) expand,
  on (of [.contract]) contract,
  -- an accumulator per lane
  on2 (all [.vectorize] (of [.defineReg] "acc") "v") "acc" "v" fun acc v => giving do
    node acc.op v.dtype ((← (← acc.nth 0).broadcast v.dtype.count) :: acc.src.drop 1) acc.arg acc.tag,
  -- a barrier is for all lanes at once
  on1 (seq [.barrier] [of [.unroll] "ex"]) "ex" fun ex => giving do
    let b ← node .barrier .void ex.src
    node .unroll .void (List.replicate ex.src.length b) ex.arg,
  on1 (seq [.unroll] [var "x"] none none (.tuple [])) "x" fun x => return some x,
  on3 (seq [.unroll] ((List.range joined).map fun (i : Nat) =>
      (seq [.gep] [var "x"] none none (.ofInts [(i : Int)])).add
        (seq [.gep] [var "y"] none none (.ofInts [(i : Int)]))) "ex") "ex" "x" "y"
    fun ex x y => giving do
      let s ← x.add y
      node .unroll ex.dtype (← (List.range joined).mapM s.lane) ex.arg]

end Unroll

namespace Gate

mutual

/-- A node whose loads that wait for a barrier wait for a condition too; what is done already is
remembered by number. -/
def through (gate : Expr) : Expr → StateT (Std.HashMap Nat Expr) GraphM Expr
  | .mk n op d src arg tag => do
    let u := Expr.mk n op d src arg tag
    if let some r := (← get)[n]? then return r
    if op = .barrier then return u
    let last := src.getLast?
    let r ← if op = .load && (last.elim false fun x => x.is .barrier) then
        let b := last.getD u
        (do node op d (src.dropLast ++ [← node .branch .void [gate, b]]) arg)
      else
        let src' ← throughAll gate src
        if src' == src then pure u else (node op d src' arg)
    modify (·.insert n r)
    return r

def throughAll (gate : Expr) : List Expr → StateT (Std.HashMap Nat Expr) GraphM (List Expr)
  | [] => return []
  | e :: rest => do
    let r ← through gate e
    return r :: (← throughAll gate rest)

end

/-- A store behind a condition: what it loads behind a barrier waits for the condition. -/
def store (root : Expr) : RuleM := do
  let idx ← root.nth 0
  let idx ← if idx.is .cast then idx.nth 0 else pure idx
  if !(idx.is .index) || idx.src.length = 2 then return none
  let (r, _) ← (through (← idx.nth 2) root).run {}
  return if r == root then none else some r

def rules : RuleSet Expr := .ofList [on (Pat.of [.store]) store]

end Gate

end LazyTensor
