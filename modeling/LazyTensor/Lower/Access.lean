import LazyTensor.Symbolic.Full
import LazyTensor.Symbolic.Validity

/-!
# Access to memory

Loads and stores of vectors of addresses are grouped into loads and stores of consecutive elements,
conditions that the address implies are dropped, and accesses that a target cannot do at once are
split.
-/

namespace LazyTensor.Access

open Pat

def clauses (e : Expr) : List Expr := e.split .and

def imageExtent (d : DType) : Option (Int × Int) :=
  match d with
  | .image _ shape _ =>
    match shape with
    | h :: w :: _ => some (w, h)
    | _ => none
  | _ => none

/-- Whether a condition on an image address can be dropped: where it fails the address is outside
the image, and reading outside an image gives zero. -/
private def droppable (cols rows : Int) (idx : Expr) (b : Validity.Bound) : GraphM Bool := do
  let terms := b.expr.split .add
  if !b.isUpper && Const.eq b.limit (.int 1) then
    let free ← terms.allM fun u => do
      if !u.op.isIrreducible then return false
      return Const.eq (← u.vmin) (.int 0)
    if free then
      let test ← terms.foldlM (fun now u => do now.substitute [(u, ← u.constLike (.int 0))]) idx
      let test ← test.simplify
      if Const.lt (← (← test.lane 0).vmax) (.int 0) then return true
      if Const.lt (← (← test.lane 1).vmax) (.int 0) then return true
  let value ← b.limit.add (.int (if b.isUpper then 1 else -1))
  for (i, limit) in idx.src.zip [cols, rows] do
    if ← i.isIncreasing then
      let rw' ← (← i.substitute [(b.expr, ← b.expr.constLike value)]).simplify
      let (lo, hi) ← rw'.bounds
      if Const.le (.int limit) lo || Const.lt hi (.int 0) then return true
  return false

/-- The clauses of a condition that can be dropped, or nothing if a clause is not a bound. -/
private def dropped? (cols rows : Int) (idx : Expr) : List Expr → GraphM (Option (List Expr))
  | [] => return some []
  | c :: rest => do
    let some b ← Validity.parse? c | return none
    let d ← droppable cols rows idx b
    let some ds ← dropped? cols rows idx rest | return none
    return some (if d then c :: ds else ds)

/-- An access whose index is simplified under its condition. -/
def underCondition (buf start valid : Expr) : RuleM := do
  match ← Validity.given? valid start with
  | none => giving (buf.constLike (.int 0))
  | some idx =>
    match imageExtent buf.dtype with
    | none => if idx == start then return none else giving (buf.index idx valid)
    | some (cols, rows) =>
      if start.dtype.count ≠ 2 then return none
      let some drop ← dropped? cols rows idx (clauses valid) | return none
      if drop.isEmpty && idx == start then return none
      let kept := (clauses valid).filter fun s => !drop.contains s
      match kept with
      | [] => giving (buf.index idx)
      | k :: ks => giving do buf.index idx (← ks.foldlM (fun a b => a.land b) k)

/-- A store whose value already waits for its condition needs no condition on the address. -/
def ungated (b : Bindings) : RuleM := do
  let buf := b.get "buf"
  let val := b.get "val"
  let gates ← (val.toposort.toList.filter fun g => g.is .branch).mapM fun g => g.nth 0
  if !(gates.contains (b.get "store_gate")) then return none
  let at' ← buf.index (b.get "idx")
  let at' ← match b.find? "cast" with
    | some c => at'.cast c.dtype
    | none => pure at'
  giving (at'.store [val])

private def gatedIndex : Pat := (var "buf").index (var "idx") (some (var "store_gate"))

def indexing : RuleSet Expr := .ofList [
  on (of [.and]) Validity.simplify?,
  on3 (seq [.index] [var "buf", var "start_idx", var "valid"]) "buf" "start_idx" "valid"
    underCondition,
  on2 (seq [.index] [var "buf", var "start_idx", of [.const] none none (.bool true)]) "buf"
    "start_idx" fun buf i => giving (buf.index i),
  ⟨seq [.store] [.any [gatedIndex, gatedIndex.cast.named "cast"], var "val"], fun _ b => ungated b⟩]

/-- What the addresses of a vector are told apart by: their condition and their address up to a
constant, of which there may be none. -/
structure Root where
  valid : Option Nat
  base : Option Nat
  deriving DecidableEq

/-- The lanes of one root: the constant offsets and the lanes at each, in order of appearance. -/
structure Group where
  root : Root
  offsets : List (Int × List Nat)

def addLane (offset : Int) (lane : Nat) : List (Int × List Nat) → List (Int × List Nat)
  | [] => [(offset, [lane])]
  | (o, ls) :: rest => if o = offset then (o, ls ++ [lane]) :: rest else (o, ls) :: addLane offset lane rest

def addTo (root : Root) (offset : Int) (lane : Nat) : List Group → List Group
  | [] => [⟨root, [(offset, [lane])]⟩]
  | g :: rest =>
    if g.root = root then { g with offsets := addLane offset lane g.offsets } :: rest
    else g :: addTo root offset lane rest

def runs : List Int → List (List Int)
  | [] => []
  | x :: xs =>
    match runs xs with
    | (y :: ys) :: rest => if y = x + 1 then (x :: y :: ys) :: rest else [x] :: (y :: ys) :: rest
    | rest => [x] :: rest

private def splitOffset (access : Expr) : GraphM (Root × Int) := do
  let idx ← access.nth 1
  let valid := if access.src.length = 3 then some access.src2.number else none
  if idx.is .add && idx.srcIs 1 .const then
    let some n := idx.src1.arg.int? | throw .wrongType
    return (⟨valid, some idx.src0.number⟩, n)
  else if idx.is .add && idx.srcIs 0 .const then
    let some n := idx.src0.arg.int? | throw .wrongType
    return (⟨valid, some idx.src1.number⟩, n)
  else if idx.is .const then
    let some n := idx.arg.int? | throw .wrongType
    return (⟨valid, none⟩, n)
  else return (⟨valid, some idx.number⟩, 0)

def vectorPtr (d : DType) (n : Nat) : GraphM DType := do
  (← d.base.vec? n).ptr? d.ptrSize d.isShared

def addressRules : RuleSet Expr := Algebra.flat ++ indexing

/-- A vector of addresses as pointers to runs of consecutive elements, and the lane of each. -/
def expandIndex (buf vec : Expr) (mask : Option Expr) : RuleM := do
  let n := vec.dtype.count
  let each ← (List.range n).mapM fun i => do
    let at' ← vec.lane i
    let gate ← mask.mapM fun m => m.lane i
    buf.index at' gate
  let all ← addressRules.apply (← Expr.sink each)
  let mut groups : List Group := []
  for i in List.range n do
    let (root, offset) ← splitOffset (← all.nth i)
    groups := addTo root offset i groups
  let mut pointers : Array Expr := #[]
  let mut lanes : Array Int := Array.replicate n 0
  let mut next := 0
  for g in groups do
    for run in runs ((g.offsets.map Prod.fst).mergeSort (· ≤ ·)) do
      let lanesAt (o : Int) : List Nat := ((g.offsets.find? fun x => x.1 = o).map Prod.snd).getD []
      let first ← all.nth ((run.head?.bind fun o => (lanesAt o).head?).getD 0)
      let first ← if run.length > 1 then first.cast (← vectorPtr buf.dtype run.length) else pure first
      for (o, i) in run.zipIdx do
        for l in lanesAt o do
          lanes := lanes.set! l ((next + i : Nat) : Int)
      pointers := pointers.push first
      next := next + run.length
  let plain ← buf.dtype.base.ptr? buf.dtype.ptrSize buf.dtype.isShared
  let cat ← node .ptrcat (← plain.vec? n) pointers.toList
  giving (cat.gep lanes.toList)

def span (start n : Nat) : List Int := (List.range n).map fun i => ((start + i : Nat) : Int)

def storeEach (cat data : Expr) : RuleM := do
  let mut offset := 0
  let mut out : Array Expr := #[]
  for s in cat.src do
    out := out.push (← s.store [← data.gep (span offset s.dtype.count)])
    offset := offset + s.dtype.count
  if out.isEmpty then throw .outOfRange
  giving (Expr.sink out.toList)

/-- A store to selected lanes is a store of the values selected the other way; of two values for a
lane the last counts. -/
def storeSelected (gep st : Expr) : RuleM := do
  let lanes ← Lanes.lanesOf gep
  let add (acc : List (Int × Nat)) (x : Int × Nat) : List (Int × Nat) :=
    if acc.any fun y => y.1 = x.1 then acc.map fun y => if y.1 = x.1 then x else y else acc ++ [x]
  let table := lanes.zipIdx.foldl add []
  let order := (table.mergeSort fun a b => a.1 ≤ b.1).map fun x => (x.2 : Int)
  giving do node .store .void [← gep.nth 0, ← st.gep order]

private def buffers : Pat := all [.vectorize] (of [.defineGlobal, .defineLocal] "buf")

/-- Loads and stores at vectors of addresses, group by group. -/
def grouping : RuleSet Expr := .ofList [
  on2 (seq [.index] [buffers, var "vec"]) "buf" "vec" fun buf vec => expandIndex buf vec none,
  on3 (seq [.index] [buffers, var "vec", var "mask"]) "buf" "vec" "mask" fun buf vec m =>
    expandIndex buf vec (some m),
  on2 (seq [.load] [of [.gep] "gep"] "ld" none .none true) "gep" "ld" fun gep ld => giving do
    let whole ← node ld.op (← ld.dtype.scalar.vec? gep.dtype.count) ((← gep.nth 0) :: ld.src.drop 1)
      ld.arg ld.tag
    whole.gep (← Lanes.lanesOf gep),
  on2 (seq [.store] [of [.gep] "gep", var "st"]) "gep" "st" storeSelected,
  on2 (seq [.load] [of [.ptrcat] "cat"] "ld" none .none true) "cat" "ld" fun cat ld => giving do
    node .cat ld.dtype (← cat.src.mapM fun x =>
      node ld.op x.dtype.base (x :: ld.src.drop 1) ld.arg ld.tag),
  on2 (seq [.store] [of [.ptrcat] "cat", var "data"]) "cat" "data" storeEach]

def target? : GraphM (Option Target) := do
  let .target t := (← get).context | return none
  return some t

/-- The widths of access a target has for a buffer, widest first; one element always is. -/
def widths (t : Option Target) (d : DType) : List Nat :=
  let wide : List Nat :=
    if d.isImage then [4]
    else if d.base ≠ .float && d.base ≠ .half then []
    else if t.isSome then [4, 2]
    else []
  wide ++ [1]

/-- The widths of the pieces that an access of some width is cut into, greedily. -/
def pieces (widths : List Nat) : Nat → Nat → List Nat
  | 0, _ => []
  | _, 0 => []
  | fuel + 1, rest =>
    match widths.find? fun w => w ≤ rest && 0 < w with
    | some w => w :: pieces widths fuel (rest - w)
    | none => []

/-- An access is cut into pieces that the target has and that the address is a multiple of. -/
def split (ls idx : Expr) : RuleM := do
  let size := (← ls.nth 0).dtype.count
  if size = 1 then return none
  let buf ← idx.nth 0
  let address ← idx.nth 1
  let fitting ← (widths (← target?) buf.dtype).filterM fun (w : Nat) => do
    return (← address.divides w).isSome
  let mut offset := 0
  let mut out : Array Expr := #[]
  for w in pieces fitting size size do
    let gate ← if idx.src.length > 2 then some <$> idx.nth 2 else pure none
    let at' ← buf.index (← address.add offset) gate
    let at' ← if w > 1 then at'.cast (← vectorPtr buf.dtype w) else pure at'
    let piece ← if ls.is .store then
        ls.withSrc (at' :: (← (← ls.nth 1).gep (span offset w)) :: ls.src.drop 2)
      else node ls.op (← ls.dtype.scalar.vec? w) (at' :: ls.src.drop 1) ls.arg ls.tag
    out := out.push piece
    offset := offset + w
  givingIf (out.size > 1) (node .cat ls.dtype out.toList)

def imageAddress (cols : Int) (i : Expr) : ExprM := do
  let col ← (← i.idiv 4).mod cols
  node .vectorize (.vec .int32 2) [col, ← i.idiv (4 * cols)]

/-- An access to an image is addressed by column and row, four elements at a time. -/
def image (ls : Expr) : RuleM := do
  let a ← ls.nth 0
  let inner ← if a.is .cast then some <$> a.nth 0 else pure none
  match inner.bind fun i => (imageExtent i.dtype).map fun x => (i, x.1) with
  | some (idx, cols) =>
    if a.dtype.count ≠ 4 then throw (.broken "image must be casted to 4")
    let o ← imageAddress cols (← idx.nth 1)
    let idx ← idx.withSrc ((← idx.nth 0) :: o :: idx.src.drop 2)
    giving (ls.withSrc (idx :: ls.src.drop 1))
  | none =>
    let some (cols, _) := imageExtent a.dtype | return none
    let i ← a.nth 1
    if i.dtype = .vec .int32 2 then return none
    if !(ls.is .load) then
      throw (.broken "if an image store isn't upcasted to 4, we can't store it")
    let part ← i.mod 4
    let o ← imageAddress cols i
    let idx ← a.withSrc ((← a.nth 0) :: o :: a.src.drop 2)
    let whole ← node ls.op (← ls.dtype.vec? 4) (idx :: ls.src.drop 1) ls.arg ls.tag
    let start ← ls.constLike (.float (0.0 / 0.0))
    giving ((List.range 4).foldlM (fun r i => do
      (← part.ne i).choose r (← whole.lane i)) start)

def splitting : RuleSet Expr := .ofList [
  on2 (seq [.load, .store] [(of [.index] "idx").cast] "ls" none .none true) "ls" "idx" split,
  on (of [.load, .store]) image]

end LazyTensor.Access
