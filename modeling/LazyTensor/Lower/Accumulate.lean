import LazyTensor.Lower.Scalars

/-!
# Reductions as accumulators

A reduction over loops becomes an accumulator that each turn of the loops adds to.  Before that,
loops that the reduced value does not depend on are taken out, and reductions with a closed form are
replaced by it.
-/

namespace LazyTensor.Accumulate

open Pat

def noRange (e : Expr) : Bool := !(e.toposort.any fun x => x.is .range)

variable (red : Expr)

def opOf : GraphM Op :=
  match red.arg with
  | .op o => pure o
  | _ => throw .wrongType

def parts (e : Expr) (out : DType) : GraphM (List Expr) := do
  if e.dtype = out then return [e]
  let n := e.dtype.count
  if out.count = 0 then throw .divisionByZero
  let amount := n / out.count
  (List.range amount).mapM fun i =>
    e.gep ((List.range ((n - i + amount - 1) / amount)).map fun j => ((i + j * amount : Nat) : Int))

def combine (op : Op) : List Expr → ExprM
  | [] => throw .wrongType
  | x :: xs => xs.foldlM (fun a b => a.alu op [b]) x

/-- A reduction as an accumulator that a loop adds to. -/
def toAccumulator : RuleM := do
  let inp ← red.nth 0
  let ranges := red.src.drop 1
  let each ← parts inp red.dtype
  if !(each.all fun x => x.dtype = red.dtype) then
    throw (.broken s!"horizontal reduction mismatch {(each.headD inp).dtype.text} != {red.dtype.text}")
  if ranges.isEmpty then
    return some (← combine (← opOf red) each)
  let start ← match red.arg with
    | .op o => identityElement? o red.dtype.scalar
    | _ => throw .missingKey
  let init ← red.constLike start
  let .reduce k := (← get).context | throw .missingMember
  let acc ← node .defineReg red.dtype (init :: ranges) (.tuple [.int k])
  modify fun s => { s with context := .reduce (k + 1) }
  giving do acc.assign (← combine (← opOf red) (acc :: each))

def perLane (inp red : Expr) : RuleM := do
  let changed := !(inp.dtype = red.dtype)
  let red ← if changed then do
      red.withSrc ((← combine (← opOf red) (← parts inp red.dtype)) :: red.src.drop 1)
    else pure red
  if red.dtype.lanes = 1 then return if changed then some red else none
  let a ← red.nth 0
  let each ← (List.range red.dtype.lanes).mapM fun i => do
    node red.op red.dtype.scalar ((← a.lane i) :: red.src.drop 1) red.arg
  giving (node .vectorize red.dtype each)

/-- A value summed over loops it does not depend on is a multiple of it. -/
def repeated (e : Expr) (ranges : List Expr) : ExprM :=
  ranges.foldlM (fun r x => do
    let n ← (← (← x.nth 0).cast r.dtype.scalar).broadcast r.dtype.count
    r.mul n) e

def isSumOrMax : Bool := red.arg == .op .add || red.arg == .op .max

def rangeless : RuleM := do
  if !(isSumOrMax red) then return none
  let a ← red.nth 0
  if a.dtype ≠ red.dtype || !(noRange a) then return none
  if red.arg == .op .add then giving (repeated a (red.src.drop 1)) else return some a

private def plainLoad : Pat := (seq [.index] [var "buf", var "idx"]).load

private def summed (p : Pat) (name : Option String := none) : Pat := p.reduce name (.op .add)

/-- A sum over a loop that counts, without the loop. -/
def collapsing : RuleSet Expr := RuleSet.ofList [
  on3 (((var "x").add (var "y")).lt (var "c")) "x" "y" "c" fun x y c =>
    givingIf (noRange y && noRange c) (do x.lt (← c.sub y)),
  on3 (((var "x").mul (var "y")).lt (var "c")) "x" "y" "c" fun x y c => do
    if !(noRange y && noRange c) then return none
    givingIf (Const.lt (.int 0) (← y.vmin)) (do x.lt (← (← (← c.add y).sub 1).idiv y)),
  on3 (((var "x").add (var "y")).ne (var "c")) "x" "y" "c" fun x y c =>
    givingIf (noRange y && noRange c) (do x.ne (← c.sub y)),
  -- a loop compared with a bound
  on3 (summed (((of [.range] "r").lt (var "cut")).alu .select
      [(cvar "val").constLike (.int 0), cvar "val"])) "r" "cut" "val" fun r cut v => giving do
    let n ← r.nth 0
    (← (← (← (← n.sub cut).maximum 0).minimum n).cast v.dtype).mul v,
  on3 (summed (((of [.range] "r").lt (var "cut")).choose (cvar "val") 0)) "r" "cut" "val"
    fun r cut v => giving do
      (← (← (← cut.maximum 0).minimum (← r.nth 0)).cast v.dtype).mul v,
  -- a sum of sums
  on3 (summed ((var "x").add (var "y")) "r") "x" "y" "r" fun x y r => giving do
    let a ← x.reduce .add (r.src.drop 1)
    a.add (← y.reduce .add (r.src.drop 1)),
  -- a product with a converted condition
  ⟨(var "x").mul (orBroadcast ((var "gate" (some [.bool])).cast) "b"), fun _ b => giving do
    let x := b.get "x"
    let gate := b.get "gate"
    let gate ← if (b.find? "b").isSome then gate.broadcast x.dtype.count else pure gate
    gate.choose x 0⟩,
  -- a choice of a load
  on3 (summed ((var "gate").choose plainLoad 0)) "buf" "idx" "gate" fun buf i g => giving do
    (← buf.index i g).load,
  on3 (summed ((var "gate").alu .select [plainLoad.constLike (.int 0), plainLoad])) "buf" "idx" "gate"
    fun buf i g => giving do
      (← buf.index i (← g.lnot)).load,
  -- an address under the condition that a loop has a given value
  on4 ((var "buf").index (var "expr") ((var "idx").ne ((of [.range] "r").orCasted)).lnot)
    "buf" "r" "idx" "expr" fun buf r i e => giving do
      let v ← i.cast r.dtype
      let at' ← e.substitute [(r, v)]
      buf.index at' (← (← v.ge 0).land (← v.lt (← r.nth 0))),
  on4 (summed (((Pat.any [of [.defineVar] "x", seq [.gep] [of [.defineVar]] "x"]).land
      (var "y")).choose (cvar "c") 0) "r") "x" "y" "c" "r" fun x y c r => giving do
    let s ← (← y.choose c 0).reduce .add (r.src.drop 1)
    s.mul (← x.cast c.dtype),
  on (of [.reduce]) rangeless,
  on2 ((of [.vectorize] "inp").reduce "red") "inp" "red" perLane,
  on (of [.index, .load, .select]) Scalars.perLane] ++ Full.rules
where
  /-- A pattern or a vector all of whose lanes are it. -/
  orBroadcast (p : Pat) (name : String) : Pat := .any [p, all [.vectorize] p name p.dtypes?]

/-- The numbers of the nodes of a graph that one of some nodes is below. -/
def dependents (e : Expr) (on : List Expr) : Std.HashSet Nat :=
  e.toposort.foldl (fun s x =>
    if on.contains x || x.src.any fun y => s.contains y.number then s.insert x.number else s) {}

/-- The values that a reduction uses and that do not depend on its loops, each with a variable in
its place. -/
private def frees (inside : List Expr) (dep : Std.HashSet Nat) : GraphM (List (Expr × Expr)) := do
  let mut out : Array (Expr × Expr) := #[]
  for u in inside do
    for s in u.src do
      let fixed := match s.op with
        | .const | .vconst | .defineGlobal | .defineLocal | .defineVar => true
        | _ => false
      if !(dep.contains s.number) && !fixed && !(out.any fun x => x.1 == s) then
        let (lo, hi) ← s.bounds
        let v ← node .defineVar s.dtype [] (.tuple [.text s!"in{out.size}", .const lo, .const hi])
        out := out.push (s, v)
  return out.toList

/-- The closed form of a reduction over loops, if the rules find one. -/
def collapse? : RuleM := do
  let dep := dependents red (red.src.drop 1)
  let inside := red.parents.filter fun x => dep.contains x.number
  if inside.any fun x => x.is .store || x.is .reduce then return none
  let subs ← frees inside dep
  let body ← red.substitute subs
  let r ← collapsing.apply body
  if r.toposort.any fun x => x.is .reduce || x.is .range then return none
  giving (r.substitute (subs.map fun (k, v) => (v, k)))

def unused : RuleM := do
  if !(isSumOrMax red) then return none
  let a ← red.nth 0
  let below := a.sorted.seen
  let ranges := red.src.drop 1
  let used := ranges.filter fun x => below.contains x.number
  let free := ranges.filter fun x => !(below.contains x.number)
  if free.isEmpty then return none
  let r ← if !used.isEmpty || red.dtype ≠ a.dtype then red.withSrc (a :: used) else pure a
  if red.arg == .op .add then giving (repeated r free) else return some r

def rules : RuleSet Expr := RuleSet.ofList [
  on (of [.reduce]) unused,
  on (seq [.reduce] [wild, wild]) collapse?,
  on (of [.reduce]) toAccumulator,
  on2 ((of [.wmma] "wmma").add (var "add")) "add" "wmma" fun add w => giving do
    node w.op w.dtype [← w.nth 0, ← w.nth 1, ← (← w.nth 2).add add] w.arg] ++ Full.rules

end LazyTensor.Accumulate
