import LazyTensor.Layout.Shard

/-!
# Which nodes are legal

Every stage between tensors and programs admits certain nodes only.  The admission rules of a stage
are a rule set that answers `true` or `false` for a node, or nothing for a node no rule is about.
-/

namespace LazyTensor.Check

open Pat

def verdict (b : Bool) : GraphM (Option Bool) := return some b

def allow (p : Pat) : Rule Bool := on p fun _ => verdict true

def isInt : Arg → Bool
  | .const c => c.isIntLike
  | _ => false

def isTuple : Arg → Bool
  | .tuple _ => true
  | _ => false

def isText : Arg → Bool
  | .text _ => true
  | _ => false

def onSeveral (e : Expr) : GraphM Bool := do
  let .tuple _ ← e.device | return false
  return true

/-- What is right for buffers and devices. -/
def buffers : RuleSet Bool := .ofList [
  allow (seq [.unique] [] none (some [.void])),
  on (seq [.device] [] none (some [.void])) fun d => verdict <| match d.arg with
    | .text _ => true
    | .tuple xs => xs.all isText
    | _ => false,
  on (seq [.buffer] [of [.unique], of [.device]] none none .none true) fun b =>
    verdict (isInt b.arg),
  on (seq [.bufferView] [of [.buffer]]) fun b => verdict <| match b.arg with
    | .tuple [x, y] => [x, y].all fun a => match a with
      | .expr _ => true
      | a => isInt a
    | _ => false,
  allow (seq [.bufferView] [all [.mstack] (of [.buffer])]),
  allow (of [.view])]

/-- What is right for kernels and what they write. -/
def assigns : RuleSet Bool := .ofList [
  allow (all [.kernel] (of [.buffer, .bufferView, .assign, .mselect, .mstack])),
  on (of [.assign]) fun x =>
    verdict (x.src.length ≥ 2 && (x.src.drop 2).all (·.is .assign)),
  on (of [.mselect]) fun x => do
    let a ← x.nth 0
    match ← a.device with
    | .tuple ds =>
      let some i := x.arg.int? | throw .wrongType
      verdict (i < ds.length)
    | _ => verdict false,
  on (of [.mstack]) fun x => do
    for s in x.src do
      if ← onSeveral s then return some false
    return some true]

/-- What is right in a graph of tensors. -/
def tensors : RuleSet Bool := buffers ++ assigns ++ .ofList [
  ⟨seq Op.movements [var "x"], fun mv b => do
    let x := b.get "x"
    verdict ((isTuple mv.arg && mv.dtype = x.dtype)
      || ((mv.dtype.isImage || x.dtype.isImage) && x.dtype.base = mv.dtype.base
        && x.base.is .buffer))⟩,
  on1 (seq [.view] [var "x"]) "x" fun x =>
    verdict ([Op.buffer, .bufferView, .assign, .const, .device].contains x.base.op),
  allow (seq [.bind] [of [.defineVar], of [.const, .vconst] none (some [.int])] none
    (some [.int])),
  on1 (seq [.const] [seq [.view] [of [.device]] (some "st")]) "st" fun st => do
    match ← st.layout? with
    | some l => verdict (l.length = 1 && l.all fun v => v.mask.isNone)
    | none => throw .missingMember,
  ⟨seq [.detach, .contiguous, .contiguousBackward, .fuse] [var "x"], fun r b =>
    verdict (r.dtype = (b.get "x").dtype)⟩,
  ⟨seq [.copy] [var "x", of [.device]], fun r b => verdict (r.dtype = (b.get "x").dtype)⟩,
  ⟨seq [.allreduce] [var "x", of [.device]], fun r b =>
    verdict (r.dtype = (b.get "x").dtype && r.arg.op?.isSome)⟩,
  on (of [.multi]) fun m =>
    verdict (m.src.all (fun x => x.dtype = m.dtype) && isInt m.arg)]

/-- Whether an address stays inside its buffer.  Asked only when bounds are checked; what the bounds
of the index cannot tell needs a solver. -/
def inside (idx gate : Expr) : GraphM (Option Bool) := do
  if ← GraphM.settingOn .ignoreOob then return some true
  if idx.dtype.isImage then return some true
  let buf ← idx.nth 0
  if !buf.dtype.isPtr then throw .missingMember
  if buf.dtype.ptrSize = -1 then return some true
  let (lo, hi) ← (← idx.nth 1).bounds
  if Const.le (.int 0) lo && Const.lt hi (.int buf.dtype.ptrSize) then return some true
  if idx.src.length = 3 then
    let _ ← (← idx.nth 2).land gate
  if idx.toposort.any (·.is .bitcast) then return some true
  throw (.because .missingImport
    "z3 is required for bounds checking, try IGNORE_OOB=0 or \"pip install z3-solver\"")

/-- Whether a stored-to address stays inside its buffer, under the gates of the stored value. -/
def insideStore (idx val : Expr) (gate : Option Expr) : GraphM (Option Bool) := do
  let mut gate ← match gate with
    | some g => if g.is .branch then g.nth 0 else pure g
    | none => Expr.const .bool (.bool true)
  for u in val.toposort do
    if u.is .branch then gate ← gate.land (← u.nth 0)
  inside idx gate

def always : ExprM := Expr.const .bool (.bool true)

def address : Pat := (of [.index] (some "idx")).orCasted

def viewed : Pat := seq [.view] [of [.defineGlobal, .defineLocal]]

def pairProduct (a : Arg) : GraphM Int := do
  let .tuple xs := a | throw .wrongType
  xs.foldlM (fun acc x => match x with
    | .tuple (_ :: y :: _) =>
      match y.int? with
      | some n => return acc * n
      | none => throw .wrongType
    | .tuple _ => throw .outOfRange
    | _ => throw .wrongType) 1

def partOf (a : Arg) (i : Nat) : GraphM Arg :=
  match a with
  | .tuple xs =>
    xs[i]?.getDM (throw .outOfRange)
  | _ => throw .wrongType

def sameKind : Const → Const → Bool
  | .bool _, .bool _ | .int _, .int _ | .float _, .float _ => true
  | _, _ => false

def lanesFit (x : Expr) : GraphM Bool := do
  let n := x.src.length
  if !(n > 1 && n = x.dtype.count) then return false
  for y in x.src do
    if x.dtype ≠ (← y.dtype.vec? n) then return false
  return true

/-- What is right in a program. -/
def programs : RuleSet Bool := .ofList [
  on (of [.defineGlobal]) fun x => verdict (x.dtype.isPtr && !x.dtype.isShared),
  on (of [.defineLocal]) fun x => verdict (x.dtype.isPtr && x.dtype.isShared),
  ⟨seq [.defineReg] [var "c"] none none .none true, fun x b =>
    verdict ((x.src.drop 1).all (·.is .range) && (b.get "c").dtype = x.dtype)⟩,
  on (of [.defineVar]) fun x => do
    let lo ← partOf x.arg 1
    if !isInt lo then return some false
    verdict (isInt (← partOf x.arg 2)),
  ⟨seq [.range] [var "x"], fun r b => verdict (r.dtype = (b.get "x").dtype && isInt r.arg)⟩,
  allow (seq [.special] []),
  allow (seq [.view] [] none (some [.void])),
  ⟨seq [.view] [var "src"], fun x b =>
    verdict (!(b.get "src").is .store && x.dtype.base = (b.get "src").dtype.base)⟩,
  allow (seq [.valid] [of [.view]] none (some [.bool])),
  on (of [.const]) fun x => do
    match x.arg with
    | .const c => verdict (sameKind c (← c.ofDType? x.dtype))
    | .none => throw .wrongType
    | _ => throw .wrongType,
  allow (seq [.load] [viewed]),
  allow (seq [.load] [viewed, of [.store]]),
  allow (seq [.store] [viewed, wild]),
  allow (seq [.index] [of [.defineGlobal, .defineLocal], wild]),
  allow (seq [.index] [of [.defineGlobal, .defineLocal], wild, typed [.bool]]),
  on1 (seq [.load] [address]) "idx" fun idx => do inside idx (← always),
  on1 (seq [.load] [address, of [.barrier]]) "idx" fun idx => do inside idx (← always),
  on2 (seq [.load] [address, of [.branch] (some "cond")]) "idx" "cond" fun idx c => do
    inside idx (← c.nth 0),
  ⟨seq [.load] [address, var "alt"], fun ld b => do
    if ld.dtype ≠ (b.get "alt").dtype then return some false
    inside (b.get "idx") (← always)⟩,
  on2 (seq [.store] [address, var "val"] none (some [.void])) "idx" "val" fun idx val =>
    insideStore idx val none,
  on3 (seq [.store] [address, var "val", var "gate" (some [.bool])] none (some [.void]))
    "idx" "val" "gate" fun idx val gate => insideStore idx val (some gate),
  on3 (seq [.store] [address, var "val", of [.branch] (some "gate")] none (some [.void]))
    "idx" "val" "gate" fun idx val gate => insideStore idx val (some gate),
  ⟨seq [.select] [typed [.bool], var "x", var "y"], fun w b =>
    verdict (w.dtype = (b.get "x").dtype && (b.get "x").dtype = (b.get "y").dtype)⟩,
  on2 (seq [.cmplt, .cmpne] [var "x", var "y"] none (some [.bool])) "x" "y" fun x y =>
    verdict (x.dtype.base = y.dtype.base),
  ⟨seq [.shl, .shr] [var "x", var "y"], fun a b =>
    let x := b.get "x"
    let y := b.get "y"
    verdict (a.dtype = x.dtype && (y.dtype = x.dtype || y.dtype = .uint))⟩,
  on (of [.idiv, .mod]) fun x => return if x.dtype.isInt then none else some false,
  on (of Op.alus) fun x => verdict (x.src.all fun y => x.dtype.base = y.dtype.base),
  allow (seq [.assign] [of [.defineReg, .defineGlobal], wild]),
  allow (seq [.endRange] [of [.range]] none (some [.void])),
  on (seq [.wmma] [wild, wild, wild]) fun x => verdict <| match x.arg with
    | .tuple xs => xs.length = 8
    | _ => false,
  on (of [.contract]) fun x => do verdict ((x.dtype.count : Int) = (← pairProduct x.arg)),
  on (of [.unroll]) fun x => do
    let a ← x.nth 0
    verdict ((a.dtype.count : Int) = (← pairProduct x.arg)),
  allow (seq [.branch] [wild] none (some [.void])),
  allow (seq [.branch] [wild, of [.barrier]] none (some [.void])),
  allow (seq [.endBranch] [of [.branch]] none (some [.void])),
  on (of [.reduceAxis]) fun x => verdict <| match x.arg with
    | .tuple (.op o :: _ :: _) => [Op.add, .mul, .max].contains o
    | _ => false,
  ⟨seq [.gep] [var "src"], fun g b => verdict (g.dtype = (b.get "src").dtype.scalar)⟩,
  on (of [.vectorize]) fun x => do verdict (← lanesFit x),
  on (seq [.bitcast, .cast] [wild]) fun x => verdict x.arg.isNone,
  allow (all [.barrier] (of [.store]) none (some [.void])),
  allow (of [.barrier] none (some [.void])),
  allow (of [.sink] none (some [.void])),
  allow (of [.noop, .customi, .custom]),
  allow (seq [.load, .store] [typed [.long]] none none .none true)]

def sameShapes (ss : List (List Dim)) : Bool :=
  match ss with
  | [] => true
  | s :: rest => rest.all (· == s)

/-- Refuses a sink whose shapes differ along an axis, but for size one. -/
def sinkShapes (sink : Expr) : GraphM (Option Bool) := do
  let own ← sink.src.mapM fun s => s.shape
  if !sameShapes own then return some false
  let shapes ← sink.toposort.toList.filterMapM fun x => do return (← x.layout?).map Layout.shape
  let n := (shapes.map List.length).min?.getD 0
  for i in List.range n do
    let dims := shapes.map fun s => s.getD i 1
    let mut seen : List Dim := []
    for s in dims do
      if ← s.differs 1 then
        if !seen.contains s then seen := seen ++ [s]
    if seen.length > 1 then
      let items := String.intercalate ", " (seen.map Dim.text)
      GraphM.print ("# INVALID KERNEL DIMS: can only have 1 or n in each dimension: \x7b"
        ++ items ++ "\x7d")
      return some false
  return none

def kernels : RuleSet Bool := .ofList [
  on (all [.sink] (of [.store])) sinkShapes,
  allow (all [.view] (of [.defineGlobal, .defineLocal])),
  on (of [.view]) fun v => verdict v.src.isEmpty,
  on (of (Op.allBut [.sink])) fun r => do
    let shapes ← r.src.filterMapM fun x => do return (← x.layout?).map Layout.shape
    verdict (sameShapes shapes)]

def listing (es : List Expr) : String :=
  let place (x : Expr) : String :=
    match es.findIdx? (· == x) with
    | some i => if x.is .const then Quoted.text x.arg.bareText else toString i
    | none => Quoted.text "--"
  let line (p : Expr × Nat) : String :=
    let (u, i) := p
    Decimal.padLeft 4 (toString i) ++ " " ++ Decimal.padRight 20 u.op.text ++ ": "
      ++ Decimal.padRight 30 u.dtype.text ++ " "
      ++ Decimal.padRight 32 (listOf (u.src.map place)) ++ " " ++ u.arg.bareText
  String.join (es.zipIdx.map fun p => line p ++ "\n")

/-- Refuses the first node that no rule finds right. -/
def verify (es : List Expr) (extra : Option (RuleSet Bool) := none) : GraphM Unit := do
  let rules := match extra with
    | some x => x ++ programs
    | none => programs
  for (u, i) in es.zipIdx do
    match ← rules.first? u with
    | some true => pure ()
    | _ =>
      if (← GraphM.setting .debug) ≥ 3 then
        modify fun s => { s with printed := s.printed ++ listing es }
      let ops := listOf (u.src.map fun x => x.op.detail)
      throw (.misused s!"UOp verification failed at {i} on {u.op.text} {u.dtype.text} {u.src.length} {ops} {u.arg.bareText}")

end LazyTensor.Check
