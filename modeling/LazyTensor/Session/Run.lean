import LazyTensor.Machine.Run
import LazyTensor.Session.State

/-!
# Tasks and real tensors

A task becomes something that can be run: a program for its kernel, made once for every kernel and
device; or a copy between devices.  Running it allocates its buffers, does the work, and counts it.
-/

namespace LazyTensor

open Decimal Heap

namespace Runner

def program? (r : Runner) : Option Program :=
  match r.work with
  | .program p => some p
  | _ => none

def copyName (verb : String) (bytes : Int) (target source : String) : String :=
  let short (s : String) : String := String.ofList (s.toList.take 7)
  let amount := if bytes ≥ 1000000 then
      padLeft 7 (fixed 2 (Float.ofInt bytes / 1e6)) ++ "M"
    else padLeft 8 s!"{bytes}"
  Escape.colored (s!"{verb} {amount}, " ++ padLeft 7 (short target) ++ " <- " ++
    padRight 7 (short source)) "yellow"

def ofCopy (verb : String) (bytes : Int) (target source : String) : Runner :=
  { name := copyName verb bytes target source, device := target, work := .copy
    cost := { accessed := .int bytes, memory := .int bytes } }

def ofView (b : Buffer) : Runner :=
  { name := Escape.colored (s!"view " ++ padLeft 8 s!"{b.bytes}" ++ " @ " ++
      padRight 10 s!"{b.offset}") "yellow"
    device := b.device, work := .view, cost := {} }

end Runner

namespace Session

/-- The buffers of a buffer node, made when they are asked for the first time. -/
def buffersOf (root : Expr) : SessionM (List Nat) := do
  match (← get).owned[root.number]? with
  | some ns => return ns
  | none =>
    let m ← root.bufferMemory
    let ns ← m.regions.mapM fun r => do
      let b ← Buffer.new r.device r.size r.dtype
      add { b with refs := 1 }
    modify fun s => { s with owned := s.owned.insert root.number ns }
    return ns

def bufferOf (r : Region) : SessionM Nat := do
  let ns ← buffersOf r.root
  let n ← ns[r.part]?.getDM (throw .outOfRange)
  let some o := r.offset | return n
  let b ← Buffer.new r.device r.size r.dtype
  add { b with base := some n, offset := o }

def singleBuffer (m : Memory) : SessionM Nat :=
  match m with
  | .single r => bufferOf r
  | .several _ => throw .missingMember

def isAllocated (m : Memory) : SessionM Bool := do
  let ns ← m.regions.mapM bufferOf
  return ns.all (← get).heap.isAllocated

def programSettings : SessionM (List Int) := do
  return [← setting .beam, ← setting .noopt, ← setting .devectorize]

def programKey (device : String) (ast : Expr) : SessionM ProgramKey := do
  return { device, digest := ← ast.key, settings := ← programSettings, shared := false }

def runnerOf (p : Program) (device : String) : SessionM Runner := do
  return { name := p.name, device, cost := ← p.cost, work := .program p }

/-- The program of a kernel for a device: the one made before, one made for a device of the same
kind, or a new one. -/
def programFor (device : String) (ast : Expr) : SessionM (ProgramKey × Runner) := do
  let key ← programKey device ast
  match (← get).programs[key]? with
  | some r => return (key, r)
  | none =>
    let common := { key with device := (Device.parts device).1, shared := true }
    match ((← get).programs[common]?).bind Runner.program? with
    | some p =>
      let r ← runnerOf p device
      modify fun s => { s with programs := s.programs.insert key r }
      return (key, r)
    | none =>
      let kind ← Device.open? device
      let p ← Program.ofKernel kind.target ast
      let r ← runnerOf p device
      modify fun s => { s with programs := (s.programs.insert key r).insert common r }
      return (key, r)

def takeBytes (n : Nat) : HeapM ByteArray := do
  let b ← find n
  match b.storage with
  | some (.block m 0 size) =>
    let bytes := ((← get).blocks[m]?).getD ByteArray.empty
    if bytes.size = size then
      modify fun h => { h with blocks := h.blocks.insert m ByteArray.empty }
      return bytes
    else return bytes.extract 0 size
  | some s => fetch b.device s
  | none => throw .missingMember

def putBack (n : Nat) (bytes : ByteArray) : HeapM Unit := do
  let b ← find n
  match b.storage with
  | some (.block m 0 size) =>
    if bytes.size = size then modify fun h => { h with blocks := h.blocks.insert m bytes }
    else putBytes b.device (.block m 0 size) bytes
  | some s => putBytes b.device s bytes
  | none => pure ()

/-- A program run on buffers, with values for its variables. -/
def runProgram (p : Program) (buffers : List Nat) (values : List (Expr × Int)) : SessionM Unit := do
  let (grid, group) ← p.launch values
  let vals ← p.vars.mapM fun v => match values.find? fun (k, _) => k == v with
    | some (_, n) => pure n
    | none => throw Failure.missingKey
  let program ← Instr.ofNodes p.nodes
  let memories ← buffers.mapM fun n => (takeBytes n : HeapM ByteArray)
  let (out, failure) := Machine.run program memories.toArray vals (grid.getD [1, 1, 1])
    (group.getD [1, 1, 1])
  for (n, b) in buffers.zip out.toList do putBack n b
  match failure with
  | some f => throw f
  | none => pure ()

/-- The bytes of a buffer copied to another, perhaps on another device. -/
def copyBuffer (target source : Nat) : SessionM Unit := do
  let d ← find target
  let s ← find source
  let kind ← Device.open? d.device
  if s.onDisk && kind.canShow then
    let bytes ← look source false
    let some place := d.storage | throw .missingMember
    if (bytes.size : Int) ≠ d.bytes then throw .invalidValue
    putBytes d.device place bytes
  else
    let bytes ← look source false
    copyIn target bytes

/-- The work of a runner, and how long it took where that is measured. -/
def work (r : Runner) (buffers : List Nat) (values : List (Expr × Int)) (wait : Bool) :
    SessionM (Option Float) := do
  match r.work with
  | .program p =>
    match p.target with
    | .machine =>
      let start ← now
      runProgram p buffers values
      let stop ← now
      return some (stop - start)
    | _ =>
      let start ← if wait then now else pure 0
      runProgram p buffers values
      if wait then return some ((← now) - start) else return none
  | .copy =>
    let target :: source :: _ := buffers | throw .outOfRange
    let d ← find target
    let s ← find source
    if d.size ≠ s.size || d.dtype ≠ s.dtype then
      throw (.broken (s!"buffer copy mismatch, {d.size} != {s.size}, " ++
        s!"{d.dtype.text} != {s.dtype.text}"))
    let start ← now
    copyBuffer target source
    if wait then return some ((← now) - start) else return none
  | .view =>
    let v :: b :: _ := buffers | throw .outOfRange
    let v ← find v
    let c ← find b
    if v.base.isNone || v.base ≠ some (c.base.getD b) then throw (.broken "must be base [<buf")
    return none

def extent (d : Dim) (values : List (Expr × Int)) : GraphM Int := do
  match d with
  | .int n => return n
  | .sym e =>
    (← e.evaluate values).int?.getDM (throw .wrongType)

def duration (t : Float) (width : Nat) : String :=
  if t > 10 then padLeft width (fixed 2 t) ++ "s "
  else if t > 10 / 1e3 then padLeft width (fixed 2 (t * 1e3)) ++ "ms"
  else padLeft width (fixed 2 (t * 1e6)) ++ "us"

def reportLine (r : Runner) (c : Counts) (inUse : Int) (args : Nat) (elapsed : Option Float)
    (ops memory accessed : Int) : String :=
  let short := padRight 7 (String.ofList (r.device.toList.take 7))
  let head := s!"*** {short} " ++ padLeft 4 s!"{c.kernels}"
  let head := if r.fresh then Escape.colored head "green" else head
  let num (w places : Nat) (x : Float) : String := padLeft w (fixed places x)
  let start := head ++ " " ++ r.name ++ rep ' ' (41 - Escape.length r.name) ++ " arg " ++
    padLeft 2 s!"{args}" ++ " mem " ++ num 5 2 (Float.ofInt inUse / 1e9) ++ " GB "
  match elapsed with
  | none => start
  | some t =>
    let shown := duration t 9
    let shown := if t > 0.01 then Escape.colored shown "yellow" else shown
    let unit := (if t == 0 then 1e-20 else t) * 1e9
    start ++ "tm " ++ shown ++ "/" ++ num 9 2 (c.seconds * 1e3) ++ "ms (" ++
      num 9 2 (Float.ofInt ops / unit) ++ " GFLOPS " ++ num 6 1 (Float.ofInt memory / unit) ++ "|" ++
      padRight 7 (fixed 1 (Float.ofInt accessed / unit)) ++ " GB/s) "

/-- A runner run, counted and reported. -/
def execute (r : Runner) (buffers : List Nat) (values : List (Expr × Int)) (count : Bool := true) :
    SessionM Unit := do
  for n in buffers do ensure n
  let debug ← setting .debug
  let elapsed ← work r buffers values (debug ≥ 2)
  if count then
    let ops ← extent r.cost.ops values
    modify fun s => { s with counts := { s.counts with
      kernels := s.counts.kernels + 1, ops := s.counts.ops + ops } }
    let memory ← extent r.cost.memory values
    modify fun s => { s with counts := { s.counts with
      memory := s.counts.memory + memory
      seconds := s.counts.seconds + elapsed.getD 0 } }
    if debug ≥ 2 then
      let accessed ← extent r.cost.accessed values
      let s ← get
      print (reportLine r s.counts s.heap.inUse buffers.length elapsed ops (min memory accessed)
        accessed)

def noteRun (key : ProgramKey) : SessionM Unit :=
  modify fun s => match s.programs[key]? with
    | some r => { s with programs := s.programs.insert key { r with fresh := false } }
    | none => s

/-- What a task needs to be run: the runner, where it is from if it is a program, and the buffers. -/
structure Ready where
  runner : Runner
  key : Option ProgramKey := none
  buffers : List Nat

/-- The runner for a kernel, and the buffers it takes. -/
def prepare (ast : Expr) (buffers : List Nat) : SessionM Ready := do
  let device (i : Nat) : SessionM String := do
    let some n := buffers[i]? | throw .outOfRange
    return (← find n).device
  match ast.op with
  | .sink =>
    let (key, r) ← programFor (← device 0) ast
    let .program p := r.work | throw .wrongType
    let chosen ← p.globals.mapM fun g => buffers[g.toNat]?.getDM (throw Failure.outOfRange)
    return { runner := r, key := some key, buffers := chosen }
  | .bufferView =>
    let n :: _ := buffers | throw .outOfRange
    return { runner := Runner.ofView (← find n), buffers }
  | .copy =>
    let target ← device 0
    let _ ← Device.open? target
    let source ← device 1
    let n :: _ := buffers | throw .outOfRange
    let b ← find n
    return { runner := Runner.ofCopy "copy" b.bytes target source, buffers }
  | _ => throw .wrongType

def runReady (r : Ready) (values : List (Expr × Int)) (count : Bool) : SessionM Unit := do
  execute r.runner r.buffers values count
  if count then r.key.forM noteRun

def close (a b : Const) : Bool :=
  match a.toFloat?, b.toFloat? with
  | .ok x, .ok y =>
    if x.isNaN || y.isNaN then x.isNaN && y.isNaN
    else x == y || (x - y).abs ≤ 1e-3 + 1e-3 * y.abs
  | _, _ => false

/-- A task run, and run again on copies, and the results compared. -/
def runChecked (ast : Expr) (ready : Ready) (buffers : List Nat) (values : List (Expr × Int))
    (count : Bool) : SessionM Unit := do
  let copies ← buffers.mapM fun n => do
    let b ← find n
    let m ← add { device := "CPU", size := b.size, dtype := b.dtype }
    if (← get).heap.isAllocated n then
      ensure m
      copyIn m (← (copyOut n : HeapM ByteArray))
    return m
  runReady ready values count
  runReady (← prepare ast copies) values count
  match buffers, copies with
  | a :: _, b :: _ =>
    let d := (← find a).dtype
    let c ← d.base.code?.getDM (throw (.broken s!"no np dtype for {d.base.text}"))
    let xs := Bytes.elements c (← copyOut a)
    let ys := Bytes.elements c (← copyOut b)
    if !(xs.zip ys).all fun (x, y) => close x y then throw (.bare .brokenContract)
  | _, _ => throw .outOfRange
  for m in copies do drop m

/-- A task of a schedule, with values for its variables. -/
def runTask (t : Task) (values : List (Expr × Int)) (count : Bool) : SessionM Unit := do
  let run : SessionM (Ready × List Nat) := do
    let buffers ← t.buffers.mapM singleBuffer
    return (← prepare t.ast buffers, buffers)
  let (ready, buffers) ← tryCatch run fun f => do
    if (← setting .debug) ≥ 2 then
      print s!"error lowering {t.ast.op.text}"
      print "tensor operations:"
      print "()"
    throw f
  if (← settingOn .validateWithCpu) && t.ast.is .sink then
    runChecked t.ast ready buffers values count
  else runReady ready values count
  -- stretches of buffers live as long as the task
  for n in buffers do
    if ((← find n).base).isSome then (drop n)

def runAll (s : Schedule) (count : Bool := true) : SessionM Unit :=
  s.tasks.forM fun t => runTask t s.values count

end Session

end LazyTensor

/-!
## Making tensors real

Tensors are graphs until somebody wants their elements.  Then the graphs become kernels, the
kernels are run, and every tensor of the session that contains a computed node refers to the memory
from then on.
-/

namespace LazyTensor.Session

def replaceAll (table : Std.HashMap Nat Expr) : SessionM Unit := do
  let kept := ((← get).kept.toList.filter fun (_, k) => k.listed).mergeSort fun a b => a.1 ≤ b.1
  let step (e : Expr) : RuleM := return (table[e.number]?).filter fun r => !(r == e)
  let work : GraphM (List (Nat × Expr)) := do
    let (_, out) ← kept.foldlM (fun (done, out) (n, k) => do
      let (r, done) ← Rewriting.start step true k.node done
      return (done, if r == k.node then out else (n, r) :: out))
      (({} : Std.HashMap Nat Expr), ([] : List (Nat × Expr)))
    return out
  for (n, e) in ← liftM work do alter n fun k => { k with node := e }

variable (places : List Nat)

def nodesOf : SessionM (List Expr) :=
  places.mapM fun n => do return (← keptAt n).node

def kernelize : SessionM Unit := do
  let table ← Kernels.build (← Expr.sink (← nodesOf places))
  replaceAll table

/-- The tasks that compute tensors.  The tensors refer to the memory at once. -/
def schedule : SessionM Schedule := do
  let start ← now
  kernelize places
  let sink ← Expr.sink (← nodesOf places)
  let stores := sink.toposort.toList.filter fun e => e.is .store
  let table ← stores.foldlM (fun t e => do
    return t.insert e.number (← e.bufferNode)) {}
  replaceAll table
  let s ← Schedule.ofGraph sink
  if (← setting .debug) ≥ 1 && s.tasks.length ≥ 10 then
    let spent := (← now) - start
    print s!"scheduled {s.tasks.length} kernels in {Decimal.fixed 2 (spent * 1000)} ms"
  return s

def realize (count : Bool := true) : SessionM Unit := do
  runAll (← schedule places) count

def sweep : SessionM Unit := do
  let s ← get
  if s.owned.isEmpty then return
  let live := s.kept.fold (fun done _ k => Walk.run (fun _ => true) ⟨[(k.node, false)], done⟩)
    ({} : Sorted)
  let gone := s.owned.toList.filter fun (n, _) => !(live.seen.contains n)
  for (n, buffers) in gone.mergeSort fun a b => a.1 ≤ b.1 do
    for b in buffers do
      if (← get).heap.buffers.contains b then (Heap.drop b)
    modify fun s => { s with owned := s.owned.erase n }

end LazyTensor.Session
