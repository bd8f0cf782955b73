import LazyTensor.Console.Expression
import LazyTensor.Console.Fault
import LazyTensor.Session.Run

/-!
# Requests about memory

Buffers under names are made, filled, read and forgotten; every step answers what the buffer looks
like afterwards.  A buffer lives as long as a name, or a stretch of it that has a name, refers to it.
A second kind of request drives a recycler over a device that counts its allocations, and a third
asks what a runner is called, where it runs and how much it is estimated to do.
-/

namespace LazyTensor.Buffers

open Heap

inductive Entry where
  | single (n : Nat)
  | several (ns : List Nat)

def Entry.numbers : Entry → List Nat
  | single n => [n]
  | several ns => ns

abbrev Names := List (String × Entry)

variable (names : Names)

def entry (n : String) : HeapM Entry := (names.lookup n).getDM (throw .missingKey)

def buffer (n : String) : HeapM Nat := do
  match ← entry names n with
  | .single k => return k
  | .several _ => throw .missingMember

def severalText (ns : List Nat) : HeapM String := do
  let h ← get
  let bs ← ns.mapM find
  let b :: _ := bs | throw .outOfRange
  let real := if ns.all h.isAllocated then "True" else "False"
  let devices := tupleOf (bs.map fun b => Quoted.text b.device)
  return s!"<multibuf real:{real} device:{devices} size:{b.size} dtype:{b.dtype.text}>"

def look (e : Entry) : HeapM Json := do
  let h ← get
  match e with
  | .single n =>
    let b ← find n
    return .list [.text (← text n), .bool (h.isAllocated n), .int h.inUse,
      .bool (h.isInitialized n), .int b.bytes, .int b.offset]
  | .several ns =>
    let size := match ns.head?.bind fun n => h.buffers[n]? with
      | some b => b.size
      | none => 0
    return .list [.text (← severalText ns), .bool (ns.all h.isAllocated), .int h.inUse, .int size]

def sweep : HeapM Unit := do
  let h ← get
  let named := names.flatMap fun (_, e) => e.numbers
  let bases := named.filterMap fun n => (h.buffers[n]?).bind (·.base)
  let dead := (h.buffers.toList.map (·.1)).filter fun n => !named.contains n && !bases.contains n
  -- stretches first, then what they were stretches of
  let (views, own) := dead.partition fun n => match h.buffers[n]? with
    | some b => b.base.isSome
    | none => false
  for n in views ++ own.mergeSort (· ≤ ·) do drop n

def hex (b : ByteArray) : Json := .text (Quoted.hex b.data.toList)

def ofHex (s : String) : HeapM ByteArray :=
  match Value.bytesOfHex? s with
  | some b => pure ⟨b.toArray⟩
  | none => throw .invalidValue

def dtypeOf (s : String) : HeapM DType := liftM (DType.parse s)

def typed (n : Nat) (shape : Option (List Int)) : HeapM Json := do
  let b ← find n
  let c ← elementCode b
  let bytes ← copyOut n
  let shape := shape.getD [b.size]
  if shape.any (· ≤ 0) then throw .invalidValue
  if shape.foldl (· * ·) (Packing.size c : Int) ≠ bytes.size then throw .wrongType
  return nest .list (shape.map Int.toNat) ((Bytes.elements c bytes).map Answer.const)

def filled (b : Buffer) (bytes : ByteArray) : HeapM Nat := do
  let n ← add b
  allocate n
  copyIn n bytes
  return n

def copy (n : Nat) : HeapM Nat := do
  let b ← find n
  let fresh (b : Buffer) : Buffer := { b with storage := none, views := 0, opened := false }
  let copyBase (n : Nat) : HeapM Nat := do
    let b ← find n
    if (← get).isAllocated n then filled (fresh b) (← copyOut n)
    else add (fresh b)
  match b.base with
  | none => copyBase n
  | some m =>
    let isAllocated := (← get).isAllocated n
    let m ← copyBase m
    let n ← add { fresh b with base := some m, refs := 0 }
    if isAllocated then allocate n
    return n

/-- An operation on buffers. -/
def step (name : String) (args : List Json) : HeapM (Names × Json) := do
  let shown (names : Names) (n : String) : HeapM (Names × Json) := do
    return (names, ← look (← entry names n))
  let bound (n : String) (e : Entry) : HeapM (Names × Json) := shown (Entries.put names n e) n
  let done (f : Nat → HeapM Unit) (n : String) : HeapM (Names × Json) := do
    f (← buffer names n)
    shown names n
  match name, args with
  | "new", .text n :: .text device :: .int size :: .text d :: rest =>
    let b ← Buffer.new device size (← dtypeOf d)
    let k ← match rest with
      | [] => add b
      | .text s :: _ => filled b (← ofHex s)
      | _ => throw .badInput
    bound n (.single k)
  | "view", [.text n, .text base, .int size, .text d, .int offset] =>
    let m ← buffer names base
    bound n (.single (← view m size (← dtypeOf d) offset))
  | "multi", [.text n, .list devices, .int size, .text d] =>
    let d ← dtypeOf d
    let ks ← devices.mapM fun x => match x with
      | .text s => do add (← Buffer.new s size d)
      | _ => throw Failure.badInput
    bound n (.several ks)
  | "allocate", [.text n] => done allocate n
  | "ensure", [.text n] => done ensure n
  | "dealloc", [.text n] => done deallocate n
  | "copyin", [.text n, .text s] => done (fun k => do copyIn k (← ofHex s)) n
  | "pickle", [.text n, .text old] =>
    match ← entry names old with
    | .single k => bound n (.single (← copy k))
    | .several ks => bound n (.several (← ks.mapM copy))
  | "zerocopy", [.text n] => return (names, hex (← Heap.look (← buffer names n) true))
  | "copyout", [.text n] => return (names, hex (← copyOut (← buffer names n)))
  | "copyout", [.text n, .int size] =>
    return (names, hex (← copyOutTo (← buffer names n) size.toNat))
  | "typed", .text n :: rest =>
    let k ← buffer names n
    let shape ← match rest with
      | [] | [.null] => pure none
      | [.list xs] => some <$> (xs.mapM Json.int?).getDM (throw .wrongType)
      | _ => throw .badInput
    return (names, ← typed k shape)
  | "ref", [.text n, .int count] =>
    let k ← buffer names n
    let base := (← find k).base.getD k
    change base fun b => { b with refs := b.refs + count }
    return (names, .int (← find base).refs)
  | "del", [.text n] =>
    let _ ← entry names n
    let names := names.filter (·.1 ≠ n)
    sweep names
    return (names, .int (← get).inUse)
  | _, _ => throw .badInput

def forget : Names → HeapM Unit
  | [] => pure ()
  | _ :: names => do
    sweep names
    forget names

def runKeeping (failed : Failure → Json) (todo : List Json) : HeapM (List Json × Names) := do
  let mut names : Names := []
  let mut out : Array Json := #[]
  for q in todo do
    let before := names
    let (next, j) ← tryCatch (do
      match q with
      | .list (.text name :: args) => step before name args
      | _ => throw .badInput) fun f => return (before, failed f)
    sweep next
    names := next
    out := out.push j
  return (out.toList, names)

def run (failed : Failure → Json) (todo : List Json) : HeapM (List Json) := do
  return (← runKeeping failed todo).1

structure Counter where
  limit : Int
  next : Int := 1
  live : List (Int × Int) := []
  log : List Json := []

namespace Counter

def bytes (c : Counter) : Int := (c.live.map (·.2)).foldl (· + ·) 0

def supplier : Supplier Counter (Option Bool) Int where
  alloc size _ c :=
    if c.bytes + size > c.limit then (.error (.bare .outOfMemory), c)
    else (.ok c.next, { c with
      next := c.next + 1
      live := c.live ++ [(c.next, size)]
      log := c.log ++ [.list [.text "alloc", .int c.next, .int size]] })
  free x c := { c with
    live := c.live.filter (·.1 ≠ x)
    log := c.log ++ [.list [.text "free", .int x]] }

end Counter

/-- A recycler over such a device, and what was handed out under which name. -/
structure Recycling where
  device : Counter
  recycler : Recycler (Option Bool) Int := {}
  names : List (String × Int × Int × Option Bool) := []

def recycleStep (on : Bool) (r : Recycling) (name : String) (args : List Json) :
    Result (Option Int) × Recycling :=
  match name, args with
  | "alloc", .text n :: .int size :: rest =>
    let options : Option Bool := match rest with
      | .bool true :: _ => some true
      | .int k :: _ => if k = 0 then none else some true
      | _ => none
    let (x, kept, device) := r.recycler.alloc Counter.supplier size options r.device
    let r := { r with recycler := kept, device }
    match x with
    | .ok x => (.ok (some x), { r with names := (n, x, size, options) :: r.names.filter (·.1 ≠ n) })
    | .error f => (.error f, r)
  | "free", [.text n] =>
    match r.names.find? (·.1 = n) with
    | none => (.error .missingKey, r)
    | some (_, x, size, options) =>
      let (kept, device) :=
        r.recycler.free Counter.supplier (on && options.isNone) x size options r.device
      (.ok none, { r with recycler := kept, device, names := r.names.filter (·.1 ≠ n) })
  | "flush", _ =>
    let (kept, device) := r.recycler.flush Counter.supplier r.device
    (.ok none, { r with recycler := kept, device })
  | _, _ => (.error .badInput, r)

/-- The answers to steps on a recycler: the bytes that are out, the calls of the device, and the
number handed out. -/
def recycle (failed : Failure → Json) (on : Bool) (limit : Int) (todo : List Json) : List Json :=
  let start : Recycling := { device := { limit } }
  (todo.foldl (fun (r, out) q =>
    let r : Recycling := { r with device := { r.device with log := [] } }
    let (x, r) := match q with
      | .list (.text name :: args) => recycleStep on r name args
      | _ => (.error .badInput, r)
    let j := match x with
      | .ok x => Json.list [.int r.device.bytes, .list r.device.log,
          match x with
          | some n => .int n
          | none => .null]
      | .error f => failed f
    (r, out ++ [j])) (start, ([] : List Json))).2

def chooseDevice (j : Json) : Result Json := do
  let switches (d : String) : Int :=
    ((j.field? "env").bind fun e => (e.field? d).bind Json.int?).getD 0
  let candidates :=
    ((j.field? "all").bind Json.items?).elim Device.candidates (·.filterMap Json.text?)
  let (d, noted) ← Device.choose switches candidates
  return .list [.text d, if noted && d = "CPU" then .text "1" else .null]

end LazyTensor.Buffers

namespace LazyTensor.Runners

def estimates (ops lds mem : Int) : Json := .list [.int ops, .int lds, .int mem]

def question (q : Json) : HeapM Json := do
  match q with
  | .list [.text "runner", .text name, .text device, .list [.int a, .int b, .int c]] =>
    let kind ← Device.open? device
    return .list [.text name, .bool true, .text kind.className, estimates a b c,
      Fault.json (.because .unsupported "override this")]
  | .list [.text verb, .int size, .text target, .text source] =>
    if verb = "copy" || verb = "xfer" then
      return .list [.text (Runner.copyName verb size target source), .text target, estimates 0 size size]
    else throw .badInput
  | .list [.text "view", .int size, .text d, .int part, .text e, .int offset] =>
    let n ← Heap.add (← Buffer.new "PYTHON" size (← Buffers.dtypeOf d))
    Heap.allocate n
    let v ← Heap.view n part (← Buffers.dtypeOf e) offset
    Heap.allocate v
    return .null
  | .list [.text "mismatch", .int size, .text d, .int other, .text e] =>
    let d ← Buffers.dtypeOf d
    let e ← Buffers.dtypeOf e
    if size ≠ other || d ≠ e then
      throw (.broken s!"buffer copy mismatch, {size} != {other}, {d.text} != {e.text}")
    return .null
  | _ => throw .badInput

def answer (todo : List Json) : List Json :=
  todo.map fun q => match (question q).run {} with
    | .ok j _ => j
    | .error f _ => Fault.json f

end LazyTensor.Runners
