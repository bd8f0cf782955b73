import LazyTensor.Failure
import LazyTensor.Number.Decimal

/-!
# Plots and reports

Memory in use is drawn as a pile of blocks: a block is put on top when it is allocated, and when one
is freed those above it sink.  A block is the polygon of its lower edge, in steps of one allocation
or release.
-/

namespace LazyTensor

/-- An allocation with its number and its bytes, or the release of a number. -/
inductive MemoryChange (α : Type) where
  | alloc (ref bytes : Int) (note : α)
  | free (ref : Int)

/-- A block of memory: its number, its bytes, the corners of its lower edge, and whether it is still
there. -/
structure MemoryBlock (α : Type) where
  ref : Int
  bytes : Int
  note : α
  xs : List Nat
  ys : List Int
  live : Bool := true

/-- A plot of memory: how many changes there were, the most bytes in use so far, the bytes in use, and
the blocks in the order of their numbers' first allocation. -/
structure MemoryPlot (α : Type) where
  steps : Nat := 0
  peak : Int := 0
  total : Int := 0
  blocks : List (MemoryBlock α) := []

namespace MemoryBlock

variable {α : Type}

variable (b : MemoryBlock α)

def height : Int := b.ys.getLastD 0

def extend (step : Nat) : MemoryBlock α :=
  { b with xs := b.xs ++ [step], ys := b.ys ++ [b.height] }

def sink (step : Nat) (bytes : Int) : MemoryBlock α :=
  { b with xs := b.xs ++ [step, step], ys := b.ys ++ [b.height, b.height - bytes] }

end MemoryBlock

namespace MemoryPlot

variable {α : Type}

/-- Blocks with one more; a block of the same number is replaced where it stands. -/
def insert (b : MemoryBlock α) : List (MemoryBlock α) → List (MemoryBlock α)
  | [] => [b]
  | c :: cs => if c.ref = b.ref then b :: cs else c :: insert b cs

def find? (p : MemoryPlot α) (ref : Int) : Option (MemoryBlock α) :=
  p.blocks.find? fun b => b.live && b.ref == ref

/-- What becomes of a block when a number is released at a step: it ends, or it sinks if it came
later. -/
def release (ref bytes : Int) (step : Nat) (b : MemoryBlock α) : MemoryBlock α :=
  if !b.live then b
  else if b.ref = ref then { b.extend step with live := false }
  else if ref < b.ref then b.sink step bytes
  else b

/-- The plot after an allocation or a release. -/
def step (p : MemoryPlot α) : MemoryChange α → Result (MemoryPlot α)
  | .alloc ref bytes note =>
    let total := p.total + bytes
    .ok {
      steps := p.steps + 1
      peak := max p.peak total
      total
      blocks := insert { ref, bytes, note, xs := [p.steps], ys := [p.total] } p.blocks }
  | .free ref =>
    match p.find? ref with
    | none => .error .missingKey
    | some b =>
      let steps := p.steps + 1
      .ok { p with
        steps
        total := p.total - b.bytes
        blocks := p.blocks.map (release ref b.bytes steps) }

def close (p : MemoryPlot α) : MemoryPlot α :=
  { p with blocks := p.blocks.map fun b => if b.live then b.extend p.steps else b }

def ofChanges (cs : List (MemoryChange α)) : Result (MemoryPlot α) := do
  return (← cs.foldlM step ({} : MemoryPlot α)).close

end MemoryPlot

/-!
## Reports of what devices did

Devices tell what they did and when, each by a clock of its own.  A report puts all on one clock and
gives for every device a timeline and a plot of its memory.

In a timeline stretches of time are drawn in rows.  Each is put into the first row that is free when
it starts, and a new row is opened only if none is.
-/

/-- A stretch of time with a name, from one whole instant to another, and how long it took. -/
structure Span where
  name : String
  start : Int
  stop : Int
  duration : Exact

structure Bar where
  span : Span
  depth : Nat

structure Timeline where
  bars : List Bar := []
  rows : Nat := 0

namespace Timeline

/-- The first row that is free at an instant, where the ends of the rows are given; the row after the
last if none is. -/
def rowFor (ends : List Int) (start : Int) : Nat := ends.findIdx (· ≤ start)

def occupy (ends : List Int) (row : Nat) (stop : Int) : List Int :=
  if row < ends.length then ends.set row stop else ends ++ [stop]

/-- The rows of stretches, and how many rows there are, where the ends of the rows so far are
given. -/
def place : List Int → List Span → List Bar × Nat
  | ends, [] => ([], ends.length)
  | ends, s :: rest =>
    let row := rowFor ends s.start
    let (bars, rows) := place (occupy ends row s.stop) rest
    (⟨s, row⟩ :: bars, rows)

/-- The rows of stretches in the order of their starts; those that took no time are left out. -/
def ofSpans (spans : List Span) : Timeline :=
  let (bars, rows) := place [] (spans.filter fun s => !s.duration.isZero)
  { bars, rows }

end Timeline

/-- A part of a graph of work: where, what, the positions of its start and its end among the times,
and whether it copies. -/
structure GraphEntry where
  device : String
  name : String
  start : Int
  stop : Int
  isCopy : Bool

inductive ProfileEvent (α : Type) where
  /-- How far the clocks of a device for work and for copies are behind. -/
  | device (name : String) (work : Exact) (copy : Option Exact)
  | range (device name : String) (start : Exact) (stop : Option Exact) (isCopy : Bool)
  | point (device name : String) (time : Exact) (ref : Int) (note : α)
  | graph (entries : List GraphEntry) (times : List Exact)

structure Moment (α : Type) where
  device : String
  name : String
  start : Int
  stop : Int
  duration : Exact
  /-- For what happened to memory: the whole instant, the number and what is noted. -/
  memory : Option (Int × Int × α)

structure DeviceReport (α : Type) where
  device : String
  timeline : Timeline
  memory : MemoryPlot α
  times : List Int

structure Report (α : Type) where
  devices : List (DeviceReport α) := []
  start : Option Int := none
  stop : Option Int := none

namespace Report

variable {α : Type}

variable (events : List (ProfileEvent α))

def behind (device : String) (isCopy : Bool) : Exact :=
  let told := events.filterMap fun e => match e with
    | .device name work copy =>
      if name = device then some (if isCopy then copy.getD work else work) else none
    | _ => none
  told.getLastD ⟨0, 0⟩

def item {β : Type} (xs : List β) (i : Int) : Result β :=
  let k := if i < 0 then i + xs.length else i
  if k < 0 then .error .outOfRange
  else xs[k.toNat]?.getDM (.error .outOfRange)

def lasting (device name : String) (isCopy : Bool)
    (start stop : Exact) : Moment α :=
  let d := behind events device isCopy
  { device, name, start := (start + d).truncate, stop := (stop + d).truncate,
    duration := stop - start, memory := none }

/-- What an event says happened.  What happens to memory is on the common clock already, only its end
is moved. -/
def momentsOf : ProfileEvent α → Result (List (Moment α))
  | .device .. => .ok []
  | .range device name start stop isCopy =>
    match stop with
    | none => .error .wrongType
    | some stop => .ok [lasting events device name isCopy start stop]
  | .point device name time ref note =>
    .ok [{ device, name, start := time.truncate
           stop := (time + behind events device false).truncate
           duration := ⟨0, 0⟩, memory := some (time.truncate, ref, note) }]
  | .graph entries times =>
    entries.mapM fun e => do
      return lasting events e.device e.name e.isCopy (← item times e.start) (← item times e.stop)

def moments : Result (List (Moment α)) := do
  return (← events.mapM (momentsOf events)).flatten

variable (bytesOf : α → Result Int)

def changes (ms : List (Moment α)) : Result (List (Int × MemoryChange α)) := do
  let found ← ms.mapM fun m => do
    let some (time, ref, note) := m.memory | return none
    if m.name = "alloc" then return some (time, .alloc ref (← bytesOf note) note)
    else if m.name = "free" then return some (time, .free ref)
    else return none
  return found.filterMap id

def ofDevice (device : String) (ms : List (Moment α)) : Result (DeviceReport α) := do
  let ms := (ms.filter (·.device = device)).mergeSort fun a b => a.start ≤ b.start
  let timeline := Timeline.ofSpans (ms.map fun m => ⟨m.name, m.start, m.stop, m.duration⟩)
  let cs ← changes bytesOf ms
  return { device, timeline, memory := ← MemoryPlot.ofChanges (cs.map (·.2)), times := cs.map (·.1) }

def ofEvents (events : List (ProfileEvent α)) : Result (Report α) := do
  let ms ← moments events
  let names := (ms.map (·.device)).eraseDups
  return {
    devices := ← names.mapM fun d => ofDevice bytesOf d ms
    start := (ms.map (·.start)).min?
    stop := (ms.map (·.stop)).max? }

end Report

end LazyTensor
