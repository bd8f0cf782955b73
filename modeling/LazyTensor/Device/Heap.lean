import LazyTensor.Device.Clock
import LazyTensor.Device.Name
import LazyTensor.Device.Recycler
import LazyTensor.Graph.Text
import LazyTensor.Machine.Bytes

/-!
# Buffers

A buffer is memory on a device, or a stretch of another buffer.  It has to be allocated before it is
used.  Memory of the host is recycled; memory of a disk device is a file, which is opened by the first
buffer and closed by the last.

The heap holds all buffers, the blocks of memory, the files, and how many bytes are in use.  A
failure leaves the heap as it is at that moment.
-/

namespace LazyTensor

structure Spec where
  image : Option DType := none
  uncached : Bool := false
  cpuAccess : Bool := false
  host : Bool := false
  noRecycling : Bool := false
  external : Option Nat := none
  deriving DecidableEq

namespace Spec

def text (s : Spec) : String :=
  let bool (b : Bool) : String := if b then "True" else "False"
  let image := s.image.elim "None" DType.text
  let external := s.external.elim "None" toString
  s!"BufferSpec(image={image}, uncached={bool s.uncached}, cpu_access={bool s.cpuAccess}, " ++
    s!"host={bool s.host}, nolru={bool s.noRecycling}, external_ptr={external})"

end Spec

inductive Storage where
  | block (number offset size : Nat)
  | file (offset size : Nat)
  deriving DecidableEq

/-- A buffer: where it lies, and who uses it. -/
structure Buffer where
  device : String
  size : Int
  dtype : DType
  options : Option Spec := none
  base : Option Nat := none
  /-- The offset in the base, in bytes. -/
  offset : Int := 0
  storage : Option Storage := none
  views : Int := 0
  refs : Int := 0
  event : Nat := 0
  opened : Bool := false

namespace Buffer

def bytes (b : Buffer) : Int := b.size * b.dtype.itemsize

def onDisk (b : Buffer) : Bool := b.device.startsWith "DISK"

def text (b : Buffer) (allocated : Bool) : String :=
  let real := if allocated then "True" else "False"
  s!"<buf real:{real} device:{b.device} size:{b.size} dtype:{b.dtype.text}" ++
    (if b.base.isSome then s!" offset:{b.offset}" else "") ++
    b.options.elim "" (" self.options=" ++ ·.text) ++ ">"

/-- A buffer of its own; images wish for images, and pointers cannot be elements. -/
def new (device : String) (size : Int) (d : DType) : Result Buffer :=
  if d.isImage then .ok { device, size, dtype := d, options := some { image := some d } }
  else if d.isPtr then .error (.broken "")
  else .ok { device, size, dtype := d }

end Buffer

structure MemoryEvent where
  device : String
  isAlloc : Bool
  nanoseconds : Nat
  number : Nat
  dtype : DType
  size : Int
  bytes : Int

/-- The state of a disk device: the size with which its file is open, by how many buffers, and how
many bytes are mapped. -/
structure Disk where
  size : Option Nat := none
  users : Int := 0
  mapped : Option Nat := none

/-- All buffers and the memory behind them. -/
structure Heap where
  buffers : Std.HashMap Nat Buffer := {}
  next : Nat := 0
  blocks : Std.HashMap Nat ByteArray := {}
  nextBlock : Nat := 0
  recycler : Recycler (Option Spec) Nat := {}
  recycling : Bool := true
  inUse : Int := 0
  disks : List (String × Disk) := []
  files : List (String × ByteArray) := []
  clock : Clock := {}
  profiling : Bool := false
  events : Array MemoryEvent := #[]

abbrev HeapM := EStateM Failure Heap

namespace Heap

def ofExcept {α : Type} : Result α → HeapM α
  | .ok a => pure a
  | .error f => throw f

instance : MonadLift Result HeapM := ⟨ofExcept⟩

def add (b : Buffer) : HeapM Nat := do
  let h ← get
  modify fun h => { h with buffers := h.buffers.insert h.next b, next := h.next + 1 }
  return h.next

variable (n : Nat)

def find : HeapM Buffer := do
  (← get).buffers[n]?.getDM (throw .missingKey)

def change (f : Buffer → Buffer) : HeapM Unit :=
  modify fun h => match h.buffers[n]? with
    | some b => { h with buffers := h.buffers.insert n (f b) }
    | none => h

variable (h : Heap)

def hasStorage (n : Nat) : Bool := h.buffers[n]?.elim false (·.storage.isSome)

def isAllocated (n : Nat) : Bool :=
  h.buffers[n]?.elim false fun b => h.hasStorage (b.base.getD n)

def isInitialized (n : Nat) : Bool := h.isAllocated n && h.hasStorage n

def now : HeapM Nat := do
  modify fun h => { h with clock := h.clock.tick }
  return (← get).clock.nanoseconds

def newBlock (b : ByteArray) : HeapM Nat := do
  let h ← get
  modify fun h => { h with blocks := h.blocks.insert h.nextBlock b, nextBlock := h.nextBlock + 1 }
  return h.nextBlock

variable (device : String)

def path : String := String.ofList (device.toList.drop 5)

def file? (p : String) : Option ByteArray := (h.files.find? (·.1 = p)).map (·.2)

def putFile (p : String) (b : ByteArray) : HeapM Unit :=
  modify fun h =>
    if h.files.any (·.1 = p) then
      { h with files := h.files.map fun (q, c) => if q = p then (q, b) else (q, c) }
    else { h with files := h.files ++ [(p, b)] }

def disk (device : String) : Disk :=
  ((h.disks.find? (·.1 = device)).map (·.2)).getD {}

def putDisk (d : Disk) : HeapM Unit :=
  modify fun h => { h with disks := (device, d) :: h.disks.filter (·.1 ≠ device) }

def extend (b : ByteArray) (n : Nat) : ByteArray := b ++ Bytes.zeros (n - b.size)

def openDisk (size : Nat) : HeapM Unit := do
  let d := (← get).disk device
  if let some n := d.size then
    if size > n then
      throw (.broken (s!"can't reopen Disk tensor with larger size, opened with {n}, " ++
        s!"tried to open with {size}"))
  let p := path device
  let b := ((← get).file? p).getD ByteArray.empty
  putFile p (extend b size)
  putDisk device { size := some size, users := d.users + 1, mapped := some size }

def closeDisk : HeapM Unit := do
  let d := (← get).disk device
  let d := { d with users := d.users - 1 }
  putDisk device (if d.users = 0 then { d with size := none } else d)

def supplier : Supplier Heap (Option Spec) Nat where
  alloc size _ h :=
    (.ok h.nextBlock, { h with
      blocks := h.blocks.insert h.nextBlock (Bytes.zeros size.toNat)
      nextBlock := h.nextBlock + 1 })
  free n h := { h with blocks := h.blocks.erase n }

/-- Memory for a buffer on a device of a kind. -/
def obtain (kind : Device.Kind) (b : Buffer) : HeapM Storage := do
  let n := b.bytes.toNat
  let positive : HeapM Unit :=
    if b.bytes ≤ 0 then throw (.broken s!"alloc size must be positive, getting {b.bytes}") else pure ()
  match kind with
  | .host =>
    match b.options.bind (·.external) with
    | some m =>
      positive
      return .block m 0 n
    | none =>
      let h ← get
      let (r, kept, h) := h.recycler.alloc supplier b.bytes b.options h
      set { h with recycler := kept }
      return .block (← r) 0 n
  | .disk =>
    positive
    openDisk b.device n
    return .file 0 n
  | .machine | .array =>
    positive
    return .block (← newBlock (Bytes.zeros n)) 0 n

def note (b : Buffer) (isAlloc : Bool) (number : Option Nat) : HeapM Nat := do
  if !(← get).profiling then return 0
  let k := number.getD (← get).events.size
  let t ← now
  let e : MemoryEvent :=
    { device := b.device, isAlloc, nanoseconds := t, number := k, dtype := b.dtype, size := b.size,
      bytes := b.bytes }
  modify fun h => { h with events := h.events.push e }
  return k

/-- Memory for a buffer that is no part of another. -/
def allocateBase (given : Option Storage := none) (external : Option Nat := none) : HeapM Unit := do
  if (← get).isInitialized n then throw (.broken "can't allocate already allocated buffer")
  let b ← find n
  let kind ← Device.open? b.device
  let b := match external with
    | some m => { b with options := some ({ (b.options.getD {}) with external := some m } : Spec) }
    | none => b
  change n fun c => { c with options := b.options, opened := true }
  let s ← given.getDM (obtain kind b)
  change n fun c => { c with storage := some s }
  if !b.onDisk then modify fun h => { h with inUse := h.inUse + b.bytes }
  let k ← note b true none
  change n fun c => { c with event := k }

/-- Allocate a buffer that is a stretch of another, which is allocated first. -/
def allocateView (n base : Nat) : HeapM Unit := do
  if (← get).isInitialized n then throw (.broken "can't allocate already allocated buffer")
  let b ← find n
  let kind ← Device.open? b.device
  change n fun c => { c with opened := true }
  if !(← get).isInitialized base then allocateBase base
  change base fun c => { c with views := c.views + 1 }
  if !kind.canView then throw (.broken "offset function required for view")
  let offset := b.offset.toNat
  let s ← match (← find base).storage with
    | some (.block m start size) =>
      pure (Storage.block m (start + min offset size) (min (size - offset) b.bytes.toNat))
    | some (.file _ _) => pure (Storage.file offset b.bytes.toNat)
    | none => throw .missingMember
  change n fun c => { c with storage := some s }

def allocate : HeapM Unit := do
  match (← find n).base with
  | some m => allocateView n m
  | none => allocateBase n

def ensure : HeapM Unit := do
  if !(← get).isInitialized n then allocate n

def release (b : Buffer) : HeapM Unit := do
  match b.storage, ← Device.open? b.device with
  | some (.block m _ _), .host =>
    let h ← get
    let keep := h.recycling && !(b.options.elim false (·.noRecycling))
    let (kept, h) := h.recycler.free supplier keep m b.bytes b.options h
    set { h with recycler := kept }
  | some (.file _ _), .disk => closeDisk b.device
  | some (.block m _ _), _ => modify fun h => { h with blocks := h.blocks.erase m }
  | _, _ => pure ()

def deallocate (n : Nat) : HeapM Unit := do
  let b ← find n
  if b.storage.isNone then throw (.broken "buffer must be allocated to deallocate")
  match b.base with
  | some m => change m fun c => { c with views := c.views - 1 }
  | none =>
    if (b.options.bind (·.external)).isNone then
      if !b.onDisk then modify fun h => { h with inUse := h.inUse - b.bytes }
      let _ ← note b false (some b.event)
      release b
  change n fun c => { c with storage := none }

def drop : HeapM Unit := do
  if ((← find n).storage).isSome then deallocate n
  modify fun h => { h with buffers := h.buffers.erase n }

def mapped (device : String) : HeapM Nat := do
  ((← get).disk device).mapped.getDM (throw (.broken s!"DiskBuffer wasn't opened: {device}"))

def fetch (s : Storage) : HeapM ByteArray := do
  match s with
  | .block m offset size =>
    return (((← get).blocks[m]?).getD ByteArray.empty).extract offset (offset + size)
  | .file offset size =>
    let n ← mapped device
    let b := ((← get).file? (path device)).getD ByteArray.empty
    return b.extract (min offset n) (min (offset + size) n)

def splice (b : ByteArray) (offset : Nat) (new : ByteArray) : ByteArray :=
  b.extract 0 offset ++ new ++ b.extract (offset + new.size) b.size

def putBytes (s : Storage) (new : ByteArray) : HeapM Unit := do
  match s with
  | .block m offset size =>
    let old := ((← get).blocks[m]?).getD ByteArray.empty
    let b := if offset = 0 && size = old.size && new.size = size then new else splice old offset new
    modify fun h => { h with blocks := h.blocks.insert m b }
  | .file offset size =>
    let n ← mapped device
    if min (offset + size) n - min offset n ≠ new.size then throw .invalidValue
    let b := ((← get).file? (path device)).getD ByteArray.empty
    putFile (path device) (splice b offset new)

def mismatch (b : Buffer) (n : Nat) : Failure :=
  .broken s!"size mismatch, len(mv)={n} != self.dtype={b.dtype.text} self.size={b.size}"

def copyIn (bytes : ByteArray) : HeapM Unit := do
  let b ← find n
  if (bytes.size : Int) ≠ b.bytes then throw (mismatch b bytes.size)
  if !(← get).isInitialized n then throw (.broken "can't copyin to unallocated buffer")
  match b.storage, ← Device.open? b.device with
  | _, .array => throw (.because .unsupported "need copyin")
  | some s, _ => putBytes b.device s bytes
  | none, _ => pure ()

def copyOutTo (n length : Nat) : HeapM ByteArray := do
  let b ← find n
  if (length : Int) ≠ b.bytes then throw (mismatch b length)
  if !(← get).isInitialized n then throw (.broken "can't copyout unallocated buffer")
  let some s := b.storage | return ByteArray.empty
  let r ← fetch b.device s
  if r.size = length then return r
  else if b.onDisk then throw .invalidValue
  else return extend r length

def copyOut : HeapM ByteArray := do copyOutTo n (← find n).bytes.toNat

/-- The contents of a buffer without a copy, where the device can; `force` refuses copies. -/
def look (force : Bool) : HeapM ByteArray := do
  let b ← find n
  if !b.opened then
    if force then throw .missingMember else return (← copyOut n)
  let kind ← Device.open? b.device
  if kind.canShow && (b.options.bind (·.image)).isNone then
    let some s := b.storage | throw .missingMember
    fetch b.device s
  else if force then throw (.broken "force zero copy was passed, but copy is required")
  else copyOut n

/-- The code of the elements of a buffer, where they can be seen one by one. -/
def elementCode (b : Buffer) : Result Char :=
  match b.dtype.base.code? with
  | none => .error (.broken s!"no fmt dtype for {b.dtype.base.text}")
  | some 'e' => .error (.broken "")
  | some c => .ok c

def view (size : Int) (d : DType) (offset : Int) : HeapM Nat := do
  let b ← find n
  if offset ≥ b.bytes then throw (.broken "offset must be less than nbytes")
  let v ← Buffer.new b.device size d
  match b.base with
  | some m => add { v with base := some m, offset := b.offset + offset }
  | none => add { v with base := some n, offset }

def text (n : Nat) : HeapM String := do
  return (← find n).text ((← get).isAllocated n)

end Heap

end LazyTensor
