import LazyTensor.Layout.OfExpr

/-!
# The memory a node stands for

A buffer node stands for memory on one device, or for equal memories on several.  A view of a
buffer stands for a stretch of it; a movement that keeps the order of all elements changes nothing.
-/

namespace LazyTensor

structure Region where
  device : String
  size : Int
  dtype : DType
  /-- The node of the buffer the region is part of. -/
  root : Expr
  /-- Which of the memories of that buffer, where it is on several devices. -/
  part : Nat := 0
  /-- The offset in bytes, for a region that is a view of another. -/
  offset : Option Int := none

namespace Region

def bytes (r : Region) : Int := r.size * r.dtype.itemsize

def make (device : String) (size : Int) (d : DType) (root : Expr) (part : Nat := 0)
    (offset : Option Int := none) : Result Region :=
  if d.isPtr then .error (.broken "")
  else .ok { device, size, dtype := d, root, part, offset }

def view (r : Region) (size : Int) (d : DType) (offset : Int) : Result Region :=
  if offset ≥ r.bytes then .error (.broken "offset must be less than nbytes")
  else make r.device size d r.root r.part (some (r.offset.getD 0 + offset))

def optionsText (r : Region) : String :=
  if r.dtype.isImage then
    s!" self.options=BufferSpec(image={r.dtype.text}, uncached=False, cpu_access=False, " ++
      "host=False, nolru=False, external_ptr=None)"
  else ""

def text (r : Region) (allocated : Bool) : String :=
  let real := if allocated then "True" else "False"
  let offset := match r.offset with
    | some n => s!" offset:{n}"
    | none => ""
  s!"<buf real:{real} device:{r.device} size:{r.size} dtype:{r.dtype.text}" ++ offset ++
    r.optionsText ++ ">"

end Region

inductive Memory where
  | single (r : Region)
  | several (rs : List Region)

namespace Memory

def regions : Memory → List Region
  | single r => [r]
  | several rs => rs

/-- The region that stands for all: there has to be one. -/
def first (m : Memory) : Result Region :=
  match m.regions with
  | r :: _ => .ok r
  | [] => .error .outOfRange

def size (m : Memory) : Result Int := m.first.map (·.size)

def dtype (m : Memory) : Result DType := m.first.map (·.dtype)

def text (m : Memory) (allocated : Region → Bool) : Result String :=
  match m with
  | single r => .ok (r.text (allocated r))
  | several rs => do
    let r ← m.first
    let real := if rs.all allocated then "True" else "False"
    let devices := tupleOf (rs.map fun r => Quoted.text r.device)
    return s!"<multibuf real:{real} device:{devices} size:{r.size} dtype:{r.dtype.text}>"

end Memory

namespace Expr

def isMoved (e : Expr) : Bool :=
  (e.op = .view && !e.src.isEmpty) || e.op.isMovement || e.op = .multi

def bufferMemory (e : Expr) : GraphM Memory := do
  let d := if e.dtype.isImage then e.dtype else e.dtype.base
  let n ← e.size
  match ← e.device with
  | .tuple ds =>
    let rs ← ds.zipIdx.mapM fun (x, i) => match x with
      | .text s => liftM (Region.make s n d e i)
      | _ => throw Failure.wrongType
    return .several rs
  | .text s => return .single (← Region.make s n d e)
  | _ => throw .wrongType

/-- The memory that a node is kept in. -/
def memory (e : Expr) : GraphM Memory := do
  match e with
  | .mk number op d src arg tag =>
    let self : Expr := .mk number op d src arg tag
    if self.isMoved then
      let some l ← self.layout? | throw (.broken "")
      if !Layout.contiguous l then throw (.broken "VIEW only works here if it's contiguous")
    match op, src.attach with
    | .mstack, srcs =>
      let ms ← srcs.mapM fun ⟨a, _⟩ => a.memory
      let sizes ← ms.mapM fun m => liftM m.size
      let types ← ms.mapM fun m => liftM m.dtype
      if sizes.eraseDups.length > 1 || types.eraseDups.length > 1 then
        throw (.broken "multibuffers mismatch buffers")
      return .several (ms.flatMap Memory.regions)
    | .mselect, ⟨a, _⟩ :: _ =>
      match ← a.memory, arg.int? with
      | .several rs, some i =>
        let j := if i < 0 then i + rs.length else i
        let some r := if j < 0 then none else rs[j.toNat]? | throw .outOfRange
        return .single r
      | .several _, none => throw .wrongType
      | _, _ => throw (.broken "")
    | .store, ⟨a, _⟩ :: _ => a.memory
    | .bufferView, ⟨a, _⟩ :: _ =>
      match ← a.memory with
      | .single r =>
        let n :: o :: _ := arg.items | throw .outOfRange
        match n.int?, o.int? with
        | some n, some o => return .single (← r.view n d o)
        | _, _ => throw .wrongType
      | .several _ => throw .missingMember
    | .mselect, [] | .store, [] | .bufferView, [] => throw .outOfRange
    | .buffer, _ => self.bufferMemory
    | _, ⟨a, _⟩ :: _ =>
      if self.isMoved then a.memory else throw (.broken s!"must be BUFFER {op.text}")
    | _, [] => throw (.broken s!"must be BUFFER {op.text}")
termination_by e

/-- The node of the buffer that a node is kept in. -/
def bufferNode (e : Expr) : ExprM := do
  match e with
  | .mk number op d src arg tag =>
    match op, src.attach with
    | .buffer, _ | .bufferView, _ => return .mk number op d src arg tag
    | .mselect, ⟨a, _⟩ :: _ =>
      let b ← a.bufferNode
      node .mselect b.dtype [b] arg
    | .mstack, srcs =>
      node .mstack d (← srcs.mapM fun ⟨a, _⟩ => a.bufferNode)
    | .store, ⟨a, _⟩ :: _ => return a.base
    | .mselect, [] | .store, [] => throw .outOfRange
    | _, _ => throw (.broken s!"must be ASSIGN {op.text}")
termination_by e

/-- Whether no operation of a graph turns zeros into something else, down to some nodes. -/
def canPad (e : Expr) (stop : Expr → Bool) : Bool :=
  (e.toposortGated fun x => !stop x).all fun x => !x.op.isUnsafePad

end Expr

end LazyTensor
