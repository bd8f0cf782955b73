import LazyTensor.Console.Inspection

/-!
# Steps on memory and files

Steps that make files, look at the memory of tensors, and save tensors and load them again.

A saved tensor holds its graph, and the contents of the buffers in it.  When it is loaded, a buffer
that is still in use is found again; only for the others the saved contents are put into new memory.
-/

namespace LazyTensor.Saving

def buffers? (e : Expr) : SessionM (Option SavedBuffers) := do
  if !(e.is .buffer && (← Inspection.isRealized e)) then return none
  let numbers ← Session.buffersOf e
  let contents ← numbers.mapM fun n => do
    let b ← Heap.find n
    let bytes ← Heap.copyOut n
    return (b, some bytes)
  return some { node := e, contents }

def save (n : Nat) : SessionM SavedTensor := do
  let k ← Session.keptAt n
  let grad ← k.grad.mapM Session.keptAt
  let graphs := [k.node] ++ (grad.map (·.node)).toList
  let nodes := (graphs.flatMap fun e => e.toposort.toList).eraseDups
  let withContents ← Session.settingOn .pickleBuffers
  let buffers ← if withContents then nodes.filterMapM buffers? else pure []
  return { tensor := k, grad, buffers }

def load (s : SavedTensor) : SessionM Nat := do
  for b in s.buffers do
    if !(← get).owned.contains b.node.number then
      let numbers ← b.contents.mapM fun (x, bytes) => do
        let n ← Heap.add { x with storage := none, views := 0, opened := false, base := none }
         
        if let some bytes := bytes then
          Heap.allocate n
          Heap.copyIn n bytes
        return n
      modify fun st => { st with owned := st.owned.insert b.node.number numbers }
  let grad ← s.grad.mapM fun g => Session.keep { g with grad := none, listed := false }
  Session.keep { s.tensor with grad, listed := false }

/-! ### Files -/

def fileName (v : Value) : SessionM String :=
  match v with
  | .object "PosixPath" n => return s!"$TMP/f{n}"
  | .text s => return s
  | _ => throw .wrongType

def makeFile (args : List Value) : WorkM Value := do
  let w ← get
  set { w with files := w.files + 1 }
  match args with
  | .bytes b :: _ => Heap.putFile s!"$TMP/f{w.files}" ⟨b.toArray⟩
  | _ => pure ()
  return .object "PosixPath" w.files

def readFile (v : Value) : SessionM Value := do
  let b ← ((← get).heap.file? (← fileName v)).getDM (throw (.bare .missingFile))
  return .bytes b.data.toList

def diskBuffer (t : Tensor) : SessionM Value := do
  let n ← Session.singleBuffer (← t.node.base.memory)
  Heap.ensure n
  let b ← Heap.find n
  let some (.file offset size) := b.storage | throw .missingMember
  let bytes ← Heap.fetch b.device (.file offset size)
  return .done (.list [.text s!"<DiskBuffer size={size} offset={offset}>",
    .text (Quoted.hex bytes.data.toList)])

def onMemory (bytes : List UInt8) (c : Call) : TensorM := do
  let w ← c.wish
  let shape ← (← Value.spread [c.get "shape"]).mapM fun v => liftM v.toDim
  let t ← Tensor.empty shape w
  if !Device.isSingle (← t.device) then throw (.broken "")
  let n ← Session.singleBuffer (← t.node.memory)
  let m ← Heap.newBlock ⟨bytes.toArray⟩
  Heap.allocateBase n none (some m)
  return t

def commands : List Command :=
  [ ⟨"file", fun args _ _ => makeFile args⟩,
    .one "read_file" fun v => readFile v,
    ⟨"disk_empty", fun args names _ => match args with
      | [p, shape] => Session.traced "empty" do
        let c ← (Signature.parse "shape **").bind [shape] names
        let w ← c.wish
        let shape ← (← Value.spread [shape]).mapM fun v => liftM v.toDim
        let path ← fileName p
        Value.ofTensor (← Tensor.empty shape { w with device := some (.text ("disk:" ++ path)) })
      | _ => throw .wrongType⟩,
    .onTensor "disk_buf" diskBuffer,
    .onTensor "copyout_sharded" fun _ => throw (.broken "function requires io uring support"),
    ⟨"from_blob", fun args names _ => match args with
      | .bytes b :: rest => Session.traced "from_blob" do
        Value.ofTensor (← onMemory b (← (Signature.parse "shape **").bind rest names))
      | _ => throw .wrongType⟩,
    .onTensor "pickle" fun t => do
      let s ← save (← t.placeOf)
      return .object "Tensor" (← load s),
    ⟨"dumps", fun args _ _ => match args with
      | [.object "Tensor" n] => do
        let s ← save n
        let w ← get
        set { w with saved := w.saved.insert w.next s, next := w.next + 1 }
        return .object "saved" w.next
      | _ => throw .wrongType⟩,
    ⟨"loads", fun args _ _ => match args with
      | [.object "saved" n] => do
        let s ← ((← get).saved[n]?).getDM (throw .missingKey)
        return .object "Tensor" (← load s)
      | _ => throw .wrongType⟩,
    ⟨"drop", fun args _ _ => match args with
      | [.text n] => do
        modify fun w => { w with names := w.names.filter (·.1 ≠ n) }
        return .null
      | _ => throw .badInput⟩ ]

end LazyTensor.Saving
