import LazyTensor.Archive.Checkpoint
import LazyTensor.Console.Fault
import LazyTensor.Console.Layers
import LazyTensor.Console.Saving

/-!
# Steps on archives and pages

Steps that read tensors from files of several formats, that read a tensor as if it were a file, and
that fetch tensors from pages.
-/

namespace LazyTensor

open Session (traced)

namespace Archives

def tensorAt (v : Value) : TensorM := do
  match v with
  | .object "Tensor" n => Tensor.atPlace n
  | .object "PosixPath" _ | .text _ => Tensor.new (.file (← Saving.fileName v)) {}
  | _ => throw .wrongType

def valueOf : Json → Value
  | .null => .null
  | .bool b => .bool b
  | .int n => .int n
  | .dec x => .float x
  | .text s => .text s
  | .list xs => .list (xs.map valueOf)
  | .record fs => .dict (fs.attach.map fun ⟨(k, x), _⟩ => (.text k, valueOf x))
termination_by j => sizeOf j
decreasing_by
  all_goals simp_wf
  · have := List.sizeOf_lt_of_mem ‹_›
    omega
  · rename_i h
    have := List.sizeOf_lt_of_mem h
    simp at this
    omega

/-- A document whose records hold every name once: the last value, in the first place. -/
def tidied : Json → List (String × Json)
  | .record fs => fs.foldl (fun acc (k, x) => Entries.put acc k x) []
  | _ => []

def dictOf (ts : List (String × Tensor)) : SessionM Value := do
  return .dict (← ts.mapM fun (k, t) => do return (.text k, ← Value.ofTensor t))

def entryValue : Entry → Value
  | .const c => .ofConst c
  | .bytes b => .bytes b
  | .text s => .text s
  | .list xs => .list (xs.map entryValue)

def storedValue (cells : Std.HashMap Nat Cell) : Nat → Stored → Value
  | 0, _ => .null
  | depth + 1, v =>
    let again := storedValue cells depth
    match v with
    | .none => .null
    | .bool b => .bool b
    | .int n => .int n
    | .float x => .float x
    | .text s => .text s
    | .bytes b => .bytes b
    | .tuple xs => .tuple (xs.map again)
    | .tensor n => .object "Tensor" n
    | .global (.storage d) => .dtype d
    | .global .rebuild => .object "function" 0
    | .global .encoder => .object "builtin_function_or_method" 0
    | .global _ => .object "type" 0
    | .cell n =>
      match cells[n]? with
      | some (.list xs) => .list (xs.map again)
      | some (.dict es _) => .dict (es.map fun (k, x) => (again k, again x))
      | some (.set _) => .object "set" 0
      | some (.made .parameter _) => .object "Parameter" 0
      | some (.made _ _) => .object "Dummy" 0
      | none => .null

def save (tensors : List (Value × Value)) (path : String) (description : Value) : SessionM Unit := do
  let (offset, fields) ← tensors.foldlM (fun (offset, (fields : List (String × Json))) (k, v) => do
    let t ← v.toTensor
    let (name, _) ← (Safetensors.types.find? (·.2 = t.dtype)).getDM (throw .missingKey)
    let shape ← t.shape
    let size : Int := (shape.filterMap Dim.int?).foldl (· * ·) (1 : Int) * t.dtype.itemsize
    let key := match k with
      | .text s => s
      | k => k.shown
    return (offset + size, Entries.put fields key (.record [("dtype", .text name),
      ("shape", .list ((shape.filterMap Dim.int?).map .int)),
      ("data_offsets", .list [.int offset, .int (offset + size)])])))
    ((0 : Int), ([] : List (String × Json)))
  let head := if description.truthy then [("__metadata__", plain description)] else []
  let j := (Json.record (head ++ fields)).write
  let padded := (j.length + 7) / 8 * 8
  let j := j ++ String.ofList (List.replicate (padded - j.length) ' ')
  modify fun s => { s with heap := { s.heap with files := s.heap.files.filter (·.1 ≠ path) } }
  let t ← traced "empty" (Tensor.empty [.int (8 + padded + offset)]
    { device := some (.text ("disk:" ++ path)), dtype := some .uint8 })
  let length ← traced "bitcast" (do (← Weights.slice t 0 (some 8)).bitcast .long)
  let _ ← traced "assign" (length.assignSource (.nested (.list [.leaf (.int padded)])))
  let text ← Weights.slice t 8 (some (8 + padded))
  let _ ← traced "assign" (text.assignSource (.nested (.list (j.toUTF8.data.toList.map fun b =>
    .leaf (.int b.toNat)))))
  for (k, x) in ← Safetensors.load t do
    let (_, v) ← (tensors.find? fun e => Workspace.sameKey e.1 (.text k)).getDM (throw .missingKey)
    let _ ← traced "assign" (do x.assign (← v.toTensor))
where
  plain (v : Value) : Json :=
    match v with
    | .text s => .text s
    | .int n => .int n
    | .bool b => .bool b
    | .float x => .dec x
    | .dict es => .record (es.map fun (k, x) => match k, x with
      | .text a, .text b => (a, .text b)
      | .text a, x => (a, .text x.shown)
      | k, x => (k.shown, .text x.shown))
    | _ => .null

/-! ### Tensors read as files -/

def lengthOf (t : Tensor) : SessionM Int := do
  let [.int n] ← t.shape | return 0
  return n

def bytesAt (t : Tensor) (position : Int) (count : Option Int) : SessionM (List UInt8) := do
  let length ← lengthOf t
  let stop := match count with
    | some n => min length (position + n)
    | none => length
  return (← Weights.readSlice t position stop).data.toList

def firstLine (bs : List UInt8) : List UInt8 × List UInt8 :=
  let line := bs.takeWhile (· ≠ 10)
  (bs.take (line.length + 1), bs.drop (line.length + 1))

def lines : Nat → List UInt8 → List (List UInt8)
  | 0, _ => []
  | _ + 1, [] => []
  | fuel + 1, bs =>
    let (a, rest) := firstLine bs
    a :: lines fuel rest

def linesUpTo (hint : Int) : Int → List (List UInt8) → List (List UInt8)
  | _, [] => []
  | done, l :: ls =>
    let done := done + l.length
    if hint > 0 && done ≥ hint then [l] else l :: linesUpTo hint done ls

/-- One call on a tensor that is read as a file: the result, and the position afterwards. -/
def readStep (t : Tensor) (position : Int) (name : String) (args : List Value) :
    SessionM (Value × Int) := do
  let length ← lengthOf t
  let clamp (n : Int) : Int := min length (max 0 n)
  let count (v : Value) : SessionM (Option Int) := do
    let n ← v.toInt
    return if n < 0 then none else some n
  match name, args with
  | "read", [] | "readall", [] =>
    let b ← bytesAt t position none
    return (.bytes b, position + b.length)
  | "read", [v] =>
    let b ← bytesAt t position (← count v)
    return (.bytes b, position + b.length)
  | "readline", _ =>
    let limit ← match args with
      | [] | [.null] => pure none
      | [v] => count v
      | _ => throw .wrongType
    let (line, _) := firstLine (← bytesAt t position limit)
    return (.bytes line, position + line.length)
  | "readlines", _ =>
    let hint ← match args with
      | [] | [.null] => pure (-1)
      | [v] => v.toInt
      | _ => throw .wrongType
    let b ← bytesAt t position none
    let ls := linesUpTo hint 0 (lines (b.length + 1) b)
    return (.list (ls.map .bytes), position + ls.flatten.length)
  | "tell", [] => return (.int (clamp position), clamp position)
  | "seek", v :: rest =>
    let n ← v.toInt
    let whence ← match rest with
      | [] => pure 0
      | [w] => w.toInt
      | _ => throw .wrongType
    match ([n, position + n, length + n] : List Int)[(if whence < 0 then whence + 3 else whence).toNat]? with
    | some p =>
      if whence < -3 then throw .outOfRange
      return (.int (clamp p), clamp p)
    | none => throw .outOfRange
  | "readable", [] | "seekable", [] => return (.bool true, position)
  | "writable", [] | "isatty", [] => return (.bool false, position)
  | "flush", [] | "close", [] => return (.null, position)
  | "write", [_] => throw (.because .unsupportedOperation "TensorIO.write not supported")
  | "writelines", [_] => throw (.because .unsupportedOperation "TensorIO.writelines not supported")
  | "fileno", [] => throw (.because .unsupportedOperation "fileno")
  | "truncate", _ => throw (.because .unsupportedOperation "truncate")
  | _, _ =>
    if ["read", "readall", "tell", "seek", "readable", "seekable", "writable", "isatty", "flush",
        "close", "write", "writelines", "fileno"].contains name then throw .wrongType
    else throw .missingMember

/-- Calls on a tensor that is read as a file: their answers, and the position afterwards. -/
def readSteps (t : Tensor) : List Value → Int → List Json → SessionM (List Json × Int)
  | [], position, acc => return (acc.reverse, position)
  | step :: rest, position, acc => do
    let (answer, position) ← tryCatch (do
      match step.items? with
      | some (.text name :: args) =>
        let (v, p) ← readStep t position name args
        return (← v.json, p)
      | _ => throw .badInput) fun f => return (Fault.json f, position)
    readSteps t rest position (answer :: acc)

/-! ### Pages -/

def folder : String := "$TMP/web/"

def progress (total : Int) (size : Option Nat) : SessionM Unit := do
  let mut bar : Progress := { total, unit := "B", scaled := true, start := ← Session.now }
  bar ← Layers.advance bar 0 false
  if let some size := size then
    for k in List.range ((size + 16383) / 16384) do
      bar ← Layers.advance bar (min 16384 (size - 16384 * k) : Nat) false
    let _ ← Layers.advance bar 0 true

def fetch (pages : List Page) (url : String) (unpack : Bool) : SessionM String := do
  let files := (← get).heap.files.filterMap fun (p, b) =>
    if p.startsWith folder then some ((p.drop folder.length).toString, b) else none
  let finish (w : Web) : SessionM Unit := do
    for (total, size) in w.transfers do progress total size
    for (p, b) in w.files do
      if !files.any (·.1 = p) then (Heap.putFile (folder ++ p) b)
  match (Web.fetch url { unpack }).run { pages, files } with
  | .ok (path, _) w =>
    finish w
    return if url.startsWith "/" || url.startsWith "." then path else folder ++ path
  | .error f w =>
    finish w
    throw f

def fromUrl (pages : List Page) (url : String) (unpack : Bool) (w : Wish := {}) : TensorM :=
  traced "from_url" do Tensor.new (.file (← fetch pages url unpack)) w

def imageSite (clothes : Bool) : String :=
  if clothes then "http://fashion-mnist.s3-website.eu-central-1.amazonaws.com/"
  else "https://storage.googleapis.com/cvdf-datasets/mnist/"

def images (pages : List Page) (device : Option Arg) (clothes : Bool) : SessionM (List Tensor) := do
  let page (name : String) : TensorM := fromUrl pages (imageSite clothes ++ name) true
  let pictures (part : String) : TensorM := do
    let x ← Weights.slice (← page s!"{part}-images-idx3-ubyte.gz") 16 none
    let x ← traced "reshape" (x.reshape [.int (-1), 1, 28, 28])
    traced "to" (x.movedTo device)
  let labels (part : String) : TensorM := do
    let x ← Weights.slice (← page s!"{part}-labels-idx1-ubyte.gz") 8 none
    traced "to" (x.movedTo device)
  return [← pictures "train", ← labels "train", ← pictures "t10k", ← labels "t10k"]

/-- Small images in colour and what they show, to learn from and to test with. -/
def colourImages (pages : List Page) (device : Option Arg) : SessionM (List Tensor) := do
  let t ← fromUrl pages "https://www.cs.toronto.edu/~kriz/cifar-10-binary.tar.gz" true
  let members ← TarFile.extract t
  let batch (name : String) : TensorM := do
    let t ← (members.lookup s!"cifar-10-batches-bin/{name}.bin").getDM (throw .missingKey)
    let x ← traced "reshape" (t.reshape [.int (-1), 3073])
    traced "to" (x.movedTo device)
  let parts ← (List.range 5).mapM fun i => batch s!"data_batch_{i + 1}"
  let train ← traced "cat" (Tensor.cat parts)
  let test ← batch "test_batch"
  let pictures (t : Tensor) : TensorM := do
    let x ← traced "__getitem__" (t.index [Index.whole, Index.upFrom 1])
    traced "reshape" (x.reshape [.int (-1), 3, 32, 32])
  let labels (t : Tensor) : TensorM :=
    traced "__getitem__" (t.index [Index.whole, .position 0])
  return [← pictures train, ← labels train, ← pictures test, ← labels test]

/-! ### Steps -/

def onArchive (name : String) (f : Tensor → SessionM Value) : Command :=
  .one name fun v => do f (← tensorAt v)

def tupleOf (ts : List Tensor) : SessionM Value := do
  return .tuple (← ts.mapM Value.ofTensor)

def commands : List Command :=
  [ onArchive "safe_load_metadata" fun t => do
      let (start, j) ← Safetensors.metadata t
      let head := match j with
        | .record _ => valueOf (.record (tidied j))
        | j => valueOf j
      return .tuple [← Value.ofTensor t, .int start, head],
    onArchive "safe_load" fun t => do dictOf (← Safetensors.load t),
    .bound "safe_save" "tensors fn metadata?" fun _ c => do
      let .dict es := c.get "tensors" | throw .missingMember
      save es (← Saving.fileName (c.get "fn")) (c.get "metadata")
      return .null,
    onArchive "tar_extract" fun t => do dictOf (← TarFile.extract t),
    onArchive "gguf_load" fun t => do
      let (values, tensors) ← Gguf.load t
      let table := values.map fun (k, v) => (Value.text k, entryValue v)
      return .tuple [.dict table, ← dictOf tensors],
    .bound "ggml_data_to_tensor" "t n ggml_type" fun _ c => do
      Value.ofTensor (← Packed.decode (← c.tensor "t") (← c.int "n") (← c.int "ggml_type")),
    onArchive "torch_load" fun t => do
      let (v, m) ← Checkpoint.load t
      return storedValue m.cells (m.cells.size + m.data.size + 16) v,
    .one "tio" fun v => do
      let t ← v.toTensor
      if (← t.ndim) ≠ 1 || t.dtype ≠ .uint8 then
        throw (.invalid "Tensor must be 1d and of dtype uint8!")
      Workspace.add "TensorIO" [("_position", .int 0), ("_tensor", v)],
    ⟨"tio_do", fun args _ _ => match args with
      | [.object "TensorIO" n, todo] => do
        let i ← Workspace.item n
        let position := match i.parts.lookup "_position" with
          | some (.int p) => p
          | _ => 0
        let t ← ((i.parts.lookup "_tensor").getD .null).toTensor
        let (answers, position) ← readSteps t (todo.items?.getD []) position []
        Workspace.setPart n "_position" (.int position)
        return .done (.list answers)
      | _ => throw .wrongType⟩,
    ⟨"serve", fun args names _ => match args with
      | [.text url, .bytes b] => do
        let status := match names.lookup "status" with
          | some (.int n) => n
          | _ => 200
        let length := (names.lookup "length").bind Value.int?
        let page : Page := { url, status, length, bytes := ⟨b.toArray⟩ }
        modify fun w => { w with pages := page :: w.pages.filter (·.url ≠ url) }
        return .int b.length
      | _ => throw .badInput⟩,
    ⟨"from_url", fun args names _ => do
      let pages := (← get).pages
      traced "from_url" do
        let c ← (Signature.parse "url gunzip=false **").bind args names
        match c.get "url" with
        | .text url =>
          let path ← fetch pages url (c.flag "gunzip")
          Value.ofTensor (← Tensor.new (.file path) (← c.wish))
        | _ => throw .missingMember⟩,
    .bound "mnist" "device? fashion=false" fun w c => do
      tupleOf (← images w.pages (← (c.get "device").asDevice?) (c.flag "fashion")),
    .bound "cifar" "device?" fun w c => do
      tupleOf (← colourImages w.pages (← (c.get "device").asDevice?)) ]

end Archives

end LazyTensor
