import LazyTensor.Archive.ObjectStream
import LazyTensor.Archive.Tar
import LazyTensor.Archive.Weights
import LazyTensor.Archive.Zip

/-!
# Saved models

A saved model is an object stream whose tensors refer to storages.  Three layouts are in use: an
archive with the stream in one entry and the storages in others; an archive with a list of storages, a
list of tensors and the stream; and streams one behind the other with the storages at the end.
-/

namespace LazyTensor

open Session (traced)

namespace TarFile

def whole (b : ByteArray) : Result ByteArray :=
  if b.data.getD 0 0 = 0x1f && b.data.getD 1 0 = 0x8b then
    match Gzip.decompress b with
    | .ok out => .ok out
    | .error f => .error (if f.kind = .endOfData then f else .bare .badArchive)
  else .ok b

def isArchive (b : ByteArray) : Result Bool :=
  match whole b with
  | .ok out => .ok (Tar.isArchive out)
  | .error f => if f.kind = .endOfData then .error f else .ok false

def extract (t : Tensor) : SessionM (List (String × Tensor)) := do
  let bytes ← Weights.readAll t
  let found ← Tar.members (← whole bytes)
  found.foldlM (fun acc m => do
    if m.kind ≠ 48 then return acc
    let part ← Weights.slice t m.start (some ((m.start : Int) + m.size))
    return Entries.put acc m.name part) []

end TarFile

namespace Checkpoint

open ObjectStream

abbrev Offsets := List (Stored × Int)

def Offsets.put (os : Offsets) (key : Stored) (n : Int) : Offsets :=
  (key, n) :: os.filter fun o => !(o.1.sameKey key)

/-- The positions of numbers from the least to the greatest. -/
def order (xs : List Int) : List Nat :=
  (xs.zipIdx.mergeSort fun a b => a.1 ≤ b.1).map (·.2)

def integers (v : Stored) : Result (List Int) :=
  match v with
  | .tuple xs => xs.mapM fun x => x.int?.getDM (.error .wrongType)
  | _ => .error .wrongType

def integer (v : Stored) : Result Int :=
  v.int?.getDM (.error .wrongType)

/-- Elements that lie in another order than the shape has: a dense shape that they lie in, the strides
that are asked for along it, and the order of its axes that gives the shape. -/
structure Arrangement where
  dense : List Int
  strides : List Int
  turned : List Int

/-- The axes of more than one element, with their strides. -/
def wideAxes (size stride : List Int) : List (Int × Int) :=
  (size.zip stride).filter fun a => a.1 ≠ 1

/-- The order of dense axes that is taken for axes with the given strides. -/
def turning (strides : List Int) : List Int :=
  (order strides).map fun y => Int.ofNat (strides.length - 1 - y)

/-- How elements lie that have a shape and strides; there is nothing to turn if the strides descend. -/
def arrangement? (size stride : List Int) : Option Arrangement :=
  let sizes := (wideAxes size stride).map (·.1)
  let strides := (wideAxes size stride).map (·.2)
  let turned := turning strides
  let back := order turned
  if turned = (List.range turned.length).map Int.ofNat then none
  else some {
    dense := back.map fun i => sizes.getD i 0
    strides := back.map fun i => strides.getD i 0
    turned }

/-- Whether the strides that are asked for are those of the dense shape. -/
def Arrangement.accepted (a : Arrangement) : SessionM Bool := do
  return a.strides.map Dim.int == (← Shape.strides (a.dense.map Dim.int))

variable (t : Tensor)

/-- A tensor from a storage: its element type, its place in the file, where the tensor begins in it,
and the shape and strides. -/
def view (d : DType) (start offset : Int) (size stride : List Int) : TensorM := do
  let first := start + offset * d.itemsize
  let part ← Weights.slice t first (some (first + size.foldl (· * ·) 1 * d.itemsize))
  let x ← traced "bitcast" (part.bitcast d)
  let x ← match arrangement? size stride with
    | none => pure x
    | some a =>
      if !(← a.accepted) then throw (.broken "nonpermutable strides")
      let dims := a.dense.map Dim.int
      if (← Session.setting .debug) ≥ 3 then
        let shown := String.intercalate ", " (a.turned.map toString)
        Session.print (s!"WARNING: this torch load is slow. to permute {Dim.shapeText dims} with " ++
          s!"[{shown}]")
      if d = .bfloat16 then throw (.broken "can't permute BF16")
      let x ← traced "to" (x.movedTo none)
      let x ← traced "reshape" (x.reshape dims)
      traced "permute" (x.permute a.turned)
  traced "reshape" (x.reshape (size.map Dim.int))

/-- A tensor from a storage, and the length of the storage in bytes.  There is no tensor as long as
nobody knows where the storage begins. -/
def rebuild (offsets : Offsets) (args : List Stored) :
    SessionM (Stored × Option (Stored × Int)) := do
  let storage :: offset :: size :: stride :: rest := args | throw .wrongType
  if rest.length > 3 then throw .wrongType
  match storage with
  | .tuple (_ :: kind :: key :: _ :: count :: _) =>
    let d ← match kind with
      | .global (.storage d) => pure d
      | _ => throw .missingMember
    let length := (← integer count) * d.itemsize
    let some (_, start) := offsets.find? fun o => o.1.sameKey key
      | return (.none, some (key, length))
    let x ← view t d start (← integer offset) (← integers size) (← integers stride)
    let x ← x.keep
    return (.tensor (← x.placeOf), some (key, length))
  | .tuple _ => throw .outOfRange
  | _ => throw .wrongType

def known : List (String × Stored) :=
  [("_rebuild_tensor_v2", .global .rebuild), ("FloatTensor", .none),
   ("Parameter", .global .parameter)] ++
  [("Half", DType.half), ("Float", .float), ("BFloat16", .bfloat16), ("Int", .int), ("Bool", .bool),
   ("Long", .long)].map fun (n, d) => (n ++ "Storage", .global (.storage d))

/-- What a name in a stream of objects stands for. -/
def globalOf (module name : String) : SessionM Stored := do
  match (module.splitOn ".").headD "" with
  | "torch" =>
    (known.lookup name).getDM (throw .missingKey)
  | "collections" =>
    if name = "OrderedDict" then return .global .orderedDict
    else if ["deque", "defaultdict", "Counter", "ChainMap", "UserDict", "UserList",
        "UserString"].contains name then return .global (.other "type")
    else throw .missingMember
  | "_codecs" =>
    if name = "encode" then return .global .encoder else throw .missingMember
  | "numpy" => return .global (.other "type")
  | _ =>
    if (← Session.setting .debug) ≥ 2 then
      Session.print s!"WARNING: returning Dummy for {module} {name}"
    return .global .placeholder

/-- What a stream refers to, for storages at places and tensors that are known already. -/
def loader (offsets : Offsets) (tensors : List (String × Stored) := []) : Loader where
  global := globalOf
  outside := fun key => match key with
    | .text s => return (tensors.lookup s).getD key
    | .cell _ => throw .wrongType
    | _ => return key
  rebuild := rebuild t offsets

variable (b : ByteArray)

/-- A checkpoint in the new form, a zip archive. -/
def ofZip : StreamM Stored := do
  let entries ← Zip.entries b
  let base ← match entries with
    | e :: _ => pure ((e.name.splitOn "/").headD "")
    | [] => throw .outOfRange
  let offsets ← (entries.filter fun e => e.name.startsWith (base ++ "/data/")).foldlM
    (fun (acc : Offsets) e => do
      let start ← (do Zip.dataStart b (← Zip.find entries e.name))
      let key := Stored.text ((e.name.splitOn "/").getLastD "")
      return acc.put key start) []
  let contents ← (liftM (do Zip.contents b (← Zip.find entries (base ++ "/data.pkl"))) :
    SessionM ByteArray)
  modify fun m => { m with data := contents, position := 0 }
  ObjectStream.load (loader t offsets)

def fresh (l : Loader) : StreamM Stored := do
  modify fun m => { m with memo := {} }
  ObjectStream.load l

def number (code : Char) : StreamM Int := do
  let m ← get
  let bs := (m.data.extract m.position (m.position + Packing.size code)).data.toList
  set { m with position := m.position + bs.length }
  if bs.length ≠ Packing.size code then throw .badPacking
  let .int n ← Packing.unpack code bs | throw .badPacking
  return n

def numbers (code : Char) : Nat → StreamM (List Int)
  | 0 => return []
  | n + 1 => do
    let x ← number code
    return x :: (← numbers code n)

def openMember (ms : List Tar.Member) (name : String) : StreamM Nat := do
  let m ← (ms.reverse.find? (·.name = name)).getDM (throw .missingKey)
  if !m.isRegular then throw (.broken "")
  modify fun s => { s with
    data := b.extract m.start (m.start + m.size.toNat), position := 0 }
  return m.start

def three (v : Stored) : StreamM (Stored × Stored × Stored) := do
  let [a, b, c] ← itemsOf v | throw .invalidValue
  return (a, b, c)

/-- The list of storages: where they begin, and the element type of the last. -/
def storages (t : Tensor) (start : Nat) : Nat → Offsets → Option DType →
    StreamM (Offsets × Option DType)
  | 0, acc, last => return (acc, last)
  | n + 1, acc, _ => do
    let (key, _, kind) ← three (← fresh (loader t acc))
    let size ← number 'q'
    let here := (← get).position
    let .global (.storage d) := kind | throw .missingMember
    modify fun m => { m with position := (min ((here : Int) + size * d.itemsize) m.data.size).toNat }
    storages t start n (acc.put key (start + here)) (some d)

def tensors (t : Tensor) (offsets : Offsets) (last : Option DType) : Nat →
    List (String × Stored) → StreamM (List (String × Stored))
  | 0, acc => return acc
  | n + 1, acc => do
    let (key, storage, _) ← three (← fresh (loader t offsets acc))
    let ndim ← number 'i'
    modify fun m => { m with position := min (m.position + 4) m.data.size }
    let size ← numbers 'q' ndim.toNat
    let stride ← numbers 'q' ndim.toNat
    let offset ← number 'q'
    let d ← last.getDM (throw (.bare .unbound))
    let (x, _) ← rebuild t offsets [.tuple [.none, .global (.storage d), storage, .none, .int (-1)],
      .int offset, .tuple (size.map .int), .tuple (stride.map .int)]
    let name := match key with
      | .text s => s
      | .int k => s!"{k}"
      | _ => ""
    tensors t offsets last n ((name, x) :: acc.filter (·.1 ≠ name))

def count (v : Stored) : StreamM Nat := do return (← v.int?.getDM (throw .wrongType)).toNat

/-- A checkpoint in the old form, an archive of three streams. -/
def ofTar : StreamM Stored := do
  let b ← TarFile.whole b
  let ms ← Tar.members b
  let start ← openMember b ms "storages"
  let n ← count (← fresh (loader t []))
  let (offsets, last) ← storages t start n [] none
  let _ ← openMember b ms "tensors"
  let n ← count (← fresh (loader t offsets))
  let known ← tensors t offsets last n []
  let _ ← openMember b ms "pickle"
  let .cell c ← fresh (loader t offsets known) | throw .missingMember
  let .dict es _ ← cellOf c | throw .missingMember
  let es ← es.mapM fun (k, v) => do
    match v with
    | .cell p =>
      match ← cellOf p with
      | .made .parameter (some x) => return (k, x)
      | .made .parameter none => throw .missingMember
      | _ => return (k, v)
    | v => return (k, v)
  newCell (.dict es false)

/-- The model in streams one behind the other, with the storages at the end. -/
def ofStreams : StreamM Stored := do
  modify fun m => { m with data := b, position := 0 }
  let first := loader t []
  for _ in List.range 3 do
    let _ ← ObjectStream.load first
  let mark := (← get).position
  let _ ← ObjectStream.load first
  let ids ← ObjectStream.load first
  let m ← get
  let (offsets, _) ← (← itemsOf ids).foldlM (fun (acc : Offsets × Int) key => do
    let (_, length) ← (m.lengths.find? fun o => o.1.sameKey key).getDM (throw .missingKey)
    return (acc.1.put key (acc.2 + 8), acc.2 + 8 + length))
    ([], (m.position : Int))
  modify fun m => { m with position := mark }
  fresh (loader t offsets)

def load : SessionM (Stored × ObjectStream.Machine) := do
  let b ← Weights.readAll t
  if Zip.isArchive b then (ofZip t b).run { data := b }
  else if ← TarFile.isArchive b then (ofTar t b).run { data := b }
  else (ofStreams t b).run { data := b }

end Checkpoint

end LazyTensor
