import LazyTensor.Console.Expression
import LazyTensor.Console.Fault
import LazyTensor.Object.Format
import LazyTensor.Object.Names
import LazyTensor.Text.Encoding

/-!
# Object files and records
-/

namespace LazyTensor.Objects

def hex (bs : List UInt8) : Json := .text (Quoted.hex bs)

def sectionDoc (s : Elf.Section) : Json :=
  .list [.text s.name, .int s.kind, .int s.address, .int s.size, hex s.content]

def relocation (r : Elf.Relocation) : Json :=
  .list [.int r.place, .int r.target, .int r.kind, .int r.addend]

def answer (j : Json) : GraphM Json := do
  let file : Result (List UInt8) :=
    match (j.field? "b").bind Json.text? with
    | some s => (Value.bytesOfHex? s).getDM (.error Value.bad)
    | none => .error Value.bad
  match ← Request.text j "fn" with
  | "load" =>
    let align := ((j.field? "align").bind Json.int?).getD 1
    let l ← Elf.load (← file) align
    return .record [("image", hex l.image), ("sections", .list (l.sections.map sectionDoc)),
      ("relocs", .list (l.relocations.map relocation))]
  | "jit" => return hex (← Elf.link (← file))
  | "relocate" =>
    .list <$> (← Request.items j "l").mapM fun q => do
      let .list [.int instruction, .int place, .int target, .int kind] := q | throw Value.bad
      match Elf.patch instruction place target kind with
      | .ok n => return .int n
      | .error f => return Fault.json f
  | _ => throw Value.bad

end LazyTensor.Objects

/-!
## Requests about records

Records of object files are made from values, read from bytes and described; the numbers and the
functions of the system are asked for by name.
-/

namespace LazyTensor.Records

def contents : Contents → Value
  | .number n => .int n
  | .numbers ns => .list (ns.map .int)
  | .fields fs => .dict (go fs)
where
  go : List (String × Contents) → List (Value × Value)
    | [] => []
    | (k, c) :: fs => (.text k, contents c) :: go fs

def integer (v : Value) : Result Int :=
  v.int?.getDM (.error .wrongType)

mutual

/-- The bytes of a value in a format: numbers lose their high bits, and a tuple stands for the first
items of a row or the first fields of a record. -/
def bytesFor : Format → Value → Result (List UInt8)
  | .word _ w, v => return Format.wordBytes w (← integer v)
  | .words w n, .tuple vs =>
    if n < vs.length then .error (.bare .misuse)
    else match vs.mapM integer with
      | .ok ns =>
        .ok ((ns.flatMap (Format.wordBytes w)) ++ List.replicate (w * (n - ns.length)) 0)
      | .error _ => .error (.bare .misuse)
  | .record tag overlay fs, .tuple vs =>
    match fillFrom overlay 0 fs vs (Format.record tag overlay fs).blank with
    | .ok bs => .ok bs
    | .error _ => .error (.bare .misuse)
  | _, _ => .error .wrongType

/-- Bytes with the first fields given.  More values than fields of an overlay are refused. -/
def fillFrom (overlay : Bool) (start : Nat) : List (String × Format) → List Value → List UInt8 →
    Result (List UInt8)
  | (_, f) :: fs, v :: vs, bs => do
    let new ← bytesFor f v
    let next := if overlay then start else start + f.size
    fillFrom overlay next fs vs (Format.splice bs start new)
  | [], _ :: _, bs => if overlay then .error .wrongType else .ok bs
  | _, _, bs => .ok bs

end

def put (f : Format) (bs : List UInt8) (field : String) (v : Value) : Result (List UInt8) :=
  match f.locate? field with
  | none => .ok bs
  | some (start, g) => do return Format.splice bs start (← bytesFor g v)

def fieldsOf (j : Json) : GraphM Fields := do
  let .list es := j | throw Value.bad
  es.foldlM (fun (acc : Fields) e => do
    match e with
    | .list [.text k, v] => return Entries.put acc k (← Scope.plain {} v)
    | _ => throw Value.bad) []

/-- The bytes of a record with its first fields and some named fields given.  Fields that fill gaps
have no place in the row. -/
def build (f : Format) (first : List Value) (named : Fields) : Result (List UInt8) := do
  match f with
  | .record _ true fs =>
    if fs.length < first.length then throw .wrongType
    if (fs.take first.length).any fun (k, _) => named.any (·.1 == k) then throw .wrongType
    let bs ← fillFrom true 0 fs first f.blank
    named.foldlM (fun bs (k, v) => put f bs k v) bs
  | _ =>
    let names := (f.fields.map (·.1)).filter fun k => !(Format.isPadding k)
    let given := (names.zip first).foldl (fun acc (k, v) => Entries.put acc k v) []
    let given := named.foldl (fun acc (k, v) => Entries.put acc k v) given
    given.foldlM (fun bs (k, v) => put f bs k v) f.blank

def formatOf (name : String) : Result Format :=
  (Format.named? name).getDM (.error .missingMember)

def rowOf (name : String) : Result Format := do
  match ← formatOf name with
  | .record _ true _ => throw .missingMember
  | f => return f

def unknownFields (tag : String) (names : List String) : Failure :=
  .invalid ("Cannot bind the following unknown callback(s) " ++ tag ++ ".dict_keys([" ++
    ", ".intercalate (names.map Quoted.text) ++ "])")

def hex (bs : List UInt8) : Json := .text (Quoted.hex bs)

def upToZero (bs : List UInt8) : List UInt8 := bs.takeWhile (· ≠ 0)

/-- Whether there is something of a name, with the library of the system or without. -/
def isKnown (library : Bool) (name : String) : Bool :=
  (library && Names.functions.contains name) || Info.isFunction name ||
    (Format.named? name).isSome || Format.numbers.any (·.1 == name) || Names.known.contains name

def textOf (bs : List UInt8) (rest : List Json) : Result Value := do
  let bs := upToZero bs
  let way := (rest[1]?.bind Json.text?).getD "strict"
  match rest with
  | .null :: _ => return .bytes bs
  | _ =>
    if bs.isEmpty then return .text ""
    let some e := Encoding.ofName? ((rest[0]?.bind Json.text?).getD "utf-8")
      | throw (.bare .unknownCodec)
    return .text (← e.decode bs way)

def bytesOf (v : Value) (encoding : Option Json) : Result Value := do
  let bs ← match v, encoding with
    | .bytes bs, _ => pure bs
    | .text _, some .null => throw .wrongType
    | .text s, e =>
      let some e := Encoding.ofName? ((e.bind Json.text?).getD "utf-8")
        | throw (.bare .unknownCodec)
      e.encode s
    | _, _ => throw .wrongType
  return .bytes (upToZero bs)

def ofHex (s : String) : Result (List UInt8) :=
  (Value.bytesOfHex? s).getDM (.error .invalidValue)

def step (library : Bool) (q : List Json) : GraphM Json := do
  match q with
  | .text "call" :: .text name :: args =>
    if !isKnown library name then throw .missingMember
    let args ← args.mapM (Scope.plain {})
    let numbers ← args.mapM fun v => v.const?.getDM (throw Failure.wrongType)
    (Value.ofConst (← Info.apply name numbers)).json
  | [.text "has", .text name] => return .bool (isKnown library name)
  | .text "string_cast" :: .null :: _ => return .null
  | .text "string_cast" :: .text s :: rest => (← textOf (← ofHex s) rest).json
  | .text "char_pointer_cast" :: v :: rest => (← bytesOf (← Scope.plain {} v) rest[0]?).json
  | [.text "make", .text name, .list first, named] =>
    let f ← formatOf name
    let first ← first.mapM (Scope.plain {})
    let bs ← build f first (← fieldsOf named)
    return .list [hex bs, ← (contents (f.read bs)).json]
  | [.text "parse", .text name, .text s] =>
    let f ← formatOf name
    let bs ← ofHex s
    if bs.length < f.size then throw .invalidValue
    (contents (f.read bs)).json
  | [.text "fields", .text name] =>
    let f ← rowOf name
    let names := (f.fields.map (·.1)).filter fun k => !(Format.isPadding k)
    return .list [.list (names.map .text), .int f.size]
  | [.text "type", .text name, .text field] =>
    let f ← rowOf name
    let some g := f.fieldFormat? field | return .null
    return .list [.text g.name, .int g.size]
  | [.text "bind", .text name, fields] =>
    let f ← rowOf name
    let given ← fieldsOf fields
    let unknown := given.filter fun (k, _) => (f.fieldFormat? k).isNone
    if !unknown.isEmpty then throw (unknownFields f.name (unknown.map (·.1)))
    let bs ← given.foldlM (fun bs (k, v) => put f bs k v) f.blank
    return .list [hex bs, .list []]
  | [.text "as_dict", .text name, v] =>
    let _ ← formatOf name
    (← Scope.plain {} v).json
  | _ => throw Value.bad

def answer (j : Json) : GraphM Json := do
  .list <$> (← Request.items j "do").mapM fun q => Fault.guarded do
    let .list parts := q | throw Value.bad
    step (!Request.flag j "missing") parts

end LazyTensor.Records
