import LazyTensor.Cache.Table
import LazyTensor.Console.Fault
import LazyTensor.Console.Functions
import LazyTensor.Web

/-!
# Requests about caches

Two kinds of requests: steps on a database that keeps results, and steps that fetch pages into a
directory.
-/

namespace LazyTensor.Caches

open Cache (Column Database)

/-! ### Kept results -/

structure Results where
  database : Database Value := {}
  level : Int := 1

/-- Computations on kept results: what was changed before a failure stays changed. -/
abbrev ResultM := EStateM Failure Results

def lift {α : Type} (x : Result α) : ResultM α :=
  match x with
  | .ok a => pure a
  | .error f => throw f

def cellOf (v : Value) : Result Cache.Cell :=
  match v with
  | .null => .ok .null
  | .bool b => .ok (.int (Const.ofBool b))
  | .int n =>
    if -(2 ^ 63) ≤ n && n < 2 ^ 63 then .ok (.int n) else .error .overflow
  | .float x => .ok (.real x)
  | .text s => .ok (.text s)
  | .bytes b => .ok (.blob b)
  | _ => .error (.bare .badBinding)

def kindOf (v : Value) : Result Cache.Kind :=
  match v with
  | .text _ => .ok .text
  | .bool _ | .int _ | .float _ => .ok .number
  | .bytes _ => .ok .blob
  | _ => .error .missingKey

def fieldsOf (key : Value) : Result Fields :=
  match key with
  | .text _ | .int _ | .bool _ => .ok [("key", key)]
  | .dict es => .ok (es.map fun (k, v) => (Plain.inText k, v))
  | _ => .error .missingMember

def cellsOf (fields : Fields) : Result (List (String × Cache.Cell)) :=
  fields.mapM fun (k, v) => do return (k, ← cellOf v)

def find (table : String) (key : Value) : ResultM Value := do
  let s ← get
  if s.level < 1 then return .null
  let fields ← lift (fieldsOf key)
  if !s.database.admits table (fields.map (·.1)) then return .null
  return (s.database.get? table (← lift (cellsOf fields))).getD .null

/-- Keep a result for a key.  A table that is new is made before the values are looked at. -/
def keep (table : String) (key v : Value) : ResultM Value := do
  if (← get).level < 1 then return v
  let fields ← lift (fieldsOf key)
  if !(← get).database.known.contains table then
    let columns ← lift (fields.mapM fun (k, x) => do
      return ({ name := k, kind := ← kindOf x } : Column))
    let d ← lift ((← get).database.create table columns)
    modify fun s => { s with database := { d with known := table :: d.known } }
  if !(← get).database.admits table (fields.map (·.1)) then throw Cache.badStatement
  let cells ← lift (cellsOf fields)
  let d ← lift ((← get).database.put table cells v)
  modify fun s => { s with database := d }
  return v

/-- Call the function that adds up its arguments, unless its result is kept: the result, and how often
the function was called. -/
def call (name : String) (gives : Bool) (args : List Value) (key : String) : ResultM Value := do
  let table := "cache_" ++ name
  match ← find table (.text key) with
  | .null =>
    let r ← if gives then
        let sum ← lift (args.foldlM (fun (acc : Const) v => match v.const? with
          | some c => acc.add c
          | none => .error .wrongType) (.int 0))
        pure (Value.ofConst sum)
      else pure .null
    let r ← keep table (.text key) r
    return .list [r, .int 1]
  | r => return .list [r, .int 0]

def compile (cache : Value) (src : Value) : ResultM Value := do
  let made : ResultM Value := match src with
    | .text s => return .bytes s.toUTF8.data.toList
    | _ => throw .missingMember
  match cache with
  | .text table =>
    match ← find table src with
    | .null => keep table src (← made)
    | lib => return lib
  | _ => made

def step (name : String) (args : List Value) (written : List Json) : ResultM Value := do
  match name, args with
  | "put", [.text table, key, v] => keep table key v
  | "get", [.text table, key] => find table key
  | "clear", [] =>
    modify fun s => { s with database := s.database.clear }
    return .null
  | "level", [.int n] =>
    modify fun s => { s with level := n }
    return .null
  | "call", .text f :: flag :: .list xs :: _ =>
    call f flag.truthy xs (Json.list (written.drop 2)).write
  | "compile", [cache, src] => compile cache src
  | _, _ => throw .badInput

def results (todo : List Json) : GraphM (List Json) := do
  let mut state : Results := {}
  let mut out : Array Json := #[]
  for q in todo do
    match q with
    | .list (.text name :: written) =>
      let args ← written.mapM (Scope.plain [])
      match (step name args written).run state with
      | .ok v s =>
        out := out.push (← v.json)
        state := s
      | .error f s =>
        out := out.push (Fault.json f)
        state := s
    | _ => out := out.push (Fault.json .badInput)
  return out.toList

/-! ### Pages -/

def wishOf (options : Json) : FetchWish :=
  let name := (options.field? "name").bind Json.text?
  let name := match options.field? "path" with
    | some (.text s) => some (s, true)
    | some (.bool true) | some (.int 1) => name.map fun n => (n, true)
    | _ => name.map fun n => (n, false)
  let folder := ((options.field? "subdir").bind Json.text?).getD ""
  { name, folder, unpack := Request.flag options "gunzip"
    cached := Request.flag options "allow_caching" true }

def pageStep (name : String) (args : List Json) : WebM Json := do
  match name, args with
  | "page", .text url :: .text content :: rest =>
    let options := rest.headD (.record [])
    let status := ((options.field? "status").bind Json.int?).getD 200
    let length := (options.field? "length").bind Json.int?
    let b ← (Value.bytesOfHex? content).getDM (throw .invalidValue)
    Web.putPage { url, status, length, bytes := ⟨b.toArray⟩ }
    return .null
  | "fetch", .text url :: rest =>
    let (path, b) ← Web.fetch url (wishOf (rest.headD (.record [])))
    let content := match b with
      | some b => Json.text (Quoted.hex b.data.toList)
      | none => .null
    return .list [.text path, content]
  | "log", [] =>
    return .list ((← get).requests.map fun url =>
      .list [.text url, .text Web.agent, .int Web.patience])
  | "ls", [] =>
    let names := ((← get).files.map (·.1)).filter Web.isInside
    return .list ((names.mergeSort (· ≤ ·)).map .text)
  | _, _ => throw .badInput

def pages (todo : List Json) : List Json :=
  (go todo {}).1
where
  go : List Json → Web → List Json × Web
    | [], w => ([], w)
    | q :: rest, w =>
      let (j, w) := match q with
        | .list (.text name :: args) =>
          match (pageStep name args).run w with
          | .ok j w => (j, w)
          | .error f w => (Fault.json f, w)
        | _ => (Fault.json .badInput, w)
      let (js, w) := go rest w
      (j :: js, w)

end LazyTensor.Caches
