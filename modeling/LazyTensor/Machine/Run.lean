import LazyTensor.Graph.Text
import LazyTensor.Machine.Bytes
import LazyTensor.Machine.Matrix
import LazyTensor.Number.Elementwise

/-!
# The machine

A machine that runs linear programs.  A group of lanes executes every instruction in step; the result
of an instruction is a value for each lane, a vector of such, a memory, or an address for each lane.
Registers and loop counters are cells that later instructions change, so a vector made from them sees
the change.

A loop starts at its counter, ends at its end instruction, and goes back to the counter until the
count is reached.  Programs may loop forever; running takes an explicit number of steps.
-/

namespace LazyTensor

/-- An instruction: an operation, its element type, the positions of its sources, its argument. -/
structure Instr where
  op : Op
  dtype : DType
  src : List Nat
  arg : Arg

/-- A place in memory: which memory, the code of its elements, the position unless it is outside an
image, and whether the access takes place. -/
structure Address where
  memory : Nat
  code : Char
  position : Option Int
  gate : Bool

inductive Slot where
  | lanes (xs : Array Const)
  | vector (xs : Array Slot)
  | cell (k : Nat)
  | memory (k : Nat) (code : Char)
  | addresses (xs : Array Address)
  deriving Inhabited

structure Machine where
  /-- The memories: those of the arguments, then local ones. -/
  memories : Array ByteArray
  results : Array (Option Slot) := #[]
  cells : Array Slot := #[]
  /-- Where the loops that have been run through once end, by the position of their counters. -/
  ends : List (Nat × Nat) := []
  taken : Nat := 0
  /-- The values of variables that have not been taken. -/
  values : List Int := []

abbrev MachineM := EStateM Failure Machine

namespace Machine

@[inline] def fail {α : Type} (f : Failure) : MachineM α := throw f

@[inline] def lift {α : Type} : Result α → MachineM α
  | .ok a => pure a
  | .error f => throw f

instance : MonadLift Result MachineM := ⟨lift⟩

def isVoid (o : Op) : Bool :=
  match o with
  | .store | .endRange | .barrier | .branch | .endBranch | .sink => true
  | _ => false

variable (program : Array Instr)

def reads (i : Instr) : List Nat :=
  (if i.op = .defineReg then i.src.take 1 else i.src).filter fun v =>
    match program[v]? with
    | some s => !isVoid s.op
    | none => true

def result (v : Nat) : MachineM Slot := do
  match (← get).results[v]? with
  | some (some s) => return s
  | some none => fail .missingKey
  | none => fail .outOfRange

variable (s : Slot)

def opened : MachineM Slot :=
  match s with
  | .cell k => do
    (← get).cells[k]?.getDM (fail .missingKey)
  | s => return s

def lanesOf : MachineM (Array Const) := do
  match ← opened s with
  | .lanes xs => return xs
  | _ => fail .wrongType

def partsOf : MachineM (Array Slot) := do
  match ← opened s with
  | .vector xs => return xs
  | _ => fail .wrongType

def addressesOf : MachineM (Array Address) := do
  match ← opened s with
  | .addresses xs => return xs
  | _ => fail .wrongType

def lengthOf (warp : Nat) (s : Slot) : MachineM Nat := do
  match ← opened s with
  | .lanes xs => return xs.size
  | .vector xs => return xs.size
  | .addresses xs => return xs.size
  | .memory _ _ => return warp
  | .cell _ => fail .wrongType

def setResult (i : Nat) (s : Slot) : MachineM Unit :=
  modify fun m => { m with results := m.results.set! i (some s) }

def newCell : MachineM Nat := do
  let k := (← get).cells.size
  modify fun m => { m with cells := m.cells.push s }
  return k

/-- The memory of an address, if it has a position; `refusal` says what is wrong otherwise, given how
many elements there are. -/
def memoryAt (a : Address) (p : Int) (refusal : Nat → String) : MachineM ByteArray := do
  let b ← (← get).memories[a.memory]?.getDM (fail .outOfRange)
  let n := Bytes.count a.code b
  if p < 0 || p ≥ n then fail (.because .outOfRange (refusal n))
  return b

def load (a : Address) (j : Nat) : MachineM Const := do
  let some p := a.position | return .float 0
  let p := p + j
  let b ← memoryAt a p fun n => s!"load out of bounds, size is {n} and access is {p}"
  return Bytes.read a.code b p.toNat

def store (a : Address) (j : Nat) (v : Const) : MachineM Unit := do
  match a.position with
  | none => fail .wrongType
  | some p =>
    let p := p + j
    let _ ← memoryAt a p fun n =>
      s!"store out of bounds, size is {n}, access is {p}, value is {v.text}"
    let bits ← lift (Bytes.encode a.code v)
    let w := Packing.size a.code
    modify fun m => { m with
      memories := m.memories.modify a.memory fun b => Bytes.writeNat b (p.toNat * w) w bits }

/-- Loads at the addresses of all lanes; where an alternative is given, closed gates take it. -/
def loadAll (addresses : Array Address) (other : Option (Array Const)) (j : Nat) :
    MachineM (Array Const) := do
  match other with
  | none => addresses.mapM fun a => load a j
  | some xs => (addresses.zip xs).mapM fun (a, x) => if a.gate then load a j else return x

def axisOf (name : String) : MachineM Int :=
  match name.toList.getLast? with
  | some c => if c.isDigit then return 2 - ((c.toNat - '0'.toNat : Nat) : Int) else fail .invalidValue
  | none => fail .outOfRange

def itemAt (xs : List Nat) (i : Int) : MachineM Nat :=
  let j := if i < 0 then i + xs.length else i
  (if j < 0 then none else xs[j.toNat]?).getDM (fail .outOfRange)

def grid : List Int → List (List Nat)
  | [] => [[]]
  | n :: rest => (List.range n.toNat).flatMap fun i => (grid rest).map (i :: ·)

/-- Where a group of lanes is in the grid, and where its lanes are in the group. -/
structure Place where
  group : List Nat
  warp : Array (List Nat)

def Place.lanes (p : Place) : Nat := p.warp.size

def Place.same (p : Place) (c : Const) : Slot := .lanes (Array.replicate p.lanes c)

def matrixOf : MachineM (Array (Array Const)) := do
  match ← opened s with
  | .vector xs => xs.mapM lanesOf
  | _ => fail .wrongType

/-- A product of matrices over the lanes of a warp. -/
def matrix (p : Place) (i : Instr) (inputs : List Slot) : MachineM Slot := do
  match inputs with
  | [a, b, c] =>
    match (i.arg.items[4]? : Option Arg) with
    | some (.text device) =>
      let x ← matrixOf a
      let dims := ((i.arg.items[1]? : Option Arg).bind Arg.ints?).getD []
      let input := (i.arg.items[2]? : Option Arg).bind fun
        | .dtype d => some d
        | _ => none
      let lanes := (i.arg.items[5]? : Option Arg).bind Arg.int?
      match MatrixLayout.of? device dims input lanes x.size with
      | some m =>
        let out ← m.multiply p.lanes x (← matrixOf b) (← matrixOf c)
        return .vector (out.map .lanes)
      | none => fail (.because .unsupported s!"unimplemented tensor core {i.arg.literal}")
    | some _ => fail (.because .unsupported s!"unimplemented tensor core {i.arg.literal}")
    | none => fail .outOfRange
  | _ => fail .outOfRange

def transpose (xs : List (Array Const)) (n : Nat) : Array (List Const) :=
  (Array.range n).map fun k => xs.map fun x => x.getD k (.int 0)

def elementwise (warp : Nat) (i : Instr) (types : List DType) (inputs : List Slot) : MachineM Slot := do
  let lengths ← inputs.mapM (lengthOf warp)
  if !(lengths.all fun n => n == lengths.headD 0) then
    fail (.broken s!"{listOf (lengths.map fun (n : Nat) => toString n)} doesn't match on {i.op.text}")
  let free := match i.op with
    | .cmpne | .cmplt | .select => true
    | _ => false
  if !free && !(types.all (· == i.dtype)) then fail (.broken s!"dtype mismatch on {i.op.text}")
  match inputs with
  | [a, b] =>
    let xs ← lanesOf a
    let ys ← lanesOf b
    return .lanes (← (xs.zip ys).mapM fun (x, y) => lift (i.op.eval i.dtype [x, y]))
  | _ =>
    let xs ← inputs.mapM lanesOf
    return .lanes (← (transpose xs (lengths.headD 0)).mapM fun ps => lift (i.op.eval i.dtype ps))

def imagePosition (d : DType) (x y : Int) : Option Int :=
  match d with
  | .image _ (h :: w :: _) _ =>
    if x < 0 || x ≥ w || y < 0 || y ≥ h then none else some (x * 4 + y * w * 4)
  | _ => none

def intOf (c : Const) : MachineM Int :=
  c.int?.getDM (fail .wrongType)

/-- Places in memory, for each lane. -/
def index (p : Place) (types : List DType) (inputs : List Slot) : MachineM Slot := do
  match inputs with
  | base :: at' :: rest =>
    match ← opened base with
    | .memory k code =>
      let positions : Array (Option Int) ← match types.headD .void with
        | .image h s n =>
          let parts ← partsOf at'
          let xs ← lanesOf (parts.getD 0 default)
          let ys ← lanesOf (parts.getD 1 default)
          (xs.zip ys).mapM fun (x, y) => do
            return imagePosition (.image h s n) (← intOf x) (← intOf y)
        | _ => (← lanesOf at').mapM fun c => do return some (← intOf c)
      let gates ← match rest with
        | [g] => pure ((← lanesOf g).map Const.truthy)
        | _ => pure (Array.replicate p.lanes true)
      return .addresses ((positions.zip gates).map fun (q, g) => ⟨k, code, q, g⟩)
    | _ => fail .wrongType
  | _ => fail .outOfRange

/-- What lies at places, or the other value where the gate is shut. -/
def loaded (i : Instr) (types : List DType) (inputs : List Slot) : MachineM Slot := do
  match inputs with
  | [] => fail .outOfRange
  | a :: rest =>
    let addresses ← addressesOf a
    let other (j : Nat) : MachineM (Option (Array Const)) :=
      match rest, types with
      | [x], _ :: d :: _ =>
        if i.dtype.count > 1 && d.count > 1 then do
          return some (← lanesOf (← (← partsOf x)[j]?.getDM (fail .outOfRange)))
        else do return some (← lanesOf x)
      | _, _ => return none
    if i.dtype.count > 1 then
      return .vector (← (Array.range i.dtype.count).mapM fun j => do
        return Slot.lanes (← loadAll addresses (← other j) j))
    else return .lanes (← loadAll addresses (← other 0) 0)

def stored (types : List DType) (inputs : List Slot) : MachineM Unit := do
  match inputs, types with
  | [a, v], [_, d] =>
    let parts ← if d.count > 1 then partsOf v else pure #[v]
    for (part, j) in parts.zipIdx do
      let addresses ← addressesOf a
      let xs ← lanesOf part
      for (address, x) in addresses.zip xs do
        if address.gate then store address j x
  | _, _ => fail (.broken "expected store is ([(memory, offset, gate)], [value])")

/-- An accumulator gets a new value. -/
def assign (i : Nat) (target : Nat) (inputs : List Slot) : MachineM Unit := do
  match inputs with
  | a :: b :: _ =>
    let new ← opened b
    let k ← match a with
      | .cell k => pure k
      | s =>
        let k ← newCell s
        setResult target (.cell k)
        pure k
    let next ← match ← opened (.cell k), new with
      | .lanes xs, .lanes ys =>
        if ys.size < xs.size then fail .outOfRange else pure (Slot.lanes (ys.extract 0 xs.size))
      | .vector xs, .vector ys =>
        if ys.size < xs.size then fail .outOfRange else pure (Slot.vector (ys.extract 0 xs.size))
      | _, _ => fail .wrongType
    modify fun m => { m with cells := m.cells.set! k next }
    setResult i (.cell k)
  | _ => fail .outOfRange

def bitcast (warp : Nat) (source target : DType) (s : Slot) : MachineM Slot := do
  match source.code?, target.code? with
  | some c, some d =>
    let xs ← lanesOf s
    if xs.size ≠ warp then fail .badPacking
    let bytes ← xs.toList.mapM fun x => lift (Packing.pack c x)
    let flat := bytes.flatten
    let w := Packing.size d
    if flat.length ≠ w * warp then fail .badPacking
    return .lanes (← (Array.range warp).mapM fun k =>
      lift (Packing.unpack d ((flat.drop (k * w)).take w)))
  | _, _ => fail (.broken "")

/-- The memory that an instruction names: the next argument, or a new local one. -/
def memoryOf (i : Instr) : MachineM Slot := do
  match i.dtype.code? with
  | some code =>
    if !i.dtype.isPtr || code = 'e' then fail (.broken "")
    let fits (b : ByteArray) : MachineM Unit :=
      if b.size % Packing.size code ≠ 0 then fail .wrongType else pure ()
    if i.op = .defineLocal then
      let n := i.dtype.ptrSize * (i.dtype.itemsize : Int)
      if n < 0 then fail .invalidValue
      let b := Bytes.zeros n.toNat
      fits b
      let k := (← get).memories.size
      modify fun m => { m with memories := m.memories.push b }
      return .memory k code
    else
      let m ← get
      match m.memories[m.taken]? with
      | none => fail .outOfRange
      | some b =>
        let k := m.taken
        modify fun m => { m with taken := m.taken + 1 }
        fits b
        return .memory k code
  | none => fail (.broken "")

/-- One instruction at a position; gives the position of the next.  `args` is how many memories are
arguments. -/
def step (args : Nat) (p : Place) (at' : Nat) (i : Instr) : MachineM Nat := do
  let sources := reads program i
  let inputs ← sources.mapM result
  let types := sources.map fun v => (program[v]?.map (·.dtype)).getD .void
  let input (k : Nat) : MachineM Slot :=
    inputs[k]?.getDM (fail .outOfRange)
  let give (s : Slot) : MachineM Nat := do
    setResult at' s
    return at' + 1
  match i.op with
  | .store =>
    stored types inputs
    return at' + 1
  | .endRange =>
    match i.src with
    | r :: _ =>
      modify fun m => { m with ends := (r, at') :: m.ends.filter fun e => e.1 ≠ r }
      return r
    | [] => fail .outOfRange
  | .barrier | .branch | .endBranch | .sink => return at' + 1
  | .defineGlobal | .defineLocal =>
    if i.op = .defineGlobal && (← get).taken ≥ args then
      match i.dtype.code? with
      | some c => if !i.dtype.isPtr || c = 'e' then fail (.broken "") else fail .outOfRange
      | none => fail (.broken "")
    give (← memoryOf i)
  | .defineVar =>
    match (← get).values with
    | v :: rest =>
      modify fun m => { m with values := rest }
      give (p.same (.int v))
    | [] => fail .outOfRange
  | .special =>
    match i.arg.items with
    | .text name :: _ =>
      match name.toList.head? with
      | some 'g' => give (p.same (.int (← itemAt p.group (← axisOf name))))
      | some 'l' =>
        let axis ← axisOf name
        give (.lanes (← p.warp.mapM fun l => do return Const.int (← itemAt l axis)))
      | some _ => fail (.bare .brokenContract)
      | none => fail .outOfRange
    | _ => fail .wrongType
  | .const =>
    match i.arg with
    | .const c => give (p.same c)
    | _ => fail .wrongType
  | .defineReg =>
    match ← opened (← input 0) with
    | .lanes xs =>
      if i.dtype.count > 1 then fail .wrongType
      let x ← xs[0]?.getDM (fail .outOfRange)
      give (.cell (← newCell (p.same x)))
    | .vector xs =>
      let ys ← lanesOf (← xs[0]?.getDM (fail .outOfRange))
      let x ← ys[0]?.getDM (fail .outOfRange)
      if i.dtype.count > 1 then
        give (.cell (← newCell (.vector (Array.replicate i.dtype.count (p.same x)))))
      else fail .wrongType
    | _ => fail .wrongType
  | .index => give (← index p types inputs)
  | .range =>
    match (← get).results[at']? with
    | some (some s) =>
      let xs ← lanesOf s
      let k ← match s with
        | .cell k => pure k
        | _ => fail .wrongType
      let next ← xs.mapM fun x => lift (x.add (.int 1))
      modify fun m => { m with cells := m.cells.set! k (.lanes next) }
      let stop ← lanesOf (← input 0)
      match next[0]?, stop[0]? with
      | some a, some b =>
        if Const.eq a b then
          modify fun m => { m with results := m.results.set! at' none }
          return (← ((← get).ends.lookup at').getDM (fail .missingKey)) + 1
        else return at' + 1
      | _, _ => fail .outOfRange
    | _ =>
      let k ← newCell (p.same (.int 0))
      give (.cell k)
  | .vectorize => give (.vector inputs.toArray)
  | .bitcast => give (← bitcast p.lanes (types.headD .void) i.dtype (← input 0))
  | .cast =>
    if i.dtype.isPtr then give (← input 0)
    else
      let xs ← lanesOf (← input 0)
      give (.lanes (← xs.mapM fun x => do
        lift (Const.truncate i.dtype (← lift (x.ofDType? i.dtype)))))
  | .load => give (← loaded i types inputs)
  | .assign =>
    assign at' (sources.headD 0) inputs
    return at' + 1
  | .gep =>
    match i.arg with
    | .tuple [k] =>
      let parts ← partsOf (← input 0)
      match k.int? with
      | some k =>
        let j := if k < 0 then k + parts.size else k
        give (← (if j < 0 then none else parts[j.toNat]?).getDM (fail .outOfRange))
      | none => fail .wrongType
    | .tuple _ => fail (.broken "list must only have 1 element")
    | _ => fail .wrongType
  | .wmma => give (← matrix p i inputs)
  | o =>
    if o.isAlu then give (← elementwise p.lanes i types inputs)
    else fail (.bare .brokenContract)

/-- Run from a position to the end of the program, in at most so many steps. -/
def steps (program : Array Instr) (args : Nat) (p : Place) : Nat → Nat → MachineM Unit
  | 0, _ => fail .exhausted
  | fuel + 1, at' =>
    match program[at']? with
    | none => return ()
    | some i => do
      let next ← step program args p at' i
      steps program args p fuel next

/-- Start a group of lanes afresh: nothing has a result, and all arguments are there to be taken. -/
def restart (args : Nat) (values : List Int) : MachineM Unit :=
  modify fun m => { memories := m.memories.extract 0 args, results := Array.replicate program.size none,
                    values }

/-- Run a program on the memories, once for every group of the grid, each of its lanes in step. -/
def groups (fuel : Nat) (program : Array Instr) (values : List Int) (global localSize : List Int) :
    MachineM Unit := do
  let args := (← get).memories.size
  let warp := (grid localSize.reverse).toArray
  for group in grid global.reverse do
    restart program args values
    steps program args ⟨group, warp⟩ fuel 0

/-- Run a program on some memories: what became of them, and the failure, if there was one. -/
def run (memories : Array ByteArray) (values : List Int := [])
    (global localSize : List Int := [1, 1, 1]) (fuel : Nat := 1000000000) :
    Array ByteArray × Option Failure :=
  let args := memories.size
  match groups fuel program values global localSize { memories } with
  | .ok _ m => (m.memories.extract 0 args, none)
  | .error f m => (m.memories.extract 0 args, some f)

end Machine

def Instr.ofNodes (nodes : List Expr) : Result (Array Instr) := do
  let place : Std.HashMap Nat Nat :=
    nodes.zipIdx.foldl (fun m (e, i) => m.insertIfNew e.number i) {}
  let out ← nodes.mapM fun e => do
    let src ← e.src.mapM fun s => place[s.number]?.getDM (.error Failure.invalidValue)
    return (⟨e.op, e.dtype, src, e.arg⟩ : Instr)
  return out.toArray

end LazyTensor
