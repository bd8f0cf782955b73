import LazyTensor.Digest
import LazyTensor.Graph.Store
import LazyTensor.Graph.Text

/-!
# Building nodes

The ways to make a node from others: arithmetic, comparison, casts, memory access, loops.  A
constant that meets a node takes the node's element type, its device and its shape.
-/

namespace LazyTensor

/-- Something that can stand beside a node in an operation. -/
inductive Operand where
  | expr (e : Expr)
  | const (c : Const)
  | lanes (cs : List Const)

class IsOperand (α : Type) where
  operand : α → GraphM Operand

instance : IsOperand Expr := ⟨fun e => pure (.expr e)⟩
instance : IsOperand Int := ⟨fun n => pure (.const (.int n))⟩
instance : IsOperand Nat := ⟨fun n => pure (.const (.int n))⟩
instance : IsOperand Bool := ⟨fun b => pure (.const (.bool b))⟩
instance : IsOperand Float := ⟨fun x => pure (.const (.float x))⟩
instance : IsOperand Const := ⟨fun c => pure (.const c)⟩
instance : IsOperand Operand := ⟨pure⟩
instance : IsOperand Dim :=
  ⟨fun d => pure (match d with | .int n => .const (.int n) | .sym e => .expr e)⟩

instance : Coe Expr ExprM := ⟨pure⟩

namespace Expr

variable {α : Type} [IsOperand α] (e : Expr)

def nth (i : Nat) : ExprM :=
  e.src[i]?.getDM (throw .outOfRange)

def withSrc (src : List Expr) : ExprM := node e.op e.dtype src e.arg e.tag

def withArg (arg : Arg) : ExprM := node e.op e.dtype e.src arg e.tag

def withTag (tag : Arg) : ExprM := node e.op e.dtype e.src e.arg tag

def layout? : GraphM (Option (List (View Dim))) := do
  match (← get).layouts[e.number]? with
  | some l => return l
  | none => fun env => env.layout e

def shapeOfViews (vs : List (View Dim)) : List Dim :=
  match vs.getLast? with
  | some v => v.shape
  | none => []

def shape? : GraphM (Option (List Dim)) := do return (← e.layout?).map shapeOfViews

def shape : GraphM (List Dim) := do
  (← e.shape?).getDM (throw (.broken ""))

/-- The device remembered of a node, found and remembered when it is asked for the first time. -/
@[inline] def rememberedDevice (number : Nat) (find : GraphM (Option Arg)) :
    GraphM (Option Arg) := do
  match (← get).devices[number]? with
  | some d => return d
  | none =>
    let d ← find
    modify fun s => { s with devices := s.devices.insert number d }
    return d

/-- The device of a node, remembered once it is known. -/
def device? (e : Expr) : GraphM (Option Arg) :=
  match e with
  | .mk number op _ src arg _ => rememberedDevice number (
    match op with
    | .device => pure (if arg.isNone then none else some arg)
    | .mselect =>
      match src with
      | a :: _ => do
        match ← a.device? with
        | some (.tuple ds) =>
          let some i := arg.int? | throw .wrongType
          let i := if i < 0 then i + ds.length else i
          let some d := if i < 0 then none else ds[i.toNat]? | throw .outOfRange
          pure (some d)
        | none => throw (.broken "")
        | _ => throw (.broken "mselect must be on tuple device")
      | [] => throw .outOfRange
    | .mstack => do
      let ds ← src.attach.mapM fun ⟨a, _⟩ => do
        (← a.device?).getDM (throw (Failure.broken ""))
      pure (some (Arg.tuple ds))
    | .copy | .buffer | .allreduce =>
      match src with
      | _ :: b :: _ => do
        let some d ← b.device? | throw (.broken "")
        pure (some d)
      | _ => throw .outOfRange
    | _ => do
      let ds ← src.attach.mapM fun ⟨a, _⟩ => a.device?
      pure (ds.findSome? id))
termination_by e

def device : GraphM Arg := do
  (← e.device?).getDM (throw (.broken ""))

/-- The node under all movements: what a tensor is a view of. -/
def base (e : Expr) : Expr :=
  match e with
  | .mk number op dtype (a :: rest) arg tag =>
    if op = .view || op.isMovement || op = .multi then a.base
    else .mk number op dtype (a :: rest) arg tag
  | e => e

/-- A movement of a node, or the node itself when the layout does not change. -/
def move (op : Op) (arg : Arg) : ExprM := do
  let r ← node op e.dtype [e] arg
  let a ← e.layout?
  let b ← r.layout?
  return if a == b then e else r

def reshape (shape : List Dim) : ExprM := e.move .reshape (.ofDims shape)

def expand (shape : List Dim) : ExprM := e.move .expand (.ofDims shape)

def permute (axes : List Int) : ExprM := e.move .permute (.ofInts axes)

def pad (p : List (Dim × Dim)) : ExprM := e.move .pad (.ofPairs p)

def shrink (p : List (Dim × Dim)) : ExprM := e.move .shrink (.ofPairs p)

def flip (p : List Bool) : ExprM :=
  e.move .flip (.tuple (p.map fun b => .const (.bool b)))

/-- The constant node of an element type, given as an argument: one constant or one per lane;
optionally on a device, and there with a shape. -/
def constArg (dtype : DType) (b : Arg) (device : Option Arg := none)
    (shape : Option (List Dim) := none) : ExprM := do
  match b with
  | .expr e =>
    if e.op = .bind then
      let v :: c :: _ := e.src | throw .outOfRange
      if v.op = .defineVar && c.op = .const then return v
      else throw (.broken "can't unbind UOp(")
    else return e
  | _ =>
    -- lanes that are all equal need no vector
    let b : Arg := match b with
      | .tuple (x :: xs) =>
        if (x :: xs).all (fun y =>
            match x, y with
            | .const p, .const q => Const.eq p q
            | p, q => p == q) then x else b
      | b => b
    let r ← match b with
      | .tuple [] => throw .outOfRange
      | .tuple xs =>
        if xs.length ≠ dtype.count then throw (.broken s!"mismatch {b.literal} {dtype.text}")
        let cs ← xs.mapM fun x => match x with
          | .const c => liftM (c.ofDType? dtype)
          | _ => throw Failure.wrongType
        node .vconst dtype [] (.tuple (cs.map Arg.const))
      | .const c => node .const dtype [] (.const (← c.ofDType? dtype))
      | _ => throw .wrongType
    let r ← match device with
      | some d => r.withSrc [← node .device .void [] d]
      | none => pure r
    match shape with
    | none | some [] => return r
    | some s =>
      if device.isNone then
        throw (.broken s!"only consts on device can have shape {Dim.shapeText s}")
      let r ← r.reshape (s.map fun _ => 1)
      r.expand s

def const (dtype : DType) (c : Const) : ExprM := do
  node .const dtype [] (.const (← c.ofDType? dtype))

def constLikeArg (b : Arg) : ExprM := do
  let d ← e.device?
  let s ← e.shape?
  constArg e.dtype b d s

/-- A constant in the likeness of a node: with its element type, device and shape. -/
def constLike (c : Const) : ExprM := e.constLikeArg (.const c)

def fix (x : Operand) : ExprM :=
  match x with
  | .expr y => pure y
  | .const c => e.constLike c
  | .lanes cs => e.constLikeArg (.tuple (cs.map Arg.const))

/-- An elementwise operation: its type is that of the last operand, of comparisons truth values. -/
def alu (op : Op) (rest : List Expr := []) : ExprM :=
  let out := (rest.getLast?.getD e).dtype
  let out : DType := if op = .cmplt || op = .cmpne then
    (if out.count > 1 then .vec .bool out.count else .bool) else out
  node op out (e :: rest)

@[inline] def bin {α : Type} [IsOperand α] (op : Op) (e : Expr) (x : α) : ExprM := do
  e.alu op [← e.fix (← IsOperand.operand x)]

@[inline] def binRev {α : Type} [IsOperand α] (op : Op) (x : α) (e : Expr) : ExprM := do
  (← e.fix (← IsOperand.operand x)).alu op [e]

def lnot : ExprM := e.bin .cmpne true

def neg : ExprM :=
  if e.dtype.isBool then e.lnot else e.bin .mul (-1 : Int)

def checkBits : GraphM Unit :=
  if e.dtype.isBool || e.dtype.isInt then pure ()
  else throw (.misused s!"{e.dtype.text} is not supported")

section Binary

variable (x : α)

def add : ExprM := e.bin .add x

def mul : ExprM := e.bin .mul x

def sub : ExprM := do
  match ← IsOperand.operand x with
  | .expr y => e.alu .add [← y.neg]
  | .const c => e.alu .add [← e.constLike c.neg]
  | .lanes cs => e.alu .add [← e.fix (.lanes (cs.map Const.neg))]

/-- Difference from a constant or another node: its sum with the negation. -/
def rsub : ExprM := do
  let y ← e.fix (← IsOperand.operand x)
  y.alu .add [← e.neg]

def idiv : ExprM := e.bin .idiv x

def mod : ExprM := e.bin .mod x

def fdiv : ExprM := do
  let y ← e.fix (← IsOperand.operand x)
  e.alu .mul [← y.alu .recip]

def land : ExprM := do
  e.checkBits
  e.bin .and x

def lor : ExprM := do
  e.checkBits
  e.bin .or x

def lxor : ExprM := do
  e.checkBits
  e.bin .xor x

def shl : ExprM := e.bin .shl x

def shr : ExprM := e.bin .shr x

def lt : ExprM := e.bin .cmplt x

def gt : ExprM := Expr.binRev .cmplt x e

def ge : ExprM := do (← e.lt x).lnot

def le : ExprM := do (← e.gt x).lnot

def ne : ExprM := e.bin .cmpne x

def eq : ExprM := do (← e.ne x).lnot

def maximum : ExprM := e.bin .max x

def minimum : ExprM := do
  let y ← match ← IsOperand.operand x with
    | .expr y => pure (Operand.expr (← y.neg))
    | .const c => pure (Operand.const c.neg)
    | .lanes cs => pure (Operand.lanes (cs.map Const.neg))
  (← (← e.neg).maximum y).neg

def choose {β : Type} [IsOperand β] (y : β) : ExprM := do
  match ← IsOperand.operand x, ← IsOperand.operand y with
  | .expr a, b => e.alu .select [a, ← a.fix b]
  | a, .expr b => e.alu .select [← b.fix a, b]
  | _, _ => throw (.misused "where needs at least one UOp arg")

def pow : ExprM := e.bin .pow x

end Binary

def recip : ExprM := e.alu .recip

def sqrt : ExprM := e.alu .sqrt

def sin : ExprM := e.alu .sin

def log2 : ExprM := e.alu .log2

def exp2 : ExprM := e.alu .exp2

def cast (d : DType) : ExprM :=
  if e.dtype = d then pure e else node .cast d [e]

def castVec (d : DType) : ExprM := do
  node .cast (← d.vec? e.dtype.count) [e]

def bitcast (d : DType) : ExprM := node .bitcast d [e]

def broadcast (n : Nat) : ExprM := do
  if e.dtype.count ≠ 1 then throw (.broken "")
  if n = 1 then return e
  node .vectorize (← e.dtype.vec? n) (List.replicate n e)

/-- Lanes of a vector. -/
def gep (lanes : List Int) : ExprM := do
  let pick {α : Type} (xs : List α) (i : Int) : GraphM α :=
    let i := if i < 0 then i + xs.length else i
    (if i < 0 then none else xs[i.toNat]?).getDM (throw Failure.outOfRange)
  match lanes with
  | [i] =>
    match e.op with
    | .vectorize => pick e.src i
    | .vconst =>
      let .const c ← pick e.arg.items i | throw .wrongType
      const e.dtype.scalar c
    | .const => constArg e.dtype.scalar e.arg
    | _ => node .gep e.dtype.scalar [e] (.ofInts [i])
  | _ =>
    let d ← if lanes.length > 1 then liftM (e.dtype.scalar.vec? lanes.length) else pure e.dtype.scalar
    node .gep d [e] (.ofInts lanes)

def lane (i : Nat) : ExprM := e.gep [(i : Int)]

def index (i : Expr) (valid : Option Expr := none) : ExprM :=
  node .index e.dtype (match valid with | some v => [e, i, v] | none => [e, i])

def load (rest : List Expr := []) : ExprM := node .load e.dtype.base (e :: rest)

def store (rest : List Expr) : ExprM := node .store e.dtype (e :: rest)

def sink (es : List Expr) (arg : Arg := .none) : ExprM := node .sink .void es arg

def assign (e x : Expr) : ExprM := node .assign e.dtype [e, x]

def view (vs : List (View Dim)) : ExprM := node .view e.dtype [e] (.layout vs)

def reduce (op : Op) (ranges : List Expr) : ExprM :=
  node .reduce e.dtype (e :: ranges) (.op op)

def contig : ExprM := e.alu .contiguous

def fuse : ExprM := e.alu .fuse

def gbarrier : ExprM := e.alu .gbarrier

def simplify (e : Expr) : ExprM := fun env => env.simplify e

def var (name : String) (lo hi : Const) (d : DType := .int) : ExprM :=
  node .defineVar d [] (.tuple [.text name, .const lo, .const hi])

def unbind (e : Expr) : GraphM (Expr × Int) := do
  match e.op, e.src with
  | .bind, v :: c :: _ =>
    match v.op, c.op, c.arg.int? with
    | .defineVar, .const, some n => return (v, n)
    | _, _, _ => throw (.broken "can't unbind UOp(")
  | .bind, _ => throw .outOfRange
  | _, _ => throw (.broken "can't unbind UOp(")

def bind (e : Expr) (val : Int) : ExprM := do
  if e.op ≠ .defineVar then throw (.broken s!"op is {e.op.text}, need DEFINE_VAR")
  let .tuple [_, .const lo, .const hi] := e.arg | throw .wrongType
  if !(Const.le lo (.int val) && Const.le (.int val) hi) then
    throw (.broken s!"bind {val} not in range [{lo.text}, {hi.text}]")
  node .bind e.dtype [e, ← e.constLike (.int val)]

def copyTo (device : Arg) : ExprM := do
  let d ← match device with
    | .expr d => pure d
    | d => node .device .void [] d
  node .copy e.dtype [e, d]

def newBuffer (device : Arg) (size : Dim) (d : DType) : ExprM := do
  let u ← node .unique .void [] (.int (← freshUnique))
  node .buffer d [u, ← node .device .void [] device] size.arg

end Expr

def Dim.expr (d : Dim) (t : DType := .int) : ExprM :=
  match d with
  | .int n => Expr.const t (.int n)
  | .sym e => pure e

def Expr.range (d : DType) (stop : Dim) (number : Int) : ExprM := do
  node .range d [← stop.expr] (.int number)

/-- A digest of a graph that does not depend on the numbers of its nodes: of the printed operation,
element type and argument, followed by the keys of the sources. -/
def Expr.key (e : Expr) : GraphM (List UInt8) := do
  match e with
  | .mk number op d src arg _ =>
    if let some k := (← get).keys[number]? then return k
    let own := tupleOf [op.detail, d.text, arg.literal]
    let below ← src.attach.mapM fun ⟨s, _⟩ => s.key
    let k := Sha256.digest ⟨own.toUTF8.data ++ below.flatten.toArray⟩
    modify fun s => { s with keys := s.keys.insert number k }
    return k
termination_by e

end LazyTensor
