import LazyTensor.Graph.Op
import LazyTensor.Number.Const

/-!
# Expression graphs

A graph is written as a tree of nodes in which equal subtrees are one node: every node carries a
number, and two nodes are the same exactly when their numbers are.  Because a node holds its
sources, reading a graph needs no table, and recursion over it is recursion over a finite tree.

Nodes refer to extents (`Dim`), which are integers or again expressions, and to views of memory,
which are built from extents.
-/

namespace LazyTensor

/-- A view of memory: how an index of each axis moves through the memory, and which part of each
axis is inside it. -/
structure View (ι : Type) where
  shape : List ι
  strides : List ι
  offset : ι
  mask : Option (List (ι × ι))
  contiguous : Bool

/-- A straight piece of a linear program, with the loops and branches it stands in. -/
structure Block (ε : Type) where
  number : Nat
  body : List ε
  ctx : List ε
  closes : Option ε
  count : Nat
  childCtx : Option (List ε)

structure KernelInfo where
  name : String := "test"
  localDims : Int := 0
  upcasted : Int := 0
  dontUseLocals : Bool := false
  deriving DecidableEq, Repr, Hashable

structure Metadata where
  name : String
  caller : String
  backward : Bool := false
  deriving DecidableEq, Repr

def Metadata.text (m : Metadata) : String := m.name ++ (if m.backward then " bw" else "")

def Metadata.longText (m : Metadata) : String :=
  m.text ++ (if m.caller.isEmpty then "" else " - " ++ m.caller)

mutual

inductive Expr where
  | mk (number : Nat) (op : Op) (dtype : DType) (src : List Expr) (arg : Arg) (tag : Arg)

/-- An extent: an integer, or an expression that stands for one. -/
inductive Dim where
  | int (n : Int)
  | sym (e : Expr)

/-- What a node carries besides its sources. -/
inductive Arg where
  | none
  | const (c : Const)
  | text (s : String)
  | op (o : Op)
  | dtype (d : DType)
  | bytes (b : List UInt8)
  | tuple (xs : List Arg)
  | expr (e : Expr)
  | layout (views : List (View Dim))
  | view (v : View Dim)
  | info (k : KernelInfo)
  | block (b : Block Expr)
  | kernel (ast : Expr) (metadata : List Metadata)

end

instance : Inhabited Expr := ⟨.mk 0 .noop .void [] .none .none⟩
instance : Inhabited Dim := ⟨.int 0⟩

namespace Arg

@[match_pattern] abbrev int (n : Int) : Arg := .const (.int n)

@[match_pattern] abbrev bool (b : Bool) : Arg := .const (.bool b)

@[match_pattern] abbrev float (x : Float) : Arg := .const (.float x)

def isNone : Arg → Bool
  | .none => true
  | _ => false

def dim? : Arg → Option Dim
  | .const (.int n) => some (.int n)
  | .const (.bool b) => some (.int (Const.ofBool b))
  | .expr e => some (.sym e)
  | _ => Option.none

def const? : Arg → Option Const
  | .const c => some c
  | _ => Option.none

def int? : Arg → Option Int
  | .const c => c.int?
  | _ => Option.none

def hasNaN : Arg → Bool
  | .const (.float x) => x.isNaN
  | .tuple xs => xs.attach.any fun ⟨x, _⟩ => x.hasNaN
  | _ => false

def items? : Arg → Option (List Arg)
  | .tuple xs => some xs
  | _ => Option.none

def items (a : Arg) : List Arg := a.items?.getD []

def op? : Arg → Option Op
  | .op o => some o
  | _ => Option.none

def text? : Arg → Option String
  | .text s => some s
  | _ => Option.none

def ints? (a : Arg) : Option (List Int) := do (← a.items?).mapM int?

def dims? (a : Arg) : Option (List Dim) := do (← a.items?).mapM dim?

def pairs? (a : Arg) : Option (List (Dim × Dim)) := do
  (← a.items?).mapM fun p => do
    match ← p.items? with
    | [x, y] => return (← x.dim?, ← y.dim?)
    | _ => Option.none

def ofInts (xs : List Int) : Arg := .tuple (xs.map fun n => .const (.int n))

end Arg

def Dim.arg : Dim → Arg
  | .int n => .const (.int n)
  | .sym e => .expr e

namespace Arg

def ofDims (xs : List Dim) : Arg := .tuple (xs.map Dim.arg)

def ofPairs (xs : List (Dim × Dim)) : Arg := .tuple (xs.map fun (a, b) => .tuple [a.arg, b.arg])

end Arg

namespace Expr

@[inline] def number : Expr → Nat
  | .mk n .. => n

@[inline] def op : Expr → Op
  | .mk _ o .. => o

@[inline] def dtype : Expr → DType
  | .mk _ _ d .. => d

@[inline] def src : Expr → List Expr
  | .mk _ _ _ s .. => s

@[inline] def arg : Expr → Arg
  | .mk _ _ _ _ a _ => a

@[inline] def tag : Expr → Arg
  | .mk _ _ _ _ _ t => t

instance : BEq Expr := ⟨fun a b => a.number == b.number⟩
instance : Hashable Expr := ⟨fun a => hash a.number⟩

variable (e : Expr)

@[inline] def src0 : Expr :=
  match e.src with
  | a :: _ => a
  | _ => e

@[inline] def src1 : Expr :=
  match e.src with
  | _ :: b :: _ => b
  | _ => e

@[inline] def src2 : Expr :=
  match e.src with
  | _ :: _ :: c :: _ => c
  | _ => e

def const? (e : Expr) : Option Const :=
  if e.op = .const then e.arg.const? else none

@[inline] def is (o : Op) : Bool := e.op == o

def srcIs (i : Nat) (o : Op) : Bool := (e.src[i]?).elim false (·.is o)

end Expr

namespace Dim

/-- Extents are the same when they are the same integer or the same node. -/
def same : Dim → Dim → Bool
  | .int n, .int m => n == m
  | .sym a, .sym b => a == b
  | _, _ => false

instance : BEq Dim := ⟨same⟩

def hashOf : Dim → UInt64
  | .int n => hash n
  | .sym e => mixHash 11 (hash e.number)

instance : Hashable Dim := ⟨hashOf⟩

def int? : Dim → Option Int
  | .int n => some n
  | .sym _ => none

def isInt : Dim → Bool
  | .int _ => true
  | .sym _ => false

instance : Coe Int Dim := ⟨.int⟩
instance {n : Nat} : OfNat Dim n := ⟨.int n⟩

def ints? (xs : List Dim) : Option (List Int) := xs.mapM int?

def allInt (xs : List Dim) : Bool := xs.all isInt

end Dim

namespace View

variable {ι : Type}

def same [BEq ι] (a b : View ι) : Bool :=
  a.contiguous == b.contiguous && a.offset == b.offset && a.shape == b.shape
    && a.strides == b.strides && a.mask == b.mask

instance [BEq ι] : BEq (View ι) := ⟨same⟩

instance [Hashable ι] : Hashable (View ι) :=
  ⟨fun v => mixHash (hash v.shape) (mixHash (hash v.strides) (mixHash (hash v.offset) (hash v.mask)))⟩

end View

inductive Const.Key where
  | int (n : Int)
  | bits (b : UInt64)
  | nan
  deriving DecidableEq, Hashable

/-- The key of a constant: its integer where it has one, all NaNs alike, otherwise its bits. -/
def Const.key : Const → Const.Key
  | .bool b => .int (Const.ofBool b)
  | .int n => .int n
  | .float x =>
    if x.isNaN then .nan
    else if Binary64.isFinite x && Binary64.isIntegral x then .int (Binary64.truncate x)
    else .bits x.toBits

/-- Constants are shared when they are equal across kinds, or both NaN. -/
def Const.same (a b : Const) : Bool := a.key == b.key

def Const.hashOf (c : Const) : UInt64 := hash c.key

namespace Arg

/-- Arguments are the same when they are equal, constants across kinds; nodes by number. -/
def same : Arg → Arg → Bool
  | .none, .none => true
  | .const a, .const b => Const.same a b
  | .text a, .text b => a == b
  | .op a, .op b => a == b
  | .dtype a, .dtype b => a == b
  | .bytes a, .bytes b => a == b
  | .tuple xs, .tuple ys => sameList xs ys
  | .expr a, .expr b => a == b
  | .layout a, .layout b => a == b
  | .view a, .view b => a == b
  | .info a, .info b => a == b
  | .block a, .block b => a.number == b.number
  | .kernel a m, .kernel b n => a == b && m == n
  | _, _ => false
where
  sameList : List Arg → List Arg → Bool
    | [], [] => true
    | x :: xs, y :: ys => same x y && sameList xs ys
    | _, _ => false

def hashOf : Arg → UInt64
  | .none => 3
  | .const c => c.hashOf
  | .text s => mixHash 5 (hash s)
  | .op o => mixHash 13 (hash o)
  | .dtype d => mixHash 17 (hash d)
  | .bytes b => mixHash 19 (hash b)
  | .tuple xs => hashList 23 xs
  | .expr e => mixHash 11 (hash e.number)
  | .layout vs => mixHash 29 (hash vs)
  | .view v => mixHash 31 (hash v)
  | .info k => mixHash 37 (hash k)
  | .block b => mixHash 41 (hash b.number)
  | .kernel a _ => mixHash 43 (hash a.number)
where
  hashList : UInt64 → List Arg → UInt64
    | h, [] => h
    | h, x :: xs => hashList (mixHash h (hashOf x)) xs

instance : BEq Arg := ⟨same⟩
instance : Hashable Arg := ⟨hashOf⟩

end Arg

structure Expr.Content where
  op : Op
  dtype : DType
  src : List Expr
  arg : Arg
  tag : Arg

namespace Expr.Content

def same (a b : Content) : Bool :=
  a.op == b.op && a.src == b.src && a.dtype == b.dtype && a.arg == b.arg && a.tag == b.tag

instance : BEq Content := ⟨same⟩

instance : Hashable Content :=
  ⟨fun c =>
    let h := mixHash (hash c.op) (hash c.dtype)
    let h := c.src.foldl (fun h e => mixHash h (hash e.number)) h
    mixHash h (mixHash c.arg.hashOf c.tag.hashOf)⟩

end Expr.Content

def Expr.content (e : Expr) : Expr.Content := ⟨e.op, e.dtype, e.src, e.arg, e.tag⟩

end LazyTensor
