import LazyTensor.Console.Value
import LazyTensor.Symbolic.Full

/-!
# Expressions in requests

An expression is written as a list whose head names how it is made: a leaf, a function, or a method
of a node with its arguments.  Names bound by `let` are looked up in a scope.
-/

namespace LazyTensor

open LazyTensor.Expr

abbrev Scope := List (String × Expr)

def wrongType {α : Type} : GraphM α := throw .wrongType

def badInput {α : Type} : GraphM α := throw .badInput

namespace Value

variable (v : Value)

def operand : GraphM Operand :=
  match v with
  | .expr e => pure (.expr e)
  | .bool b => pure (.const (.bool b))
  | .int n => pure (.const (.int n))
  | .float x => pure (.const (.float x))
  | .tuple xs => return .lanes (← (xs.mapM const?).getDM wrongType)
  | .text _ => throw .invalidValue
  | _ => wrongType

def negatable : GraphM Operand :=
  match v with
  | .tuple _ | .text _ => wrongType
  | v => v.operand

def toExpr : ExprM :=
  match v with
  | .expr e => pure e
  | _ => throw .missingMember

def toInt : GraphM Int := v.int?.getDM wrongType

def toConst : GraphM Const := v.const?.getDM wrongType

def toDim : GraphM Dim := v.dim?.getDM wrongType

def toItems : GraphM (List Value) := v.items?.getDM wrongType

def toDType : GraphM DType :=
  match v with
  | .dtype d => pure d
  | .text s => DType.parse s
  | _ => throw .missingMember

def toOp : GraphM Op :=
  match v with
  | .op o => pure o
  | .text s => Value.opOf s
  | _ => wrongType

def toDims : GraphM (List Dim) := do (← v.toItems).mapM toDim

def toInts : GraphM (List Int) := do (← v.toItems).mapM toInt

def toPairs : GraphM (List (Dim × Dim)) := do
  (← v.toItems).mapM fun p => do
    let [a, b] ← p.toItems | throw .invalidValue
    return (← a.toDim, ← b.toDim)

def frozen : Value → Value
  | .list xs | .tuple xs => .tuple (frozenAll xs)
  | v => v
where
  frozenAll : List Value → List Value
    | [] => []
    | x :: xs => frozen x :: frozenAll xs

end Value

def Json.depth : Json → Nat
  | .list xs => 1 + depthAll xs
  | .record fs => 1 + depthFields fs
  | _ => 1
where
  depthAll : List Json → Nat
    | [] => 0
    | x :: xs => max (depth x) (depthAll xs)
  depthFields : List (String × Json) → Nat
    | [] => 0
    | (_, x) :: xs => max (depth x) (depthFields xs)

namespace Method

def bitsRev (op : Op) (e : Expr) (x : Operand) : ExprM := do
  e.checkBits
  binRev op x e

def binary : List (String × (Expr → Operand → ExprM)) :=
  [("add", add), ("mul", mul), ("div", fdiv), ("idiv", idiv), ("mod", mod),
   ("bitwise_and", land), ("bitwise_or", lor), ("bitwise_xor", lxor),
   ("ne", ne), ("eq", eq), ("lshift", shl), ("rshift", shr),
   ("maximum", maximum), ("pow", pow), ("__lt__", lt), ("__gt__", gt),
   ("__le__", le), ("__ge__", ge), ("__rsub__", rsub),
   ("__rtruediv__", fun e x => do (← e.fix x).mul (← e.recip)),
   ("__rand__", bitsRev .and), ("__ror__", bitsRev .or), ("__rxor__", bitsRev .xor)] ++
  [("add", Op.add), ("mul", .mul), ("floordiv", .idiv), ("mod", .mod), ("lshift", .shl),
   ("rshift", .shr)].map fun (n, op) => (s!"__r{n}__", flip (binRev op))

def unary : List (String × (Expr → ExprM)) :=
  [("neg", neg), ("logical_not", lnot), ("reciprocal", recip), ("sqrt", sqrt),
   ("sin", sin), ("log2", log2), ("exp2", exp2), ("contiguous", contig),
   ("contiguous_backward", (·.alu .contiguousBackward)),
   ("detach", fun e => node .detach e.dtype [e]), ("fuse", fuse), ("gbarrier", gbarrier),
   ("valid", validOnly), ("simplify", simplify)]

def movements : List (String × Op) :=
  [("reshape", .reshape), ("pad", .pad), ("expand", .expand), ("permute", .permute),
   ("shrink", .shrink), ("flip", .flip)]

def deviceArg (v : Value) : GraphM Arg := v.frozen.arg

def other? (name : String) (e : Expr) (args : List Value) : Option ExprM :=
  match name, args with
  | "sub", [x] => some do e.sub (← x.negatable)
  | "minimum", [x] => some do e.minimum (← x.negatable)
  | "where", [x, y] =>
    match x, y with
    | .expr a, y => some do e.choose a (← y.operand)
    | x, .expr b => some do e.choose (← x.operand) b
    | _, _ => some (throw (.misused "where needs at least one UOp arg"))
  | "threefry", [x] => some do e.alu .threefry [← x.toExpr]
  | "cast", [d] => some do e.cast (← d.toDType)
  | "bitcast", [d] => some do e.bitcast (← d.toDType)
  | "gep", [.tuple xs] => some do e.gep (← xs.mapM Value.toInt)
  | "gep", [i] => some do e.gep [← i.toInt]
  | "broadcast", [n] => some do e.broadcast (← n.toInt).toNat
  | "index", [i] => some do e.index (← i.toExpr)
  | "index", [i, .null] => some do e.index (← i.toExpr)
  | "index", [i, v] => some do e.index (← i.toExpr) (some (← v.toExpr))
  | "load", xs => some do e.load (← xs.mapM Value.toExpr)
  | "store", xs => some do e.store (← xs.mapM Value.toExpr)
  | "sink", xs => some do
    sink (e :: (← (xs.filter fun x => !x.isNone).mapM Value.toExpr))
  | "assign", [x] => some do e.assign (← x.toExpr)
  | "const_like", [c] => some do e.constLikeArg (← c.arg)
  | "bind", [n] => some do e.bindTo (← n.toDim)
  | "view", [v] => some do node .view e.dtype [e] (← v.arg)
  | "copy_to_device", [d] => some do e.copyTo (← deviceArg d)
  | "copy_to_device", [d, .null] => some do e.copyTo (← deviceArg d)
  | "copy_to_device", [d, i] => some do
    let .tuple _ ← e.device | throw (.broken "")
    (← node .mselect e.dtype [e] (← i.arg)).copyTo (← deviceArg d)
  | "mselect", [i] => some do node .mselect e.dtype [e] (← i.arg)
  | "multi", [.null] => some (e.multi none)
  | "multi", [a] => some do e.multi (some (← a.toInt))
  | "shard", [ds, a] => some do e.shard (← deviceArg ds) (← a.toInt)
  | "allreduce", [o, d] => some do e.allReduce (← o.arg) (← deviceArg d)
  | _, _ => none

def others : List String :=
  ("sub minimum where threefry cast bitcast gep broadcast index load store " ++
    "sink assign const_like bind view copy_to_device mselect multi shard allreduce").splitOn " "

/-- A method of a node by name.  A wrong number of arguments is a wrong type; an unknown name
makes the request unreadable. -/
def call (name : String) (e : Expr) (args : List Value) : ExprM := do
  if let some f := binary.lookup name then
    match args with
    | [x] => f e (← x.operand)
    | _ => wrongType
  else if let some f := unary.lookup name then
    match args with
    | [] => f e
    | _ => wrongType
  else if let some op := movements.lookup name then
    match args with
    | [a] => e.move op (← a.arg)
    | _ => wrongType
  else
    (other? name e args).getD (if others.contains name then wrongType else badInput)

end Method

def Json.given? {α : Type} (f : Json → GraphM α) : Option Json → GraphM (Option α)
  | none | some .null => pure none
  | some x => some <$> f x

namespace Scope

def viewOf (dimOf : Json → GraphM Dim) (j : Json) : GraphM (View Dim) := do
  let dims (x : Json) : GraphM (List Dim) :=
    match x with
    | .list xs => xs.mapM dimOf
    | _ => badInput
  let shape ← dims ((j.field? "shape").getD .null)
  let strides ← Json.given? dims (j.field? "strides")
  let offset ← Json.given? dimOf (j.field? "offset")
  let bounds (x : Json) : GraphM (Dim × Dim) :=
    match x with
    | .list [a, b] => return (← dimOf a, ← dimOf b)
    | _ => badInput
  let mask ← Json.given? (fun
    | .list ms => ms.mapM bounds
    | _ => badInput) (j.field? "mask")
  View.create shape strides (offset.getD 0) mask

mutual

/-- The node that a request describes. -/
def exprFuel : Nat → Scope → Json → ExprM
  | 0, _, _ => badInput
  | fuel + 1, sc, j =>
    let sub (x : Json) : ExprM := exprFuel fuel sc x
    let arg (x : Json) : GraphM Value := argumentFuel fuel sc x
    let dtype (x : Json) : GraphM DType := do (← arg x).toDType
    let oneOf (f : Expr → GraphM (Expr × Expr)) (x i : Json) : ExprM := do
      let (a, b) ← f (← sub x)
      itemAt [a, b] (← (← arg i).toInt)
    match j with
    | .bool b => const .bool (.bool b)
    | .int n => const .int (.int n)
    | .record [("f", x)] => do const .float (.float (← Value.floatOf x))
    | .list (.text head :: args) =>
      match head, args with
      | "$", [.text name] =>
        (sc.lookup name).getDM (throw (.bare .unbound))
      | "let", [.list bs, body] => do
        let sc ← bs.foldlM (fun sc b => match b with
          | .list [.text n, x] => return (n, ← exprFuel fuel sc x) :: sc
          | _ => badInput) sc
        exprFuel fuel sc body
      | "var", .text name :: lo :: hi :: rest => do
        let lo ← arg lo
        let hi ← arg hi
        let d ← match rest with
          | [d] => dtype d
          | _ => pure .int
        match lo, hi with
        | .expr _, _ | _, .expr _ => throw (.broken "can't create Variable UOp(")
        | lo, hi => node .defineVar d [] (.tuple [.text name, ← lo.arg, ← hi.arg])
      | "const", d :: v :: rest => do
        let d ← dtype d
        let v ← arg v
        let dev ← Json.given? (fun x => do Method.deviceArg (← arg x)) rest.head?
        let shape ← Json.given? (fun
          | .list xs => xs.mapM fun x => do (← arg x).toDim
          | x => do (← arg x).toDims) rest[1]?
        constArg d (← v.arg) dev shape
      | "range", [d, stop, i] => do
        range (← dtype d) (← (← arg stop).toDim) (← (← arg i).toInt)
      | "special", [.text name, n] => do
        node .special .int [] (.tuple [.text name, ← (← arg n).arg])
      | "u", .text op :: d :: .list src :: rest => do
        let op ← Value.opOf op
        let d ← dtype d
        let src ← src.mapM sub
        let part (i : Nat) : GraphM Arg := (rest[i]?).elim (pure .none) fun x => do (← arg x).arg
        node op d src (← part 0) (← part 1)
      | "global", [d, n] => do node .defineGlobal (← dtype d) [] (← (← arg n).arg)
      | "buffer", [dev, size, d] => do
        let dev ← match dev with
          | .list ds => pure (Arg.tuple (← ds.mapM fun x => do (← arg x).arg))
          | x => Method.deviceArg (← arg x)
        let size ← arg size
        let d ← dtype d
        let u ← node .unique .void [] (.int (← freshUnique))
        node .buffer d [u, ← node .device .void [] dev] (← size.arg)
      | "fold", [.text m, .list xs] => do
        let x :: xs ← xs.mapM sub | throw .wrongType
        xs.foldlM (fun acc y => Method.call m acc [.expr y]) x
      | "xsin", d :: rest => do
        let d ← sub d
        Elementary.xsin d (((← rest.head?.mapM arg).bind Value.const?).elim false Const.truthy)
      | "xexp2", [d] => do Elementary.xexp2 (← sub d)
      | "xlog2", [d] => do Elementary.xlog2 (← sub d)
      | "xpow", [a, b] => do Elementary.xpow (← sub a) (← sub b)
      | "rintk", [d] => do Elementary.rintk (← sub d)
      | "ilogb2k", [d] => do Elementary.ilogb2k (← sub d)
      | "pow2if", [q, d] => do Elementary.pow2if (← sub q) (← dtype d)
      | "ldexp2k", [a, b] => do Elementary.ldexp2k (← sub a) (← sub b)
      | "ldexp3k", [a, b] => do Elementary.ldexp3k (← sub a) (← sub b)
      | "threefry2x32", [a, b] => do Full.randomBits (← sub a) (← sub b)
      | "sin_poly", [d] => do Elementary.sinPoly (← sub d)
      | "smax", xs => do (← Dim.largest (← xs.mapM fun x => do (← arg x).toDim)).expr
      | "smin", xs => do (← Dim.smallest (← xs.mapM fun x => do (← arg x).toDim)).expr
      | "frexp", [d, i] => oneOf Elementary.frexp d i
      | "payne_hanek", [d, i] => oneOf Elementary.reduceLarge d i
      | "cody_waite", [d, i] => oneOf Elementary.reduceSmall d i
      | "r", [x, .text op, .list axes] => do
        let e ← sub x
        e.reduceOver (← Value.opOf op) (← axes.mapM fun a => do (← arg a).toInt)
      | "alu", x :: .text op :: rest => do
        let e ← sub x
        e.alu (← Value.opOf op) (← rest.mapM sub)
      | "base", [x] => return (← sub x).base
      | name, self :: rest => do
        let e ← sub self
        Method.call name e (← rest.mapM arg)
      | _, _ => badInput
    | _ => badInput

def argumentFuel : Nat → Scope → Json → GraphM Value
  | 0, _, _ => badInput
  | fuel + 1, sc, j =>
    let dimOf (x : Json) : GraphM Dim := do (← argumentFuel fuel sc x).toDim
    match j with
    | .list _ => return .expr (← exprFuel fuel sc j)
    | .record [("t", .list xs)] => return .tuple (← xs.mapM (argumentFuel fuel sc))
    | .record [("st", .list vs)] => return .layout (← vs.mapM (viewOf dimOf))
    | .record [("view", v)] => return .view (← viewOf dimOf v)
    | .record [("ki", .list xs)] => do
      let xs ← xs.mapM (argumentFuel fuel sc)
      let name ← match (xs[0]? : Option Value) with
        | some (.text s) => pure s
        | _ => badInput
      let int (i : Nat) : GraphM Int := match xs[i]? with
        | some v => v.toInt
        | none => pure 0
      let dont := match xs[3]? with
        | some v => v.const?.elim false Const.truthy
        | none => false
      return .info ⟨name, ← int 1, ← int 2, dont⟩
    | j => Value.ofJsonWith (fun x => return .expr (← exprFuel fuel sc x)) (fuel + 1) j

end

variable (sc : Scope) (j : Json)

def expr : ExprM := exprFuel (2 * j.depth + 2) sc j

def argument : GraphM Value := argumentFuel (2 * j.depth + 2) sc j

def plain : GraphM Value :=
  Value.ofJsonWith (fun x => do return .expr (← sc.expr x)) (2 * j.depth + 2) j

def dim : GraphM Dim := do (← sc.argument j).toDim

def pairs : GraphM (List (Expr × Expr)) :=
  match j with
  | .list ps => ps.mapM fun p => match p with
    | .list [a, b] => return (← sc.expr a, ← sc.expr b)
    | _ => badInput
  | _ => badInput

def view : GraphM (View Dim) := viewOf sc.dim j

end Scope

/-! ### Fields of requests -/

namespace Request

variable (j : Json) (k : String)

def need : GraphM Json := (j.field? k).getDM badInput

def items : GraphM (List Json) := do (← need j k).items?.getDM badInput

def text : GraphM String := do (← need j k).text?.getDM badInput

def int : GraphM Int := do (← need j k).int?.getDM badInput

def flag (otherwise : Bool := false) : Bool := (j.field? k).elim otherwise Json.isOn

end Request

end LazyTensor
