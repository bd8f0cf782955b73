import LazyTensor.Graph.Bounds
import LazyTensor.Graph.Rules
import LazyTensor.Number.Packing

/-!
# Folding

The most generic simplifications: neutral and absorbing operands, operations on constants,
conversions that change nothing, and powers with constant operands.
-/

namespace LazyTensor

/-- An elementwise operation on the arguments of constant nodes, lane by lane for vectors.  Lanes
are brought into the range of their type, single values are left exact. -/
def Op.evalArgs (o : Op) (d : DType) (args : List Arg) : Result Arg :=
  let const (a : Arg) : Result Const :=
    match a with
    | .const c => .ok c
    | _ => .error .wrongType
  if d.count > 1 then do
    let lane (i : Nat) : Result Arg := do
      let xs ← args.mapM fun a => match a with
        | .tuple xs =>
          match xs[i]? with
          | some x => const x
          | none => .error .outOfRange
        | a => const a
      return .const (← o.eval d.scalar xs)
    return .tuple (← (List.range d.count).mapM lane)
  else do return .const (← o.evalExact (← args.mapM const))

namespace Folding

open Pat

def ints : Option (List DType) := some DType.ints

def sints : Option (List DType) := some DType.sints

def bools : Option (List DType) := some [.bool]

def anyConst : Pat := of [.vconst, .const]

def falseLike (x : Expr) : ExprM := do
  (← x.constLike (.bool false)).cast (← DType.bool.vec? x.dtype.count)

/-- A power with a constant exponent: reciprocal, square root and repeated squaring. -/
def power (x c : Expr) : RuleM := do
  let k ← match c.arg with
    | .const k => pure k
    | _ => throw .wrongType
  if Const.lt k (.int 0) then return some (← (← x.recip).pow (← c.neg))
  if Const.eq k (.int 0) then return some (← x.constLike (.int 1))
  let half ← Const.sub k (.float 0.5)
  let whole ← half.toInt?
  if Const.eq (← Const.add (.int whole) (.float 0.5)) k then
    let p ← x.pow (← c.constLike half)
    return some (← p.mul (← x.sqrt))
  if Const.eq (.int (← k.toInt?)) k then
    let y ← x.pow (← c.constLike (← Const.floorDiv k (.int 2)))
    let sq ← y.mul y
    if Const.eq (← Const.floorMod k (.int 2)) (.int 1) then return some (← sq.mul x)
    return some (← sq.mul 1)
  return none

def bits (root c : Expr) : RuleM := do
  match c.dtype.scalar.code?, root.dtype.scalar.code? with
  | some source, some target =>
    let convert (a : Arg) : GraphM Arg := do
      let .const v := a | throw .badPacking
      return .const (← Packing.unpack target (← Packing.pack source v))
    if root.dtype.count = 1 then return some (← root.constLikeArg (← convert c.arg))
    let .tuple xs := c.arg | throw .wrongType
    return some (← root.constLikeArg (.tuple (← xs.mapM convert)))
  | _, _ => return none

def constants (n : Nat) (a : Expr) : RuleM := do
  giving (a.constLikeArg (← a.op.evalArgs a.dtype ((a.src.take n).map Expr.arg)))

/-- Simplifications of a node from its operands alone. -/
def rules : RuleSet Expr := .ofList [
  -- neutral operands
  on1 ((var "x").add 0) "x" fun x => return some x,
  on1 ((var "x").mul 1) "x" fun x => return some x,
  on1 ((var "x" ints).lxor 0) "x" fun x => return some x,
  on1 ((var "x").idiv (var "x")) "x" fun x => giving (x.constLike (.int 1)),
  on1 ((var "x").idiv 1) "x" fun x => return some x,
  on1 ((var "x").idiv (-1 : Int)) "x" fun x => giving x.neg,
  on1 ((var "x").fdiv (var "x")) "x" fun x => giving (x.constLike (.int 1)),
  on1 (((var "x").mul (var "x2")).fdiv (var "x2")) "x" fun x => return some x,
  on1 (((wild.mod (var "y")).named "base").mod (var "y")) "base" fun b => return some b,
  on1 (((var "x").mod (cvar "c")).add (((var "x").idiv (cvar "c")).mul (cvar "c"))) "x" fun x =>
    return some x,
  on4 ((((var "x").idiv (cvar "c1")).mul (cvar "c3")).add
      (((var "x").mod (cvar "c1")).mul (cvar "c2"))) "x" "c1" "c2" "c3" fun x c1 c2 c3 => do
    match c1.arg, c2.arg, c3.arg with
    | .const a, .const b, .const c => givingIf (Const.eq (← Const.mul a b) c) (x.mul c2)
    | _, _, _ => throw .wrongType,
  on2 ((var "x" bools).land (cvar1 "c")) "x" "c" fun x c =>
    return some (if (c.arg.const?.getD (.int 0)).truthy then x else c),
  on2 ((var "x" bools).lor (cvar1 "c")) "x" "c" fun x c =>
    return some (if (c.arg.const?.getD (.int 0)).truthy then c else x),
  on1 (seq Op.idempotents [var "x", var "x"]) "x" fun x => return some x,
  on1 (var "x" bools).lnot.lnot "x" fun x => return some x,
  on1 ((var "x" bools).choose (Pat.const bools (.bool true)) (Pat.const bools (.bool false))) "x"
    fun x => return some x,
  -- absorbing operands
  on1 ((var "x").lt (var "x")) "x" fun x => giving (falseLike x),
  on1 ((var "x").mod (var "x")) "x" fun x => giving (x.constLike (.int 0)),
  on1 ((var "x" ints).ne (var "x" ints)) "x" fun x => giving (falseLike x),
  on1 ((var "x").mul 0) "x" fun x =>
    match x.arg with
    | .const (.float v) =>
      giving (x.constLike (if Binary64.isFinite v then .int 0 else .float Binary64.nan))
    | _ => giving (x.constLike (.int 0)),
  -- operations on constants
  on (seq Op.unaries [anyConst]) (constants 1),
  on (seq (Op.binaries.filter (· ≠ .threefry)) [anyConst, anyConst]) (constants 2),
  on (seq Op.ternaries [anyConst, anyConst, anyConst]) (constants 3),
  -- truth values multiply as a conjunction and add as a disjunction
  on2 ((var "x" bools).mul (var "y" bools)) "x" "y" fun x y => giving (x.land y),
  on2 ((var "x" bools).add (var "y" bools)) "x" "y" fun x y => giving (x.lor y),
  on2 ((var "x" bools).maximum (var "y" bools)) "x" "y" fun x y => giving (x.lor y),
  -- conversions
  on2 (seq [.cast] [cvar "c"] "root") "root" "c" fun root c => giving (root.constLikeArg c.arg),
  on (of [.cast, .bitcast]) fun root => do
    let s ← root.nth 0
    return if root.dtype = s.dtype then some s else none,
  on2 (seq [.bitcast] [cvar "c"] "root") "root" "c" bits,
  -- powers
  on2 ((var "x").alu .pow [cvar1 "c"]) "x" "c" power,
  on2 ((cvar1 "c").alu .pow [var "x"]) "c" "x" fun c x => do
    match c.arg with
    | .const k =>
      if Const.eq k (.int 1) then return some c
      if Const.lt (.int 0) k then
        return some (← (← x.mul (← Const.log2 k)).exp2)
      return none
    | _ => throw .wrongType]

end Folding

end LazyTensor
