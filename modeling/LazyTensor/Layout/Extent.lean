import LazyTensor.Graph.Bounds
import LazyTensor.Graph.Evaluate

/-!
# Arithmetic of extents

Extents are integers or expressions.  Integers are computed with at once (quotients go to the
floor); as soon as an expression takes part, the result is an expression.  A comparison of extents
is a truth value or an expression for one, which can be resolved by simplification.
-/

namespace LazyTensor

/-- The outcome of a comparison: known, or an expression for it. -/
inductive Test where
  | known (b : Bool)
  | sym (e : Expr)

namespace Expr

/-- The single value an expression has after simplification; more than one is refused. -/
def eval (e : Expr) (types : List DType) (isRight : Const → Bool) : GraphM Const := do
  if !types.contains e.dtype then throw (.broken "eval with wrong dtype UOp(")
  let s ← e.simplify
  let (lo, hi) ← s.bounds
  if !Const.eq lo hi then
    let f ← s.render
    throw (.invalid
      s!"eval failed to be a single number, range is {lo.text} to {hi.text} in {f}")
  if !isRight lo then throw (.broken "vmin is wrong dtype <class")
  return lo

def toBool (e : Expr) : GraphM Bool := do
  let c ← e.eval [.bool] fun c => match c with
    | .bool _ => true
    | _ => false
  return c.truthy

def toInt (e : Expr) : GraphM Const := e.eval DType.ints Const.isIntLike

def toFloat (e : Expr) : GraphM Const := e.eval DType.floats fun c => match c with
  | .float _ => true
  | _ => false

/-- Decide a truth value by simplification; the default if that fails. -/
def resolve (e : Expr) (default : Bool := true) : GraphM Bool := do
  if e.dtype ≠ .bool then throw (.broken "UOp in resolve must be bool")
  let s ← e.simplify
  let (lo, hi) ← s.bounds
  return if Const.eq lo hi then lo.truthy else default

end Expr

namespace Test

def resolve (t : Test) (default : Bool := true) : GraphM Bool :=
  match t with
  | .known b => pure b
  | .sym e => e.resolve default

def holds (t : Test) : GraphM Bool :=
  match t with
  | .known b => pure b
  | .sym e => e.toBool

end Test

namespace Dim

/-- A binary operation on extents: integers at once, otherwise as an expression. -/
@[inline] def bin (onInt : Int → Int → Int) (op : Op) (a b : Dim) : GraphM Dim :=
  match a, b with
  | .int n, .int m => pure (.int (onInt n m))
  | .sym x, b => return .sym (← x.bin op b)
  | .int n, .sym y => return .sym (← Expr.binRev op n y)

def add : Dim → Dim → GraphM Dim := bin (· + ·) .add

def mul : Dim → Dim → GraphM Dim := bin (· * ·) .mul

def neg : Dim → GraphM Dim
  | .int n => pure (.int (-n))
  | .sym e => return .sym (← e.neg)

def sub : Dim → Dim → GraphM Dim
  | .int n, .int m => pure (.int (n - m))
  | .sym x, b => return .sym (← x.sub b)
  | .int n, .sym y => return .sym (← y.rsub n)

def nonzero (a b : Dim) : GraphM Unit :=
  match a, b with
  | .int _, .int 0 => throw .divisionByZero
  | _, _ => pure ()

/-- Quotient: to the floor for integers, toward zero for expressions. -/
def div (a b : Dim) : GraphM Dim := do
  nonzero a b
  bin Int.fdiv .idiv a b

def mod (a b : Dim) : GraphM Dim := do
  nonzero a b
  bin Int.fmod .mod a b

variable (ds : List Dim)

def sum : GraphM Dim := ds.foldlM add (.int 0)

def prod : GraphM Dim := ds.foldlM mul (.int 1)

def accumulate : GraphM (List Dim) :=
  match ds with
  | [] => pure []
  | d :: rest => do
    let (_, acc) ← rest.foldlM (fun (x, acc) d => do
      let y ← x.mul d
      return (y, acc ++ [y])) (d, [d])
    return acc

/-- A comparison of extents, from that of two numbers, of an expression with an extent, and the same
turned round. -/
@[inline]
def compare (known : Int → Int → Bool) (test turned : Expr → Dim → GraphM Expr) (a b : Dim) :
    GraphM Test :=
  match a, b with
  | .int n, .int m => pure (.known (known n m))
  | .sym x, b => return .sym (← test x b)
  | .int n, .sym y => return .sym (← turned y n)

def lt : Dim → Dim → GraphM Test := compare (· < ·) (·.lt ·) (·.gt ·)

def gt : Dim → Dim → GraphM Test := compare (· > ·) (·.gt ·) (·.lt ·)

def le : Dim → Dim → GraphM Test := compare (· ≤ ·) (·.le ·) (·.ge ·)

def ge : Dim → Dim → GraphM Test := compare (· ≥ ·) (·.ge ·) (·.le ·)

def ne : Dim → Dim → GraphM Test := compare (· ≠ ·) (·.ne ·) (·.ne ·)

def differs (a b : Dim) (default : Bool := true) : GraphM Bool := do (← ne a b).resolve default

def simplify : Dim → GraphM Dim
  | .int n => pure (.int n)
  | .sym e => do
    let s ← e.simplify
    if s.is .const then
      let some n := s.arg.int? | throw .wrongType
      return .int n
    return .sym s

def combine (onExpr : Expr → Dim → ExprM) (onInt : Int → Int → Int) (ds : List Dim) :
    GraphM Dim := do
  let syms := ds.filterMap fun d => match d with
    | .sym e => some e
    | .int _ => none
  let ints := ds.filterMap int?
  let num : Option Int := match ints with
    | [] => none
    | n :: rest => some (rest.foldl onInt n)
  let e :: rest := syms | return .int (num.getD 0)
  let r ← (rest.map Dim.sym ++ (num.map Dim.int).toList).foldlM onExpr e
  simplify (.sym r)

def largest : GraphM Dim := combine (fun e d => e.maximum d) max ds

def smallest : GraphM Dim := combine (fun e d => e.minimum d) min ds

def upper : Dim → GraphM Const
  | .int n => pure (.int n)
  | .sym e => e.vmax

def vars : Dim → List Expr
  | .int _ => []
  | .sym e => e.vars

def substitute (subs : List (Expr × Expr)) : Dim → GraphM Dim
  | .int n => pure (.int n)
  | .sym e => return .sym (← e.substitute subs)

end Dim

def Expr.bindTo (e : Expr) (d : Dim) : ExprM :=
  match d with
  | .int n => e.bind n
  | .sym x => do
    if e.op ≠ .defineVar then throw (.broken s!"op is {e.op.text}, need DEFINE_VAR")
    let .tuple [_, .const lo, .const hi] := e.arg | throw .wrongType
    let above ← (← x.ge lo).toBool
    let inside ← if above then (← x.le hi).toBool else pure false
    if !inside then throw (.broken "bind UOp(")
    node .bind e.dtype [e, ← e.constLikeArg (.expr x)]

end LazyTensor
