import LazyTensor.Graph.Build
import LazyTensor.Number.Elementwise

/-!
# Bounds of nodes

An interval that holds every value a node can take.  Where nothing is known it is the whole range
of the element type.
-/

namespace LazyTensor

open LazyTensor.Const

abbrev Bounds := Const × Const

namespace Bounds

def ofDType (d : DType) : Bounds := (Const.least d, Const.greatest d)

def ofList? : List Const → Option Bounds
  | [] => none
  | c :: cs => some (cs.foldl Const.min c, cs.foldl Const.max c)

def mul (a b : Bounds) : Result Bounds := do
  let p ← Const.mul a.1 b.1
  let q ← Const.mul a.1 b.2
  let r ← Const.mul a.2 b.1
  let s ← Const.mul a.2 b.2
  return ((ofList? [p, q, r, s]).getD (p, p))

def neg (c : Const) : Bool := Const.lt c (.int 0)

def pos (c : Const) : Bool := Const.lt (.int 0) c

def nonneg (c : Const) : Bool := Const.le (.int 0) c

def nonpos (c : Const) : Bool := Const.le c (.int 0)

/-- Bounds of a remainder by a divisor that is not zero and keeps its sign. -/
def mod? (a b : Bounds) : Result (Option Bounds) := do
  let range (m : Const) : Result (Option Bounds) := do
    let n := m.neg
    return some (if nonneg a.1 then (.int 0, m) else if nonpos a.2 then (n, .int 0) else (n, m))
  if pos b.1 then range (← Const.sub b.2 (.int 1))
  else if neg b.2 then range (← sub b.1.neg (.int 1))
  else return none

/-- Bounds of a quotient toward zero, by a divisor that keeps its sign. -/
def idiv? (a b : Bounds) : Result (Option Bounds) := do
  unless a.1.isIntLike && a.2.isIntLike && b.1.isIntLike && b.2.isIntLike do throw (.broken "")
  let q (x y u v : Const) : Result (Option Bounds) := do
    return some (← truncDiv x y, ← truncDiv u v)
  if eq b.1 b.2 && pos b.1 then q a.1 b.1 a.2 b.1
  else if eq b.1 b.2 && neg b.1 then q a.2 b.1 a.1 b.1
  else if nonpos a.2 && neg b.2 then q a.2 b.1 a.1 b.2
  else if nonneg a.1 && pos b.1 then q a.1 b.2 a.2 b.1
  else if nonpos a.2 && pos b.1 then q a.1 b.1 a.2 b.2
  else if nonneg a.1 && neg b.2 then q a.2 b.2 a.1 b.1
  else return none

/-- Bounds of a binary operation that is not on floating values, where they can be told. -/
def binary? (op : Op) (d : DType) (a b : Bounds) : Result (Option Bounds) := do
  let shift (f : Const → Const → Result Const) : Result (Option Bounds) := do
    if eq b.1 b.2 && a.1.isIntLike && a.2.isIntLike && b.1.isIntLike then
      return some (← f a.1 b.1, ← f a.2 b.1)
    return none
  match op with
  | .add => return some (← add a.1 b.1, ← add a.2 b.2)
  | .sub => return some (← sub a.1 b.2, ← sub a.2 b.1)
  | .and =>
    if eq b.1 b.2 && nonneg a.1 && nonneg b.1 then
      return some (min (.int 0) a.1, min a.2 b.2)
    if d = .bool then
      return some (if a.1.truthy then b.1 else a.1, if a.2.truthy then b.2 else a.2)
    return none
  | .or =>
    if d = .bool then
      return some (if a.1.truthy then a.1 else b.1, if a.2.truthy then a.2 else b.2)
    return none
  | .mul => return some (← mul a b)
  | .shl => shift shiftLeft
  | .shr => shift shiftRight
  | .mod => mod? a b
  | .idiv => idiv? a b
  | .max => return some (max a.1 b.1, max a.2 b.2)
  | .cmplt => return some (.bool (lt a.2 b.1), .bool (lt a.1 b.2))
  | .cmpne =>
    return some (.bool (lt a.2 b.1 || lt b.2 a.1),
      .bool (!(eq a.1 a.2 && eq a.2 b.1 && eq b.1 b.2)))
  | _ => return none

end Bounds

namespace Expr

/-- The bounds remembered of a node, found and remembered when they are asked for the first time. -/
@[inline] def remembered (number : Nat) (find : GraphM Bounds) : GraphM Bounds := do
  match (← get).bounds[number]? with
  | some b => return b
  | none =>
    let b ← find
    modify fun s => { s with bounds := s.bounds.insert number b }
    return b

/-- The least and the greatest value that a node can have. -/
def bounds (e : Expr) : GraphM Bounds :=
  match e with
  | .mk number op d src arg _ => remembered number (
    if op.isBinary && !d.isFloat then
      match src with
      | a :: b :: _ => do
        let x ← a.bounds
        let y ← b.bounds
        return (← Bounds.binary? op d x y).getD (Bounds.ofDType d)
      | _ => throw .outOfRange
    else
      match op with
      | .select =>
        if d.isInt then
          match src with
          | _ :: a :: b :: _ => do
            let x ← a.bounds
            let y ← b.bounds
            return (min x.1 y.1, max x.2 y.2)
          | _ => throw .outOfRange
        else return Bounds.ofDType d
      | .defineVar =>
        match arg with
        | .tuple (_ :: .const lo :: .const hi :: _) => return (lo, hi)
        | .tuple [] | .none => return Bounds.ofDType d
        | .tuple (_ :: _ :: _ :: _) => throw .wrongType
        | .tuple _ => throw .outOfRange
        | _ => throw .wrongType
      | .range =>
        match src with
        | a :: _ => do
          if a.dtype.isFloat then return (.int 0, Const.greatest a.dtype)
          let one ← Const.ofDType? (.int (-1)) a.dtype
          return (.int 0, ← Const.add (← a.bounds).2 one)
        | [] => throw .outOfRange
      | .bind =>
        match src with
        | a :: _ => a.bounds
        | [] => throw .outOfRange
      | .unroll | .vectorize => do
        let bs ← src.attach.mapM fun ⟨a, _⟩ => a.bounds
        match Bounds.ofList? (bs.map (·.1)), Bounds.ofList? (bs.map (·.2)) with
        | some x, some y => return (x.1, y.2)
        | _, _ => throw .invalidValue
      | .special =>
        match arg with
        | .tuple (_ :: .const c :: _) => return (.int 0, ← Const.sub c (.int 1))
        | .tuple [_, .expr x] => return (.int 0, (← x.bounds).2)
        | _ => throw .wrongType
      | .const =>
        match arg with
        | .const c => return (c, c)
        | _ => throw .wrongType
      | .vconst =>
        (Bounds.ofList? (arg.items.filterMap Arg.const?)).getDM (throw .invalidValue)
      | .cast =>
        match src with
        | a :: _ => do
          let x ← a.bounds
          return (Const.max (Const.least d) x.1, Const.min x.2 (Const.greatest d))
        | [] => throw .outOfRange
      | _ => return Bounds.ofDType d)
termination_by e

def vmin (e : Expr) : GraphM Const := do return (← e.bounds).1

def vmax (e : Expr) : GraphM Const := do return (← e.bounds).2

end Expr

end LazyTensor
