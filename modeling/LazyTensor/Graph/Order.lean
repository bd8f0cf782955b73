import LazyTensor.Graph.Expr
import LazyTensor.Sorting

/-!
# The order of nodes

Nodes are ordered by the rank of their operation, then by argument, element type and sources.  Some
arguments have no order; two nodes that differ first in such an argument cannot be compared.
-/

namespace LazyTensor

/-- The order of constants; a NaN is before and after nothing and so comes out as greater. -/
def Const.order (a b : Const) : Ordering :=
  if Const.same a b then .eq else if Const.lt a b then .lt else .gt

/-- The order of arguments.  Only arguments of one kind that has an order compare. -/
def Arg.order? : Arg → Arg → Result Ordering
  | .const a, .const b => .ok (Const.order a b)
  | .text a, .text b => .ok (compare a b)
  | .op a, .op b => .ok (compare a.rank b.rank)
  | .dtype a, .dtype b => .ok (if a = b then .eq else if a.lt b then .lt else .gt)
  | .bytes a, .bytes b => .ok (orderBytes a b)
  | .tuple xs, .tuple ys => orderAll xs ys
  | .none, .none => .ok .eq
  | .block a, .block b =>
    if a.number = b.number then .ok .eq else .error (.misused "no comparing basic blocks")
  | a, b => if Arg.same a b then .ok .eq else .error .wrongType
where
  orderBytes : List UInt8 → List UInt8 → Ordering
    | [], [] => .eq
    | [], _ => .lt
    | _, [] => .gt
    | a :: as, b :: bs => if a = b then orderBytes as bs else compare a b
  orderAll : List Arg → List Arg → Result Ordering
    | [], [] => .ok .eq
    | [], _ => .ok .lt
    | _, [] => .ok .gt
    | a :: as, b :: bs =>
      if Arg.same a b then orderAll as bs else order? a b

namespace Expr

mutual

/-- The order of nodes: rank of the operation, argument, element type, sources. -/
def order? : Expr → Expr → Result Ordering
  | .mk n op d src arg _, .mk n' op' d' src' arg' _ =>
    if n = n' then .ok .eq
    else if op ≠ op' then .ok (compare op.rank op'.rank)
    else do
      match ← Arg.order? arg arg' with
      | .eq =>
        if d ≠ d' then return (if d.lt d' then .lt else .gt)
        orderAll? src src'
      | o => return o

def orderAll? : List Expr → List Expr → Result Ordering
  | [], [] => .ok .eq
  | [], _ :: _ => .ok .lt
  | _ :: _, [] => .ok .gt
  | a :: as, b :: bs => do
    match ← order? a b with
    | .eq => orderAll? as bs
    | o => return o

end

def before? (a b : Expr) : Result Bool := do return (← order? a b) == .lt

def sort? (es : List Expr) : Result (List Expr) := Sorting.sort? before? es

end Expr

end LazyTensor
