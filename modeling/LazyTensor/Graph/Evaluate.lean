import LazyTensor.Graph.Render
import LazyTensor.Number.Elementwise

/-!
# Values of expressions

The value of an expression under values of its variables, computed on its formula: sums and products
of numbers of any size, quotients toward zero, choices that look only at the side taken.
-/

namespace LazyTensor.Expr

def varName? (e : Expr) : Option String :=
  match e.arg with
  | .tuple (.text s :: _) => some s
  | _ => none

/-- A conversion as formulas write it: only the names that call a number type are known. -/
private def convert (d : DType) (c : Const) : Result Const :=
  match d with
  | .int => return .int (← c.toInt?)
  | .float => return .float (← c.toFloat?)
  | .bool => .ok (.bool c.truthy)
  | _ => .error (.bare .unknownName)

/-- The value of a node where variables have the given ones. -/
def valueUnder (vals : List (String × Const)) (e : Expr) : Result Const := do
  match e with
  | .mk _ op d src arg _ =>
    match op with
    | .defineVar | .special =>
      let .tuple (.text s :: _) := arg | throw .wrongType
      (vals.lookup s).getDM (throw (.bare .unknownName))
    | .const =>
      match arg with
      | .const (.float x) =>
        if Binary64.isFinite x then return .float x else throw (.bare .unknownName)
      | .const c => return c
      | _ => throw .wrongType
    | .bind =>
      let ⟨a, _⟩ :: _ := src.attach | throw .outOfRange
      a.valueUnder vals
    | .cast =>
      let ⟨a, _⟩ :: _ := src.attach | throw .outOfRange
      do convert d (← a.valueUnder vals)
    | .select =>
      let ⟨c, _⟩ :: ⟨a, _⟩ :: ⟨b, _⟩ :: _ := src.attach | throw .outOfRange
      if (← c.valueUnder vals).truthy then a.valueUnder vals else b.valueUnder vals
    | .range | .load | .unroll => throw (.bare .unknownName)
    | .neg =>
      let ⟨a, _⟩ :: _ := src.attach | throw .outOfRange
      do return (← a.valueUnder vals).neg
    | _ =>
      let xs ← src.attach.mapM fun ⟨a, _⟩ => a.valueUnder vals
      match op, xs with
      | .add, [a, b] => Const.add a b
      | .sub, [a, b] => Const.sub a b
      | .mul, [a, b] => Const.mul a b
      | .idiv, [a, b] => Const.truncDiv a b
      | .mod, [a, b] => Const.truncMod a b
      | .shl, [a, b] => Const.shiftLeft a b
      | .shr, [a, b] => Const.shiftRight a b
      | .cmplt, [a, b] => return .bool (Const.lt a b)
      | .cmpne, [a, b] => return .bool !(Const.eq a b)
      | .and, [a, b] => Const.land a b
      | .or, [a, b] => Const.lor a b
      | .xor, [a, b] => Const.lxor a b
      | .max, [a, b] => return Const.max a b
      | .mulacc, [a, b, c] => Const.add (← Const.mul a b) c
      | _, _ => throw .wrongType
termination_by e

/-- The value of an expression after simplification, under values of its variables by name. -/
def evaluate (e : Expr) (vals : List (Expr × Int)) : GraphM Const := do
  let s ← e.simplify
  let _ ← s.formula Formula.callRules
  let names := s.toposort.toList.filterMap fun u => if u.is .defineVar then u.varName? else none
  let known := vals.filterMap fun (v, n) => v.varName?.map fun s => (s, Const.int n)
  let known := known.reverse
  if !names.all (fun n => known.any (·.1 == n)) then throw .wrongType
  s.valueUnder known

end LazyTensor.Expr
