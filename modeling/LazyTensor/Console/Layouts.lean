import LazyTensor.Console.Graphs

/-!
# Questions about shapes, views and layouts
-/

namespace LazyTensor.Layouts

open Answer

/-- A list of a request as a tuple: of integers, expressions, or one more level of tuples. -/
def tupleArg (sc : Scope) (j : Json) : GraphM Value := do
  match j with
  | .list (.text _ :: _) => sc.argument j
  | .list xs =>
    return .tuple (← xs.mapM fun x => match x with
      | .list (.text _ :: _) => sc.argument x
      | .list ys => return .tuple (← ys.mapM sc.argument)
      | x => sc.argument x)
  | j => sc.argument j

def maskArg (v : Value) : GraphM (Option (List (Dim × Dim))) :=
  match v with
  | .null => pure none
  | v => return some (← v.toPairs)

def groups (gs : List (List Nat)) : Json :=
  .list (gs.map fun g => .list (g.map fun (n : Nat) => .int n))

def pairs (ps : List (Dim × Dim)) : GraphM Json := do
  return .list (← ps.mapM fun (a, b) => do return .list [← dim a, ← dim b])

def axesOf (v : Value) : GraphM Axes := do
  (Axes.ofArg? (← v.arg)).getDM (throw .wrongType)

def shapeAnswer (fn : String) (args : List Value) : GraphM Json := do
  match fn, args with
  | "get_contraction", [a, b] =>
    option (fun g => return groups g) (← Shape.contraction? (← a.toDims) (← b.toDims))
  | "get_contraction_with_reduce", [a, b, c] =>
    option (fun g => return groups g)
      (← Shape.contractionWithReduce? (← a.toDims) (← b.toDims) (← c.toInts))
  | "merge_dims", a :: b :: rest =>
    let mask ← maskArg (rest.headD .null)
    let ms ← Shape.mergeDims (← a.toDims) (← b.toDims) mask
    return .list (← ms.mapM fun m => dims [m.size, m.stride, m.real])
  | "canonicalize_strides", [a, b] =>
    dims (Shape.canonicalStrides (← a.toDims) (← b.toDims))
  | "strides_for_shape", [a] => dims (← Shape.strides (← a.toDims))
  | "reshape_mask", [m, a, b] =>
    option pairs (← Shape.reshapeMask? (← maskArg m) (← a.toDims) (← b.toDims))
  | "unravel", [a, b] => dims (← Shape.unravel (← a.toDims) (← b.toDim))
  | "magicgu", [a, b] =>
    let (m, s) ← Division.magic? (← a.toInt) (← b.toInt)
    return .list [.int m, .int s]
  | "swizzle_args", [a, b, c] =>
    let lanes ← Axes.swizzle (← axesOf a) (← axesOf b) (← c.toInts)
    return .list (lanes.map fun (n : Nat) => .int n)
  | _, _ => badInput

def valuesJson (vs : List (Expr × Int)) : GraphM Json := do
  let named ← vs.mapM fun (v, n) => do return (← v.formula, n)
  return .list ((named.mergeSort fun a b => a.1 < b.1 || (a.1 == b.1 && a.2 ≤ b.2)).map fun (s, n) =>
    .list [.text s, .int n])

def flags (v : Value) : GraphM (List Bool) := do
  (← v.toItems).mapM fun x => match x.const? with
    | some c => pure c.truthy
    | none => wrongType

inductive Outcome (α : Type) where
  | became (a : α)
  | stayed
  | answered (j : Json)

def first (sc : Scope) (args : List Json) : GraphM Value := args.head?.elim badInput (tupleArg sc)

/-- An operation on a view. -/
def viewStep (sc : Scope) (v : View Dim) (name : String) (args : List Json) :
    GraphM (Outcome (View Dim)) := do
  let arg := first sc args
  let maybe (x : Option (View Dim)) : Outcome (View Dim) := x.elim .stayed .became
  match name with
  | "reshape" => maybe <$> v.reshape? (← (← arg).toDims)
  | "expand" => .became <$> v.expand (← (← arg).toDims)
  | "pad" => .became <$> v.pad (← (← arg).toPairs)
  | "shrink" => .became <$> v.shrink (← (← arg).toPairs)
  | "permute" => .became <$> v.permute (← (← arg).toInts)
  | "flip" => .became <$> v.flip (← flags (← arg))
  | "minify" => .became <$> v.minify
  | "add" => maybe <$> v.merge? (← sc.view (args.headD .null))
  | "radd" => maybe <$> (← sc.view (args.headD .null)).merge? v
  | "invert" => maybe <$> v.invert? (← (← arg).toDims)
  | "substitute" => .became <$> v.substitute (← sc.pairs (args.headD .null))
  | "size" => return .answered (.int (← v.size))
  | "index" =>
    let (i, ok) ← v.indexed (← v.loops) (← Expr.const .bool (.bool true))
    return .answered (.list [.text (← i.render), .text (← ok.render)])
  | "vars" => return .answered (Inquiry.sortedTexts (← v.vars.mapM fun x => x.formula))
  | "unbind" =>
    let (w, vs) ← v.unbind
    return .answered (.list [.record [("view", ← view w)], ← valuesJson vs])
  | _ => badInput

/-- An operation on a layout. -/
def layoutStep (sc : Scope) (l : Layout) (name : String) (args : List Json) :
    GraphM (Outcome Layout) := do
  let arg := first sc args
  let flag := args.head?.elim false Json.isOn
  let layoutArg : GraphM Layout :=
    match args with
    | .list vs :: _ => vs.mapM sc.view
    | _ => badInput
  let indices : GraphM (Option (List Expr)) :=
    match args with
    | .list es :: _ => return some (← es.mapM sc.expr)
    | _ => return none
  match name with
  | "reshape" => .became <$> l.reshape (← (← arg).toDims)
  | "expand" => .became <$> l.expand (← (← arg).toDims)
  | "pad" => .became <$> l.pad (← (← arg).toPairs)
  | "shrink" => .became <$> l.shrink (← (← arg).toPairs)
  | "permute" => .became <$> l.permute (← (← arg).toInts)
  | "flip" => .became <$> l.flip (← flags (← arg))
  | "simplify" => .became <$> l.simplify
  | "add" => .became <$> l.append (← layoutArg)
  | "substitute" => .became <$> l.substitute (← sc.pairs (args.headD .null))
  | "invert" => return .answered (← option layout (← l.invert? (← (← arg).toDims)))
  | "real_strides" =>
    return .answered (.list (← (← l.realStrides flag).mapM (option dim)))
  | "unit_stride_axes" =>
    return .answered (.list ((← l.unitStrideAxes flag).map fun (n : Nat) => .int n))
  | "real_size" => return .answered (.int (← l.realSize))
  | "size" => return .answered (.int (← l.size))
  | "index" =>
    let (i, ok) ← l.indexed (← indices)
    return .answered (.list [.text (← i.formula), .text (← ok.formula)])
  | "index_graph" =>
    let (i, ok) ← l.indexed (← indices)
    return .answered (.list [← graph i, ← graph ok])
  | "axis_is_masked" => return .answered (.bool (← l.axisIsMasked (← (← arg).toInt)))
  | "flags" => return .answered (.list [.bool l.contiguous, .bool (← l.consecutive)])
  | "reduce" => return .answered (← dims (l.reduce (← (← arg).toInts)))
  | "vars" => return .answered (Inquiry.sortedTexts (← l.vars.mapM fun x => x.formula))
  | "var_vals" => return .answered (← valuesJson (← l.values))
  | "unbind" =>
    let (m, vs) ← l.unbind
    return .answered (.list [← layout m, ← valuesJson vs])
  | _ => badInput

end LazyTensor.Layouts
