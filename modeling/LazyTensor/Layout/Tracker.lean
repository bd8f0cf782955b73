import LazyTensor.Layout.View

/-!
# Layouts

A layout is a view of a view of … of memory: a list of views, the innermost first.  Movements act on
the outermost view; where one view cannot express a new shape, a dense view is put on top.
-/

namespace LazyTensor

/-- A view of a view of … of memory, the innermost first. -/
abbrev Layout := List (View Dim)

namespace Layout

variable (l : Layout)

/-- The outermost view; of no views, that of a single element. -/
def last : View Dim := l.getLastD ⟨[], [], 0, none, true⟩

def shape (l : Layout) : List Dim := l.last.shape

def ofShape (shape : List Dim) (strides : Option (List Dim) := none) : GraphM Layout := do
  return [← View.create shape strides]

def size (l : Layout) : GraphM Int := l.last.size

def contiguous (l : Layout) : Bool :=
  match l with
  | [v] => v.contiguous
  | _ => false

def consecutive : GraphM Bool := do
  let [v] := l | return false
  if v.mask.isSome then return false
  return v.strides == (← Shape.strides v.shape)

def reduce (axes : List Int) : List Dim :=
  (l.shape.zipIdx.filter fun (_, i) => !axes.contains (i : Int)).map (·.1)

def onLast (f : View Dim → GraphM (View Dim)) : GraphM Layout := do
  return l.dropLast ++ [← f l.last]

def pad (l : Layout) (arg : List (Dim × Dim)) : GraphM Layout := l.onLast fun v => v.pad arg

def shrink (l : Layout) (arg : List (Dim × Dim)) : GraphM Layout := l.onLast fun v => v.shrink arg

def expand (l : Layout) (shape : List Dim) : GraphM Layout := l.onLast fun v => v.expand shape

def permute (l : Layout) (axes : List Int) : GraphM Layout := l.onLast fun v => v.permute axes

def flip (l : Layout) (arg : List Bool) : GraphM Layout := l.onLast fun v => v.flip arg

def reshape (shape : List Dim) : GraphM Layout := do
  let some v ← l.last.reshape? shape | return l ++ [← View.create shape]
  return l.dropLast ++ [v]

/-- The two outermost views become one as long as that is possible; the views come outermost
first. -/
def simplifyRev : List (View Dim) → View Dim → GraphM (List (View Dim))
  | [], v1 => return [v1]
  | v2 :: rest, v1 => do
    let some v ← View.merge? v2 v1 | return (v2 :: rest).reverse ++ [v1]
    simplifyRev rest v

def simplify : GraphM Layout :=
  match l.reverse with
  | [] => return []
  | v :: rest => simplifyRev rest v

def append (l m : Layout) : GraphM Layout := m.foldlM (fun acc v => simplify (acc ++ [v])) l

/-- The layout that undoes this one, if each view can be undone. -/
def invert? (l : Layout) (shape : List Dim) : GraphM (Option Layout) := do
  let rev := l.reverse
  let shapes := (rev.drop 1).map View.shape ++ [shape]
  let mut out : Layout := []
  for (v, s) in rev.zip shapes do
    let some w ← v.invert? s | return none
    out := out ++ [w]
  return some (← reshape out shape)

def vars (l : Layout) : List Expr := Expr.dedup (l.flatMap View.vars)

/-- Merge the values of variables; one variable cannot have two. -/
def mergeValues (vs : List (Expr × Int)) : GraphM (List (Expr × Int)) := do
  let mut out : List (Expr × Int) := []
  for (v, n) in vs do
    match out.find? (·.1 == v) with
    | none => out := out ++ [(v, n)]
    | some (_, m) =>
      if n ≠ m then throw (.broken "cannot merge")
  return out

def values : GraphM (List (Expr × Int)) := do mergeValues (← l.vars.mapM Expr.unbind)

/-- The layout with bound variables unbound, and their values. -/
def unbind (l : Layout) : GraphM (Layout × List (Expr × Int)) := do
  let vs ← l.mapM View.unbind
  if vs.all fun (_, ns) => ns.isEmpty then return (l, [])
  return (vs.map (·.1), ← mergeValues (vs.flatMap (·.2)))

def substitute (l : Layout) (subs : List (Expr × Expr)) : GraphM Layout :=
  l.mapM fun v => v.substitute subs

def flags? (a : Arg) : Option (List Bool) := do
  (← a.items?).mapM fun x => x.const?.map fun c => c.key ≠ .int 0

def need {α : Type} (x : Option α) : GraphM α :=
  x.getDM (throw .wrongType)

def move (op : Op) (arg : Arg) : GraphM Layout := do
  match op with
  | .reshape => l.reshape (← need arg.dims?)
  | .expand => l.expand (← need arg.dims?)
  | .permute => l.permute (← need arg.ints?)
  | .pad => l.pad (← need arg.pairs?)
  | .shrink => l.shrink (← need arg.pairs?)
  | .flip => l.flip (← need (flags? arg))
  | _ => throw .missingKey

end Layout

end LazyTensor
