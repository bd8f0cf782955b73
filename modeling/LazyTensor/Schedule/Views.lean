import LazyTensor.Layout.OfExpr

/-!
# Views in a graph of tensors

A movement of a tensor is a view of what the tensor is a view of.  Views of views are one view.
Before a graph becomes kernels, its views move toward the sources: a view of an elementwise
operation is the operation on views, and a view of a reduction is the reduction of a view that has
the reduced axes at the end.
-/

namespace LazyTensor.Views

def layoutOf (e : Expr) : GraphM Layout :=
  match e.arg with
  | .layout l => pure l
  | _ => throw .missingMember

def under (e : Expr) (l : Option Layout) : ExprM :=
  node .view e.dtype [e] (l.elim .none .layout)

/-- Views that join, or that do nothing. -/
def mergeRules : List (Rule Expr) := [
  -- two views are one
  on2 (.seq [.view] [.of [.view] (some "inner")] (some "outer")) "inner" "outer" fun inner outer => do
    match inner.arg, outer.arg with
    | .layout a, .layout b => giving (do inner.withArg (.layout (← Layout.append a b)))
    | .layout _, _ => throw .missingMember
    | _, _ => throw .wrongType,
  -- a movement is a view of the node under all movements
  on2 (.seq Op.movements [.var "x"] (some "move")) "move" "x" fun move x => do
    giving (under x.base (← move.layout?)),
  -- a view moves behind a copy unless it selects a part
  on3 (.seq [.copy] [.of [.view] (some "view"), .var "device"] (some "copy")) "view" "copy" "device"
    fun view _ device => do
      let x ← view.nth 0
      if (← x.size) ≤ (← view.size) then
        giving (do (← x.copyTo (.expr device)).view (← layoutOf view))
      else return none,
  -- a view that changes nothing
  on2 (Pat.view (.var "x") (some "view")) "x" "view" fun x view => do
    let some l ← x.layout? | return none
    let v ← layoutOf view
    return if Layout.contiguous v && Layout.shape v == Layout.shape l then some x else none]

def merge : RuleSet Expr := .ofList mergeRules

/-- A view with the reduced axes at its end; the steps of the others grow by the number of reduced
elements. -/
def widen (reduced : List Dim) (count : Dim) (steps : List Dim) (v : View Dim) :
    GraphM (View Dim) := do
  let strides ← v.strides.mapM fun s => s.mul count
  let mask := v.mask.map fun ms => ms ++ reduced.map fun s => ((0 : Dim), s)
  View.create (v.shape ++ reduced) (some (strides ++ steps)) (← v.offset.mul count) mask

def keptAxes (rank : Nat) (axes : List Int) : List Int :=
  (List.range rank).filterMap fun (i : Nat) => if axes.contains (i : Int) then none else some (i : Int)

/-- A view of a reduction as a reduction of a view: every view of the layout gets the reduced axes
at its end, and its steps grow by the number of reduced elements. -/
def throughReduce? (src reduction view : Expr) : RuleM := do
  if !reduction.tag.isNone then return none
  let axes ← reduction.axisArg
  let shape ← src.shape
  let order := keptAxes shape.length axes ++ axes
  if order ≠ (List.range order.length).map (fun (i : Nat) => (i : Int)) then
    throw (.broken s!"reduce axis must already be in order, {DType.tupleText order} isn't")
  let reduced := if axes.isEmpty then shape else shape.drop (shape.length - axes.length)
  let count ← Dim.prod reduced
  let steps ← Shape.strides reduced
  let l ← (← view.layout?).getDM (throw (.broken ""))
  let views ← l.mapM (widen reduced count steps)
  let n := (Layout.shape l).length
  let op ← match reduction.arg.items with
    | o :: _ => pure o
    | [] => throw .outOfRange
  let last := (List.range axes.length).map fun i => ((n + i : Nat) : Int)
  giving (do
    node .reduceAxis reduction.dtype [← src.view views] (.tuple [op, .ofInts last]))

def toSources : RuleSet Expr := .ofList (mergeRules ++ [
  on2 (.seq [.view] [.of (Op.alus ++ [.cast, .bitcast, .bind, .valid]) (some "e")] (some "view"))
    "e" "view" fun e view => do
      if !e.tag.isNone then return none
      let l ← view.layout?
      giving (do e.withSrc (← e.src.mapM fun s => under s l)),
  on3 (.seq [.view] [.seq [.reduceAxis] [.var "src"] (some "reduction")] (some "view"))
    "src" "reduction" "view" throughReduce?])

/-- Rules that move views toward the sources in graphs whose results are stored: nothing else has
to be stored on the way, and extents of one are left out. -/
def inStores : RuleSet Expr := toSources ++ .ofList [
  on (.of [.contiguous]) fun x => giving (x.nth 0),
  on2 (.seq [.store] [.var "buffer", .var "value"]) "buffer" "value" fun buffer value => do
    let shape ← value.shape
    let rest ← shape.filterM fun s => do (← s.ne 1).holds
    if rest == shape then return none
    giving (do buffer.store [← value.reshape rest])]

/-- Rules that put views in front of loads, and store without a load. -/
def atLoads : RuleSet Expr := .ofList [
  on2 (.seq [.view] [Pat.load (.var "x")] (some "view")) "x" "view" fun x view =>
    giving (do (← node .view x.dtype [x] view.arg).load),
  on2 (.seq [.store] [.seq [.load] [.var "buffer"], .var "value"]) "buffer" "value"
    fun buffer value => giving (buffer.store [value])]

end LazyTensor.Views
