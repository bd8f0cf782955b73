import LazyTensor.Layout.Tracker

/-!
# Layouts of nodes

The layout of a node follows from its operation and from the layouts of its sources.  Nodes of plain
index arithmetic have none.
-/

namespace LazyTensor.Expr

def axisArg (e : Expr) : GraphM (List Int) := do
  if e.op ≠ .reduceAxis && e.op ≠ .wmma then
    throw (.broken s!"axis_arg called on {e.op.text}")
  let .tuple xs := e.arg | throw .wrongType
  let some a := xs[if e.op = .reduceAxis then 1 else 7]? | throw .outOfRange
  a.ints?.getDM (throw (.broken s!"axis_arg trying to return {a.literal}"))

def deviceCount (e : Expr) : GraphM Nat := do
  match ← e.device with
  | .tuple ds => return ds.length
  | .text s => return s.length
  | _ => throw .wrongType

/-- The layout remembered of a node, found and remembered when it is asked for the first time. -/
@[inline] def rememberedLayout (number : Nat) (find : GraphM (Option Layout)) :
    GraphM (Option Layout) := do
  match (← get).layouts[number]? with
  | some l => return l
  | none =>
    let l ← find
    modify fun s => { s with layouts := s.layouts.insert number l }
    return l

/-- The layout of a node, from its operation and the layouts of its sources. -/
def computeLayout (e : Expr) : GraphM (Option Layout) :=
  match e with
  | .mk number op d src arg tag => rememberedLayout number (
    match op with
    | .store | .assign =>
      match src.attach with
      | ⟨a, _⟩ :: _ => a.computeLayout
      | [] => throw .outOfRange
    | .view =>
      match arg with
      | .layout l => pure (some l)
      | .none => pure none
      | _ => throw .missingMember
    | .buffer | .bufferView => do
      let n := if op = .buffer then arg.dim? else (arg.items.head?).bind Arg.dim?
      let some n := n | throw .wrongType
      pure (some (← Layout.ofShape [n]))
    | .kernel =>
      match arg with
      | .kernel ast _ => do
        let some l ← ast.computeLayout | throw (.broken "")
        do pure (some (← Layout.ofShape [.int (← l.size)]))
      | _ => throw .missingMember
    | _ =>
      if op = .const && (src.head?.elim false fun a => a.is .device) then do
        pure (some (← Layout.ofShape []))
      else if op.isMovement then
        match src.attach with
        | ⟨a, _⟩ :: _ => do
          let some l ← a.computeLayout | throw (.broken "")
          do pure (some (← l.move op arg))
        | [] => throw .outOfRange
      else if op.isBufferOp then do
        let ls ← src.attach.mapM fun ⟨a, _⟩ => do
          if a.is .view then pure (some (← a.computeLayout)) else pure none
        match ls.findSome? id with
        | some l => pure l
        | none => pure none
      else do
        let ls ← src.attach.mapM fun ⟨a, _⟩ => a.computeLayout
        match ls.filterMap id with
        | [] => pure none
        | l :: rest =>
          if !rest.all (fun m => m.shape == l.shape) then
            throw (.broken "UOp sources must have the same shape UOp(")
          let shape ← match op, src.attach with
            | .multi, ⟨a, _⟩ :: _ =>
              let n ← (Expr.mk number op d src arg tag).deviceCount
              let some m ← a.computeLayout | throw (Failure.broken "")
              m.shape.zipIdx.mapM fun (s, i) =>
                if arg.int? = some (i : Int) then s.mul (.int n) else pure s
            | .bitcast, ⟨a, _⟩ :: _ =>
              if d.itemsize ≠ a.dtype.itemsize then
                let last :: front := l.shape.reverse | throw .outOfRange
                let n ← (← last.mul (.int a.dtype.itemsize)).div (.int d.itemsize)
                pure (front.reverse ++ [n])
              else pure l.shape
            | .reduceAxis, _ | .wmma, _ =>
              pure (l.reduce (← (Expr.mk number op d src arg tag).axisArg))
            | _, _ => pure l.shape
          pure (some (← Layout.ofShape shape)))
termination_by e

def size (e : Expr) : GraphM Int := do
  match e.op with
  | .bufferView =>
    ((e.arg.items.head?).bind Arg.int?).getDM (throw .wrongType)
  | .buffer =>
    e.arg.int?.getDM (throw .wrongType)
  | _ =>
    let some l ← e.layout? | throw (.broken "")
    Layout.size l

/-- The axis along which a node is spread over devices, where it is. -/
def shardAxis (e : Expr) : GraphM (Option Int) := do
  match e with
  | .mk number op _ src arg _ =>
    if let some a := (← get).axes[number]? then return a
    let r : Option Int ←
      if op = .multi then pure arg.int?
      else if op.isAlu then
        let axes ← src.attach.mapM fun ⟨a, _⟩ => a.shardAxis
        pure (axes.filterMap id).eraseDups.getLast?
      else
        match src with
        | [] => pure none
        | a :: _ =>
          let below ← a.shardAxis
          match op, below with
          | .reduceAxis, some i =>
            let some axes := arg.items[1]? | throw .outOfRange
            pure (if (axes.ints?.getD []).contains i then none else some i)
          | .reshape, some i =>
            let dims ← arg.dims?.getDM (throw .wrongType)
            let (_, acc) ← dims.foldlM (fun (x, acc) d => do
              let y ← Dim.mul x d
              return (y, acc ++ [y])) ((1 : Dim), [(1 : Dim)])
            let shape ← a.shape
            let n := shape.length
            let k := if i < 0 then i + n else i
            let before ← Dim.prod (shape.take k.toNat)
            let some j := acc.reverse.findIdx? (· == before) | throw .invalidValue
            pure (some ((acc.length : Int) - j - 1))
          | .permute, some i =>
            let some j := (arg.ints?.getD []).findIdx? (· == i) | throw .invalidValue
            pure (some (j : Int))
          | _, b => pure b
    modify fun s => { s with axes := s.axes.insert number r }
    return r
termination_by e

end LazyTensor.Expr
