import LazyTensor.Tensor.Join

/-!
# Scans and triangles

Running sums, products and maxima along an axis.  A long axis is scanned in blocks: first within each
block, then over the last elements of the blocks.
-/

namespace LazyTensor

section Triangle

variable {T : Type} [Movable T] (full : List Dim → Bool → SessionM T)

/-- A square with ones from the diagonal on: each row of a wide square starts a place later than the
one before it. -/
def Movable.upper (s : Int) : SessionM T := do
  let t ← extend (← full [.int s, .int s] true) 1 [.int s]
  let t ← take (← regroup t 0 [.int (s * (s + s))]) 0 [.int (s * (2 * s - 1))]
  take (← regroup t 0 [.int s, .int (2 * s - 1)]) 1 [.int s]

/-- Ones from a diagonal on, and zeros before it. -/
def Movable.triangle (slice : T → List (Int × Int) → SessionM T) (r c diagonal : Int) :
    SessionM T := do
  if r = 0 || c = 0 || diagonal ≥ c then return ← full [.int r, .int c] false
  if r + diagonal ≤ 0 then return ← full [.int r, .int c] true
  let t ← upper full (r + c - 1)
  if diagonal ≤ 0 then slice t [(0, r), (-diagonal, c - diagonal)]
  else slice t [(diagonal, r + diagonal), (0, c)]

end Triangle

namespace Tensor

def scanBlock : Int := 256

variable (t : Tensor)

/-- What an operation has come to at each position along an axis. -/
def scan (dim : Int) (op : Op) : TensorM := do
  let axis : Int := (← t.axis dim : Nat)
  let shape ← t.shape
  if shape.isEmpty || shape.contains 0 then return t
  match ← itemAt shape axis with
  | .sym _ => t.running axis op
  | .int n =>
    if n ≤ scanBlock * 2 then return ← t.running axis op
    let neutral ← identityElement? op t.dtype
    let grown ← Shape.roundUp n scanBlock
    let x ← (← t.transpose axis (-1)).padFlat [.int (grown - n), 0] neutral
    let x ← (← x.unflatten (-1) [.int (-1), .int scanBlock]).running (-1) op
    let ends ← (← x.index [.gap, .position (.int (-1))]).running (-1) op true
    let ends ← (← ends.unsqueeze (-1)).expand ((← ends.shape) ++ [← x.extent (-1)])
    let restore (y : Tensor) : TensorM := do
      (← (← y.flatten (-2)).index [.gap, Index.upFrom (-n)]).transpose axis (-1)
    let a ← restore x
    let b ← restore ends
    match op with
    | .add => a.add b
    | .max => a.maximum b
    | _ => a.mul b

def cumsum (dim : Int := 0) : TensorM := t.scan dim .add

def cumprod (dim : Int) : TensorM := t.scan dim .mul

def cummax (dim : Int := 0) : TensorM := t.scan dim .max

/-- A matrix of ones from a diagonal on. -/
def triangle (rows cols : Dim) (diagonal : Int) (w : Wish) : TensorM :=
  match rows, cols with
  | .int r, .int c =>
    Movable.triangle (fun shape one => full shape (.float (if one then 1 else 0)) w)
      (fun t bounds => t.index (bounds.map fun (a, b) => .between a b)) r c diagonal
  | r, c => throw (.broken s!"does not support symbolic, getting r={r.text}, c={c.text}")

/-- The elements from a diagonal on. -/
def triu (diagonal : Int := 0) : TensorM := do
  let mask ← triangle (← t.extent (-2)) (← t.extent (-1)) diagonal (← t.beside (some .bool) none)
  (← mask.choose t 0).cast t.dtype

/-- The elements up to a diagonal. -/
def tril (diagonal : Int := 0) : TensorM := do
  let mask ← triangle (← t.extent (-2)) (← t.extent (-1)) (diagonal + 1)
    (← t.beside (some .bool) none)
  (← mask.choose 0 t).cast t.dtype

def logCumSumExp (dim : Int := 0) : TensorM := do
  if (← t.ndim) = 0 then return t
  let axis : Int := (← t.axis dim : Nat)
  let x ← t.transpose axis (-1)
  let n ← x.extent (-1)
  let rows ← x.reshape [.int (-1), n]
  let greatest ← (← rows.cummax (-1)).unsqueeze (-1)
  let wide ← (← rows.unsqueeze 1).expand ((← rows.shape) ++ [n])
  let mask ← (← ones [n, n] (← t.beside)).tril
  let mask ← mask.unsqueeze 0
  let sums ← (← (← (← wide.sub greatest).exp).mul mask).sum (.one (-1))
  let r ← (← sums.log).add (← greatest.squeeze (-1))
  (← r.reshape (← x.shape)).transpose (-1) axis

/-- The first position of the greatest element. -/
def argmax (dim : Option Int) (keep : Bool := false) : TensorM := do
  let (t, dim, keep) ← match dim with
    | some d => pure (t, d, keep)
    | none => pure (← t.flatten, 0, false)
  let i ← t.axis dim
  let axis : Int := i
  let isMax ← t.eq (← t.max (.one axis) true)
  let count ← t.ndim
  let n ← t.extent axis
  let down ← match n with
    | .int m =>
      arange (.int m) (.int 0) (.int (-1)) (← t.beside)
    | .sym _ => throw .wrongType
  let score ← isMax.mul (← down.reshape (n :: List.replicate (count - i - 1) 1))
  (← (← score.max (.one axis) keep).sub n true).cast .int

def argmin (dim : Option Int) (keep : Bool := false) : TensorM := do
  (← t.inverse).argmax dim keep

end Tensor

end LazyTensor
