import LazyTensor.Tensor.Index

/-!
# Joining and cutting tensors

Tensors are joined along an axis by padding each to the whole and adding them up.  They are cut along
an axis by slices.
-/

namespace LazyTensor.Tensor

/-- Tensors one after another along an axis. -/
def cat (ts : List Tensor) (dim : Int := 0) : TensorM := do
  let t :: rest := ts | throw .wrongType
  let i ← t.axis dim
  let shape ← t.shape
  for u in rest do
    let other ← u.shape
    let fits := other.length = shape.length &&
      ((shape.zip other).zipIdx.all fun ((a, b), j) => j = i || a == b)
    if !fits then throw (.broken "")
  let lengths ← ts.mapM fun u => u.extent (i : Int)
  let (ends, total) ← lengths.foldlM (fun acc l => do
    let next ← acc.2.add l
    return (acc.1 ++ [(acc.2, next)], next)) ([], (0 : Dim))
  let padded ← (ts.zip ends).mapM fun (u, (a, b)) => do
    u.padSome (← u.atAxis i (some (a, ← total.sub b)) none)
  let p :: ps := padded | throw .wrongType
  ps.foldlM (fun a (b : Tensor) => a.add b) p

def stack (ts : List Tensor) (dim : Int := 0) : TensorM := do
  cat (← ts.mapM fun t => t.unsqueeze dim) dim

variable (t : Tensor)

def wholeShape : SessionM (List Int) := do
  let shape ← t.shape
  Shape.whole shape s!"does not support symbolic shape {Dim.shapeText shape}"

def wholeExtent (dim : Int) : SessionM (Nat × Int) := do
  let shape ← t.wholeShape
  let i ← t.axis dim
  return (i, ← itemAt shape (i : Int))

def splitSizes (sizes : List Int) (dim : Int) : SessionM (List Tensor) := do
  let (i, n) ← t.wholeExtent dim
  let total := sizes.foldl (· + ·) 0
  if total ≠ n then
    throw (.broken s!"expect sizes to sum exactly to {n}, but got {total}")
  let (bounds, _) := sizes.foldl (fun (acc, a) s => (acc ++ [(a, a + s)], a + s))
    (([] : List (Int × Int)), (0 : Int))
  bounds.mapM fun (a, b) => t.index (List.replicate i Index.whole ++ [Index.between a b])

def pieceSizes (n size : Int) : List Int :=
  let step := Max.max 1 size
  let count := (-(Int.fdiv (-(Max.max 1 n)) step)).toNat
  (List.range count).map fun (k : Nat) => Min.min size (n - step * k)

def split (size : Int) (dim : Int := 0) : SessionM (List Tensor) := do
  t.splitSizes (pieceSizes (← t.wholeExtent dim).2 size) dim

def chunk (count : Int) (dim : Int := 0) : SessionM (List Tensor) := do
  let shape ← t.wholeShape
  if count ≤ 0 then throw (.broken s!"expect chunks to be greater than 0, got: {count}")
  let i ← t.axis dim
  let n ← itemAt shape (i : Int)
  if n = 0 then t.splitSizes (List.replicate count.toNat 0) i
  else t.split (-(Int.fdiv n (-count))) i

def repeatInterleave (count : Dim) (dim : Option Int) : TensorM := do
  let (x, i) ← match dim with
    | none => pure (← t.flatten, 0)
    | some d => pure (t, ← t.axis d)
  let shape ← x.shape
  let front := shape.take (i + 1)
  let back := shape.drop (i + 1)
  let n ← itemAt shape (i : Int)
  let x ← x.reshape (front ++ [1] ++ back)
  let x ← x.expand (front ++ [count] ++ back)
  x.reshape (shape.take i ++ [← n.mul count] ++ back)

/-- Windows along an axis. -/
def unfold (dim : Int) (size : Int) (step : Int) : TensorM := do
  if size < 0 then throw (.misused s!"size must be >= 0 but got size={size}")
  if step ≤ 0 then throw (.misused s!"step must be > 0 but got step={step}")
  let n ← t.extent dim
  if ← (← Dim.gt (.int size) n).holds then
    throw (.misused
      s!"maximum size for tensor at dimension {dim} is {n.text} but size is {size}")
  let i ← t.axis dim
  let count ← t.ndim
  let others := (List.range count).filter (· ≠ i)
  let order := others ++ [i]
  let back := (List.range count).map fun j => ((order.findIdx? (· = j)).getD 0 : Nat)
  let x ← t.permute (order.map Int.ofNat)
  let x ← x.windows [.int size] (.inl step)
  x.permute (back.map Int.ofNat ++ [(count : Int)])

def meshgrid (ts : List Tensor) (crossed : Bool := false) : SessionM (List Tensor) := do
  match ts with
  | [_] | [] => return ts
  | _ =>
    let n := ts.length
    let basis := if crossed then [1, 0] ++ (List.range (n - 2)).map (· + 2) else List.range n
    let ts ← (basis.zip ts).mapM fun (i, t) =>
      t.reshape (.int (-1) :: List.replicate (n - 1 - i) 1)
    let shape ← Shape.broadcast (← ts.mapM fun t => t.shape)
    ts.mapM fun t => t.broadcastTo shape

/-- Elements moved along axes, round the ends. -/
def roll (shifts dims : List Int) : TensorM := do
  let axes ← dims.mapM fun d => t.axis d
  let shape ← t.shape
  (axes.zip shifts).foldlM (fun (x : Tensor) (i, shift) => do
    let n ← itemAt shape (i : Int)
    let shift ← match n with
      | .int 0 => throw Failure.divisionByZero
      | .int n => pure (shift.fmod n)
      | .sym _ => throw Failure.wrongType
    let part (s : Index) : TensorM := do x.index (← x.atAxis i s Index.whole)
    let front ← part (Index.upFrom (-shift))
    let back ← part (Index.upTo (-shift))
    cat [front, back] i) t

/-! ### Padding -/

inductive PadMode where
  | constant
  | reflect
  | replicate
  | circular
  deriving DecidableEq, Repr

def padCircular (shape : List Int) (amounts : List (Int × Int)) : TensorM := do
  if (amounts.zip shape).any fun ((a, b), s) => a > s || b > s then
    throw (.invalid "Padding value causes wrapping around more than once.")
  if amounts.any fun (a, b) => a < 0 || b < 0 then
    throw (.because .unsupported "Negative pads with circular pads is not supported")
  let one (n : Int) : Int := if n = 0 then 0 else 1
  let x ← t.repeats (amounts.map fun (a, b) => .int (1 + one a + one b))
  let grown := (shape.zip amounts).map fun (s, (a, b)) => s * (1 + one a + one b)
  x.shrink (((amounts.zip shape).zip grown).map fun (((a, b), s), g) =>
    some (.int (if a = 0 then 0 else s - a), .int (if b = 0 then g else g - s + b)))

/-- The elements that surround a tensor along an axis, where it is reflected at its ends. -/
def reflections (x : Tensor) (d : Nat) (a b : Int) : SessionM (Option Tensor × Option Tensor) := do
  let s ← match ← x.extent (d : Int) with
    | .int s => pure s
    | .sym _ => throw Failure.wrongType
  if a ≥ s || b ≥ s then
    throw (.invalid
      s!"Padding ({a}, {b}) should be less than the input size={s} for dim={d}.")
  let end' (k : Int) : Bound := if k ≥ 0 then .dim (.int k) else .none
  let side (count : Int) (start stop : Bound) : SessionM (Option Tensor) := do
    if count ≤ 0 then return none
    some <$> x.index (← x.atAxis d (.slice start stop (.dim (.int (-1)))) Index.whole)
  let front ← side a (.dim (.int a)) (.dim (.int 0))
  return (front, ← side b (end' (s - 2)) (end' (s - 2 - b)))

/-- The elements that surround a tensor along an axis, where its ends are repeated. -/
def replicas (x : Tensor) (d : Nat) (a b : Int) : SessionM (Option Tensor × Option Tensor) := do
  let s ← x.extent (d : Int)
  let side (bounds : Dim × Dim) (count : Int) : SessionM (Option Tensor) := do
    if count ≤ 0 then return none
    let y ← x.shrink (← x.atAxis d (some bounds) none)
    some <$> y.expandSome (← x.atAxis d (some (.int count)) none)
  let front ← side (0, 1) a
  let rear ← side (← s.sub 1, s) b
  return (front, rear)

def pad (amounts : List (Dim × Dim)) (mode : PadMode := .constant)
    (value : Const := .float 0) : TensorM := do
  if mode = .constant then return ← t.padBy amounts value
  let shape ← t.wholeShape
  let whole ← (amounts.mapM (m := Option) fun (a, b) => do return (← a.int?, ← b.int?)).getDM
      (throw .wrongType)
  if mode = .circular then return ← t.padCircular shape whole
  let x ← whole.zipIdx.foldlM (fun (x : Tensor) ((a, b), d) => do
    let a := Max.max a 0
    let b := Max.max b 0
    let (front, rear) ← if mode = .reflect then x.reflections d a b else x.replicas d a b
    cat (front.toList ++ [x] ++ rear.toList) d) t
  let cuts := (whole.zip (← x.wholeShape)).map fun ((a, b), s) =>
    some (Dim.int (-(Min.min a 0)), Dim.int (Min.min (b + s) s))
  x.shrink cuts

end LazyTensor.Tensor
