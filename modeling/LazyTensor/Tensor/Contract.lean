import LazyTensor.Tensor.Image

/-!
# Contractions

Products of matrices, and sums of products of tensors whose axes are named by letters.
-/

namespace LazyTensor

/-- A formula for a sum of products: the letters of the axes of each operand, and of the result. -/
structure Subscripts where
  inputs : List String
  output : String

namespace Subscripts

def isLetter (c : Char) : Bool := c.isAlpha || c.toNat > 127

variable (s : String)

def occurrences (c : Char) : Nat := (s.toList.filter (· = c)).length

def lastOf (n : Int) : String :=
  let cs := s.toList
  if n > 0 then String.ofList (cs.drop (cs.length - n.toNat))
  else String.ofList (cs.drop (-n).toNat)

def swap (s part new : String) : String := String.intercalate new (s.splitOn part)

def unused : String :=
  String.ofList ("abcdefghijklmnopqrstuvwxyzABCDEFGHIJKLMNOPQRSTUVWXYZ".toList.filter fun c =>
    !(s.toList.contains c))

def single (except : String := "") : String :=
  String.ofList ((s.toList.filter fun c =>
    occurrences s c = 1 && isLetter c && !(except.toList.contains c)).mergeSort (· ≤ ·))

def sides : Result (String × String) :=
  match s.splitOn "->" with
  | [a, b] => .ok (a, b)
  | [a] => .ok (a, single a)
  | _ => .error .invalidValue

/-- The two sides of a formula, with dots replaced by letters for the axes that are not named. -/
def expandDots (ndims : List Nat) : Result (String × String) := do
  if (s.splitOn "...").length ≤ 1 then return ← sides s
  let spare := unused s
  let parts := s.splitOn "->"
  let inputs := (parts.headD "").splitOn ","
  let dotted := inputs.filter fun x => (x.splitOn "...").length > 1
  let (inputs, longest) ← dotted.zipIdx.foldlM
    (fun (acc : List String × Int) (x, i) => do
      let n ← ndims[i]?.getDM (throw .outOfRange)
      let count : Int := (max n 1 : Nat) - ((x.length : Int) - 3)
      return (acc.1.set i (swap x "..." (lastOf spare count)),
        if count > acc.2 then count else acc.2)) (inputs, 0)
  let left := String.intercalate "," inputs
  let dots := lastOf spare longest
  match parts with
  | [_] => return (left, dots ++ single left dots)
  | _ :: out :: _ => return (left, swap out "..." dots)
  | [] => throw .outOfRange

def parse (ndims : List Nat) : Result Subscripts := do
  let (left, right) ← expandDots (swap s " " "") ndims
  return { inputs := left.splitOn ",", output := right }

/-- The order of characters: the positions of the smallest, the next, and so on. -/
def order (cs : List Char) : List Nat :=
  (cs.zipIdx.mergeSort fun a b => a.1 ≤ b.1).map (·.2)

def ranks (cs : List Char) : List Nat :=
  let ps := order cs
  (ps.zipIdx.mergeSort fun a b => a.1 ≤ b.1).map (·.2)

end Subscripts

namespace Tensor

/-- The product of a tensor with a matrix: the last axis with the last but one. -/
def dot (x w : Tensor) (dtype : Option DType := none) : TensorM := do
  if ← Session.settingOn .image then return ← x.imageDot w dtype
  let (shapeX, shapeW) ← dotShapes "dot" x w
  let dx := shapeX.length
  let dw := shapeW.length
  let extra := List.replicate (Min.min (Min.min (dx - 1) (dw - 1)) 1) (1 : Dim)
  let a ← x.reshape (shapeX.dropLast ++ extra ++ shapeX.drop (dx - 1))
  let b ← w.reshape (shapeW.take (dw - 2) ++ extra ++ shapeW.drop (dw - Min.min dw 2))
  let b ← b.transpose (-1) (-(Min.min dw 2 : Nat))
  let d ← match dtype with
    | some d => pure d
    | none => liftM (DType.meet? [x.dtype, w.dtype])
  (← (← a.mul b).sum (.one (-1)) false dtype).cast d

def matmul (x y : Tensor) (reverse : Bool := false) (dtype : Option DType := none) : TensorM :=
  if reverse then y.dot x dtype else x.dot y dtype

def linear (x weight : Tensor) (bias : Option Tensor) (dtype : Option DType := none) : TensorM := do
  let (x, weight, bias) ← match dtype with
    | none => pure (x, weight, bias)
    | some d =>
      let x ← x.cast d
      let weight ← weight.cast d
      pure (x, weight, ← bias.mapM fun b => b.cast d)
  let r ← if (← weight.ndim) = 1 then x.mul weight else x.dot weight
  let some b := bias | return r
  r.add b

/-- A sum of products as a formula says. -/
def einsum (formula : String) (xs : List Tensor) (dtype : Option DType := none) : TensorM := do
  let f ← Subscripts.parse formula (← xs.mapM fun x => x.ndim)
  if xs.length ≠ f.inputs.length then
    throw (.broken ("number of inputs doesn't match number of operands in formula, expected " ++
      s!"{f.inputs.length}, got {xs.length}"))
  let shapes ← xs.mapM fun x => x.shape
  let entries := (f.inputs.zip shapes).flatMap fun (letters, shape) =>
    -- of a letter that an operand has twice the last extent counts
    (letters.toList.zip shape).foldl (fun (acc : List (Char × Dim)) (c, d) =>
      if acc.any (·.1 = c) then acc.map fun (k, v) => if k = c then (k, d) else (k, v)
      else acc ++ [(c, d)]) []
  let values := entries.foldl (fun acc e =>
    if acc.contains e then acc else acc ++ [e]) []
  if (values.map (·.1)).eraseDups.length ≠ values.length then throw (.bare .brokenContract)
  let values := values.mergeSort fun a b => a.1 ≤ b.1
  let stretched ← (xs.zip f.inputs).mapM fun (x, letters) => do
    let cs := letters.toList
    if cs.isEmpty then throw Failure.invalidValue
    let y ← x.permute ((Subscripts.order cs).map Int.ofNat)
    let y ← y.reshape (values.map fun (c, d) => if cs.contains c then d else 1)
    y.expand (values.map (·.2))
  let product ← match stretched with
    | x :: rest => rest.foldlM (fun a (b : Tensor) => a.mul b) x
    | [] => throw .wrongType
  let out := f.output.toList
  let axes := (values.zipIdx.filter fun ((c, _), _) => !(out.contains c)).map fun (_, i) => (i : Int)
  (← product.sum (.some axes) false dtype).permute ((Subscripts.ranks out).map Int.ofNat)

/-- Values weighted by how well keys fit a query. -/
def attention (query key value : Tensor) (mask : Option Tensor) (dropout : Const)
    (causal : Bool) : TensorM := do
  let shape ← query.wholeShape
  let d ← DType.meet? [query.dtype, key.dtype, .float]
  let last ← itemAt shape (-1)
  let scores ← query.matmul (← key.transpose (-2) (-1)) false (some d)
  let scores ← scores.div (Binary64.ofInt last).sqrt
  let mask ← if causal then do
      if mask.isSome then throw (.misused "cannot set attn_mask when is_causal=True")
      let ones ← scores.onesLike (← query.beside (some .bool))
      pure (some (← ones.tril))
    else pure mask
  let scores ← match mask with
    | none => pure scores
    | some m =>
      let m ← if m.dtype = .bool then m.choose 0 (Binary64.infinity true) else pure m
      scores.add m
  (← (← (← scores.cast query.dtype).softmax).dropout dropout).matmul value

end Tensor

end LazyTensor
