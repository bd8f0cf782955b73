import LazyTensor.Tensor.Random

/-!
# Convolutions on images

A convolution laid out for memory that holds four numbers in each element: channels come last, in
groups of four, and missing channels are filled with zeros.
-/

namespace LazyTensor

inductive Amount where
  | one (n : Int)
  | many (ns : List Int) (shown : String)

namespace Amount

def sum : Amount → Int ⊕ List Int
  | one n => .inl n
  | many ns _ => .inr ns

def values (a : Amount) (n : Nat) : List Int := Tensor.perAxis n a.sum

def isUnit : Amount → Bool
  | one n => n = 1
  | many _ _ => false

def ofList (ns : List Int) : Amount := .many ns (Tensor.tupleText ns)

end Amount

namespace Tensor

def extents (t : Tensor) (n : Nat) : SessionM (List Int) := do
  let some ns := Dim.ints? (← t.shape) | throw .wrongType
  if ns.length = n then return ns else throw .invalidValue

def poolPads (t : Tensor) (padding : Amount) (dims : Nat) : SessionM (List Int) := do
  match padding with
  | .one n => return List.replicate (2 * dims) n
  | .many ns shown =>
    if ns.length = 2 * dims then return ns
    else if ns.length = dims then return (ns.flatMap fun n => [n, n]).reverse
    else
      throw (.invalid (s!"Padding must be an int or a sequence of length {dims} or {2 * dims}, " ++
        s!"but got padding={shown} for self.shape={Dim.shapeText (← t.shape)} with dims={dims}."))

def asDims (ns : List Int) : List Dim := ns.map Dim.int

def imageType (shape : List Int) : DType := .image false shape 1

/-- A convolution over images, with their extents made to fit. -/
def imageConv (t weight : Tensor) (bias : Option Tensor) (groups : Int) (stride dilation : Amount)
    (padding : Amount) (dtype : Option DType) : TensorM := do
  let level ← Session.setting .image
  match ← t.extents 4, ← weight.extents 4 with
  | [bs, _, iy, ix], [cout, cin, h, wd] =>
    if groups = 0 then throw .divisionByZero
    let rcout := cout.fdiv groups
    let w ← weight.reshape (asDims [groups, rcout, cin, h, wd])
    let grown (axis : Nat) (n : Int) (x : Tensor) : TensorM := do
      x.padSome (← x.atAxis axis (some ((0 : Dim), Dim.int n)) none)
    -- channels in groups of four, those of the input and those of the output
    let (x, w, cin) ← if cin.fmod 4 ≠ 0 && !(cin = 1 && groups.fmod 4 = 0) then
        let x ← t.reshape (asDims [bs, groups, cin, iy, ix])
        let added := 4 - cin.fmod 4
        let w ← grown 2 added w
        let x ← grown 2 added x
        let cin := cin + added
        pure (← x.reshape (asDims [bs, groups * cin, iy, ix]), w, cin)
      else pure (t, w, cin)
    let added : Int := if rcout.fmod 4 ≠ 0 && !(rcout = 1 && groups.fmod 4 = 0) then
      4 - rcout.fmod 4 else 0
    let (w, rcout, cout) ← if added ≠ 0 then
        pure (← grown 1 added w, rcout + added, groups * (rcout + added))
      else pure (w, rcout, cout)
    let x ← x.permute [0, 2, 3, 1]
    let last := iy = 1 && ix = 1
    let c4 := cout.fdiv 4
    let w ← if cin = 1 then
        (← w.reshape (asDims [c4, 4, h, wd])).permute [0, 2, 3, 1]
      else
        let w ← w.reshape (asDims [c4, 4, cin.fdiv 4, 4, h, wd])
        if last then w.permute [0, 4, 2, 5, 1, 3] else w.permute [0, 4, 2, 5, 3, 1]
    let (x, w) ← if level ≥ 2 then
        let x ← x.cast (imageType [bs * iy, (ix * groups * cin).fdiv 4, 4])
        pure (x, ← w.cast (imageType [c4, h * wd * cin, 4]))
      else pure (x, w)
    let x ← x.contiguous
    let w ← w.contiguous
    let high := if cin ≥ 4 then cin.fdiv 4 else 1
    let low : Int := if cin ≥ 4 then 4 else 1
    let outs : List Int := [if cin = 1 then groups.fdiv 4 else groups, if cin = 1 then 4 else 1,
      if rcout ≥ 4 then rcout.fdiv 4 else 1, if rcout ≥ 4 then 4 else 1]
    let x ← x.reshape (asDims [bs, iy, ix, groups, high, low])
    let w ← if last then w.reshape (asDims [c4, h, high, wd, 4, low])
      else (← w.reshape (asDims [c4, h, high, wd, low, 4])).permute [0, 1, 2, 3, 5, 4]
    let pads ← t.poolPads padding 2
    let x ← (← x.permute [0, 3, 4, 5, 1, 2]).padFlat (asDims pads)
    let x ← x.windows (asDims [h, wd]) stride.sum dilation.sum
    let oy ← x.extent 4
    let ox ← x.extent 5
    let x ← (← x.permute [0, 4, 5, 1, 2, 3, 6, 7]).reshape
      ([.int bs, oy, ox] ++ asDims (outs.take 2 ++ [1, 1, high, low, h, wd]))
    let w ← (← w.permute [0, 4, 2, 5, 1, 3]).reshape
      (asDims ([1, 1, 1] ++ outs ++ [high, low, h, wd]))
    let product ← x.mul w
    let kind ← if level ≥ 2 then
        match oy, ox with
        | .int oy, .int ox => pure (imageType [bs * oy, (ox * cout).fdiv 4, 4])
        | _, _ => throw .wrongType
      else pure DType.float
    let r ← (← product.cast kind).sum (.some [-4, -3, -2, -1]) false dtype
    let (r, cout) ← if added ≠ 0 then
        let r ← r.reshape [.int bs, oy, ox, .int groups, .int rcout]
        let r ← r.index (List.replicate 4 Index.whole ++ [Index.upTo (-added)])
        pure (r, groups * (rcout - added))
      else pure (r, cout)
    let r ← (← r.reshape [.int bs, oy, ox, .int cout]).permute [0, 3, 1, 2]
    let some b := bias | return r
    do r.add (← b.reshape (asDims [1, -1, 1, 1]))
  | _, _ => throw .invalidValue

/-- The shapes of factors of a product of matrices, if they fit. -/
def dotShapes (name : String) (x w : Tensor) : SessionM (List Dim × List Dim) := do
  let shapeX ← x.shape
  let shapeW ← w.shape
  let dx := shapeX.length
  let dw := shapeW.length
  if !(dx > 0 && dw > 0) then
    throw (.misused s!"both tensors need to be at least 1D, got {dx}D and {dw}D")
  if ← (← (← itemAt shapeX (-1)).ne (← itemAt shapeW (-(Min.min dw 2 : Nat)))).holds then
    throw (.misused s!"cannot {name} {Dim.shapeText shapeX} and {Dim.shapeText shapeW}")
  return (shapeX, shapeW)

/-- A product of matrices as a convolution over images. -/
def imageDot (x w : Tensor) (dtype : Option DType) : TensorM := do
  let (shapeX, shapeW) ← dotShapes "image_dot" x w
  let dx := shapeX.length
  let dw := shapeW.length
  let int (d : Dim) : SessionM Int := match d with
    | .int n => pure n
    | .sym _ => throw .wrongType
  let bs ← int (← Dim.prod (shapeX.take (dx - 2)))
  let groups ← int (← Dim.prod (shapeW.take (dw - 2)))
  let cin ← int (← itemAt shapeW (-2))
  let cout ← int (← itemAt shapeW (-1))
  let out := if dx > 1 then shapeX.take (dx - 2) ++ asDims [cout, -1] else asDims [cout]
  if groups = 0 then throw .divisionByZero
  let cx ← (← x.transpose (dx - 1) (dx - 2)).reshape
    (asDims [bs.fdiv groups, groups * cin, -1, 1])
  let cw ← (← w.transpose (dw - 1) (dw - 2)).reshape (asDims [groups * cout, cin, 1, 1])
  let r ← cx.imageConv cw none groups (.one 1) (.one 1) (.one 0) dtype
  (← r.reshape out).transpose (dx - 1) (dx - 2)

end Tensor

end LazyTensor
