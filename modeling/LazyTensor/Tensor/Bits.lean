import LazyTensor.Tensor.Join

/-!
# Bits of elements

The bits of a tensor as elements of another type.  If the types differ in size, the last axis grows or
shrinks: smaller elements are shifted into their place and added up, larger ones are shifted down and
cut off.
-/

namespace LazyTensor.Tensor

def unsignedOf (size : Nat) : Result DType :=
  match size with
  | 1 => .ok .uint8
  | 2 => .ok .uint16
  | 4 => .ok .uint
  | 8 => .ok .ulong
  | _ => .error .missingMember

def bitcastSame (t : Tensor) (d : DType) : TensorM := do
  if t.tracked = some true then throw (.misused "can't backprop through bitcast")
  if t.dtype = d then return t else t.apply1 fun e => e.bitcast d

/-- The same bytes as elements of another type. -/
def bitcast (t : Tensor) (d : DType) : TensorM := do
  if t.tracked = some true then throw (.misused "can't backprop through bitcast")
  let new := d.itemsize
  let old := t.dtype.itemsize
  if new = old then return ← t.bitcastSame d
  let last ← t.extent (-1)
  let rest ← (← last.mul (.int old)).mod (.int new)
  if ← (← rest.ne 0).holds then throw (.misused "unsupported size in bitcast")
  if Device.isFile (← t.device) then return ← t.bitcastSame d
  let wide ← unsignedOf new
  let x ← t.bitcastSame (← unsignedOf old)
  if new > old then
    let rate := new / old
    let shape ← t.shape
    let x ← x.reshape (shape.dropLast ++ [← last.div (.int rate), .int rate])
    let front := List.replicate ((← x.ndim) - 1) (none : Option (Dim × Dim))
    let parts ← (List.range rate).mapM fun (i : Nat) => do
      let p ← x.shrink (front ++ [some (.int i, .int (i + 1))])
      (← p.cast wide).shl (.number (.int (8 * i * old)))
    let p :: ps := parts | throw .wrongType
    let y ← ps.foldlM (fun a (b : Tensor) => a.add b) p
    (← y.squeeze (-1)).bitcastSame d
  else
    let parts ← (List.range (old / new)).mapM fun (i : Nat) => do
      x.shr (.number (.int (8 * i * new)))
    (← (← (← stack parts (-1)).flatten (-2)).cast wide).bitcastSame d

end LazyTensor.Tensor
