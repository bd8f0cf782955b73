import LazyTensor.Console.Arguments

/-!
# Operations by name that move elements
-/

namespace LazyTensor.Operations

open Operation Tensor

def reshape (c : Call) : TensorM := do
  let t ← c.self
  t.reshapeSome (← (← c.spread "shape").mapM Value.toDim?)

def axes (c : Call) (n : String) : SessionM (List Int) := do
  (← c.spread n).mapM Value.asAxis

def padMode (v : Value) : SessionM Tensor.PadMode :=
  match v with
  | .text "constant" => pure .constant
  | .text "reflect" => pure .reflect
  | .text "replicate" => pure .replicate
  | .text "circular" => pure .circular
  | v => throw (.because .unsupported s!"mode={v.shown} is not supported")

def pad (c : Call) : TensorM := do
  let t ← c.self
  let mode ← padMode (c.get "mode")
  let padding := c.get "padding"
  let items ← padding.toItems
  let n ← t.ndim
  let pairs ← if items.all fun p => p.dim?.isSome then do
      if items.length % 2 ≠ 0 then
        throw (.invalid "Flat padding must have even number of pads")
      let flat := items.filterMap Value.dim?
      let zeros := List.replicate (2 * ((n : Int) - flat.length / 2).toNat) (0 : Dim)
      pure (Padding.grouped (flat ++ zeros))
    else items.mapM fun p => do
      match p with
      | .null => return ((0 : Dim), (0 : Dim))
      | .list [a, b] | .tuple [a, b] => return (← a.toDim, ← b.toDim)
      | .list _ | .tuple _ => throw Failure.invalidValue
      | _ => throw Failure.wrongType
  if pairs.length ≠ n then
    let text := padding.shown
    throw (.invalid s!"padding length is improper, padding={text} self.ndim={n}")
  t.pad pairs mode (← c.const "value")

def oneOrMore (v : Value) : SessionM (List Int) :=
  match v with
  | .list xs | .tuple xs => xs.mapM fun x => liftM x.toInt
  | v => return [← v.toInt]

def axisOrMore (v : Value) : SessionM (List Int) :=
  match v with
  | .list xs | .tuple xs => xs.mapM Value.asAxis
  | v => match v.int? with
    | some n => return [n]
    | none => throw .wrongType

def movement : List Operation :=
  [ tensor "view" "self shape *" reshape, tensor "reshape" "self shape *" reshape,
    method "expand" "shape *" fun t c => do t.expandSome (← (← c.spread "shape").mapM Value.toDim?),
    method "_broadcast_to" "new_shape" fun t c => do t.broadcastTo (← (c.get "new_shape").toDims),
    method "permute" "order *" fun t c => do t.permute (← axes c "order"),
    method "flip" "axis *" fun t c => do t.flip (← axes c "axis"),
    method "shrink" "arg" fun t c => do t.shrink (← (← (c.get "arg").toItems).mapM Value.toBounds),
    tensor "pad" "self padding mode=constant value=0.0" pad,
    method "repeat" "repeats *" fun t c => do
      t.repeats (← (← c.spread "repeats").mapM fun v => liftM v.toDim),
    member "repeat_interleave" "repeats dim?" repeatInterleave,
    ⟨"_resolve_dim", "self dim * extra=false", fun c => do
      if !c.rest.isEmpty then throw .wrongType
      return .int (← (← c.self).axis (← c.axis "dim") (c.flag "extra"))⟩,
    tensors "split" "self sizes dim=0" fun c => do
      let t ← c.self
      match c.get "sizes" with
      | .list xs | .tuple xs =>
        t.splitSizes (← xs.mapM fun x => liftM x.toInt) (← c.axis "dim")
      | v =>
        let _ ← t.wholeShape
        let dim ← c.axis "dim"
        t.split (← v.toInt) dim,
    tensors "chunk" "self chunks dim=0" fun c => do
      (← c.self).chunk (← c.int "chunks") (← c.axis "dim"),
    method "unfold" "dim size step" fun t c => do
      t.unfold (← c.int "dim") (← c.int "size") (← c.int "step"),
    tensors "meshgrid" "self * indexing=ij" fun c => do
      let crossed ← match c.get "indexing" with
        | .text "ij" => pure false
        | .text "xy" => pure true
        | .text s => throw (.misused s!"indexing must be in (\"ij\", \"xy\"), got {s}")
        | v =>
          let text := v.shown
          throw (.misused s!"indexing must be in (\"ij\", \"xy\"), got {text}")
      Tensor.meshgrid (← c.tensors "self") crossed,
    method "squeeze" "dim?" fun t c => do
      match ← c.axis? "dim" with
      | none => t.squeezeAll
      | some d => t.squeeze d,
    member "unsqueeze" "dim" unsqueeze, member "transpose" "dim0=1 dim1=0" transpose,
    member "flatten" "start_dim=0 end_dim=-1" @flatten,
    method "unflatten" "dim sizes" fun t c => do
      let dim ← c.axis "dim"
      let _ ← t.axis dim
      match c.get "sizes" with
      | .tuple xs => t.unflatten dim (← xs.mapM fun v => liftM v.toDim)
      | _ => throw .wrongType,
    method "roll" "shifts dims" fun t c => do
      t.roll (← oneOrMore (c.get "shifts")) (← axisOrMore (c.get "dims")),
    method "rearrange" "formula **" fun t c => do
      let sizes ← c.others.mapM fun (n, v) => do return (n, ← v.toDim)
      t.rearrange (← c.text "formula") sizes,
    tensor "cat" "self * dim=0" fun c => do Tensor.cat (← c.tensors "self") (← c.axis "dim"),
    tensor "stack" "self * dim=0" fun c => do Tensor.stack (← c.tensors "self") (← c.axis "dim"),
    method "__getitem__" "indices" fun t c => do t.index (← (c.get "indices").toIndices),
    method "_getitem" "indices v?" fun t c => do
      t.indexWith (← (c.get "indices").toIndices) (← c.tensor? "v"),
    method "gather" "dim index" fun t c => do
      let index ← c.tensor "index"
      t.gather (← c.axis "dim") index,
    member "masked_select" "mask" maskedSelect,
    tensor "scatter" "self dim index src reduce?" fun c => do
      let how := match c.get "reduce" with
        | .null => none
        | .text "add" => some Tensor.Combine.sum
        | .text "multiply" => some Tensor.Combine.prod
        | v => some (.other v.shown)
      let src ← match c.get "src" with
        | v@(.object "Tensor" _) => pure (Sum.inl (← v.toTensor))
        | v => pure (Sum.inr (← v.toConst))
      (← c.self).scatter (← c.axis "dim") (← c.tensor "index") src how,
    tensor "scatter_reduce" "self dim index src reduce include_self=true" fun c => do
      let how := match c.get "reduce" with
        | .text "sum" => Tensor.Combine.sum
        | .text "prod" => .prod
        | .text "mean" => .mean
        | .text "amax" => .amax
        | .text "amin" => .amin
        | v => .other v.shown
      (← c.self).scatterReduce (← c.axis "dim") (← c.tensor "index") (← c.tensor "src") how
        (c.flag "include_self"),
    member "_pre_scatter" "dim index src" beforeScatter, member "sort" "dim=-1 descending=false" @sort,
    member "topk" "k dim=-1 largest=true sorted_=true" @topk,
    method "interpolate" "size mode=linear align_corners=false" fun t c => do
      let size := c.get "size"
      let n ← t.ndim
      let sizes ← match (size.items?.bind fun xs => xs.mapM Value.int?).filter fun ns =>
          0 < ns.length && ns.length ≤ n with
        | some ns => pure ns
        | none =>
          let text := size.shown
          throw (.broken s!"invalid size={text}")
      let mode ← match c.get "mode" with
        | .text "linear" => pure Tensor.Interpolation.linear
        | .text "nearest" => pure .nearest
        | .text "nearest-exact" => pure .nearestExact
        | _ => throw (.broken "only supports linear, nearest or nearest-exact interpolate")
      if c.flag "align_corners" && mode ≠ .linear then
        throw (.broken
          "align_corners option can only be set with the interpolating mode linear")
      t.interpolate sizes mode (c.flag "align_corners") ]

end LazyTensor.Operations
