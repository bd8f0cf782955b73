import LazyTensor.Console.Operations.Creation

/-!
# Operations by name that change or read tensors
-/

namespace LazyTensor.Operations

open Operation

def inFile (t : Tensor) : SessionM Bool := do return Device.isFile (← t.device)

def setItem (c : Call) : SessionM Value := do
  let t ← c.self
  let v := c.get "v"
  if ← inFile t then
    let is ← (c.get "indices").toIndices
    let x : Tensor ⊕ Source ← if v.isTensor then pure (.inl (← v.toTensor))
      else pure (.inr (v.toSource fileOf))
    t.setFileItem is x
    return .null
  let some l ← t.node.layout? | throw (.broken "")
  if !Layout.contiguous l then
    throw (.misused "setitem target needs to be contiguous")
  let x ← match v.const? with
    | some k => Tensor.ofConst k (← t.beside (some t.dtype) none)
    | none =>
      if v.isTensor then v.toTensor
      else throw (.because .wrongType s!"can't set a {v.kindName} to a Tensor")
  if t.tracked = some true || x.tracked = some true then
    throw (.because .unsupported "setitem with requires_grad is not supported")
  t.setItem (← (c.get "indices").toIndices) x
  return .null

def assign (c : Call) : TensorM := do
  let t ← c.self
  match c.get "x" with
  | v@(.object "Tensor" _) => t.assign (← v.toTensor)
  | v => t.assignSource (v.toSource fileOf)

def deviceNames (v : Value) : SessionM (List String) := do
  match ← v.asDevice? with
  | some (.tuple ds) => return ds.map fun d => (d.text?).getD Device.default
  | some (.text s) => return s.toList.map String.singleton
  | _ => throw .wrongType

def count (t : Tensor) : SessionM Dim := do Dim.prod (← t.shape)

def memory : List Operation :=
  [ method "requires_grad_" "requires_grad=true" fun t c => do
      t.withTracked (c.get "requires_grad").asTracked,
    ⟨"__bool__", "self", fun _ =>
      throw (.because .wrongType "__bool__ on Tensor is not defined")⟩,
    ⟨"__len__", "self", fun c => do
      let d :: _ ← (← c.self).shape | throw (.because .wrongType "len() of a 0-d tensor")
      return .ofDim d⟩,
    tensor "realize" "self * do_update_stats=true" fun c => do
      let ts ← c.tensors "self"
      let _ ← Tensor.realize ts (c.flag "do_update_stats")
      c.self,
    tensor "kernelize" "self *" fun c => do
      let ts ← c.tensors "self"
      Session.kernelize (← ts.mapM Tensor.placeOf)
      c.self,
    ⟨"schedule", "self *", fun c => do
      let ts ← c.tensors "self"
      let s ← Session.schedule (← ts.mapM Tensor.placeOf)
      if !s.values.isEmpty then throw (.broken "")
      return .list (s.tasks.map fun _ => .object "ScheduleItem" 0)⟩,
    member "replace" "x allow_shape_mismatch=false" @Tensor.replace,
    tensor "assign" "self x" assign,
    ⟨"__setitem__", "self indices v", setItem⟩,
    ⟨"item", "self", fun c => do return .ofConst (← (← c.self).item)⟩,
    ⟨"tolist", "self", fun c => do
      let x ← (← c.self).elements
      if x.items.isEmpty then return .list [] else return .nested x.shape x.items⟩,
    ⟨"_data", "self", fun c => do
      let _ ← (← c.self).bytes
      return .object "memoryview" 0⟩,
    ⟨"_buffer", "self", fun c => do
      (← c.self).withBuffer fun _ => return .object "Buffer" 0⟩,
    member "clone" "" Tensor.clone,
    method "to" "device" fun t c => do t.movedTo (← (c.get "device").asDevice?),
    method "to_" "device" fun t c => do t.move (← (c.get "device").asDevice?),
    method "shard" "devices axis?" fun t c => do
      t.shard (← deviceNames (c.get "devices")) (← c.axis? "axis"),
    method "shard_" "devices axis?" fun t c => do
      t.replace (← t.shard (← deviceNames (c.get "devices")) (← c.axis? "axis")),
    ⟨"gradient", "self * gradient? materialize_grads=false", fun c => do
      let t ← c.self
      let targets ← c.rest.mapM Value.toTensor
      let gs ← t.gradient targets (← c.tensor? "gradient") (c.flag "materialize_grads")
      return .list (← gs.mapM Value.ofTensor)⟩,
    member "backward" "gradient?" Tensor.backward,
    ⟨"numel", "self", fun c => do return .ofDim (← count (← c.self))⟩,
    ⟨"element_size", "self", fun c => do return .int (← c.self).dtype.itemsize⟩,
    ⟨"nbytes", "self", fun c => do
      let t ← c.self
      return .ofDim (← (← count t).mul (.int t.dtype.itemsize))⟩,
    ⟨"is_floating_point", "self", fun c => do return .bool (← c.self).dtype.isFloat⟩,
    ⟨"size", "self dim?", fun c => do
      let t ← c.self
      let some i ← c.int? "dim" | return .tuple ((← t.shape).map .ofDim)
      return .ofDim (← t.extent i)⟩ ]

def untraced : List String := ["gradient", "backward", "sequential"]

end LazyTensor.Operations
