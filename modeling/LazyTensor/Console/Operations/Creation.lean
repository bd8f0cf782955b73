import LazyTensor.Console.Arguments

/-!
# Operations by name that make tensors
-/

namespace LazyTensor.Operations

open Operation Tensor

def fileOf (n : Nat) : Option String := some s!"$TMP/f{n}"

variable (c : Call)

def given : SessionM Wish :=
  return { dtype := ← c.dtype? "dtype", tracked := (c.get "requires_grad").asTracked }

def new (c : Call) : TensorM := do
  let w ← given c
  Tensor.new ((c.get "data").toSource fileOf) { w with device := ← (c.get "device").asDevice? }

def other (n : String) : Value := (c.others.lookup n).getD .null

def packed : Bool :=
  match other c "contiguous" with
  | .null => true
  | v => v.truthy

def placed : SessionM Wish := do
  let w ← given c
  return { w with device := ← (other c "device").asDevice? }

def range : TensorM := do
  let w ← c.wish
  let (start, stop) := match c.get "stop" with
    | .null => (Value.int 0, c.get "start")
    | v => (c.get "start", v)
  match start, stop, c.get "step" with
  | .int 0, .expr e, .int 1 => Tensor.arangeTo (.sym e) w
  | start, stop, step => Tensor.arange (← start.toConst) (← stop.toConst) (← step.toConst) w

def creation : List Operation :=
  [ tensor "empty" "* **" fun c => do
      let w ← c.wish
      Tensor.empty (← c.shape) w,
    tensor "full" "shape fill_value **" fun c => do
      let w ← c.wish
      let shape ← (← Value.spread [c.get "shape"]).mapM fun v => liftM v.toDim
      full shape (← c.const "fill_value") w,
    function "zeros" "* **" @zeros, function "ones" "* **" @ones,
    tensor "arange" "start stop? step=1 **" range,
    function "linspace" "start stop steps **" @linspace, function "eye" "n m? **" @eye,
    function "_tri" "r c diagonal=0 **" triangle, member "full_like" "fill_value **" @fullLike,
    member "zeros_like" "**" @zerosLike, member "ones_like" "**" @onesLike,
    method "rand_like" "**" fun t c => do t.randLike (← c.wish ["contiguous"]) (packed c),
    method "randn_like" "dtype? requires_grad? **" fun t c => do
      t.randnLike (← placed c),
    tensor "rand" "* **" fun c => do
      let w ← c.wish ["contiguous"]
      rand (← c.shape) w (packed c),
    tensor "randn" "* dtype? requires_grad? **" fun c => do
      randn (← c.shape) (← given c),
    tensor "randint" "* low=0 high=10 dtype=int32 requires_grad? **" fun c => do
      let low := c.get "low"
      let high := c.get "high"
      match low.const?.filter Const.isIntLike, high.const?.filter Const.isIntLike with
      | some a, some b =>
        randint (← c.shape) a b (← (c.get "dtype").asDType) (← placed c)
      | _, _ =>
        let a := low.shown
        let b := high.shown
        throw (.because .wrongType s!"low={a} and high={b} must be integers"),
    tensor "normal" "* mean=0.0 std=1.0 dtype? requires_grad? **" fun c => do
      normal (← c.shape) (← c.const "mean") (← c.const "std") (← given c),
    tensor "uniform" "* low=0.0 high=1.0 dtype? requires_grad? **" fun c => do
      uniform (← c.shape) (← c.const "low") (← c.const "high") (← placed c) (packed c),
    tensor "scaled_uniform" "* dtype? requires_grad? **" fun c => do
      scaledUniform (← c.shape) (← placed c),
    tensor "glorot_uniform" "* dtype? requires_grad? **" fun c => do
      glorotUniform (← c.shape) (← placed c),
    tensor "kaiming_uniform" "* a=0.01 dtype? requires_grad? **" fun c => do
      kaimingUniform (← c.shape) (← c.const "a") (← placed c),
    tensor "kaiming_normal" "* a=0.01 dtype? requires_grad? **" fun c => do
      kaimingNormal (← c.shape) (← c.const "a") (← given c),
    tensor "randperm" "n device? dtype=int32 **" fun c => do
      let w ← c.wish ["contiguous"]
      randperm (← c.dim "n") (← (c.get "dtype").asDType)
        { w with device := ← (c.get "device").asDevice? },
    member "multinomial" "num_samples=1 replacement=false" multinomial,
    tensor "from_uop" "y **" fun c => do
      match c.get "y" with
      | .expr e => ofSymbol e (← c.wish)
      | _ => throw .missingMember,
    ⟨"manual_seed", "seed=0", fun c => do
      seed (← c.const "seed")
      return .null⟩,
    function "_threefry_random_bits" "key counts0 counts1" randomBits ]

end LazyTensor.Operations
