import LazyTensor.Console.Inspection
import LazyTensor.Layer.Normal
import LazyTensor.Layer.Optimizer
import LazyTensor.Layer.Weighted
import LazyTensor.Text.Progress

/-!
# Steps on layers and optimizers

Layers and optimizers live in the workspace as things with named parts, so that steps can look at
every part and replace it.  Where one is applied, its parts are read into the record of the layer.
-/

namespace LazyTensor

open Value Session Workspace Optimizer

structure LayerKind where
  names : List String
  kind : String := names.headD ""
  parameters : String
  make : String → Call → SessionM Fields
  applied : String := "x"
  apply : Item → Call → SessionM (Value × Fields)

namespace Layers

def partsOf (i : Item) : Call := { values := i.parts }

def taking {β : Type} [Takes β] (parts : String) (f : β) (i : Item) (c : Call) :
    SessionM (Value × Fields) := do
  return (← Takes.give f ((parts ++ " x").splitOn " ") { values := i.parts ++ c.values }, [])

def spreadTo (v : Value) (n : Nat) : SessionM (List Int) := do
  match v.int? with
  | some k => return List.replicate n k
  | none =>
    let xs ← v.items?.getDM (throw .wrongType)
    xs.mapM fun x => liftM x.toInt

def affine (weight bias : Option Tensor) : SessionM Fields := do
  return [("weight", ← ofTensor? weight), ("bias", ← ofTensor? bias)]

def tupleOfInts (ns : List Int) : Value := .tuple (ns.map .int)

variable (c : Call)

def convParts (oneAxis : Bool) : SessionM Fields := do
  let kernel ← if oneAxis then do pure [← c.int "kernel_size"]
    else spreadTo (c.get "kernel_size") 2
  let stride := c.get "stride"
  let dilation := c.get "dilation"
  let padding ← match c.get "padding" with
    | .text s =>
      if s.toLower ≠ "same" then
        throw (.invalid s!"Invalid padding string {Quoted.text s}, only 'same' is supported")
      if stride.int? ≠ some 1 then
        throw (.invalid "padding='same' is not supported for strided convolutions")
      let ds ← spreadTo dilation kernel.length
      pure (tupleOfInts (Conv.samePadding ds kernel))
    | v => pure v
  let (weight, bias) ← Conv.random (← c.int "in_channels") (← c.int "out_channels") kernel
    (← c.int "groups") (c.flag "bias")
  return [("kernel_size", tupleOfInts kernel)] ++ c.fields "stride dilation groups" ++
    [("padding", padding)] ++ (← affine weight bias)

def ofConv {β : Type} [Takes β] (parts : String) (f : Conv → β) :
    Item → Call → SessionM (Value × Fields) :=
  taking ("weight bias groups stride dilation padding" ++ parts) fun w b g s d p =>
    f ⟨w, b, g, s, d, p⟩

def groupNorm (name sizes groups channels : String) : LayerKind where
  names := [name]
  parameters := sizes ++ " eps=1e-05 affine=true"
  make _ c := do
    let (w, b) ← plainAffine [← c.int channels] (c.flag "affine")
    return c.fields (sizes ++ " eps") ++ (← affine w b)
  apply := taking (groups ++ " eps weight bias") fun g e w b => GroupNormal.apply ⟨g, e, w, b⟩

def layerNormParts : SessionM Fields := do
  let shape ← spreadTo (c.get "normalized_shape") 1
  let (w, b) ← plainAffine shape (c.flag "elementwise_affine")
  return [("normalized_shape", tupleOfInts shape), ("axis", tupleOfInts (LayerNormal.axes shape))] ++
    c.fields "eps elementwise_affine" ++ (← affine w b)

def layerNorm (name : String) (f : LayerNormal → Tensor → TensorM) : LayerKind where
  names := [name]
  parameters := "normalized_shape eps=1e-05 elementwise_affine=true"
  make _ := layerNormParts
  apply := taking "normalized_shape eps elementwise_affine weight bias" fun s e a w b =>
    f ⟨s, e, a, w, b⟩

def kinds : List LayerKind :=
  [ { names := ["BatchNorm", "BatchNorm2d", "BatchNorm3d"]
      parameters := "sz eps=1e-05 affine=true track_running_stats=true momentum=0.1"
      make := fun _ c => do
        let n ← c.int "sz"
        let (w, b) ← plainAffine [n] (c.flag "affine")
        let count ← traced "zeros"
          (Tensor.zeros [1] { dtype := some .long, tracked := some false })
        let base := c.fields "eps track_running_stats momentum" ++ (← affine w b) ++
          [("num_batches_tracked", ← ofTensor count)]
        if !c.flag "track_running_stats" then return base
        let mean ← traced "zeros" (Tensor.zeros [.int n] { tracked := some false })
        let var ← traced "ones" (Tensor.ones [.int n] { tracked := some false })
        return base ++ [("running_mean", ← ofTensor mean), ("running_var", ← ofTensor var)]
      apply := fun i c => do
        let p := partsOf i
        let running ← if p.flag "track_running_stats" then
            pure (some (← p.tensor "running_mean", ← p.tensor "running_var"))
          else pure none
        taking "eps momentum weight bias num_batches_tracked"
          (fun e m w b n => BatchNormal.apply ⟨e, m, w, b, n, running⟩) i c },
    { names := ["Conv1d", "Conv2d"], kind := "Conv2d"
      parameters :=
        "in_channels out_channels kernel_size stride=1 padding=0 dilation=1 groups=1 bias=true"
      make := fun name c => convParts c (name = "Conv1d")
      apply := ofConv "" Conv.apply },
    { names := ["ConvTranspose1d", "ConvTranspose2d"], kind := "ConvTranspose2d"
      parameters := "in_channels out_channels kernel_size stride=1 padding=0 output_padding=0 " ++
        "dilation=1 groups=1 bias=true"
      make := fun name c => do
        let parts ← convParts c (name = "ConvTranspose1d")
        let kernel ← if name = "ConvTranspose1d" then pure [← c.int "kernel_size"]
          else spreadTo (c.get "kernel_size") 2
        let w ← Conv.randomTransposed (← c.int "in_channels") (← c.int "out_channels") kernel
          (← c.int "groups")
        let w ← ofTensor w
        return (parts.map fun (k, v) => (k, if k = "weight" then w else v)) ++
          [("output_padding", c.get "output_padding")]
      apply := ofConv " output_padding" Conv.applyTransposed },
    { names := ["Linear"], parameters := "in_features out_features bias=true"
      make := fun _ c => do
        let l ← Linear.random (← c.int "in_features") (← c.int "out_features") (c.flag "bias")
        affine l.weight l.bias
      apply := taking "weight bias" fun w b => Linear.apply ⟨w, b⟩ },
    groupNorm "GroupNorm" "num_groups num_channels" "num_groups" "num_channels",
    groupNorm "InstanceNorm" "num_features" "num_features" "num_features",
    layerNorm "LayerNorm" (·.apply), layerNorm "LayerNorm2d" (·.applyToImages),
    { names := ["RMSNorm"], parameters := "dim eps=1e-06 elementwise_affine=true"
      make := fun _ c => do
        let w ← if c.flag "elementwise_affine" then
            pure (some (← traced "ones" (Tensor.ones [.int (← c.int "dim")])))
          else pure none
        return [("eps", c.get "eps"), ("weight", ← ofTensor? w)]
      apply := taking "eps weight" fun e w => RootMeanSquare.apply ⟨e, w⟩ },
    { names := ["Embedding"], parameters := "vocab_size embed_size"
      make := fun _ c => do
        let w ← Embedding.random (← c.int "vocab_size") (← c.int "embed_size")
        return [("vocab_sz", c.get "vocab_size"), ("embed_sz", c.get "embed_size"),
          ("weight", ← ofTensor w)]
      applied := "idx"
      apply := fun i c => do
        let p := partsOf i
        let rows ← p.tensor? "arange"
        let l : Embedding := ⟨← p.int "vocab_sz", ← p.int "embed_sz", ← p.tensor "weight", rows⟩
        let rows ← l.rowNumbers
        let y ← l.apply rows (← c.tensor "idx")
        return (← ofTensor y, [("arange", ← ofTensor rows)]) },
    { names := ["LSTMCell"], parameters := "input_size hidden_size bias=true"
      make := fun _ c => do
        let l ← LongShortTerm.random (← c.int "input_size") (← c.int "hidden_size") (c.flag "bias")
        return [("weight_ih", ← ofTensor l.inputWeight),
          ("weight_hh", ← ofTensor l.stateWeight), ("bias_ih", ← ofTensor? l.inputBias),
          ("bias_hh", ← ofTensor? l.stateBias)]
      applied := "x hc?"
      apply := fun i c => do
        let state ← match c.get "hc" with
          | .null => pure none
          | v => match v.items? with
            | some (h :: k :: _) => pure (some (← h.toTensor, ← k.toTensor))
            | some _ => throw .outOfRange
            | none => throw .wrongType
        taking "weight_ih weight_hh bias_ih bias_hh"
          (fun w u b d x => LongShortTerm.apply ⟨w, u, b, d⟩ x state) i c } ]

def make (k : LayerKind) (name : String) (args : List Value) (names : Fields) : WorkM Value := do
  add k.kind (← k.make name (← (Signature.parse k.parameters).bind args names))

def applyItem (v : Value) (args : List Value) (names : Fields) : WorkM Value := do
  let .object kind n := v | throw .wrongType
  if kind = "method" then
    let some (.expr e) := (← get).items[n]?.bind (·.parts.lookup "node") | throw .wrongType
    return .expr (← altered e names)
  let k ← (kinds.find? fun k => k.kind = kind).getDM (throw .wrongType)
  let i ← item n
  let (r, changed) ← k.apply i (← (Signature.parse k.applied).bind args names)
  for (name, x) in changed do setPart n name x
  return r

/-! ### Optimizers -/

instance : Reads (List Tensor) where
  read c n := do (← (c.get n).items?.getDM (throw .wrongType)).mapM toTensor

def listOfTensors (ts : List Tensor) : SessionM Value := do return .list (← ts.mapM ofTensor)

def isFused (v : Value) : SessionM Bool :=
  match v with
  | .object "ContextVar" n => settingOn (Workspace.settingAt n)
  | v => return v.truthy

/-- The parts that all optimizers have, with the parameters, their device, and whether they are
joined. -/
def optimizerParts : SessionM (Fields × List Tensor × Arg × Bool) := do
  let ts ← Reads.read c "params"
  let (params, buffers) ← claim ts
  let first ← match params with
    | t :: _ => pure t
    | [] => throw .outOfRange
  let device ← first.device
  let fused := match c.get "fused" with
    | .text "FUSE_OPTIM" => .object "ContextVar" (Flag.all.idxOf .fuseOptim)
    | v => v
  let joined ← isFused fused
  let rate ← rateTensor (c.get "lr").toNested device
  let ends ← if joined then do
      pure [("pos_params", list ((← positions params).map .ofDim))]
    else pure []
  let deviceValue ← Workspace.tensorPart first "device"
  return ([("params", ← listOfTensors params), ("device", deviceValue),
    ("buffers", ← listOfTensors buffers),
    ("fused", fused), ("lr", ← ofTensor rate)] ++ ends, params, device, joined)

def momentumParts (trust : Value) : SessionM Fields := do
  let (base, params, device, joined) ← optimizerParts c
  let b ← if (c.get "momentum").truthy then blank params joined device else pure []
  return base ++ [("momentum", c.get "momentum"), ("wd", c.get "weight_decay")] ++
    c.fields "nesterov classic" ++ [("tcoef", trust), ("b", ← listOfTensors b)]

def momentsParts (decay : Value) (plain : Value) : SessionM Fields := do
  let (base, params, device, joined) ← optimizerParts c
  let p₁ ← unitPower device
  let p₂ ← unitPower device
  let m ← blank params joined device
  let v ← blank params joined device
  return base ++ c.fields "b1 b2 eps" ++ [("wd", decay), ("adam", plain),
    ("b1_t", ← ofTensor p₁), ("b2_t", ← ofTensor p₂), ("m", ← listOfTensors m),
    ("v", ← listOfTensors v)]

structure OptimizerKind where
  name : String
  kind : String
  /-- The parameters between those that all optimizers have. -/
  parameters : String
  make : Call → SessionM Fields

def optimizerKinds : List OptimizerKind :=
  [ ⟨"SGD", "LARS", "momentum=0.0 weight_decay=0.0 nesterov=false classic=false",
      fun c => momentumParts c (.float 0)⟩,
    ⟨"LARS", "LARS", "momentum=0.9 weight_decay=0.0001 nesterov=false classic=true tcoef=0.001",
      fun c => momentumParts c (c.get "tcoef")⟩,
    ⟨"Adam", "LAMB", "b1=0.9 b2=0.999 eps=1e-08", fun c => momentsParts c (.float 0) (.bool true)⟩,
    ⟨"AdamW", "LAMB", "b1=0.9 b2=0.999 eps=1e-08 weight_decay=0.01",
      fun c => momentsParts c (c.get "weight_decay") (.bool true)⟩,
    ⟨"LAMB", "LAMB", "b1=0.9 b2=0.999 eps=1e-06 weight_decay=0.0 adam=false",
      fun c => momentsParts c (c.get "weight_decay") (c.get "adam")⟩ ]

def optimizerOf (i : Item) : SessionM Optimizer := do
  let p := partsOf i
  let rule ← if i.kind = "LARS" then do
      pure (UpdateRule.momentum (← p.const "momentum") (← p.const "wd") (p.flag "nesterov")
        (p.flag "classic") (← p.const "tcoef") (← Reads.read p "b"))
    else if i.kind = "LAMB" then
      pure (.moments (← p.const "b1") (← p.const "b2") (← p.const "eps") (← p.const "wd")
        (p.flag "adam") (← p.tensor "b1_t") (← p.tensor "b2_t") (← Reads.read p "m")
        (← Reads.read p "v"))
    else throw .missingMember
  return ⟨← Reads.read p "params", ← Reads.read p "buffers", ← p.tensor "lr",
    ← isFused (p.get "fused"), rule⟩

def optimizers : Nat → Value → WorkM (List Item)
  | 0, _ => throw (.bare .recursionLimit)
  | fuel + 1, v => do
    let .object kind n := v | throw .missingMember
    let i ← item n
    if kind = "OptimizerGroup" then
      let some (.tuple vs) := i.parts.lookup "optimizers" | throw .missingMember
      do return (← vs.mapM (optimizers fuel)).flatten
    else if kind = "LARS" || kind = "LAMB" then return [i]
    else throw .missingMember

/-! ### All tensors of a thing -/

def stripPoints (s : String) : String :=
  let cs := s.toList.dropWhile (· = '.')
  String.ofList (cs.reverse.dropWhile (· = '.')).reverse

def collect (items : Std.HashMap Nat Item) : Nat → String → Value → Fields
  | 0, _, _ => []
  | depth + 1, path, v =>
    let under (es : Fields) : Fields :=
      es.foldl (fun acc (k, x) =>
        (collect items depth (path ++ k ++ ".") x).foldl (fun acc e => Entries.put acc e.1 e.2) acc) []
    match v with
    | .object "Tensor" _ => [(stripPoints path, v)]
    | .object _ n =>
      match items[n]? with
      | some i => under i.parts
      | none => []
    | .list xs | .tuple xs => under (xs.zipIdx.map fun (x, i) => (s!"{i}", x))
    | .dict es => under (es.map fun (k, x) => (match k with
      | .text s => (s, x)
      | k => (k.shown, x)))
    | _ => []

def stateDict (v : Value) (path : String := "") : WorkM Fields := do
  return collect (← get).items 64 path v

def nanoseconds : SessionM Int := do
  let _ ← now
  return (← get).heap.clock.nanoseconds

def advance (p : Progress) (n : Int) (close : Bool) : SessionM Progress := do
  let (p, clock, _) := p.update (← get).heap.clock 80 n close
  modify fun s => { s with heap := { s.heap with clock } }
  return p

def loadInto (target source : Tensor) (realize : Bool) : SessionM Unit := do
  let device ← target.device
  let new ← if Device.isSingle device then do traced "to" (source.movedTo (some device))
    else if Device.isSingle (← source.device) then
      let names := match device with
        | .tuple ds => ds.filterMap Arg.text?
        | _ => []
      let cut ← target.node.shardAxis
      traced "shard" (source.shard names cut)
    else pure source
  let target ← traced "replace" (target.replace new)
  if realize then let _ ← traced "realize" (Tensor.realize [target])

/-- The state of a model read back. -/
def load (model : Value) (state : List (Value × Value)) (c : Call) : WorkM Value := do
  let before : Session ← (get : SessionM Session)
  let verbose := c.flag "verbose"
  let start ← nanoseconds
  let own ← stateDict model
  let work : SessionM Value := do
    let debug ← setting .debug
    if debug ≥ 1 && state.length > own.length then
      let unused := state.filterMap fun (k, _) => match k with
        | .text s => if own.any (·.1 = s) then none else some s
        | _ => none
      let names := (unused.mergeSort (· ≤ ·)).map Quoted.text
      print s!"WARNING: unused weights in state_dict {listOf names}"
    let mut bar : Progress := { silent := !verbose, total := own.length, start := ← now }
    bar ← advance bar 0 false
    let mut out : List Value := []
    for (k, v) in own do
      let found := state.find? fun (n, _) => match n with
        | .text s => s = k
        | _ => false
      match found with
      | none =>
        if c.flag "strict" then throw Failure.missingKey
        if debug ≥ 1 then print s!"WARNING: not loading {k}"
      | some (_, x) =>
        let target ← v.toTensor
        let source ← x.toTensor
        let a ← target.shape
        let b ← source.shape
        if !(a == b) then
          throw (Failure.invalid (s!"Shape mismatch in layer `{k}`: " ++
            s!"Expected shape {Dim.shapeText a}, but found {Dim.shapeText b} in state dict."))
        loadInto target source (c.flag "realize")
        out := out ++ [v]
      bar ← advance bar 1 false
    let _ ← advance bar 0 true
    return .list out
  let report : SessionM Unit := do
    let spent := (← nanoseconds) - start
    if verbose then
      let bytes := (← get).heap.inUse - before.heap.inUse
      let time := Decimal.padLeft 6 (Decimal.fixed 2 (Float.ofInt spent * 1e-6))
      let size := Decimal.fixed 2 (Float.ofInt bytes / 1e9)
      let speed := Decimal.fixed 2 (Float.ofInt bytes / Float.ofInt spent)
      print s!"loaded weights in {time} ms, {size} GB loaded at {speed} GB/s"
  let r ← try work catch f => do
    report
    throw f
  report
  return r

/-! ### The table -/

def partOf : List Value → Fields → List String → WorkM Value
  | [v, .text n], _, _ => Workspace.part v n
  | _, _, _ => throw .wrongType

def commands : List Command :=
  (kinds.flatMap fun k => k.names.map fun n =>
    ({ name := n, run := fun args names _ => make k n args names } : Command)) ++
  (optimizerKinds.map fun k =>
    ({ name := k.name, run := fun args names _ => do
        let parameters := "params lr=0.001 " ++ k.parameters ++ " fused=FUSE_OPTIM"
        add k.kind (← k.make (← (Signature.parse parameters).bind args names)) } :
      Command)) ++
  [ ⟨"OptimizerGroup", fun args _ _ => do
      let lists ← args.mapM fun a => do
        let .object _ n := a | throw .missingMember
        let i ← item n
        let items (name : String) : WorkM (List Value) :=
          ((i.parts.lookup name).bind items?).getDM (throw .missingMember)
        return (← items "params", ← items "buffers")
      add "OptimizerGroup" [("optimizers", .tuple args),
        ("params", .list (lists.flatMap (·.1))), ("buffers", .list (lists.flatMap (·.2)))]⟩,
    ⟨"call", fun args names _ => match args with
      | f :: rest => applyItem f rest names
      | [] => throw .wrongType⟩,
    ⟨"attr", partOf⟩, ⟨"prop", partOf⟩,
    ⟨"setattr", fun args _ _ => match args with
      | [.object "Tensor" n, .text "requires_grad", v] => do
        alter n fun k => { k with tracked := v.asTracked }
        return .null
      | [.object "Tensor" n, .text "grad", v] => do
        let place := match v with
          | .object "Tensor" g => some g
          | _ => none
        alter n fun k => { k with grad := place }
        return .null
      | [.object "Tensor" _, _, _] => throw .missingMember
      | [.object "ContextVar" n, .text "value", .int v] => do
        (modify fun s =>
          { s with store.settings := s.store.settings.set (settingAt n) v } : SessionM Unit)
        return .null
      | [.object _ n, .text name, v] => do
        setPart n name v
        return .null
      | _ => throw .missingMember⟩,
    .one "step" fun v => do
      let is ← optimizers 64 v
      (do step (← is.mapM optimizerOf) : SessionM Unit)
      return .null,
    .one "schedule_step" fun v => do
      let is ← optimizers 64 v
      (do listOfTensors (← (← is.mapM optimizerOf).flatMapM updates) : SessionM Value),
    .one "zero_grad" fun v => do
      let is ← optimizers 64 v
      is.forM fun i => do zeroGrad (← Reads.read (partsOf i) "params")
      return .null,
    ⟨"get_state_dict", fun args names _ => do
      let c ← (Signature.parse "obj prefix=").bind args names
      let path := match c.get "prefix" with
        | .text s => s
        | _ => ""
      return .dict ((← stateDict (c.get "obj") path).map fun (k, v) => (.text k, v))⟩,
    .one "get_parameters" fun v => do return .list ((← stateDict v).map (·.2)),
    ⟨"load_state_dict", fun args names _ => do
      let c ← (Signature.parse
        "model state_dict strict=true verbose=false consume=false realize=true").bind args names
      match c.get "state_dict" with
      | .dict es => load (c.get "model") es c
      | _ => throw .wrongType⟩ ]

end Layers

end LazyTensor
