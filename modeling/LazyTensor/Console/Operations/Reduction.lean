import LazyTensor.Console.Arguments

/-!
# Operations by name that combine elements

Reductions along axes, running reductions, products, windows, losses.
-/

namespace LazyTensor.Operations

open Operation Tensor

def reducing (name : String) (f : Tensor → Along → Bool → TensorM) : Operation :=
  member name "axis? keepdim=false" f

def reducingAs (name : String) (f : Tensor → Along → Bool → Option DType → TensorM) : Operation :=
  method name "axis? keepdim=false dtype?" fun t c => do
    let d ← c.dtype? "dtype"
    f t (← c.along "axis") (c.flag "keepdim") d

def spreading (name : String) (f : Tensor → Along → Bool → Dim → TensorM) : List Operation :=
  let parameters := "axis? keepdim=false correction=1"
  [ member name parameters f,
    tensors (name ++ "_mean") ("self " ++ parameters) fun c => do
      let t ← c.self
      let axes ← c.along "axis"
      return [← f t axes (c.flag "keepdim") (← c.dim "correction"),
        ← t.mean axes (c.flag "keepdim")] ]

instance : Reads Op where
  read c n := match c.get n with
    | .op o => pure o
    | _ => throw .wrongType

def reduction : List Operation :=
  [ reducing "max" (·.max · ·), reducing "min" (·.min · ·), reducing "any" (·.any · ·),
    reducing "all" (·.all · ·), reducing "mean" (·.mean · ·), reducing "logsumexp" (·.logSumExp · ·),
    member "_reduce" "op axis? keepdim=false" @reduce,
    reducingAs "sum" (·.sum · · ·), reducingAs "prod" (·.prod · · ·),
    tensors "_softmax" "self axis dtype?" fun c => do
      let (m, e, s) ← (← c.self).softmaxParts (← c.along "axis") (← c.dtype? "dtype")
      return [m, e, s],
    member "softmax" "axis=-1 dtype? _single_kernel=0" @softmax,
    member "log_softmax" "axis=-1 dtype?" @logSoftmax, member "logcumsumexp" "axis=0" @logCumSumExp,
    member "argmax" "axis? keepdim=false" @argmax, member "argmin" "axis? keepdim=false" @argmin,
    method "_cumalu" "axis op _include_initial=false" fun t c => do
      t.running (← c.int "axis") (← Reads.read c "op") (c.flag "_include_initial"),
    member "_split_cumalu" "axis op" scan,
    member "cumsum" "axis=0" @cumsum, member "cumprod" "axis" cumprod, member "cummax" "axis=0" @cummax,
    member "triu" "diagonal=0" @triu, member "tril" "diagonal=0" @tril,
    member "layernorm" "axis=-1 eps=1e-5" @layerNorm,
    tensor "batchnorm" "self weight bias mean invstd axis=1" fun c => do
      let axes ← match c.get "axis" with
        | .list xs | .tuple xs => xs.mapM fun x => liftM x.toInt
        | v => pure [← v.toInt]
      (← c.self).batchNorm (← c.tensor? "weight") (← c.tensor? "bias")
        (← c.tensor "mean") (← c.tensor "invstd") axes,
    member "_one_hot_along_dim" "num_classes dim=-1" @oneHotAlong,
    member "one_hot" "num_classes=-1" @oneHot ] ++
  spreading "var" (·.var · · ·) ++ spreading "std" (·.std · · ·)

def kernelSize (c : Call) (n : String) : Value :=
  match c.get n with
  | .text "small" => .tuple [.int 2, .int 2]
  | v => v

instance : Reads (List Int) where
  read c n := match kernelSize c n with
    | .list xs | .tuple xs => xs.mapM fun x => liftM x.toInt
    | v => do
      let n ← v.toInt
      return [n, n]

instance : Takes (SessionM (Tensor × Option Tensor)) where
  give x _ _ := do
    match ← x with
    | (r, none) => Value.ofTensor r
    | (r, some p) => return .tuple [← Value.ofTensor r, ← Value.ofTensor p]

def pooling : String := "kernel_size=small stride? dilation=1 padding=0"

def convolution : String := "weight bias? groups=1 stride=1 dilation=1 padding=0 "

def contraction : List Operation :=
  [ member "dot" "w dtype?" @dot, member "matmul" "x reverse=false dtype?" @matmul,
    member "image_dot" "w dtype?" imageDot, member "linear" "weight bias? dtype?" @linear,
    tensor "einsum" "formula * dtype?" fun c => do
      let xs ← (← Value.spread c.rest).mapM Value.toTensor
      Tensor.einsum (← c.text "formula") xs (← c.dtype? "dtype"),
    member "scaled_dot_product_attention" "key value attn_mask? dropout_p=0.0 is_causal=false"
      attention,
    method "_pool" "k_ stride=1 dilation=1" fun t c => do
      t.windows (← (c.get "k_").toDims) (← c.amount "stride").sum (← c.amount "dilation").sum,
    member "avg_pool2d" (pooling ++ " ceil_mode=false count_include_pad=true") avgPool,
    member "max_pool2d" (pooling ++ " ceil_mode=false return_indices=false") maxPool,
    tensor "max_unpool2d" ("self indices " ++ pooling ++ " output_size?") fun c => do
      let out ← match c.get "output_size" with
        | .null => pure none
        | v => pure (some (← v.toInts))
      (← c.self).maxUnpool (← c.tensor "indices") (← (kernelSize c "kernel_size").asAmount)
        (← c.amount? "stride") (← c.amount "dilation") (← c.amount "padding") out,
    member "conv2d" (convolution ++ "dtype?") @conv,
    member "image_conv2d" (convolution ++ "dtype?") imageConv,
    member "conv_transpose2d" (convolution ++ "output_padding=0") @convTranspose,
    member "_do_reduction" "reduction=mean" reducedBy,
    member "binary_crossentropy" "Y reduction=mean" binaryCrossEntropy,
    member "binary_crossentropy_logits" "Y reduction=mean" binaryCrossEntropyLogits,
    member "sparse_categorical_crossentropy" "Y ignore_index=-1 label_smoothing=0.0 reduction=mean"
      sparseCrossEntropy,
    member "cross_entropy" "Y reduction=mean label_smoothing=0.0" crossEntropy,
    member "nll_loss" "Y weight? ignore_index? reduction=mean" nllLoss,
    member "dropout" "p=0.5" dropout,
    tensor "keccak" "self cfg=sha3_256" fun c => do
      let sponge : Result Sponge := match c.get "cfg" with
        | .text s => (Sponge.named? s).getDM (.error .missingKey)
        | .list [a, b] | .tuple [a, b] => match a.int?, b.int? with
          | some a, some b => .ok ⟨a, b⟩
          | _, _ => .error .wrongType
        | .list _ | .tuple _ => .error .invalidValue
        | _ => .error .wrongType
      (← c.self).keccak sponge ]

end LazyTensor.Operations
