import LazyTensor.Symbolic.Algebra
import LazyTensor.Symbolic.Elementary

/-!
# The complete simplification

Everything the algebra of index expressions does, and rules on vectors, memory access, reductions,
powers and random bits.
-/

namespace LazyTensor.Full

open Pat Folding

/-- What random bits are computed of: words, with constants beside them. -/
class Words (m : Type → Type) (α : Type) where
  apply : Op → α → α ⊕ Int → m α
  convert : DType → α → m α

instance : Words GraphM Expr where
  apply op e x := do
    if op = .and || op = .or || op = .xor then e.checkBits
    match x with
    | .inl y => e.bin op y
    | .inr n => e.bin op n
  convert d e := e.cast d

section

open Words

variable {m : Type → Type} [Monad m] {α : Type} [Words m α]

def lowWord (x : α) : m α := do convert .uint (← apply .and x (.inr 0xffffffff))

def highWord (x : α) : m α := do lowWord (← apply .idiv x (.inr 4294967296))

/-- One round of mixing two words: add, rotate, exclusive or. -/
def mixWords (p : α × α) (r : Nat) : m (α × α) := do
  let s ← apply .add p.1 (.inl p.2)
  let hi ← apply .mul p.2 (.inr (2 ^ r))
  let lo ← apply .idiv p.2 (.inr (2 ^ (32 - r)))
  return (s, ← apply .xor s (.inl (← apply .add hi (.inl lo))))

/-- Four rounds, then words of the key and a number are added. -/
def mixFour (ks : List α) (p : α × α) (i : Nat) : m (α × α) := do
  let (a, b) ← (if i % 2 = 0 then [13, 15, 26, 6] else [17, 29, 16, 24]).foldlM mixWords p
  let a' ← apply .add a (.inl (ks.getD (i % 3) a))
  let b' ← apply .add b (.inl (ks.getD ((i + 1) % 3) b))
  return (a', ← apply .add (← apply .add b' (.inr i)) (.inr 1))

/-- The counter-based random function: twenty rounds on two words of 32 bits under a key of two. -/
def randomBits (x key : α) : m α := do
  let x0 ← lowWord x
  let x1 ← highWord x
  let key0 ← lowWord key
  let key1 ← highWord key
  let parity ← apply .xor (← apply .xor key0 (.inl key1)) (.inr 0x1BD11BDA)
  let start := (← apply .add x0 (.inl key0), ← apply .add x1 (.inl key1))
  let (a, b) ← (List.range 5).foldlM (mixFour [key1, parity, key0]) start
  let hi ← apply .mul (← convert .ulong b) (.inr 4294967296)
  apply .or hi (.inl (← convert .ulong a))

end

private def product (es : List Expr) : ExprM :=
  match es with
  | [] => throw .wrongType
  | e :: rest => do rest.foldlM (fun a b => a.mul b) (← Expr.binRev .mul 1 e)

/-- Factors that do not depend on the loops move out of a reduction. -/
private def factorsOut (r : Expr) : RuleM := do
  let op := r.arg.op?
  if op ≠ some .add && op ≠ some .max then return none
  let s ← r.nth 0
  if r.dtype ≠ s.dtype then return none
  let ranges := r.src.drop 1
  let mut inside : List Expr := []
  let mut outside : List Expr := []
  for m in s.split .mul do
    let free := ranges.all fun x => !m.reaches x
    let ok ← if free then
        if op = some .max then pure (Const.le (.int 0) (← m.vmin)) else pure true
      else pure false
    if ok then outside := outside ++ [m] else inside := inside ++ [m]
  if outside.isEmpty then return none
  let body ← if inside.isEmpty then s.constLike (.int 1) else product inside
  giving (do (← r.withSrc (body :: ranges)).mul (← product outside))

private def u64 : Option (List DType) := some [.ulong]
private def u32 : Option (List DType) := some [.uint]

/-- Simplifications of vectors, accumulators, choices and memory accesses. -/
def beyond : RuleSet Expr := .ofList [
  on1 (seq [.assign] [var "x", var "x"]) "x" fun x => return some x,
  -- vectors
  on (all [.vectorize] (of [.const])) fun vec =>
    giving (Expr.constArg vec.dtype (.tuple (vec.src.map Expr.arg))),
  on2 (all [.vectorize] (seq [.gep] [var "x"]) "vec") "vec" "x" fun vec x => do
    let lanes ← vec.src.mapM fun y => match y.arg.ints? with
      | some (i :: _) => pure i
      | some [] => throw Failure.outOfRange
      | none => throw Failure.wrongType
    giving (x.gep lanes),
  on3 (seq Op.alus [all [.vectorize] (var "x"), all [.vectorize] (var "y")] "alu")
    "x" "y" "alu" fun x y a => do
      let one ← node a.op a.dtype.scalar [x, y]
      giving (node .vectorize a.dtype (List.replicate a.dtype.count one)),
  on1 (seq [.vectorize] [var "x"]) "x" fun x => return some x,
  on1 (all [.vectorize] (of [.barrier] "b") none (some [.void])) "b" fun b => return some b,
  on (of [.vectorize] none (some [.void])) fun x => giving (node .sink .void x.src),
  -- a matrix instruction with a zero operand
  on1 (seq [.wmma] [Pat.const none (.float 0.0), wild, var "acc"]) "acc" fun a => return some a,
  on1 (seq [.wmma] [wild, Pat.const none (.float 0.0), var "acc"]) "acc" fun a => return some a,
  -- random bits, without 64-bit words where possible
  on2 (seq [.threefry] [var "x", var "key"] none u64) "x" "key" fun x k => giving (randomBits x k),
  on1 (((var "x" u32).cast (some .ulong)).cast (some .uint)) "x" fun x => return some x,
  on1 (((var "x" u64).land (0xFFFFFFFF : Int)).cast (some .uint)) "x" fun x => giving (x.cast .uint),
  on1 ((((typed [.ulong]).mul (4294967296 : Int)).lor ((var "y" u32).cast (some .ulong))).cast
    (some .uint)) "y" fun y => return some y,
  on1 ((((var "x" u64).mul (4294967296 : Int)).lor ((typed [.uint]).cast (some .ulong))).idiv
    (4294967296 : Int)) "x" fun x => return some x,
  on2 (((var "x" u32).cast (some .ulong)).mul
      ((var "y").choose (Pat.const u64 (.int 4294967296)) (Pat.const u64 (.int 0)))) "x" "y"
    fun x y => giving (do
      let w ← y.choose x (← Expr.const .uint (.int 0))
      (← w.cast .ulong).mul (4294967296 : Int)),
  on2 (((var "x" u64).land
      ((var "y").choose (Pat.const u64 (.int 0xFFFFFFFF)) (Pat.const u64 (.int 0)))).cast
      (some .uint)) "x" "y"
    fun x y => giving (do y.choose (← x.cast .uint) (← Expr.const .uint (.int 0))),
  -- accumulators without loops
  on1 (seq [.defineReg] [var "x"]) "x" fun x => return some x,
  on1 (seq [.assign] [of [.const, .vconst], var "x"]) "x" fun x => return some x,
  on1 ((var "x").ne 0) "x" fun x => giving (do x.cast (← DType.bool.vec? x.dtype.count)),
  -- choices
  on4 ((((var "s").choose (var "a") (var "b")).cast).named "cast") "s" "a" "b" "cast"
    fun s a b c => giving (do
      let x ← a.cast c.dtype
      s.choose x (← b.cast c.dtype)),
  on4 ((var "a").choose ((var "b").choose (var "c") (var "d")) (var "d")) "a" "b" "c" "d"
    fun a b c d => giving (do (← a.land b).choose c d),
  on (of [.pow]) fun p =>
    match p.src with
    | [a, b] => giving (Elementary.xpow a b)
    | _ => throw .wrongType,
  -- memory access
  on2 (seq [.index] [var "b", var "idx", Pat.const bools (.bool true)]) "b" "idx" fun b i =>
    giving (b.index i),
  on (Pat.store (of [.index] "index") [Pat.load (of [.index] "index")]) fun _ =>
    giving (node .noop),
  on3 (Pat.store (of [.index] "index")
      [(var "gate").choose (var "alt") (Pat.load (of [.index] "index"))])
    "index" "gate" "alt" fun i g a => giving (do
      let target ← (← i.nth 0).index (← i.nth 1) g
      target.store [a]),
  on ((wild.index wild (Pat.const bools (.bool true)))) fun i => giving (i.withSrc (i.src.take 2)),
  on ((wild.index wild (Pat.const bools (.bool false)))) fun i => giving (i.constLike (.int 0)),
  on (seq [.load] [Pat.const none (.int 0)] none none .none true) fun x =>
    giving (x.constLike (.int 0)),
  on (seq [.store] [Pat.const none (.int 0)] none none .none true) fun _ => giving (node .noop),
  -- sinks
  on (of [.sink]) fun root => do
    let a := root.src.filter fun x => !(x.is .noop)
    givingIf (a.length ≠ root.src.length) (node .sink root.dtype a root.arg),
  on1 (seq [.barrier] [of [.vectorize, .sink] "sink"]) "sink" fun s =>
    giving (node .barrier .void s.src),
  on (of [.sink]) fun root =>
    givingIf (root.src.any fun x => x.is .sink || x.is .unroll)
      (node .sink root.dtype
        (root.src.flatMap fun x => if x.is .sink || x.is .unroll then x.src else [x]) root.arg),
  -- reciprocals
  on1 ((var "x").mul (var "x")).recip "x" fun x => giving (do (← x.recip).mul (← x.recip)),
  on1 (((var "x").mul (var "x")).mul (var "x")).recip "x" fun x =>
    giving (do (← (← x.recip).mul (← x.recip)).mul (← x.recip)),
  on2 ((var "x").mul ((((var "x").addTo 1).recip).named "d")) "x" "d" fun _ d => giving (d.rsub 1),
  on3 ((var "x").mul (((((var "x").addTo 1).recip).named "d").mul (var "y"))) "x" "y" "d"
    fun _ y d => giving (do y.mul (← d.rsub 1)),
  on3 ((var "x").mul (((((var "x").addTo 1).recip).named "d").add (var "y"))) "x" "y" "d"
    fun x y d => giving (do (← d.rsub 1).add (← x.mul y)),
  -- reductions
  on3 (((var "x").mul (cvar1 "c")).reduce "r" (.op .add)) "x" "c" "r" fun x c r => do
    let k ← c.argConst
    giving (do (← r.withSrc (x :: r.src.drop 1)).mul k),
  on1 ((of [.mul]).reduce "r") "r" factorsOut]

def rules : RuleSet Expr := Algebra.flat ++ beyond

end LazyTensor.Full
