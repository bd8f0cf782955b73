import LazyTensor.Layout.Indexing
import LazyTensor.Layout.OfExpr
import LazyTensor.Linear.Blocks
import LazyTensor.Lower.Access
import LazyTensor.Lower.Accumulate
import LazyTensor.Lower.Strength
import LazyTensor.Lower.Unroll

/-!
# Loops, targets and stages

A kernel is stated with views of its buffers.  Lowering gives each axis of the result a loop, each
reduced axis a loop of its own, and every access the address that its view gives the current
position.
-/

namespace LazyTensor.Loops

open Pat

def context : GraphM LowerContext := do
  let .lower c := (← get).context | throw .missingMember
  return c

def setContext (c : LowerContext) : GraphM Unit := modify fun s => { s with context := .lower c }

def along (shape : List Dim) (start : Nat) : GraphM (List Expr) :=
  shape.zipIdx.mapM fun (s, i) => Expr.range .int s (start + i : Nat)

def layoutOf (v : Expr) : GraphM Layout :=
  match v.arg with
  | .layout l => pure l
  | _ => throw .missingMember

def address (l : Layout) (buf : Expr) (ranges : List Expr) : ExprM := do
  let (idx, valid) ← l.indexed (some ranges)
  buf.index idx valid

def store (st buf view : Expr) : RuleM := do
  let stored ← (← st.nth 1).shape
  let shape ← view.shape
  if !(stored == shape) then
    throw (.broken s!"shape mismatch on store {Dim.shapeText stored} != {Dim.shapeText shape}")
  let ranges ← along shape 0
  let _ ← context
  setContext { ranges, next := ranges.length }
  let some l ← view.layout? | throw .missingMember
  giving do st.withSrc ((← address l buf ranges) :: st.src.drop 1)

def reductionOf (red : Expr) : GraphM Op :=
  match red.arg with
  | .tuple (.op o :: _) => pure o
  | _ => throw .wrongType

/-- A reduction gets a loop for each reduced axis, which are the last ones; what is below it is
lowered at that position. -/
def reduction (below : Expr → LowerContext → GraphM (Expr × LowerContext)) (red : Expr) :
    RuleM := do
  let c ← context
  let a ← red.nth 0
  let more := (← a.shape).drop c.ranges.length
  let loops ← along more c.next
  let (r, inner) ← below a { ranges := c.ranges ++ loops, next := c.next + more.length }
  setContext { c with next := inner.next }
  giving do r.reduce (← reductionOf red) loops

/-- A viewed constant is the constant, or zero where the view is masked. -/
def constant (view c : Expr) : RuleM := do
  let l ← layoutOf view
  if l.all fun v => v.mask.isNone then return some c
  let (_, valid) ← l.indexed (some (← context).ranges)
  giving do valid.choose c (← c.constLike (.int 0))

def load (view buf : Expr) : RuleM := do
  let l ← layoutOf view
  let at' ← address l buf (← context).ranges
  giving at'.load

def rulesWith (below : Expr → LowerContext → GraphM (Expr × LowerContext)) : RuleSet Expr := .ofList [
  ⟨seq [.store] [(of [.defineGlobal] "buf").view "view", wild] "store",
    fun e b => store e (b.get "buf") (b.get "view")⟩,
  on (of [.reduceAxis]) (reduction below),
  on2 (seq [.view] [cvar "c"] "view") "view" "c" constant,
  on2 ((seq [.view] [of [.defineGlobal] "buf"] "view").load) "view" "buf" load]

/-- Lower a graph in a context, to a given depth of reductions inside reductions. -/
def lowerIn : Nat → Expr → LowerContext → GraphM (Expr × LowerContext)
  | 0, _, _ => throw .exhausted
  | depth + 1, e, c => do
    let (r, c') ← (rulesWith (lowerIn depth)).applyIn e (.lower c) true
    let .lower c' := c' | return (r, c)
    return (r, c')

def depth : Nat := 1000

def rules : RuleSet Expr := rulesWith (lowerIn depth)

def lower (e : Expr) : ExprM := rules.apply e (.lower {}) true

end LazyTensor.Loops

/-!
## What targets cannot say

The last rules before a program is written for a target: operations that its language lacks are
replaced, and element types that it only stores are computed in others.
-/

namespace LazyTensor.Adapt

open Pat

/-- Operations that all languages write in another way. -/
def general : RuleSet Expr := .ofList [
  -- the bits of a value are taken from a variable
  on (of [.bitcast]) fun x => do
    let a ← x.nth 0
    givingIf (!(a.is .noop || a.is .load || a.is .custom)) do
      node .bitcast x.dtype [← node .noop a.dtype x.src],
  on (of [.max]) fun m => giving do
    let a ← m.nth 0
    let b ← m.nth 1
    (← a.lt b).choose b a,
  -- truth values and choices are not vectors
  on (of (Op.alus ++ [.cast, .bitcast, .assign, .index]) none (some [.bool])) Scalars.perLane,
  on (seq [.cast] [typed [.bool]]) Scalars.perLane,
  on (of [.select]) Scalars.perLane]

def clang : RuleSet Expr := RuleSet.ofList [
  on1 ((var "x" (some [.double])).cast (some .half)) "x" fun x => giving do (← x.cast .float).cast .half,
  on (of [.sqrt]) Scalars.perLane] ++ general

private def bf16 : Option (List DType) := some [.bfloat16]

private def inFloat (x : Expr) (out : DType) : ExprM := do
  node x.op out (← x.src.mapM fun v => v.cast .float) x.arg

/-- The rules for graphics processors without elementary functions of short floats. -/
def metal : RuleSet Expr := RuleSet.ofList [
  on (of [.sqrt, .exp2, .log2, .sin] none bf16) fun x => giving do
    (← inFloat x .float).cast .bfloat16] ++ general

/-- A single-precision value rounded to a short float, by its bits. -/
def roundToShort (x : Expr) : ExprM := do
  if x.dtype ≠ .float then throw (.broken "cast float -> bf16 must start with float")
  let x ← x.bitcast .uint
  let special ← (← x.neg).land (0x7f800000 : Int)
  let rounded ← (← x.add (← (← x.shr 16).land 1)).add (0x7fff : Int)
  let kept ← (← x.land (0xffff : Int)).choose (← x.lor (0x10000 : Int)) x
  let bits ← special.choose rounded kept
  (← (← bits.shr 16).cast .uint16).bitcast .bfloat16

/-- The rules for graphics processors that only store short floats. -/
def amd : RuleSet Expr := RuleSet.ofList [
  on3 (seq [.select] [var "b", var "x" bf16, var "y" bf16]) "b" "x" "y" fun b x y => giving do
    (← node .select .float [b, ← x.cast .float, ← y.cast .float]).cast .bfloat16,
  on (of Op.alus none bf16) fun x => giving do (← inFloat x .float).cast .bfloat16,
  on (seq Op.alus [var "x" bf16, var "y" bf16] none (some [.bool])) fun e => giving (inFloat e .bool),
  on1 (seq [.cast] [var "y" bf16] "x") "x" fun x =>
    givingIf (x.dtype ≠ .float) do (← (← x.nth 0).cast .float).cast x.dtype,
  on1 (seq [.cast] [var "x"] none bf16) "x" fun x =>
    givingIf (x.dtype ≠ .float) do (← x.cast .float).cast .bfloat16,
  on1 (cvar "x" bf16) "x" fun x => giving do roundToShort (← Expr.constArg .float x.arg),
  on1 (seq [.cast] [var "x" bf16] none (some [.float])) "x" fun x => giving do
    (← (← (← x.bitcast .uint16).cast .uint).shl 16).bitcast .float,
  on1 (seq [.cast] [var "x" (some [.float])] none bf16) "x" fun x => giving (roundToShort x)] ++ general

end LazyTensor.Adapt

namespace LazyTensor

def Target.adapt : Target → RuleSet Expr
  | .base | .machine => .ofList []
  | .clang => Adapt.clang
  | .metal => Adapt.metal
  | .amd _ | .hip _ => Adapt.amd
  | .opencl | .intel | .qcom | .cuda _ | .nv _ => Adapt.general

end LazyTensor

/-!
## From a kernel to a linear program

The stages in order: loops for views, simplification, unrolled axes as lanes, accumulators for
reductions, consecutive memory access, what the target can say, and the linear order.
-/

namespace LazyTensor.Stages

def gating : RuleSet Expr := Full.rules ++ Gate.rules

def unrolling : RuleSet Expr := Full.rules ++ Unroll.rules

def accumulating : RuleSet Expr := Accumulate.rules ++ Lanes.rules

/-- Memory access with vectors kept, one lane at a time, or as the settings ask. -/
def access (level : Int) : RuleSet Expr :=
  if level ≥ 2 then Full.rules ++ Access.grouping ++ Access.indexing
  else if level ≠ 0 then
    Full.rules ++ Scalars.rules ++ Access.grouping ++ Access.splitting ++ Access.indexing
  else Full.rules ++ Access.grouping ++ Access.splitting ++ Access.indexing

def final (t : Target) (force : Bool) : RuleSet Expr :=
  Folding.rules ++ Strength.rules t.ops force ++ Scalars.final ++ t.adapt

def toGraph (t : Target) (e : Expr) : ExprM := do
  let devectorize ← GraphM.setting .devectorize
  let transcendental ← GraphM.setting .transcendental
  let e ← Loops.lower e
  let e ← gating.apply e
  let e ← unrolling.apply e
  let e ← accumulating.apply e (.reduce 0)
  let e ← (access devectorize).apply e (.target t)
  (final t (transcendental ≥ 2)).apply e (.target t)

def toProgram (t : Target) (e : Expr) : GraphM (List Expr) := do Blocks.linearize (← toGraph t e)

end LazyTensor.Stages
