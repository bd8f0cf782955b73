/-!
# Operations of the graph

The kinds of node an expression graph is made of.  Their order is significant: nodes are sorted by
the rank of their operation first.
-/

namespace LazyTensor

inductive Op where
  | noop | sink | unique | device | kernel | copy | buffer | bufferView | mselect | mstack
  | contiguous | contiguousBackward | detach | fuse | block | blockStart | blockEnd | blockFinal
  | reshape | permute | expand | pad | shrink | flip | multi | view | valid | defineGlobal
  | defineLocal | defineReg | defineVar | bind | special | reduceAxis | reduce | allreduce
  | unroll | contract | gep | vectorize | cat | ptrcat | cast | bitcast | exp2 | log2 | sin
  | sqrt | recip | neg | load | store | assign | wmma | index | add | mul | shl | shr | idiv
  | max | mod | cmplt | cmpne | cmpeq | xor | or | and | threefry | sub | fdiv | pow | select
  | mulacc | gbarrier | barrier | range | branch | endRange | endBranch | vconst | const | custom
  | customi
  deriving DecidableEq, Repr, Hashable

namespace Op

def all : List Op :=
  [.noop, .sink, .unique, .device, .kernel, .copy, .buffer, .bufferView, .mselect, .mstack,
   .contiguous, .contiguousBackward, .detach, .fuse, .block, .blockStart, .blockEnd, .blockFinal,
   .reshape, .permute, .expand, .pad, .shrink, .flip, .multi, .view, .valid, .defineGlobal,
   .defineLocal, .defineReg, .defineVar, .bind, .special, .reduceAxis, .reduce, .allreduce,
   .unroll, .contract, .gep, .vectorize, .cat, .ptrcat, .cast, .bitcast, .exp2, .log2, .sin,
   .sqrt, .recip, .neg, .load, .store, .assign, .wmma, .index, .add, .mul, .shl, .shr, .idiv,
   .max, .mod, .cmplt, .cmpne, .cmpeq, .xor, .or, .and, .threefry, .sub, .fdiv, .pow, .select,
   .mulacc, .gbarrier, .barrier, .range, .branch, .endRange, .endBranch, .vconst, .const,
   .custom, .customi]

/-- The position of an operation in the order, counted from one. -/
def rank (o : Op) : Nat := o.ctorIdx + 1

def name : Op → String
  | noop => "NOOP" | sink => "SINK" | unique => "UNIQUE" | device => "DEVICE"
  | kernel => "KERNEL" | copy => "COPY" | buffer => "BUFFER" | bufferView => "BUFFER_VIEW"
  | mselect => "MSELECT" | mstack => "MSTACK" | contiguous => "CONTIGUOUS"
  | contiguousBackward => "CONTIGUOUS_BACKWARD" | detach => "DETACH" | fuse => "FUSE"
  | block => "BLOCK" | blockStart => "BLOCKSTART" | blockEnd => "BLOCKEND"
  | blockFinal => "BLOCKFINAL" | reshape => "RESHAPE" | permute => "PERMUTE" | expand => "EXPAND"
  | pad => "PAD" | shrink => "SHRINK" | flip => "FLIP" | multi => "MULTI" | view => "VIEW"
  | valid => "VALID" | defineGlobal => "DEFINE_GLOBAL" | defineLocal => "DEFINE_LOCAL"
  | defineReg => "DEFINE_REG" | defineVar => "DEFINE_VAR" | bind => "BIND" | special => "SPECIAL"
  | reduceAxis => "REDUCE_AXIS" | reduce => "REDUCE" | allreduce => "ALLREDUCE"
  | unroll => "UNROLL" | contract => "CONTRACT" | gep => "GEP" | vectorize => "VECTORIZE"
  | cat => "CAT" | ptrcat => "PTRCAT" | cast => "CAST" | bitcast => "BITCAST" | exp2 => "EXP2"
  | log2 => "LOG2" | sin => "SIN" | sqrt => "SQRT" | recip => "RECIP" | neg => "NEG"
  | load => "LOAD" | store => "STORE" | assign => "ASSIGN" | wmma => "WMMA" | index => "INDEX"
  | add => "ADD" | mul => "MUL" | shl => "SHL" | shr => "SHR" | idiv => "IDIV" | max => "MAX"
  | mod => "MOD" | cmplt => "CMPLT" | cmpne => "CMPNE" | cmpeq => "CMPEQ" | xor => "XOR"
  | or => "OR" | and => "AND" | threefry => "THREEFRY" | sub => "SUB" | fdiv => "FDIV"
  | pow => "POW" | select => "WHERE" | mulacc => "MULACC" | gbarrier => "GBARRIER"
  | barrier => "BARRIER" | range => "RANGE" | branch => "IF" | endRange => "ENDRANGE"
  | endBranch => "ENDIF" | vconst => "VCONST" | const => "CONST" | custom => "CUSTOM"
  | customi => "CUSTOMI"

def ofName? (s : String) : Option Op := all.find? (·.name = s)

def text (o : Op) : String := "Ops." ++ o.name

def isUnary : Op → Bool
  | exp2 | log2 | sin | sqrt | recip | neg => true
  | _ => false

def isBinary : Op → Bool
  | add | mul | idiv | max | mod | cmplt | cmpne | cmpeq | xor | shl | shr | or | and | threefry
  | sub | fdiv | pow => true
  | _ => false

def isTernary : Op → Bool
  | select | mulacc => true
  | _ => false

def isAlu (o : Op) : Bool := o.isUnary || o.isBinary || o.isTernary

def isIrreducible : Op → Bool
  | const | defineVar | special | range => true
  | _ => false

def isMovement : Op → Bool
  | reshape | expand | permute | pad | shrink | flip => true
  | _ => false

/-- Operations whose shape comes from a view among their sources. -/
def isBufferOp : Op → Bool
  | load | store | valid | const | defineVar => true
  | _ => false

def isCommutative : Op → Bool
  | add | mul | max | cmpne | cmpeq | xor | and | or => true
  | _ => false

/-- Binary operations that give an operand back when both are equal. -/
def isIdempotent : Op → Bool
  | or | and | max => true
  | _ => false

def isUnsafePad : Op → Bool
  | recip | log2 | exp2 | idiv | pow => true
  | _ => false

def alus : List Op := all.filter isAlu

def unaries : List Op := all.filter isUnary

def binaries : List Op := all.filter isBinary

def ternaries : List Op := all.filter isTernary

def commutatives : List Op := all.filter isCommutative

def movements : List Op := all.filter isMovement

def idempotents : List Op := all.filter isIdempotent

def allBut (xs : List Op) : List Op := all.filter fun o => !xs.contains o

end Op

end LazyTensor
