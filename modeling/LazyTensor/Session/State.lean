import LazyTensor.Device.Heap
import LazyTensor.Program.Spec
import LazyTensor.Schedule.Order

/-!
# Sessions

Work with tensors happens in a session.  It holds the store of nodes, the heap of buffers, the
tensors that are referred to by name, the programs made so far, the state of the random generators,
and what is counted.
-/

namespace LazyTensor

structure Kept where
  node : Expr
  /-- Whether gradients are wanted, where that was said. -/
  tracked : Option Bool := none
  grad : Option Nat := none
  /-- Whether its node is replaced when what it is made of becomes memory. -/
  listed : Bool := true

inductive Work where
  | program (p : Program)
  | copy
  | view

structure Runner where
  name : String
  device : String
  cost : Cost
  work : Work
  fresh : Bool := true

/-- What tells programs apart: the device, the digest of the kernel, the settings, and whether the
device stands for all of its kind. -/
structure ProgramKey where
  device : String
  digest : List UInt8
  settings : List Int
  shared : Bool
  deriving DecidableEq, Hashable

structure Counts where
  kernels : Int := 0
  ops : Int := 0
  memory : Int := 0
  seconds : Float := 0

/-- All that lasts from one operation to the next. -/
structure Session where
  store : Store := {}
  heap : Heap := {}
  kept : Std.HashMap Nat Kept := {}
  next : Nat := 0
  /-- The buffers of a buffer node, by its number: one for each device. -/
  owned : Std.HashMap Nat (List Nat) := {}
  /-- The operation that new nodes come from. -/
  origin : Option Metadata := none
  training : Bool := false
  defaultFloat : DType := .float
  defaultInt : DType := .int
  seed : Const := .int 0
  /-- For every device, the places of the key of its random generator and of its counter. -/
  generators : List (String × Nat × Nat) := []
  programs : Std.HashMap ProgramKey Runner := {}
  counts : Counts := {}
  /-- What was written to the second stream of output. -/
  notes : String := ""

abbrev SessionM := ReaderT Env (EStateM Failure Session)

instance (priority := high) : MonadStateOf Session SessionM :=
  inferInstanceAs (MonadStateOf Session (ReaderT Env (EStateM Failure Session)))

instance : MonadLift GraphM SessionM := ⟨fun x env s =>
  let store := s.store
  let s := { s with store := {} }
  match x env store with
  | .ok a store => .ok a { s with store := store }
  | .error f store => .error f { s with store := store }⟩

instance : MonadLift HeapM SessionM := ⟨fun x _ s =>
  let heap := s.heap
  let s := { s with heap := {} }
  match x heap with
  | .ok a heap => .ok a { s with heap := heap }
  | .error f heap => .error f { s with heap := heap }⟩

instance : MonadLift Result SessionM := ⟨fun x _ s => match x with
  | .ok a => .ok a s
  | .error f => .error f s⟩

namespace Session

def setting (f : Flag) : SessionM Int := do return (← get).store.settings.get f

def settingOn (f : Flag) : SessionM Bool := do return (← get).store.settings.on f

def print (s : String) : SessionM Unit := do
  let x : GraphM Unit := GraphM.print s
  liftM x

def now : SessionM Float := do
  modify fun s => { s with heap := { s.heap with clock := s.heap.clock.tick } }
  return (← get).heap.clock.seconds

/-- Run with the nodes attributed to an operation, unless they are attributed already.  A failure
leaves the attribution in force. -/
def traced {α : Type} (name : String) (x : SessionM α) : SessionM α := do
  if (← get).origin.isSome then x
  else
    modify fun s => { s with origin := some { name, caller := "" } }
    let r ← x
    modify fun s => { s with origin := none }
    return r

def keep (k : Kept) : SessionM Nat := do
  let s ← get
  modify fun s => { s with kept := s.kept.insert s.next k, next := s.next + 1 }
  return s.next

def keptAt (n : Nat) : SessionM Kept := do
  (← get).kept[n]?.getDM (throw .missingKey)

def alter (n : Nat) (f : Kept → Kept) : SessionM Unit :=
  modify fun s => match s.kept[n]? with
    | some k => { s with kept := s.kept.insert n (f k) }
    | none => s

def forget (n : Nat) : SessionM Unit := modify fun s => { s with kept := s.kept.erase n }

def run {α : Type} (x : SessionM α) (env : Env) (s : Session) : Result α × Session :=
  match x env s with
  | .ok a s => (.ok a, s)
  | .error f s => (.error f, s)

end Session

end LazyTensor
