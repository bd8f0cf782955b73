import LazyTensor.Layout.Shard
import LazyTensor.Schedule.Memory
import LazyTensor.Schedule.Views

/-!
# What has to be stored

Of the nodes of a graph of tensors, the results have to be stored, and some on the way: what is
repeated by a view, what would not stay zero under padding, and all but one reduction of a kernel.
A reduction is computed together with the elementwise operations after it, as long as they have the
same layout and lead to one stored node.
-/

namespace LazyTensor.Realize

/-- Operations whose results are in memory in order, or need no memory. -/
def inOrder : List Op :=
  [.contiguous, .assign, .copy, .buffer, .bufferView, .const, .bind, .device, .mselect, .mstack,
   .gbarrier]

structure Marks where
  order : Array Expr := #[]
  present : Std.HashMap Nat Unit := {}

namespace Marks

def has (m : Marks) (e : Expr) : Bool := m.present.contains e.number

def add (m : Marks) (e : Expr) : Marks :=
  if m.has e then m else ⟨m.order.push e, m.present.insert e.number ()⟩

def erase (m : Marks) (e : Expr) : Result Marks :=
  if m.has e then .ok ⟨m.order.filter (fun x => !(x == e)), m.present.erase e.number⟩
  else .error .missingKey

end Marks

def marks : GraphM Marks := do
  let .marks order present := (← get).context | throw .missingMember
  return ⟨order, present⟩

def mark (e : Expr) : GraphM Unit := do
  let m := (← marks).add e
  modify fun s => { s with context := .marks m.order m.present }

/-- Mark what has to be stored before a view: what padding would spoil, and what a view repeats. -/
def beforeView (view x : Expr) : GraphM Unit := do
  let l ← (← view.layout?).getDM (throw (.broken ""))
  let m ← marks
  if l.any (fun v => v.mask.isSome) && !x.canPad m.has then
    mark x
    return
  let shape ← x.shape
  match l with
  | [v] =>
    match v.mask with
    | some ms =>
      if Dim.allInt shape then
        let inside ← ms.mapM fun (b, e) => e.sub b
        if ← (← (← Dim.prod shape).ge (← Dim.prod inside)).resolve then return
    | none => pure ()
  | _ => pure ()
  if ← (← (← Dim.prod shape).lt (← Dim.prod (Layout.shape l))).resolve then
    if !(← GraphM.settingOn .dontRealizeExpand) then mark x

private def marking (p : Pat) (f : Expr → Bindings → GraphM Unit) : Rule Expr :=
  ⟨p, fun e b => do f e b; return none⟩

/-- Rules that mark the nodes that have to be stored anyway. -/
def demands : RuleSet Expr := .ofList [
  marking (.of [.sink]) fun e _ =>
    e.src.forM fun x => if inOrder.contains x.base.op then pure () else mark x.base,
  marking (.of [.assign, .contiguous, .copy, .bufferView]) fun e _ => mark e,
  marking (.seq [.view] [.of (Op.allBut inOrder) (some "x")]) fun e b => beforeView e (b.get "x"),
  marking (.of [.copy, .mselect, .mstack]) fun e _ =>
    e.src.forM fun x => if inOrder.contains x.op then pure () else mark x]

/-- What surrounds a reduction: who uses a node, what is stored, and what reductions are stored
with. -/
structure Surroundings where
  reduction : Expr
  size : Int
  users : Std.HashMap Nat (Array Expr)
  stored : Marks
  taken : Std.HashMap Nat Expr

def Surroundings.usersOf (c : Surroundings) (e : Expr) : List Expr :=
  ((c.users[e.number]?).getD #[]).toList

/-- The nodes that a search has ended at, and where it has been. -/
structure Reached where
  ends : Marks := {}
  seen : Std.HashMap Nat (List Layout) := {}

def layout (e : Expr) : GraphM Layout := do
  (← e.layout?).getDM (throw (.broken ""))

def uses (e x : Expr) : GraphM (List Layout) := do
  let ls ← (e.src.filter fun s => s.base == x).mapM layout
  return ls.eraseDups

/-- The stored nodes that a reduction leads to, from a node that sees it under a layout.  Where the
way is not clear, the reduction itself is an end. -/
def reach (c : Surroundings) : Nat → Expr → Layout → Reached → GraphM Reached
  | 0, _, _, _ => throw .exhausted
  | fuel + 1, x, l, s => do
    let been := (s.seen[x.number]?).getD []
    if been.contains l then return s
    let mut s := { s with seen := s.seen.insert x.number (l :: been) }
    let stop (s : Reached) (e : Expr) : Reached := { s with ends := s.ends.add e }
    if c.stored.has x && !(x == c.reduction) then
      let apart ← if !Layout.contiguous l then pure true
        else
          let n ← Layout.size l
          pure (n ≠ c.size || c.taken.contains x.number)
      if apart then s := stop s c.reduction
      return stop s x
    for y in c.usersOf x do
      if y.is .reduceAxis then return stop s c.reduction
      let [u] ← uses y x | return stop s c.reduction
      s ← reach c fuel y (← Layout.append l u) s
    return s

/-- Follow the single user of a node as long as the elements stay in order. -/
def chase (c : Surroundings) : Nat → Expr → Layout → ExprM
  | 0, x, _ => return x
  | fuel + 1, x, l => do
    let [y] := c.usersOf x | return x
    let [u] ← uses y x | return x
    if (← Layout.size l) ≠ (← Layout.size u) then return x
    let l' ← Layout.append l u
    if !Layout.contiguous l' || y.is .reduceAxis then return x
    chase c fuel y l'

/-- Who uses the nodes of a graph, seen through movements. -/
def usersIn (order : Array Expr) : GraphM (Std.HashMap Nat (Array Expr)) := do
  let mut users : Std.HashMap Nat (Array Expr) := {}
  for u in order do
    if !(u.is .view || u.is .sink) then
      if u.is .assign then
        let _ ← u.bufferNode
      for s in u.src do
        let b := s.base
        let known := (users[b.number]?).getD #[]
        if !known.contains u then users := users.insert b.number (known.push u)
  return users

/-- The nodes that are stored: what is demanded, and reductions without a single end. -/
def nodes (sink : Expr) : GraphM Marks := do
  let (sink, c) ← demands.applyIn sink (.marks #[] {})
  let mut stored : Marks := match c with
    | .marks order present => ⟨order, present⟩
    | _ => {}
  if ← GraphM.settingOn .dontGroupReduces then return stored
  let order := sink.toposort
  let users ← usersIn order
  let mut taken : Std.HashMap Nat Expr := {}
  let mut twice : List Expr := []
  for r in order do
    if !(r.is .reduceAxis) then continue
    if r.arg.items.length = 3 && (r.arg.items.getD 2 .none) == .bool true then continue
    let src ← r.nth 0
    if ← GraphM.settingOn .fuseConvBw then
      if src.base.is .reduceAxis && !(src == src.base) then twice := twice ++ [r]
    if stored.has r then continue
    let l ← layout r
    let c : Surroundings := ⟨r, ← Layout.size l, users, stored, taken⟩
    let ends := (← reach c (order.size + 1) r l {}).ends
    let here := stored
    let overConst := (r.toposortGated fun u => !here.has u).any fun u =>
      u.is .reduceAxis && (u.src.head?.map (fun s => s.base.is .const)).getD false
    let claimed := taken
    let canChase := ends.order.all (fun x => !claimed.contains x.number) && !overConst
    if ends.has r || ends.order.size ≠ 1 then
      let mut x := r
      if canChase then
        x ← chase c (order.size + 1) r l
        if x.is .cast && x.dtype.itemsize > (← x.nth 0).dtype.itemsize then x := (← x.nth 0).base
      stored := stored.add x
      taken := taken.insert x.number r
    else
      for x in ends.order do taken := taken.insert x.number r
  for r in twice do
    let top := (← r.nth 0).base
    if ((users[top.number]?).getD #[]).size = 1 then stored ← stored.erase top
  return stored

end LazyTensor.Realize
