import LazyTensor.Number.Const

/-!
# Matrix instructions

A matrix instruction multiplies two small matrices and adds a third.  The elements of each matrix are
spread over the lanes of a group: an element has a place within a lane and a lane.  How they are
spread depends on the device.
-/

namespace LazyTensor

/-- How the elements of three matrices are spread over the lanes of a group.  A place is the number
of the element within a lane, and the number of the lane. -/
structure MatrixLayout where
  lanes : Nat
  depth : Nat
  /-- Elements in a lane of the left factor, the right one, and the sum. -/
  elements : Nat × Nat × Nat
  /-- The place of the left factor's element in a column and row. -/
  left : Nat → Nat → Nat × Nat
  /-- The place of the right factor's element in a column and row. -/
  right : Nat → Nat → Nat × Nat
  /-- The column and row of an element of the sum in a lane. -/
  target : Nat → Nat → Nat × Nat
  /-- How far away a second copy of each factor's element is, where there is one. -/
  copy : Option Nat := none
  /-- Whether all lanes read the elements of the first. -/
  shared : Bool := false

namespace MatrixLayout

/-- The layout of matrix instructions of a device, for dimensions, an element type and the number of
elements that a lane has of the left factor. -/
def of? (device : String) (dims : List Int) (input : Option DType) (lanes : Option Int)
    (leftCount : Nat) : Option MatrixLayout :=
  match device with
  | "METAL" =>
    let place (i j : Nat) : Nat × Nat := (i % 2, i / 2 % 2 + j % 4 * 2 + i / 4 * 8 + j / 4 * 16)
    some ⟨32, 8, (2, 2, 2), place, place,
      fun lane e => (e + lane % 2 * 2 + lane / 8 % 2 * 4, lane / 2 % 4 + lane / 16 * 4), none, false⟩
  | "AMD" =>
    if lanes = some 64 then
      let place (k row : Nat) : Nat × Nat := (k % 4, k / 4 * 16 + row)
      some ⟨64, 16, (4, 4, 4), place, fun col k => place k col,
        fun lane e => (lane % 16, lane / 16 * 4 + e), none, false⟩
    else if leftCount = 8 then
      let place (k row : Nat) : Nat × Nat :=
        (k - [0, 4, 4, 8].getD (k / 4) 0, row + [0, 16, 0, 16].getD (k / 4) 0)
      some ⟨32, 16, (8, 8, 8), place, fun col k => place k col,
        fun lane e => (lane % 16, lane / 16 * 8 + e), none, false⟩
    else
      let place (k row : Nat) : Nat × Nat := (k, row)
      some ⟨32, 16, (16, 16, 8), place, fun col k => place k col,
        fun lane e => (lane % 16, lane / 16 + e * 2), some 16, false⟩
  | "CUDA" =>
    let target (lane e : Nat) : Nat × Nat := (e % 2 + lane % 4 * 2, lane / 4 + e / 2 * 8)
    if dims = [8, 16, 16] then
      some ⟨32, 16, (8, 4, 4), fun k row => (k % 2 + row / 8 * 2 + k / 8 * 4, k / 2 % 4 + row % 8 * 4),
        fun col k => (k % 2 + k / 8 * 2, k / 2 % 4 + col * 4), target, none, false⟩
    else if dims = [8, 16, 8] && input = some .half then
      some ⟨32, 8, (4, 2, 4), fun k row => (k % 2 + row / 8 * 2, k / 2 + row % 8 * 4),
        fun col k => (k % 2, k / 2 + col * 4), target, none, false⟩
    else if dims = [8, 16, 8] && input = some .float then
      some ⟨32, 8, (4, 2, 4), fun k row => (k / 4 * 2 + row / 8, k % 4 + row % 8 * 4),
        fun col k => (k / 4, k % 4 + col * 4), target, none, false⟩
    else none
  | "INTEL" =>
    some ⟨8, 16, (16, 16, 8), fun k row => (k % 2 + row * 2, k / 2), fun col k => (k, col),
      fun lane e => (lane, e), none, false⟩
  | "CPU" =>
    some ⟨1, 1, (16, 16, 256), fun col row => (col + row, 0), fun col row => (col + row, 0),
      fun _ e => (e % 16, e / 16), none, true⟩
  | _ => none

def pick (x : Array (Array Const)) (place : Nat × Nat) (start : Nat) : Result Const :=
  match x[place.1]? with
  | none => .error .outOfRange
  | some row =>
    row[start + place.2]?.getDM (.error .outOfRange)

/-- The element of a factor at a place; where there is a second copy, both have to be equal. -/
def factor (m : MatrixLayout) (x : Array (Array Const)) (place : Nat × Nat) (start : Nat) :
    Result Const := do
  let c ← pick x place start
  let some n := m.copy | return c
  if Const.eq c (← pick x (place.1, place.2 + n) start) then return c
  else throw (.broken "warp elements not duplicated properly across lanes")

def check (m : MatrixLayout) (warp : Nat) (xs : List (Array (Array Const))) : Result Unit := do
  let (a, b, c) := m.elements
  for ((name, x), n) in (["A", "B", "C"].zip xs).zip [a, b, c] do
    if x.size ≠ n then
      throw (.broken s!"{name} must have {n} elements per thread, it has {x.size}")
    if (x.foldl (fun k row => k + row.size) 0) ≠ n * warp then
      throw (.broken s!"WMMA must have {n * warp} total elements for {name} in WMMA")
  if warp = 0 || warp % m.lanes ≠ 0 then
    throw (.broken s!"must have multiples of {m.lanes} warp threads")

def multiply (m : MatrixLayout) (warp : Nat) (a b c : Array (Array Const)) :
    Result (Array (Array Const)) := do
  m.check warp [a, b, c]
  (Array.range m.elements.2.2).mapM fun e => do
    let row := c.getD e #[]
    (Array.range warp).mapM fun lane => do
      let start := if m.shared then 0 else lane / m.lanes * m.lanes
      let (col, r) := m.target (lane % m.lanes) e
      let sum ← (List.range m.depth).foldlM (fun acc k => do
        let x ← m.factor a (m.left k r) start
        let y ← m.factor b (m.right col k) start
        acc.add (← x.mul y)) (.int 0)
      (row.getD lane (.int 0)).add sum

end MatrixLayout

end LazyTensor
