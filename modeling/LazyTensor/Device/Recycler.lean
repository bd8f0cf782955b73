import LazyTensor.Failure

/-!
# Recycling memory

A device hands out memory and takes it back; both are slow.  A recycler keeps what is given back and
hands it out again when the same size is asked for under the same options.  When the device has no
more memory, everything kept is returned to it and the request is made once more.
-/

namespace LazyTensor

/-- What a device offers: memory of a size under options, and taking it back. -/
structure Supplier (σ κ ω : Type) where
  alloc : Int → κ → σ → Result ω × σ
  free : ω → σ → σ

def Supplier.request {σ κ ω : Type} (d : Supplier σ κ ω) (size : Int) (options : κ) (s : σ) :
    Result ω × σ :=
  if size > 0 then d.alloc size options s
  else (.error (.broken s!"alloc size must be positive, getting {size}"), s)

/-- Memory that was given back.  Sizes and options stand in the order in which they were first asked
for; of equal ones the latest comes first. -/
structure Recycler (κ ω : Type) where
  kept : List ((Int × κ) × List ω) := []

namespace Recycler

variable {σ κ ω : Type} [DecidableEq κ]

variable (r : Recycler κ ω)

def find (key : Int × κ) : List ω :=
  match r.kept.find? (·.1 = key) with
  | some (_, xs) => xs
  | none => []

def put (key : Int × κ) (xs : List ω) : Recycler κ ω :=
  if r.kept.any (·.1 = key) then
    ⟨r.kept.map fun (k, ys) => if k = key then (k, xs) else (k, ys)⟩
  else ⟨r.kept ++ [(key, xs)]⟩

def contents : List ω := r.kept.flatMap fun (_, xs) => xs.reverse

def flush (d : Supplier σ κ ω) (r : Recycler κ ω) (s : σ) : Recycler κ ω × σ :=
  (⟨r.kept.map fun (k, _) => (k, [])⟩, r.contents.foldl (fun s x => d.free x s) s)

/-- Memory of a size under options: kept memory if there is some, else from the device, after
returning everything if the device has none left. -/
def alloc (d : Supplier σ κ ω) (size : Int) (options : κ) (r : Recycler κ ω) (s : σ) :
    Result ω × Recycler κ ω × σ :=
  match r.find (size, options) with
  | x :: xs => (.ok x, r.put (size, options) xs, s)
  | [] =>
    let r := r.put (size, options) []
    match d.request size options s with
    | (.ok x, s) => (.ok x, r, s)
    | (.error f, s) =>
      if f.kind ∈ [.misuse, .unsupported, .recursionLimit, .outOfMemory] then
        let (r, s) := r.flush d s
        let (x, s) := d.request size options s
        (x, r, s)
      else (.error f, r, s)

def free (d : Supplier σ κ ω) (keep : Bool) (x : ω) (size : Int) (options : κ) (r : Recycler κ ω)
    (s : σ) : Recycler κ ω × σ :=
  if keep then (r.put (size, options) (x :: r.find (size, options)), s) else (r, d.free x s)

end Recycler

end LazyTensor
