import Mathlib
import LazyTensor.Device.Recycler

/-!
# Recycled memory is neither shared nor lost

A block that a device has given is with a client, kept by the recycler, or back at the device.  The
recycler hands out what it keeps, and returns all of it in the middle of a request that the device
refuses.  Along every run of requests each block is in exactly one of the three places.

## Main results

* `Recycler.Pool.Accounted.step`: one request keeps the accounts.
* `Recycler.Pool.memory_accounted`: where the blocks are after a run of requests.
-/

namespace LazyTensor

open List

variable {σ κ ω : Type}

namespace Supplier

/-- The states that a device reaches from the first one, with the blocks that it gave and those that
it got back.  Each block stands with the size and the options it was given for; only blocks that are
out are returned. -/
inductive Reached (d : Supplier σ κ ω) (first : σ) :
    σ → Multiset (ω × Int × κ) → Multiset (ω × Int × κ) → Prop
  | first : Reached d first first 0 0
  | gave {s t : σ} {given back : Multiset (ω × Int × κ)} {n : Int} {o : κ} {x : ω}
      (h : Reached d first s given back) (hx : d.alloc n o s = (.ok x, t)) :
      Reached d first t ((x, n, o) ::ₘ given) back
  | refused {s t : σ} {given back : Multiset (ω × Int × κ)} {n : Int} {o : κ} {f : Failure}
      (h : Reached d first s given back) (hf : d.alloc n o s = (.error f, t)) :
      Reached d first t given back
  | gotBack {s : σ} {given back : Multiset (ω × Int × κ)} {b : ω × Int × κ}
      (h : Reached d first s given back) (hb : b ::ₘ back ≤ given) :
      Reached d first (d.free b.1 s) given (b ::ₘ back)

/-- A device that is used properly never gives a block that is out. -/
def Fresh (d : Supplier σ κ ω) (first : σ) : Prop :=
  ∀ ⦃s t given back n o x⦄, d.Reached first s given back → d.alloc n o s = (.ok x, t) →
    ∀ b, b ::ₘ back ≤ given → b.1 ≠ x

variable {d : Supplier σ κ ω} {first s t : σ} {given back : Multiset (ω × Int × κ)} {n : Int} {o : κ}

theorem alloc_of_request {x : ω} (h : d.request n o s = (.ok x, t)) : d.alloc n o s = (.ok x, t) := by
  unfold request at h
  split at h
  · exact h
  · cases h

theorem Reached.request_refused {f : Failure} (hs : d.Reached first s given back)
    (h : d.request n o s = (.error f, t)) : d.Reached first t given back := by
  unfold request at h
  split at h
  · exact hs.refused h
  · cases h
    exact hs

/-- Blocks that are out are returned one after the other. -/
theorem Reached.returned {bs : List (ω × Int × κ)} (hs : d.Reached first s given back)
    (hbs : ↑bs + back ≤ given) :
    d.Reached first ((bs.map Prod.fst).foldl (fun s x => d.free x s) s) given (↑bs + back) := by
  induction bs generalizing s back with
  | nil => simpa using hs
  | cons b bs ih =>
    have hmove : (↑(b :: bs) : Multiset _) + back = (↑bs : Multiset _) + b ::ₘ back := by
      rw [← Multiset.cons_coe, Multiset.cons_add, Multiset.add_cons]
    rw [hmove] at hbs ⊢
    exact ih (hs.gotBack ((Multiset.le_add_left _ _).trans hbs)) hbs

end Supplier

namespace Recycler

/-- The blocks that a recycler keeps, with their sizes and options; of each size and options the
oldest first. -/
def blocks (r : Recycler κ ω) : List (ω × Int × κ) :=
  r.kept.flatMap fun (key, xs) => xs.reverse.map fun x => (x, key)

/-- No size stands twice with the same options. -/
def Keyed (r : Recycler κ ω) : Prop := (r.kept.map Prod.fst).Nodup

theorem map_fst_blocks (r : Recycler κ ω) : r.blocks.map Prod.fst = r.contents := by
  simp [blocks, contents, map_flatMap, Function.comp_def]

theorem flush_kept (d : Supplier σ κ ω) (r : Recycler κ ω) (s : σ) :
    (r.flush d s).1.kept = r.kept.map fun (k, _) => (k, []) := rfl

theorem blocks_flush (d : Supplier σ κ ω) (r : Recycler κ ω) (s : σ) : (r.flush d s).1.blocks = [] := by
  simp [blocks, flush_kept]

theorem Keyed.flush {r : Recycler κ ω} (h : r.Keyed) (d : Supplier σ κ ω) (s : σ) :
    (r.flush d s).1.Keyed := by
  simpa [Keyed, flush_kept, Function.comp_def] using h

section Places

variable [DecidableEq κ]

/-- The list of a recycler around the place of a size with its options, which is at the end if they
are new. -/
theorem Keyed.place {r : Recycler κ ω} (h : r.Keyed) (key : Int × κ) :
    ∃ before after : List ((Int × κ) × List ω),
      (r.kept = before ++ (key, r.find key) :: after ∨ r.find key = [] ∧ r.kept = before ++ after) ∧
      ∀ xs, (r.put key xs).kept = before ++ (key, xs) :: after ∧ (r.put key xs).Keyed := by
  have hfind (ps : List ((Int × κ) × List ω)) (hps : ∀ p ∈ ps, p.1 ≠ key) :
      ps.find? (fun p => decide (p.1 = key)) = none := by simpa using hps
  by_cases hkey : ∃ ys, (key, ys) ∈ r.kept
  · obtain ⟨ys, hys⟩ := hkey
    obtain ⟨before, after, hkept⟩ := append_of_mem hys
    have hnodup : (before.map Prod.fst ++ key :: after.map Prod.fst).Nodup := by
      simpa [Keyed, hkept] using h
    have hbefore : ∀ p ∈ before, p.1 ≠ key := fun p hp =>
      (nodup_append.mp hnodup).2.2 _ (mem_map_of_mem hp) _ mem_cons_self
    have hafter : ∀ p ∈ after, p.1 ≠ key := fun p hp he =>
      (nodup_cons.mp (nodup_append.mp hnodup).2.1).1 (he ▸ mem_map_of_mem hp)
    have hput (xs : List ω) : (r.put key xs).kept = before ++ (key, xs) :: after := by
      have hsame (ps : List ((Int × κ) × List ω)) (hps : ∀ p ∈ ps, p.1 ≠ key) :
          ps.map (fun (k, ys) => if k = key then (k, xs) else (k, ys)) = ps := by
        conv_rhs => rw [← map_id ps]
        exact map_congr_left fun p hp => if_neg (hps p hp)
      rw [put, if_pos (by simpa using ⟨ys, hys⟩), hkept, map_append, map_cons,
        hsame before hbefore, hsame after hafter]
      simp
    refine ⟨before, after, .inl ?_, fun xs => ⟨hput xs, by simpa [Keyed, hput] using hnodup⟩⟩
    simp [find, hkept, find?_append, hfind before hbefore]
  · have hnew : ∀ p ∈ r.kept, p.1 ≠ key := fun p hp he => hkey ⟨p.2, he ▸ hp⟩
    have hput (xs : List ω) : (r.put key xs).kept = r.kept ++ [(key, xs)] := by
      rw [put, if_neg (by simpa using hkey)]
    refine ⟨r.kept, [], .inr ⟨by simp [find, hfind _ hnew], by simp⟩, fun xs => ⟨hput xs, ?_⟩⟩
    have := nodup_append.mpr ⟨h, nodup_singleton key, by simpa using hnew⟩
    simpa [Keyed, hput] using this

/-- Blocks of one size with its options. -/
def under (key : Int × κ) (xs : List ω) : Multiset (ω × Int × κ) := ↑(xs.map fun x => (x, key))

/-- The blocks of one size with its options are replaced, and all others stay. -/
theorem Keyed.blocks_put {r : Recycler κ ω} (h : r.Keyed) (key : Int × κ) (xs : List ω) :
    ↑(r.put key xs).blocks + under key (r.find key) = ↑r.blocks + under key xs := by
  obtain ⟨before, after, hkept, hput⟩ := h.place key
  have hrev (ys : List ω) : ↑(ys.reverse.map fun x => (x, key)) = under key ys := by
    rw [map_reverse, Multiset.coe_reverse, under]
  rw [blocks, blocks, (hput xs).1]
  obtain hkept | ⟨hfind, hkept⟩ := hkept
  · rw [hkept]
    simp only [flatMap_append, flatMap_cons, ← Multiset.coe_add, hrev]
    abel
  · rw [hfind, hkept]
    simp only [flatMap_append, flatMap_cons, ← Multiset.coe_add, hrev, under, map_nil,
      Multiset.coe_nil]
    abel

end Places

/-! ## Runs -/

/-- A recycler with its device, and the blocks that its clients have. -/
structure Pool (σ κ ω : Type) where
  recycler : Recycler κ ω
  device : σ
  live : Multiset (ω × Int × κ)

namespace Pool

/-- What the clients have after the answer to a request for memory. -/
def granted (live : Multiset (ω × Int × κ)) (n : Int) (o : κ) :
    Except Failure ω → Multiset (ω × Int × κ)
  | .ok x => (x, n, o) ::ₘ live
  | .error _ => live

/-- One request: for memory; to take memory back, with the size and options it was asked for, and to
keep it or not; to return all that is kept. -/
inductive Step [DecidableEq κ] (d : Supplier σ κ ω) : Pool σ κ ω → Pool σ κ ω → Prop
  | alloc {r r' : Recycler κ ω} {s s' : σ} {live : Multiset (ω × Int × κ)} {n : Int} {o : κ}
      {x : Except Failure ω} (h : r.alloc d n o s = (x, r', s')) :
      Step d ⟨r, s, live⟩ ⟨r', s', granted live n o x⟩
  | free {r r' : Recycler κ ω} {s s' : σ} {live : Multiset (ω × Int × κ)} {n : Int} {o : κ} {x : ω}
      {keep : Bool} (h : r.free d keep x n o s = (r', s')) :
      Step d ⟨r, s, (x, n, o) ::ₘ live⟩ ⟨r', s', live⟩
  | flush {r r' : Recycler κ ω} {s s' : σ} {live : Multiset (ω × Int × κ)}
      (h : r.flush d s = (r', s')) : Step d ⟨r, s, live⟩ ⟨r', s', live⟩

/-- The accounts of a pool: what the device gave is live, kept, or back, and no block is in two
places. -/
structure Accounted (d : Supplier σ κ ω) (first : σ) (p : Pool σ κ ω)
    (given back : Multiset (ω × Int × κ)) : Prop where
  keyed : p.recycler.Keyed
  reached : d.Reached first p.device given back
  given_eq : given = p.live + ↑p.recycler.blocks + back
  nodup : ((p.live + ↑p.recycler.blocks).map Prod.fst).Nodup

variable {d : Supplier σ κ ω} {first : σ} {r : Recycler κ ω} {s : σ}
  {live given back : Multiset (ω × Int × κ)} {n : Int} {o : κ} {x : ω}

namespace Accounted

theorem gave (h : Accounted d first ⟨r, s, live⟩ given back) (hd : d.Fresh first) {t : σ}
    (hx : d.request n o s = (.ok x, t)) :
    Accounted d first ⟨r, t, (x, n, o) ::ₘ live⟩ ((x, n, o) ::ₘ given) back where
  keyed := h.keyed
  reached := h.reached.gave (Supplier.alloc_of_request hx)
  given_eq := by rw [h.given_eq, Multiset.cons_add, Multiset.cons_add]
  nodup := by
    rw [Multiset.cons_add, Multiset.map_cons, Multiset.nodup_cons]
    refine ⟨fun hmem => ?_, h.nodup⟩
    obtain ⟨b, hb, hbx⟩ := Multiset.mem_map.mp hmem
    refine hd h.reached (Supplier.alloc_of_request hx) b ?_ hbx
    rw [h.given_eq, ← Multiset.singleton_add]
    exact add_le_add_left (Multiset.singleton_le.mpr hb) back

/-- Blocks change places between the clients and the recycler. -/
theorem put [DecidableEq κ] (h : Accounted d first ⟨r, s, live⟩ given back) {key : Int × κ}
    {xs : List ω} {live' : Multiset (ω × Int × κ)}
    (hlive : live' + under key xs = live + under key (r.find key)) :
    Accounted d first ⟨r.put key xs, s, live'⟩ given back := by
  have hkeyed : r.Keyed := h.keyed
  have hsum : live' + ↑(r.put key xs).blocks = live + ↑r.blocks := by
    refine add_right_cancel (b := under key xs + under key (r.find key)) ?_
    calc live' + ↑(r.put key xs).blocks + (under key xs + under key (r.find key))
        = live' + under key xs + (↑(r.put key xs).blocks + under key (r.find key)) := by abel
      _ = live + under key (r.find key) + (↑r.blocks + under key xs) := by
        rw [hlive, hkeyed.blocks_put]
      _ = live + ↑r.blocks + (under key xs + under key (r.find key)) := by abel
  obtain ⟨_, _, _, hput⟩ := hkeyed.place key
  exact ⟨(hput xs).2, h.reached, by rw [h.given_eq, hsum], by rw [hsum]; exact h.nodup⟩

theorem returned (h : Accounted d first ⟨r, s, (x, n, o) ::ₘ live⟩ given back) :
    Accounted d first ⟨r, d.free x s, live⟩ given ((x, n, o) ::ₘ back) where
  keyed := h.keyed
  reached := h.reached.gotBack (by
    rw [h.given_eq, Multiset.cons_add, Multiset.cons_add]
    exact Multiset.cons_le_cons _ (Multiset.le_add_left _ _))
  given_eq := by rw [h.given_eq, Multiset.cons_add, Multiset.cons_add, Multiset.add_cons]
  nodup := by
    have := h.nodup
    rw [Multiset.cons_add, Multiset.map_cons] at this
    exact (Multiset.nodup_cons.mp this).2

theorem flush (h : Accounted d first ⟨r, s, live⟩ given back) :
    Accounted d first ⟨(r.flush d s).1, (r.flush d s).2, live⟩ given (↑r.blocks + back) where
  keyed := h.keyed.flush d s
  reached := by
    rw [Recycler.flush, ← map_fst_blocks]
    refine h.reached.returned ?_
    rw [h.given_eq, add_assoc]
    exact Multiset.le_add_left _ _
  given_eq := by rw [h.given_eq, blocks_flush, Multiset.coe_nil, add_zero, add_assoc]
  nodup := by
    rw [blocks_flush, Multiset.coe_nil, add_zero]
    have := h.nodup
    rw [Multiset.map_add] at this
    exact (Multiset.nodup_add.mp this).1

theorem reuse [DecidableEq κ] (h : Accounted d first ⟨r, s, live⟩ given back) {xs : List ω}
    (hfind : r.find (n, o) = x :: xs) :
    Accounted d first ⟨r.put (n, o) xs, s, (x, n, o) ::ₘ live⟩ given back :=
  h.put (by simp [hfind, under, ← Multiset.cons_coe])

theorem refused (h : Accounted d first ⟨r, s, live⟩ given back) {f : Failure} {t : σ}
    (hf : d.request n o s = (.error f, t)) : Accounted d first ⟨r, t, live⟩ given back :=
  ⟨h.keyed, h.reached.request_refused hf, h.given_eq, h.nodup⟩

/-- A request for memory keeps the accounts: a block that is granted becomes live. -/
theorem alloc [DecidableEq κ] (h : Accounted d first ⟨r, s, live⟩ given back) (hd : d.Fresh first)
    {x : Except Failure ω} {r' : Recycler κ ω} {s' : σ} (hx : r.alloc d n o s = (x, r', s')) :
    ∃ given' back', Accounted d first ⟨r', s', granted live n o x⟩ given' back' := by
  unfold Recycler.alloc at hx
  split at hx
  case h_1 y ys hfind =>
    cases hx
    exact ⟨given, back, h.reuse hfind⟩
  case h_2 hfind =>
    have h' : Accounted d first ⟨r.put (n, o) [], s, live⟩ given back := h.put (by rw [hfind])
    dsimp only at hx
    split at hx
    case h_1 y t hreq =>
      cases hx
      exact ⟨_, back, h'.gave hd hreq⟩
    case h_2 f t hreq =>
      split at hx
      · -- the second attempt, after all that was kept is returned
        have hflush := (h'.refused hreq).flush
        cases hreq' : d.request n o ((r.put (n, o) []).flush d t).2 with
        | mk y u =>
          rw [hreq'] at hx
          cases hx
          cases y with
          | ok y => exact ⟨_, _, hflush.gave hd hreq'⟩
          | error g => exact ⟨_, _, hflush.refused hreq'⟩
      · cases hx
        exact ⟨given, back, h'.refused hreq⟩

/-- **One request keeps the accounts.** -/
theorem step [DecidableEq κ] {p q : Pool σ κ ω} (h : Accounted d first p given back)
    (hd : d.Fresh first) (hpq : Step d p q) : ∃ given' back', Accounted d first q given' back' := by
  cases hpq with
  | alloc hx => exact h.alloc hd hx
  | free hx =>
    unfold Recycler.free at hx
    split at hx
    · cases hx
      exact ⟨given, back, h.put (by simp [under, ← Multiset.cons_coe])⟩
    · cases hx
      exact ⟨_, _, h.returned⟩
  | flush hx =>
    cases hx
    exact ⟨_, _, h.flush⟩

end Accounted

/-- **Memory is neither shared nor lost.**  After a run of requests, each block that the device has
given is live, kept once, or was returned once.  The next request gives no block that is live, and
what it takes from the recycler the device gave for the same size and options. -/
theorem memory_accounted [DecidableEq κ] (hd : d.Fresh first) {p : Pool σ κ ω}
    (hp : Relation.ReflTransGen (Step d) ⟨{}, first, 0⟩ p) :
    ∃ given back, d.Reached first p.device given back ∧
      given = p.live + ↑p.recycler.blocks + back ∧
      ((p.live + ↑p.recycler.blocks).map Prod.fst).Nodup ∧
      ∀ n o x r s, p.recycler.alloc d n o p.device = (.ok x, r, s) →
        (∀ b ∈ p.live, b.1 ≠ x) ∧ (p.recycler.find (n, o) ≠ [] → (x, n, o) ∈ given) := by
  have haccounted : ∃ given back, Accounted d first p given back := by
    induction hp with
    | refl => exact ⟨0, 0, List.nodup_nil, .first, rfl, Multiset.nodup_zero⟩
    | tail _ hstep ih =>
      obtain ⟨given, back, h⟩ := ih
      exact h.step hd hstep
  obtain ⟨given, back, h⟩ := haccounted
  refine ⟨given, back, h.reached, h.given_eq, h.nodup, fun n o x r s hx => ⟨?_, fun hfind => ?_⟩⟩
  · intro b hb hbx
    obtain ⟨_, _, h'⟩ := h.alloc hd hx
    have hnodup := h'.nodup
    rw [granted, Multiset.cons_add, Multiset.map_cons, Multiset.nodup_cons] at hnodup
    exact hnodup.1 (Multiset.mem_map.mpr ⟨b, Multiset.mem_add.mpr (.inl hb), hbx⟩)
  · obtain ⟨y, ys, hfind⟩ := List.exists_cons_of_ne_nil hfind
    rw [Recycler.alloc, hfind] at hx
    cases hx
    rw [(h.reuse hfind).given_eq]
    simp

/-- A device with room for one block, which numbers the blocks that it gives. -/
def oneRoom : Supplier (Nat × Bool) Unit Nat where
  alloc _ _ s := if s.2 then (.error (.bare .outOfMemory), s) else (.ok s.1, s.1 + 1, true)
  free _ s := (s.1, false)

theorem fresh_oneRoom : oneRoom.Fresh (0, false) := by
  have hlt {s given back} (h : oneRoom.Reached (0, false) s given back) : ∀ b ∈ given, b.1 < s.1 := by
    induction h with
    | first => simp
    | @gave s t given back n o x _ hx ih =>
      simp only [oneRoom] at hx
      split at hx <;> cases hx
      simpa using fun a b c hb => (ih _ hb).trans (Nat.lt_succ_self _)
    | @refused s t given back n o f _ hf ih =>
      simp only [oneRoom] at hf
      split at hf <;> cases hf
      exact ih
    | gotBack _ _ ih => exact ih
  intro s t given back n o x h hx b hb hbx
  have hb' := hlt h b (Multiset.mem_of_le hb (Multiset.mem_cons_self b back))
  simp only [oneRoom] at hx
  split at hx <;> cases hx
  omega

/-- A block was given and kept, and returned when the device had no room for a larger one. -/
def afterReturn : Pool (Nat × Bool) Unit Nat :=
  ⟨⟨[((8, ()), []), ((16, ()), [])]⟩, (2, true), {(1, 16, ())}⟩

theorem memory_accounted_afterReturn : ∃ given back,
    oneRoom.Reached (0, false) afterReturn.device given back ∧
      given = afterReturn.live + ↑afterReturn.recycler.blocks + back ∧
      ((afterReturn.live + ↑afterReturn.recycler.blocks).map Prod.fst).Nodup ∧
      ∀ n o x r s, afterReturn.recycler.alloc oneRoom n o afterReturn.device = (.ok x, r, s) →
        (∀ b ∈ afterReturn.live, b.1 ≠ x) ∧
          (afterReturn.recycler.find (n, o) ≠ [] → (x, n, o) ∈ given) := by
  refine memory_accounted fresh_oneRoom ?_
  have hgiven : Step oneRoom ⟨{}, (0, false), 0⟩ ⟨⟨[((8, ()), [])]⟩, (1, true), {(0, 8, ())}⟩ :=
    .alloc (n := 8) (x := .ok 0) rfl
  have hfree : Recycler.free oneRoom true 0 8 () ⟨[((8, ()), [])]⟩ (1, true) =
      (⟨[((8, ()), [0])]⟩, 1, true) := rfl
  have hreturned : Step oneRoom ⟨⟨[((8, ()), [0])]⟩, (1, true), 0⟩ afterReturn :=
    .alloc (n := 16) (x := .ok 1) rfl
  exact ((Relation.ReflTransGen.single hgiven).tail (.free hfree)).tail hreturned

end Pool

end Recycler

end LazyTensor
