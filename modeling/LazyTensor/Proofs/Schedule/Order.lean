import LazyTensor.Proofs.Graph.Waits
import LazyTensor.Proofs.Graph.Walk
import LazyTensor.Schedule.Order

/-!
# Schedules list all kernels in order

The order of kernels is found by counting what each waits for; a kernel that is held by several
stores, or reads several of them, is counted as often.  Since a graph has no cycles, the counts of all
kernels go down to zero.

Of the values to which a kernel binds a variable the last one counts.

## Main results

* `Schedule.complete`: no kernel is left over.
* `Schedule.ofGraph_complete`: the schedule of a graph of kernels.
* `Schedule.Twice.binding_and_kernel_left_out`: what a schedule does not have.
-/

namespace LazyTensor

open GraphM List LazyTensor.Expr Waits

namespace Schedule

/-- The kernels that the stores of a list hold. -/
def held (es : List Expr) : List Expr :=
  es.filterMap fun u => if u.is .store then u.src[1]? else none

/-- Which kernels read what which write, by number: a pair for each time. -/
def reads (ks : List Expr) : List (Nat × Nat) :=
  ks.flatMap fun k => (held k.src).map fun w => (w.number, k.number)

theorem mem_held {es : List Expr} {k : Expr} :
    k ∈ held es ↔ ∃ u ∈ es, u.op = .store ∧ u.src[1]? = some k := by
  simp [held, is]

theorem held_cons {u k : Expr} (hu : u.op = .store) (hk : u.src[1]? = some k) (es : List Expr) :
    held (u :: es) = k :: held es := by
  simp [held, is, hu, hk]

theorem held_cons_of_ne {u : Expr} (hu : u.op ≠ .store) (es : List Expr) :
    held (u :: es) = held es := by
  simp [held, is, hu]

theorem mem_reads {ks : List Expr} {e : Nat × Nat} :
    e ∈ reads ks ↔ ∃ k ∈ ks, ∃ w ∈ held k.src, e = (w.number, k.number) := by
  simp [reads, eq_comm]

/-! ## The tables of a graph -/

/-- A store adds its kernel and what the kernel reads. -/
theorem store_spec {env : Env} {s : Store} {w : Waits} {ks : List Expr} {u : Expr}
    (h : w.Met ks (reads ks)) :
    Ensures True env s (w.store u) fun w' _ =>
      ∃ k, u.src[1]? = some k ∧ w'.Met (ks ++ [k]) (reads (ks ++ [k])) := by
  unfold Waits.store nth
  cases hk : u.src[1]? with
  | none => exact .bind (.throw trivial)
  | some k =>
    refine .bind (.pure ?_)
    have hreads : reads (ks ++ [k]) =
        reads ks ++ (held k.src).map fun w => (w.number, k.number) := by
      simp [reads]
    refine .foldlM (fun rest w _ => ∃ E, w.Met (ks ++ [k]) E ∧
      E ++ (held rest).map (fun w => (w.number, k.number)) = reads (ks ++ [k]))
      ⟨_, h.meet k, hreads.symm⟩ (fun x rest w s ⟨E, hE, hrest⟩ => ?_)
      fun w s ⟨E, hE, hrest⟩ => ⟨k, rfl, ?_⟩
    · split
      · next hx =>
        cases ha : x.src[1]? with
        | none => exact .bind (.throw trivial)
        | some a =>
          refine .bind (.pure (.pure ⟨_, hE.read (by simp) a, ?_⟩))
          rw [← hrest, held_cons hx ha]
          simp
      · next hx => exact .pure ⟨E, hE, by rwa [held_cons_of_ne (by simp [hx])] at hrest⟩
      · next hx => exact .pure ⟨E, hE, by rwa [held_cons_of_ne (by simp [hx])] at hrest⟩
      · next hx => exact .pure ⟨E, hE, by rwa [held_cons_of_ne (by simp [hx])] at hrest⟩
      · exact .throw trivial
    · obtain rfl : E = reads (ks ++ [k]) := by simpa [held] using hrest
      exact hE

/-- The tables of a list of nodes are those of the kernels that its stores hold. -/
theorem foldlM_store {env : Env} {s : Store} (us : List Expr) :
    Ensures True env s
      (us.foldlM (fun w u => if u.is .store then w.store u else pure w) ({} : Waits))
      fun w _ => w.Met (held us) (reads (held us)) := by
  refine .foldlM (fun rest w _ => ∃ ks, w.Met ks (reads ks) ∧ ks ++ held rest = held us)
    ⟨[], .empty, rfl⟩ (fun u rest w s ⟨ks, hks, hrest⟩ => ?_) fun w s ⟨ks, hks, hrest⟩ => ?_
  · refine .ite (fun hu => (store_spec hks).mono ?_) fun hu => .pure ⟨ks, hks, ?_⟩
    · rintro w' _ ⟨k, hk, hw'⟩
      refine ⟨_, hw', ?_⟩
      rw [← hrest, held_cons (beq_iff_eq.mp hu) hk, append_assoc, singleton_append]
    · rwa [held_cons_of_ne (by simpa [is] using hu)] at hrest
  · obtain rfl : ks = held us := by simpa [held] using hrest
    exact hks

/-- **No kernel is left over**: each that waits would wait for another, further down. -/
theorem complete {ks done : List Expr} {w : Waits} {sink : Expr}
    (h : Drains ks (reads ks) done [] w) (hd : sink.Distinct)
    (hks : ∀ k ∈ ks, sink.Reaches k) (hclosed : ∀ k ∈ ks, ∀ a ∈ held k.src, a ∈ ks) :
    ∀ k ∈ ks, k ∈ done := by
  have hdone : ∀ x ∈ ks, x.number ∈ done.map number → x ∈ done := by
    intro x hx hn
    obtain ⟨y, hy, hyx⟩ := mem_map.mp hn
    rwa [← hd (hks y (h.sub y (by simp [hy]))) (hks x hx) hyx]
  intro k
  induction hsize : sizeOf k using Nat.strong_induction_on generalizing k with
  | _ size ih =>
    intro hk
    subst hsize
    refine hdone k hk ?_
    rw [← append_nil done, ← h.ready k hk, h.tracks.left, countP_eq_zero]
    intro e he hopen
    obtain ⟨hek, hnot⟩ := of_decide_eq_true hopen
    obtain ⟨x, hx, a, ha, rfl⟩ := mem_reads.mp he
    obtain rfl := hd (hks x hx) (hks k hk) hek
    obtain ⟨u, hu, -, hua⟩ := mem_held.mp ha
    have hlt : sizeOf a < sizeOf x :=
      (sizeOf_src_lt (mem_of_getElem? hua)).trans (sizeOf_src_lt hu)
    exact hnot (mem_map_of_mem (ih _ hlt a rfl (hclosed x hx a ha)))

/-! ## Tasks and values -/

/-- A bind of a variable to a value. -/
def Binds (b v : Expr) (n : Int) : Prop :=
  b.op = .bind ∧ ∃ c rest, b.src = v :: c :: rest ∧ c.op = .const ∧ c.arg.int? = some n

/-- What a task has of its kernel: the graph, and the memory of each source that is not a bind. -/
structure Performs (env : Env) (k : Expr) (t : Task) : Prop where
  ast : ∃ m, k.arg = .kernel t.ast m
  buffers : Forall₂ (fun x m => ∃ s s', (x.bufferNode >>= memory) env s = .ok m s')
    (k.src.filter fun x => !(x.is .bind)) t.buffers

theorem Binds.src {b v : Expr} {n : Int} (h : Binds b v n) : v ∈ b.src := by
  obtain ⟨-, c, rest, hsrc, -⟩ := h
  simp [hsrc]

theorem Binds.unique {b v w : Expr} {n m : Int} (h : Binds b v n) (h' : Binds b w m) :
    v = w ∧ n = m := by
  obtain ⟨-, c, rest, hsrc, -, hn⟩ := h
  obtain ⟨-, c', rest', hsrc', -, hm⟩ := h'
  obtain ⟨rfl, rfl, -⟩ : v = w ∧ c = c' ∧ rest = rest' := by simpa [hsrc] using hsrc'
  exact ⟨rfl, Option.some.inj (hn.symm.trans hm)⟩

/-- Values have what a kernel binds: for each variable the value of the last bind of it. -/
structure Gives (k : Expr) (values : List (Expr × Int)) : Prop where
  binds : ∀ b ∈ k.src, b.op = .bind → ∃ v n, Binds b v n
  last : ∀ as b bs v n, k.src = as ++ b :: bs → Binds b v n → (∀ b' ∈ bs, ∀ m, ¬Binds b' v m) →
    (v, n) ∈ values

theorem Gives.mono {k : Expr} {values values' : List (Expr × Int)} (h : Gives k values)
    (hsub : ∀ p ∈ values, p ∈ values') : Gives k values' :=
  ⟨h.binds, fun as b bs v n hk hb hlast => hsub _ (h.last as b bs v n hk hb hlast)⟩

theorem unbind_spec {env : Env} {s : Store} {b : Expr} :
    Ensures True env s b.unbind fun p _ => Binds b p.1 p.2 := by
  unfold unbind
  split
  · next hop hsrc =>
    split
    · next hc hn => exact .pure ⟨hop, _, _, hsrc, hc, hn⟩
    · exact .throw trivial
  · exact .throw trivial
  · exact .throw trivial

theorem mapM_runs {α β : Type} {env : Env} {s : Store} {f : α → GraphM β} (xs : List α) :
    Ensures True env s (xs.mapM f)
      fun ys _ => Forall₂ (fun x y => ∃ s s', f x env s = .ok y s') xs ys := by
  induction xs generalizing s with
  | nil => exact .pure .nil
  | cons x xs ih =>
    rw [mapM_cons]
    refine .bind (.of_forall fun y s' hy => .bind (ih.mono fun ys _ hys => .pure ?_))
    exact .cons ⟨_, _, hy⟩ hys

/-- The last value of a variable is among the values that are kept. -/
theorem mem_lastValues {vs xs ys : List (Expr × Int)} {v : Expr} {n : Int}
    (hd : ∀ p ∈ vs, ∀ q ∈ vs, p.1.number = q.1.number → p.1 = q.1) (hvs : vs = xs ++ (v, n) :: ys)
    (hlast : ∀ m, (v, m) ∉ ys) : (v, n) ∈ lastValues vs := by
  have hmem : (v, n) ∈ vs := by simp [hvs]
  have hv : v ∈ Expr.dedup (vs.map (·.1)) := by
    refine ((Expr.dedup_spec ?_).2 v).mpr (mem_map_of_mem hmem)
    simpa using hd
  refine mem_filterMap.mpr ⟨v, hv, ?_⟩
  have hnone : ys.reverse.find? (·.1 == v) = none := by
    rw [find?_eq_none]
    rintro ⟨u, m⟩ hu hn
    have hu : (u, m) ∈ ys := by simpa using hu
    obtain rfl : u = v := hd _ (by simp [hvs, hu]) _ hmem (Expr.beq_iff.mp hn)
    exact hlast m hu
  simp [hvs, find?_append, hnone]

section Run

variable {ks done queue : List Expr} {E : List (Nat × Nat)} {w : Waits} {k sink : Expr} {env : Env}
  {s : Store}

/-- The values of binds in order have what the kernel binds. -/
theorem gives_lastValues (hd : sink.Distinct) (hk : sink.Reaches k) {vs : List (Expr × Int)}
    (hbinds : Forall₂ (fun b p => Binds b p.1 p.2) (k.src.filter fun x => x.is .bind) vs) :
    Gives k (lastValues vs) ∧ ∀ p ∈ lastValues vs, sink.Reaches p.1 := by
  have hreach : ∀ p ∈ vs, sink.Reaches p.1 := by
    intro p hp
    obtain ⟨b, hb, h⟩ := exists_mem_of_forall₂ hbinds p hp
    exact (hk.tail (mem_of_mem_filter hb)).tail h.src
  refine ⟨⟨fun b hb hop => ?_, fun as b bs v n hsrc hb hlast => ?_⟩, fun p hp => ?_⟩
  · obtain ⟨p, -, h⟩ := exists_mem_of_forall₂ hbinds.flip b
      (mem_filter.mpr ⟨hb, by simp [is, hop]⟩)
    exact ⟨p.1, p.2, h⟩
  · -- the values of the binds before, of this one and of those after it
    have hfilter : k.src.filter (fun x => x.is .bind) =
        as.filter (fun x => x.is .bind) ++ b :: bs.filter fun x => x.is .bind := by
      simp [hsrc, is, hb.1]
    rw [hfilter] at hbinds
    obtain ⟨p, ys, hp, hys, hdrop⟩ :=
      forall₂_cons_right_iff.mp (forall₂_drop_append _ _ _ hbinds.flip)
    obtain ⟨rfl, rfl⟩ := hb.unique hp
    refine mem_lastValues (fun p hp q hq => hd (hreach p hp) (hreach q hq))
      ((take_append_drop _ vs).symm.trans (congrArg _ hdrop)) fun m hm => ?_
    obtain ⟨b', hb', h⟩ := exists_mem_of_forall₂ hys.flip _ hm
    exact hlast b' (mem_of_mem_filter hb') m h
  · obtain ⟨v, -, hv⟩ := mem_filterMap.mp hp
    exact hreach p (by simpa using mem_of_find?_eq_some hv)

theorem taskOf_spec (hd : sink.Distinct) (hk : sink.Reaches k) :
    Ensures True env s (taskOf k) fun r _ =>
      Performs env k r.1 ∧ Gives k r.2 ∧ ∀ p ∈ r.2, sink.Reaches p.1 := by
  refine .bind ((mapM_runs _).mono fun buffers s hbuffers => ?_)
  refine .bind ((mapM_runs _).mono fun vs s hvs => ?_)
  have hbinds : Forall₂ (fun b p => Binds b p.1 p.2) (k.src.filter fun x => x.is .bind) vs :=
    hvs.imp fun b p ⟨s, s', hrun⟩ => unbind_spec.of_ok hrun
  split
  · next ast m hast => exact .pure ⟨⟨⟨m, hast⟩, hbuffers⟩, gives_lastValues hd hk hbinds⟩
  · exact .throw trivial

theorem mergeValues_spec (vs : List (Expr × Int)) :
    Ensures True env s (Layout.mergeValues vs) fun out _ =>
      (∀ p ∈ vs, ∃ q ∈ out, q.1.number = p.1.number ∧ q.2 = p.2) ∧ ∀ q ∈ out, q ∈ vs := by
  refine .bind (.forIn (fun rest out _ => (∀ p ∈ vs, p ∈ rest ∨
    ∃ q ∈ out, q.1.number = p.1.number ∧ q.2 = p.2) ∧ (∀ q ∈ out, q ∈ vs) ∧ ∀ p ∈ rest, p ∈ vs)
    ⟨fun p hp => .inl hp, by simp, fun p hp => hp⟩ ?_ ?_)
  · rintro ⟨v, n⟩ rest out s ⟨hall, hout, hrest⟩
    have hmem : (v, n) ∈ vs := hrest _ (by simp)
    have hrest' : ∀ p ∈ rest, p ∈ vs := fun p hp => hrest p (by simp [hp])
    -- what is merged stays, and so does each other pair
    have hkeep {out' : List (Expr × Int)} (hsub : ∀ q ∈ out, q ∈ out')
        (hnew : ∃ q ∈ out', q.1.number = v.number ∧ q.2 = n) : ∀ p ∈ vs, p ∈ rest ∨
          ∃ q ∈ out', q.1.number = p.1.number ∧ q.2 = p.2 := by
      intro p hp
      obtain hp | ⟨q, hq, h⟩ := hall p hp
      · obtain rfl | hp := mem_cons.mp hp
        · exact .inr hnew
        · exact .inl hp
      · exact .inr ⟨q, hsub q hq, h⟩
    dsimp only
    split
    · refine .pure ?_
      refine ⟨hkeep (fun q hq => by simp [hq]) ⟨(v, n), by simp⟩, fun q hq => ?_, hrest'⟩
      obtain hq | hq := mem_append.mp hq
      · exact hout q hq
      · rwa [mem_singleton.mp hq]
    · next u m hfind =>
      refine .ite (fun _ => .bind (.throw trivial)) fun hn => .pure ?_
      have hum : (u == v) = true := by simpa using find?_some hfind
      exact ⟨hkeep (fun q hq => hq) ⟨(u, m), mem_of_find?_eq_some hfind, beq_iff.mp hum,
        (not_not.mp hn).symm⟩, hout, hrest'⟩
  · rintro out s ⟨hall, hout, -⟩
    exact .pure ⟨fun p hp => (hall p hp).resolve_left (by simp), hout⟩

theorem drain_spec (hd : sink.Distinct) (hks : ∀ k ∈ ks, sink.Reaches k) {ns : List Nat}
    (hns : ∀ k ∈ ks, k.number ∈ ns) (fuel : Nat) {tasks : List Task} {values : List (Expr × Int)}
    (h : Drains ks E done queue w) (hfuel : done.length + fuel = ns.length + 1)
    (htasks : Forall₂ (Performs env) done tasks) (hgives : ∀ k ∈ done, Gives k values)
    (hreach : ∀ p ∈ values, sink.Reaches p.1) :
    Ensures True env s (drain fuel queue w tasks values) fun sch _ => ∃ order w,
      Drains ks E order [] w ∧ Forall₂ (Performs env) order sch.tasks ∧
        ∀ k ∈ order, Gives k sch.values := by
  induction fuel generalizing done queue w tasks values s with
  | zero =>
    have := h.length_le hns
    rw [length_append] at this
    omega
  | succ fuel ih =>
    cases queue with
    | nil =>
      refine .bind ((mergeValues_spec values).mono fun out _ hout => .pure ?_)
      refine ⟨done, w, h, htasks, fun k hk => (hgives k hk).mono fun p hp => ?_⟩
      obtain ⟨q, hq, hn, hqn⟩ := hout.1 p hp
      obtain rfl : q = p := Prod.ext (hd (hreach q (hout.2 q hq)) (hreach p hp) hn) hqn
      exact hq
    | cons k queue =>
      have hk : k ∈ ks := h.sub k (by simp)
      refine .bind ((taskOf_spec hd (hks k hk)).mono fun r s' ⟨hperforms, hown, hr⟩ => ?_)
      refine ih h.step ?_ ?_ ?_ ?_
      · rw [length_append, length_singleton]
        omega
      · exact rel_append htasks (.cons hperforms .nil)
      · intro x hx
        obtain hx | hx := mem_append.mp hx
        · exact (hgives x hx).mono fun p hp => mem_append_left _ hp
        · obtain rfl := mem_singleton.mp hx
          exact hown.mono fun p hp => mem_append_right _ hp
      · intro p hp
        obtain hp | hp := mem_append.mp hp
        · exact hreach p hp
        · exact hr p hp

/-! ## The schedule of a graph -/

/-- A graph of kernels: every store holds a kernel. -/
def Kernelized (sink : Expr) : Prop :=
  ∀ u, sink.Reaches u → u.op = .store → ∃ k, u.src[1]? = some k ∧ k.op = .kernel

/-- A store of a graph holds a node. -/
def Held (sink k : Expr) : Prop := ∃ u, sink.Reaches u ∧ u.op = .store ∧ u.src[1]? = some k

theorem mem_held_toposort (hd : sink.Distinct) : k ∈ held sink.toposort.toList ↔ Held sink k := by
  simp only [mem_held, Array.mem_toList_iff, mem_toposort_iff hd, Held]

theorem Held.reaches (h : Held sink k) : sink.Reaches k := by
  obtain ⟨u, hu, -, huk⟩ := h
  exact hu.tail (mem_of_getElem? huk)

/-- The run of a graph whose stores hold the kernels of a list. -/
theorem ofGraph_drains (hd : sink.Distinct) (hheld : held sink.toposort.toList = ks) :
    Ensures True env s (ofGraph sink) fun sch _ => ∃ order w, Drains ks (reads ks) order [] w ∧
      Forall₂ (Performs env) order sch.tasks ∧ ∀ k ∈ order, Gives k sch.values := by
  rw [ofGraph, ← Array.foldlM_toList]
  refine .bind ((foldlM_store _).mono fun w s hw => ?_)
  rw [hheld] at hw
  have hks : ∀ k ∈ ks, sink.Reaches k := fun k hk =>
    Held.reaches ((mem_held_toposort hd).mp (hheld ▸ hk))
  have hns : ∀ k ∈ ks, k.number ∈ w.nodes.toList.map number := fun k hk =>
    (hw.mem _).mpr (mem_map_of_mem hk)
  exact drain_spec hd hks hns _ hw.drains (by simp) .nil (by simp) (by simp)

/-- **A schedule is complete and respects what is read.**  Its tasks are those of the kernels that
stores of the graph hold, each once, and a kernel comes after those that the stores among its sources
hold.  A task has the memories of its kernel in the order of the sources, and the values have what
each kernel binds, the last bind of a variable before the others of it. -/
theorem ofGraph_complete (hd : sink.Distinct) (hsink : Kernelized sink) {sch : Schedule} {t : Store}
    (hrun : ofGraph sink env s = .ok sch t) :
    ∃ order : List Expr, order.Nodup ∧ (∀ k, k ∈ order ↔ Held sink k) ∧
      (∀ k ∈ order, k.op = .kernel) ∧
      (∀ as k bs, order = as ++ k :: bs → ∀ u ∈ k.src, u.op = .store →
        ∃ a ∈ as, u.src[1]? = some a) ∧
      List.Forall₂ (Performs env) order sch.tasks ∧ ∀ k ∈ order, Gives k sch.values := by
  obtain ⟨ks, hheld⟩ : ∃ ks, held sink.toposort.toList = ks := ⟨_, rfl⟩
  have hmem : ∀ k, k ∈ ks ↔ Held sink k := fun k => hheld ▸ mem_held_toposort hd
  have hks : ∀ k ∈ ks, sink.Reaches k := fun k hk => ((hmem k).mp hk).reaches
  have hclosed : ∀ k ∈ ks, ∀ a ∈ held k.src, a ∈ ks := by
    intro k hk a ha
    obtain ⟨u, hu, hop, hua⟩ := mem_held.mp ha
    exact (hmem a).mpr ⟨u, (hks k hk).tail hu, hop, hua⟩
  obtain ⟨order, w, hdrains, htasks, hgives⟩ := (ofGraph_drains hd hheld).of_ok hrun
  have horder : ∀ k, k ∈ order ↔ Held sink k := fun k => Iff.trans
    ⟨fun h => hdrains.sub k (by simp [h]), complete hdrains hd hks hclosed k⟩ (hmem k)
  refine ⟨order, by simpa using hdrains.nodup.of_map, horder, fun k hk => ?_,
    fun as k bs heq u hu hop => ?_, htasks, hgives⟩
  · obtain ⟨u, hu, hop, huk⟩ := (horder k).mp hk
    obtain ⟨k', hk', hkernel⟩ := hsink u hu hop
    obtain rfl : k' = k := by simpa [hk'] using huk
    exact hkernel
  · have hk : k ∈ ks := hdrains.sub k (by simp [heq])
    obtain ⟨a, ha, -⟩ := hsink u ((hks k hk).tail hu) hop
    have hread : (a.number, k.number) ∈ reads ks :=
      mem_reads.mpr ⟨k, hk, a, mem_held.mpr ⟨u, hu, hop, ha⟩, rfl⟩
    obtain ⟨x, hx, hxa⟩ := List.mem_map.mp (hdrains.order as k bs heq _ hread rfl)
    have hxk := hks x (hdrains.sub x (by simp [heq, hx]))
    obtain rfl := hd hxk (((hks k hk).tail hu).tail (List.mem_of_getElem? ha)) hxa
    exact ⟨x, hx, ha⟩

end Run

/-! ## A kernel held by two stores -/

namespace Shared

def device : Expr := .mk 0 .device .void [] (.text "CPU") .none

def unique (n : Nat) : Expr := .mk (n + 1) .unique .void [] (.int n) .none

def buffer (n : Nat) : Expr := .mk n .buffer .int [unique n, device] (.int 4) .none

def i : Expr := .mk 7 .defineVar .int [] (.tuple [.text "i", .int 1, .int 4]) .none

def value (n : Nat) (m : Int) : Expr := .mk n .const .int [] (.int m) .none

def bound (n : Nat) (c : Expr) : Expr := .mk n .bind .int [i, c] .none .none

def body : Expr := .mk 10 .sink .void [] .none .none

def first : Expr :=
  .mk 11 .kernel .void [buffer 1, buffer 3, bound 9 (value 8 3)] (.kernel body []) .none

def write (n m : Nat) (k : Expr) : Expr := .mk n .store .void [buffer m, k] .none .none

/-- A kernel that reads what the first one writes, twice. -/
def second : Expr :=
  .mk 14 .kernel .void [buffer 5, write 12 1 first, write 13 3 first] (.kernel body []) .none

def sink : Expr := .mk 16 .sink .void [write 15 5 second] .none .none

def nodes : List Expr := [sink, write 15 5 second, second, write 13 3 first, write 12 1 first,
  first, bound 9 (value 8 3), value 8 3, i, buffer 5, buffer 3, buffer 1, device, unique 5, unique 3,
  unique 1]

theorem nodes_closed : ∀ y ∈ nodes, ∀ x ∈ y.src, x ∈ nodes := by
  simp [nodes, sink, write, second, first, bound, value, i, buffer, unique, device, src]

theorem sink_distinct : sink.Distinct :=
  distinct_of_listed nodes (by simp [nodes]) nodes_closed (by decide)

theorem sink_kernelized : Kernelized sink := by
  have hall : ∀ u ∈ nodes, u.op = .store → ∃ k, u.src[1]? = some k ∧ k.op = .kernel := by
    simp [nodes, sink, write, second, first, bound, value, i, buffer, unique, device, src, op]
  exact fun u hu => hall u (hu.mem_of_closed nodes_closed (by simp [nodes]))

theorem binds_bound (n m : Nat) (k : Int) : Binds (bound n (value m k)) i k :=
  ⟨rfl, value m k, [], rfl, rfl, rfl⟩

def env : Env := ⟨pure, fun _ => pure none⟩

/-- The number of tasks of a schedule, and the values in it. -/
def outcome (sink : Expr) : Option (Nat × List Int) :=
  match ofGraph sink env {} with
  | .ok sch _ => some (sch.tasks.length, sch.values.map (·.2))
  | .error _ _ => none

theorem exists_of_outcome {sink : Expr} {n : Nat} {ns : List Int}
    (h : outcome sink = some (n, ns)) : ∃ sch t, ofGraph sink env {} = .ok sch t ∧
      sch.tasks.length = n ∧ sch.values.map (·.2) = ns := by
  unfold outcome at h
  split at h
  · next sch t hrun =>
    obtain ⟨hn, hns⟩ := Prod.mk.inj (Option.some.inj h)
    exact ⟨sch, t, hrun, hn, hns⟩
  · cases h

/-- The kernel that reads both stores comes second, and the variable has its value. -/
theorem ofGraph_complete_shared : sink.Distinct ∧ Kernelized sink ∧
    ∃ sch t, ofGraph sink env {} = .ok sch t ∧ (i, 3) ∈ sch.values ∧ sch.tasks.length = 2 ∧
      ∃ as bs, first ∈ as ∧ List.Forall₂ (Performs env) (as ++ second :: bs) sch.tasks := by
  obtain ⟨sch, t, hrun, hlen, -⟩ := exists_of_outcome (show outcome sink = some (2, [3]) by cbv)
  obtain ⟨order, -, hmem, -, hafter, htasks, hgives⟩ :=
    ofGraph_complete sink_distinct sink_kernelized hrun
  have hsecond : Held sink second := ⟨write 15 5 second, .single (.head _), rfl, rfl⟩
  obtain ⟨as, bs, rfl⟩ := List.append_of_mem ((hmem second).mpr hsecond)
  obtain ⟨a, ha, hwrite⟩ := hafter as second bs rfl (write 12 1 first) (.tail _ (.head _)) rfl
  obtain rfl : first = a := Option.some.inj hwrite
  have hvalue : (i, 3) ∈ sch.values := (hgives first (by simp [ha])).last
    [buffer 1, buffer 3] _ [] i 3 rfl (binds_bound 9 8 3) (by simp)
  exact ⟨sink_distinct, sink_kernelized, sch, t, hrun, hvalue, hlen, as, bs, ha, htasks⟩

end Shared

/-! ## A variable bound twice -/

namespace Twice

open Shared

/-- A kernel that binds a variable to two values. -/
def kernel : Expr :=
  .mk 18 .kernel .void [buffer 1, bound 9 (value 8 3), bound 17 (value 16 4)] (.kernel body []) .none

/-- A kernel that no store holds. -/
def loose : Expr := .mk 19 .kernel .void [buffer 3] (.kernel body []) .none

def sink : Expr := .mk 21 .sink .void [write 20 1 kernel, loose] .none .none

def nodes : List Expr := [sink, write 20 1 kernel, kernel, loose, bound 9 (value 8 3),
  bound 17 (value 16 4), value 8 3, value 16 4, i, buffer 3, buffer 1, device, unique 3, unique 1]

theorem nodes_closed : ∀ y ∈ nodes, ∀ x ∈ y.src, x ∈ nodes := by
  simp [nodes, sink, Shared.write, kernel, loose, bound, value, i, buffer, unique, Shared.device,
    src]

theorem sink_kernelized : Kernelized sink := by
  have hall : ∀ u ∈ nodes, u.op = .store → ∃ k, u.src[1]? = some k ∧ k.op = .kernel := by
    simp [nodes, sink, Shared.write, kernel, loose, bound, value, i, buffer, unique, Shared.device,
      src, op]
  exact fun u hu => hall u (hu.mem_of_closed nodes_closed (by simp [nodes]))

/-- Two kernels are in the graph and one is in the schedule; its first bind is not in the values. -/
theorem binding_and_kernel_left_out : sink.Distinct ∧ Kernelized sink ∧
    sink.Reaches loose ∧ loose.op = .kernel ∧ sink.Reaches kernel ∧ kernel.op = .kernel ∧
    ∃ sch t, ofGraph sink env {} = .ok sch t ∧ sch.tasks.length = 1 ∧
      ∃ b ∈ kernel.src, Binds b i 3 ∧ (i, 3) ∉ sch.values := by
  have hd : sink.Distinct := distinct_of_listed nodes (by simp [nodes]) nodes_closed (by decide)
  obtain ⟨sch, t, hrun, hlen, hvalues⟩ :=
    exists_of_outcome (show outcome sink = some (1, [4]) by cbv)
  refine ⟨hd, sink_kernelized, .single (.tail _ (.head _)), rfl,
    .of_src (.head _) (.single (.tail _ (.head _))), rfl, sch, t, hrun, hlen,
    bound 9 (value 8 3), .tail _ (.head _), binds_bound 9 8 3, fun hmem => ?_⟩
  have hthree : (3 : Int) ∈ sch.values.map (·.2) := List.mem_map_of_mem hmem
  simp [hvalues] at hthree

end Twice

end Schedule

end LazyTensor
