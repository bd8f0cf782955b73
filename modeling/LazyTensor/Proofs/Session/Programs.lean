import LazyTensor.Proofs.Graph.Walk
import LazyTensor.Session.Run

/-!
# Programs made before

A session makes a program once for every kernel, kind of device and three of the settings, and
answers later requests with it.  So after any history of requests, failed ones included, the answer
to a request is a program that was made for it or for an earlier request that looks the same: with
the same digest of the kernel, a device of the same kind, and the same values of the three settings.
The other settings may have been different when it was made.

## Main results

* `Session.program_of_history`: the program that answers a request after a history of others.
-/

namespace LazyTensor

/-- A request for a program, in any state of the store. -/
structure KernelRequest where
  store : Store
  device : String
  kernel : Expr

namespace KernelRequest

variable (env : Env)

/-- A request that a key stands for. -/
structure Keyed (r : KernelRequest) (key : ProgramKey) : Prop where
  digest : ∃ t, r.kernel.key env r.store = .ok key.digest t
  device : (Device.parts r.device).1 = (Device.parts key.device).1
  settings : [.beam, .noopt, .devectorize].map r.store.settings.get = key.settings

/-- A program is made for a request, under the settings of the request. -/
def Makes (r : KernelRequest) (p : Program) : Prop :=
  ∃ digest s kind t, r.kernel.key env r.store = .ok digest s ∧ s.settings = r.store.settings ∧
    Device.open? r.device = .ok kind ∧ Program.ofKernel kind.target r.kernel env s = .ok p t

/-- Requests that no key tells apart. -/
def Alike (q r : KernelRequest) : Prop := ∃ key, q.Keyed env key ∧ r.Keyed env key

def ask (r : KernelRequest) : SessionM (ProgramKey × Runner) := do
  modify fun s => { s with store := r.store }
  Session.programFor r.device r.kernel

end KernelRequest

namespace Session

/-! ## What a computation in a session leaves -/

section Leaves

variable {α β : Type} {env : Env} {s : Session} {I : Session → Prop}

/-- A result, with the session it leaves, has a property; after a failure the session has another. -/
structure Leaves (env : Env) (s : Session) (x : SessionM α) (I : Session → Prop)
    (Q : α → Session → Prop) : Prop where
  ok : ∀ a t, x env s = .ok a t → Q a t
  failed : ∀ f t, x env s = .error f t → I t

namespace Leaves

variable {x : SessionM α} {Q : α → Session → Prop} {a : α} {t : Session}

theorem of_ok (hx : x env s = .ok a t) (h : Q a t) : Leaves env s x I Q := by
  refine ⟨fun b u hu => ?_, fun f u hu => ?_⟩ <;> rw [hx] at hu <;> cases hu
  exact h

theorem of_failed {f : Failure} (hx : x env s = .error f t) (h : I t) : Leaves env s x I Q := by
  refine ⟨fun b u hu => ?_, fun f u hu => ?_⟩ <;> rw [hx] at hu <;> cases hu
  exact h

theorem pure (h : Q a s) : Leaves env s (pure a) I Q := of_ok rfl h

theorem get {Q : Session → Session → Prop} (h : Q s s) : Leaves env s (get : SessionM Session) I Q :=
  of_ok rfl h

theorem modify {f : Session → Session} {Q : PUnit → Session → Prop} (h : Q ⟨⟩ (f s)) :
    Leaves env s (modify f : SessionM PUnit) I Q :=
  of_ok rfl h

theorem bind {f : α → SessionM β} {Q : β → Session → Prop}
    (h : Leaves env s x I fun a t => Leaves env t (f a) I Q) : Leaves env s (x >>= f) I Q := by
  have run : (x >>= f) env s = EStateM.bind (x env) (fun a => f a env) s := rfl
  rw [EStateM.bind] at run
  cases hx : x env s with
  | ok a t =>
    rw [hx] at run
    have next := h.ok a t hx
    exact ⟨fun b u hu => next.ok b u (run.symm.trans hu),
      fun e u hu => next.failed e u (run.symm.trans hu)⟩
  | error e t =>
    rw [hx] at run
    exact of_failed run (h.failed e t hx)

/-- A computation on graphs changes the store alone. -/
theorem ofGraph {x : GraphM α} (hI : ∀ t, t.programs = s.programs → I t)
    (hQ : ∀ a t, x env s.store = .ok a t.store → t.programs = s.programs → Q a t) :
    Leaves env s (liftM x : SessionM α) I Q := by
  cases hx : x env s.store with
  | ok a store =>
    refine of_ok (t := { s with store }) ?_ (hQ a _ hx rfl)
    simp only [liftM, monadLift, MonadLift.monadLift, hx]
  | error f store =>
    refine of_failed (f := f) (t := { s with store }) ?_ (hI _ rfl)
    simp only [liftM, monadLift, MonadLift.monadLift, hx]

theorem ofExcept {x : Except Failure α} (hI : I s) (hQ : ∀ a, x = .ok a → Q a s) :
    Leaves env s (liftM x : SessionM α) I Q := by
  cases x with
  | ok a => exact of_ok rfl (hQ a rfl)
  | error f => exact of_failed rfl hI

end Leaves

end Leaves

/-! ## The programs of a session -/

variable {env : Env} {s : Session} {past : List KernelRequest} {r : KernelRequest}

/-- The program of a runner was made for one of some requests, and a key stands for that request. -/
def MadeFor (env : Env) (past : List KernelRequest) (key : ProgramKey) (runner : Runner) : Prop :=
  ∃ p, runner.program? = some p ∧ ∃ q ∈ past, q.Keyed env key ∧ q.Makes env p

/-- Every program was made for a request that its key stands for. -/
def Cached (env : Env) (past : List KernelRequest) (s : Session) : Prop :=
  ∀ key runner, s.programs[key]? = some runner → MadeFor env past key runner

theorem Cached.insert {t : Session} {key : ProgramKey} {runner : Runner} (h : Cached env past s)
    (hr : MadeFor env past key runner) (ht : t.programs = s.programs.insert key runner) :
    Cached env past t := by
  intro k r hk
  rw [ht, Std.HashMap.getElem?_insert] at hk
  split at hk
  · obtain rfl : key = k := by simpa using ‹(key == k) = true›
    cases hk
    exact hr
  · exact h k r hk

theorem parts_parts (name : String) :
    (Device.parts (Device.parts name).1).1 = (Device.parts name).1 := by
  simp [Device.parts, List.takeWhile_takeWhile]

/-- The key of a device stands for the same requests as that of all devices of its kind. -/
theorem madeFor_common {key : ProgramKey} {runner : Runner} :
    MadeFor env past { key with device := (Device.parts key.device).1, shared := true } runner ↔
      MadeFor env past key runner := by
  have same (q : KernelRequest) :
      q.Keyed env { key with device := (Device.parts key.device).1, shared := true } ↔
        q.Keyed env key := by
    constructor <;> rintro ⟨hk, hd, hs⟩ <;> exact ⟨hk, by rw [hd, parts_parts], hs⟩
  simp only [MadeFor, same]

/-- Finding a digest leaves the settings alone. -/
theorem key_settings (e : Expr) (s : Store) :
    GraphM.Ensures True env s e.key fun _ t => t.settings = s.settings := by
  induction e using Expr.src_induction generalizing s with
  | _ e ih =>
    cases e with
    | mk number op d src arg tag =>
      rw [Expr.key]
      refine .bind (GraphM.Ensures.get_iff.mpr ?_)
      split
      · exact .pure rfl
      · refine .bind (.mapM (fun _ _ t => t.settings = s.settings) rfl ?_ ?_)
        · intro a _ _ t ht
          exact (ih a.1 a.2 t).mono fun _ _ h => h.trans ht
        · intro _ t ht
          exact .bind (GraphM.Ensures.modify_iff.mpr (.pure ht))

theorem programKey_leaves {I : Session → Prop} {Q : ProgramKey → Session → Prop}
    (hI : ∀ t, t.programs = s.programs → I t)
    (hQ : ∀ key t, r.Keyed env key → key.device = r.device →
      r.kernel.key env r.store = .ok key.digest t.store → t.programs = s.programs → Q key t)
    (hs : s.store = r.store) : Leaves env s (programKey r.device r.kernel) I Q := by
  refine .bind (.ofGraph hI fun digest t hdigest ht => ?_)
  rw [hs] at hdigest
  have hsettings := (key_settings r.kernel r.store).of_ok hdigest
  have hread : programSettings env t =
      .ok ([.beam, .noopt, .devectorize].map t.store.settings.get) t := rfl
  refine .bind (.of_ok hread (.pure (hQ _ t ⟨⟨_, hdigest⟩, rfl, ?_⟩ rfl hdigest ht)))
  rw [hsettings]

theorem runnerOf_leaves {p : Program} {device : String} {I : Session → Prop}
    {Q : Runner → Session → Prop} (hI : ∀ t, t.programs = s.programs → I t)
    (hQ : ∀ runner t, runner.program? = some p → t.programs = s.programs → Q runner t) :
    Leaves env s (runnerOf p device) I Q :=
  .bind (.ofGraph hI fun _ t _ ht => .pure (hQ _ t rfl ht))

/-- A request keeps the programs as they should be, and is answered with one of them. -/
theorem ask_cached (h : Cached env past s) (hr : r ∈ past) :
    Leaves env s r.ask (Cached env past) fun a t =>
      Cached env past t ∧ r.Keyed env a.1 ∧ MadeFor env past a.1 a.2 := by
  have keep : ∀ t, t.programs = s.programs → Cached env past t := by
    intro t ht key runner hk
    exact h key runner (ht ▸ hk)
  refine .bind (.modify (.bind (programKey_leaves keep ?_ rfl)))
  intro key t hkey hdevice hdigest ht
  refine .bind (.get ?_)
  split
  · rename_i runner hfound
    rw [ht] at hfound
    exact .pure ⟨keep t ht, hkey, h key runner hfound⟩
  refine .bind (.get ?_)
  rw [← hdevice]
  split
  · -- a program made for another device of the kind gets a runner of its own
    rename_i p hfound
    obtain ⟨shared, hshared, hp⟩ := Option.bind_eq_some_iff.mp hfound
    rw [ht] at hshared
    obtain ⟨p', hp', hmade⟩ := madeFor_common.mp (h _ shared hshared)
    obtain rfl : p' = p := Option.some.inj (hp'.symm.trans hp)
    refine .bind (runnerOf_leaves (fun u hu => keep u (hu.trans ht)) fun runner u hrun hu => ?_)
    have hanswer : MadeFor env past key runner := ⟨p', hrun, hmade⟩
    exact .bind (.modify (.pure ⟨(keep u (hu.trans ht)).insert hanswer rfl, hkey, hanswer⟩))
  · refine .bind (.ofExcept (keep t ht) fun kind hkind => ?_)
    refine .bind (.ofGraph (fun u hu => keep u (hu.trans ht)) fun p u hp hu => ?_)
    have hsettings := (key_settings r.kernel r.store).of_ok hdigest
    have hut := hu.trans ht
    refine .bind (runnerOf_leaves (fun v hv => keep v (hv.trans hut)) fun runner v hrun hv => ?_)
    have hanswer : MadeFor env past key runner := ⟨p, hrun, r, hr, hkey, key.digest, t.store, kind,
      u.store, hdigest, hsettings, hdevice ▸ hkind, hp⟩
    have hone : Cached env past { v with programs := v.programs.insert key runner } :=
      (keep v (hv.trans hut)).insert hanswer rfl
    exact .bind (.modify (.pure ⟨hone.insert (madeFor_common.mpr hanswer) rfl, hkey, hanswer⟩))

def afterAll (env : Env) (s : Session) (rs : List KernelRequest) : Session :=
  rs.foldl (fun s r => (Session.run r.ask env s).2) s

theorem afterAll_cached (h : Cached env past s) {rs : List KernelRequest} (hsub : rs ⊆ past) :
    Cached env past (s.afterAll env rs) := by
  induction rs generalizing s with
  | nil => exact h
  | cons r rs ih =>
    have hstep := ask_cached h (hsub List.mem_cons_self)
    have hnext : Cached env past (Session.run r.ask env s).2 := by
      unfold Session.run
      split
      · exact (hstep.ok _ _ ‹_›).1
      · exact hstep.failed _ _ ‹_›
    exact ih hnext (List.subset_of_cons_subset hsub)

/-- **The program that answers a request.**  After any history of requests, a request that is
answered gets a program that was made for it or for a request of the history that no key tells from
it, under the settings of that request. -/
theorem program_of_history (env : Env) (s : Session) (rs : List KernelRequest) (r : KernelRequest) :
    match (Session.run r.ask env (afterAll env { s with programs := {} } rs)).1 with
    | .ok (_, runner) =>
      ∃ p, runner.program? = some p ∧ ∃ q ∈ rs ++ [r], q.Alike env r ∧ q.Makes env p
    | .error _ => True := by
  have hempty : Cached env (rs ++ [r]) { s with programs := {} } := by
    intro key runner hk
    simp at hk
  have hcached := afterAll_cached hempty (List.subset_append_left rs [r])
  have hstep := ask_cached hcached (List.mem_append_right rs List.mem_cons_self)
  unfold Session.run
  cases hrun : r.ask env (afterAll env { s with programs := {} } rs) with
  | ok a t =>
    obtain ⟨-, hkey, p, hp, q, hq, hqkey, hmade⟩ := hstep.ok a t hrun
    exact ⟨p, hp, q, hq, ⟨a.1, hqkey, hkey⟩, hmade⟩
  | error f t => trivial

end Session

end LazyTensor
