import Pobicos.Middleware.RuntimeSWTimers

/-!
# Pobicos.Middleware.Punctuality

When the runtime timers fire, over whole runs.

The middleware runs on one thread: a task, an event of the hardware timer or
a command at a time, and while `fired` is being signalled only commands.  A
label carries the true time, which never goes back; its 32-bit reading may
wrap any number of times in between.

What an application can hold a timer to is the history of its starts and
firings (`latest`).  The invariant `Tracked` relates it to the table: the `t0`
of a running timer is a reading of its start, advanced by a period for every
firing since, and that time has come.  So an elapsed time that a modular
comparison takes for long enough is long enough (`due_true_time`).
-/

namespace Pobicos.Middleware

open RuntimeSWTimers

/-! ## Runs -/

/-- A command of `PoRuntimeSWTimersI`, with what its pointer argument points
to. -/
inductive Call
  | createTimer (id : TimerId)
  | destroyTimer (id : TimerId)
  | startOneShot (id : TimerId) (timeout : BitVec 32)
  | startPeriodic (id : TimerId) (timeout : BitVec 32)
  | getNow
  | getTimeLeft (id : TimerId) (remaining : BitVec 32)

/-- The module on its thread: whether `fired` is being signalled, and the true
time of the latest label. -/
structure Runtime where
  timers : RuntimeSWTimers
  signalling : Bool
  clock : Nat

inductive Action
  | call (c : Call) (t : Nat)
  | handled (t : Nat)
  | task (t : Nat)
  | hardware (t : Nat)

/-- What happens to a timer: it is started, or `fired` is signalled for it. -/
inductive Event
  | started (id : TimerId) (isoneshot : Bool) (timeout : BitVec 32) (t : Nat)
  | fired (id : TimerId) (t : Nat)
  deriving DecidableEq, Repr

/-- The command when `getNow()` is `now`. -/
def Call.run (s : RuntimeSWTimers) (now : BitVec 32) : Call → RuntimeSWTimers
  | .createTimer id => (s.createTimer id).2.2
  | .destroyTimer id => (s.destroyTimer id).2
  | .startOneShot id timeout => (s.startOneShot id timeout now).2
  | .startPeriodic id timeout => (s.startPeriodic id timeout now).2
  | .getNow => s
  | .getTimeLeft _ _ => s

/-- The start a command makes at the true time `t`. -/
def Call.starts (s : RuntimeSWTimers) (t : Nat) : Call → List Event
  | .startOneShot id timeout =>
      if (s.startOneShot id timeout (reading t)).1 = .success then [.started id true timeout t] else []
  | .startPeriodic id timeout =>
      if (s.startPeriodic id timeout (reading t)).1 = .success then [.started id false timeout t] else []
  | _ => []

theorem Call.starts_cases (c : Call) (s : RuntimeSWTimers) (t : Nat) :
    c.starts s t = [] ∨ ∃ id b timeout, c.starts s t = [.started id b timeout t] := by
  cases c with
  | startOneShot id timeout =>
      rw [Call.starts]
      split
      · exact Or.inr ⟨id, true, timeout, rfl⟩
      · exact Or.inl rfl
  | startPeriodic id timeout =>
      rw [Call.starts]
      split
      · exact Or.inr ⟨id, false, timeout, rfl⟩
      · exact Or.inl rfl
  | createTimer id => exact Or.inl rfl
  | destroyTimer id => exact Or.inl rfl
  | getNow => exact Or.inl rfl
  | getTimeLeft id remaining => exact Or.inl rfl

namespace Runtime

/-- After `Init.init()` on any memory, with an empty task queue. -/
def boot (timers : TimerId → RTimer) (t : Nat) : Runtime where
  timers := init ⟨timers, false, none⟩
  signalling := false
  clock := t

/-- The module has come to the signal of `fired`, or to an end without one. -/
def after (t : Nat) (r : Option TimerId × RuntimeSWTimers) : Runtime where
  timers := r.2
  signalling := r.1.isSome
  clock := t

/-- One step.  When the handler of `fired` returns, the task is posted. -/
def step (σ : Runtime) : Action → Option Runtime
  | .call c t =>
      if σ.clock ≤ t then some { σ with timers := c.run σ.timers (reading t), clock := t } else none
  | .handled t =>
      if σ.clock ≤ t ∧ σ.signalling then some ⟨σ.timers.post, false, t⟩ else none
  | .task t =>
      if σ.clock ≤ t ∧ !σ.signalling ∧ σ.timers.posted then
        some (after t (σ.timers.updateFromTimer (reading t)))
      else none
  | .hardware t =>
      if σ.clock ≤ t ∧ !σ.signalling then some (after t (σ.timers.fired (reading t))) else none

/-- The starts and firings of a step.  A firing counts from the reading of the
clock it rests on, before the handler runs. -/
def events (σ : Runtime) : Action → List Event
  | .call c t => c.starts σ.timers t
  | .handled _ => []
  | .task t => ((σ.timers.updateFromTimer (reading t)).1.map fun id => Event.fired id t).toList
  | .hardware t => ((σ.timers.fired (reading t)).1.map fun id => Event.fired id t).toList

end Runtime

/-! ## What an application can hold a timer to -/

/-- The latest start of a timer and how often it has fired since. -/
structure Start where
  isoneshot : Bool
  timeout : BitVec 32
  began : Nat
  firings : Nat
  deriving DecidableEq, Repr

/-- The latest start of `id` after one more event. -/
def record (id : TimerId) (st : Option Start) : Event → Option Start
  | .started i isoneshot timeout t => if i = id then some ⟨isoneshot, timeout, t, 0⟩ else st
  | .fired i _ => if i = id then st.map fun st => { st with firings := st.firings + 1 } else st

/-- The latest start of `id` in a history. -/
def latest (id : TimerId) (es : List Event) : Option Start := es.foldl (record id) none

/-- A one-shot timer fires for the first time since its start, its timeout
later or after that; a periodic timer fires for the `k`-th time `k` periods
later or after that. -/
def Start.Allows (st : Start) (t : Nat) : Prop :=
  if st.isoneshot then st.firings = 0 ∧ st.began + st.timeout.toNat ≤ t
  else st.began + (st.firings + 1) * st.timeout.toNat ≤ t

/-- After the history `es`, the event `e` is on time. -/
def OnTime (es : List Event) : Event → Prop
  | .started .. => True
  | .fired id t => ∃ st, latest id es = some st ∧ st.Allows t

/-- Every event of the history was on time when it happened. -/
def Punctual (es : List Event) : Prop :=
  ∀ pre e post, es = pre ++ e :: post → OnTime pre e

theorem latest_append (id : TimerId) (es fs : List Event) :
    latest id (es ++ fs) = fs.foldl (record id) (latest id es) := List.foldl_append ..

theorem record_fired_of_ne {id i : TimerId} (h : i ≠ id) (st : Option Start) (t : Nat) :
    record id st (.fired i t) = st := if_neg h

/-- A history stays punctual with one more event on time. -/
theorem Punctual.concat {es : List Event} {e : Event} (h : Punctual es) (he : OnTime es e) :
    Punctual (es ++ [e]) := Lts.Each.concat h he

theorem punctual_nil : Punctual [] := Lts.each_nil

/-! ## The table and the history -/

/-- The timer `tm`, at the true time `clock`, is what has become of the start
`st`: its `t0` is a reading of the start advanced by the periods that have
passed. -/
structure Follows (tm : RTimer) (st : Start) (clock : Nat) : Prop where
  isoneshot : tm.isoneshot = st.isoneshot
  dt : tm.dt = st.timeout
  t0 : tm.t0 = reading (st.began + st.firings * st.timeout.toNat)
  passed : st.began + st.firings * st.timeout.toNat ≤ clock
  once : st.isoneshot = true → st.firings = 0

/-- Every running timer follows its latest start. -/
def Tracked (σ : Runtime) (es : List Event) : Prop :=
  ∀ i ∈ nums, (σ.timers.timers i).isrunning = true →
    ∃ st, latest i es = some st ∧ Follows (σ.timers.timers i) st σ.clock

theorem Follows.carries {tm tm' : RTimer} {st : Start} {t : Nat} (h : Follows tm st t)
    (hsame : tm'.t0 = tm.t0 ∧ tm'.dt = tm.dt ∧ tm'.isoneshot = tm.isoneshot) : Follows tm' st t := by
  obtain ⟨ht0, hdt, hone⟩ := hsame
  exact ⟨hone.trans h.isoneshot, hdt.trans h.dt, ht0.trans h.t0, h.passed, h.once⟩

theorem Follows.later {tm : RTimer} {st : Start} {c t : Nat} (h : Follows tm st c) (hct : c ≤ t) :
    Follows tm st t := ⟨h.isoneshot, h.dt, h.t0, Nat.le_trans h.passed hct, h.once⟩

/-- **Modular and true time**: an elapsed time that the comparison of 32-bit
readings takes for long enough is long enough, however often they wrapped. -/
theorem due_true_time {tm : RTimer} {st : Start} {t : Nat} (h : Follows tm st t)
    (hdue : due (reading t) tm = true) :
    st.began + (st.firings + 1) * st.timeout.toNat ≤ t := by
  have hpassed := h.passed
  have hmod : (reading t - tm.t0).toNat ≤ t - (st.began + st.firings * st.timeout.toNat) := by
    rw [h.t0, reading, reading, BitVec.toNat_sub, BitVec.toNat_ofNat, BitVec.toNat_ofNat]
    omega
  unfold due at hdue
  rw [Bool.and_eq_true, BitVec.ule, decide_eq_true_iff, h.dt] at hdue
  rw [Nat.succ_mul]
  omega

/-- A timer that has just been started. -/
theorem follows_start (tm : RTimer) (b : Bool) (timeout : BitVec 32) (t : Nat) :
    Follows { tm with t0 := reading t, dt := timeout, isoneshot := b, isrunning := true }
      ⟨b, timeout, t, 0⟩ t where
  isoneshot := rfl
  dt := rfl
  t0 := by simp
  passed := by simp
  once _ := rfl

/-- A periodic timer that has just fired. -/
theorem Follows.advance {tm : RTimer} {st : Start} {t : Nat} (h : Follows tm st t)
    (hdue : due (reading t) tm = true) (hrun : (RTimer.advance tm).isrunning = true) :
    Follows (RTimer.advance tm) { st with firings := st.firings + 1 } t := by
  have htime := due_true_time h hdue
  unfold RTimer.advance at hrun ⊢
  split at hrun
  · cases hrun
  · next hperiodic =>
    have hst : st.isoneshot = false := by simpa [h.isoneshot] using hperiodic
    rw [if_neg hperiodic]
    refine ⟨h.isoneshot, h.dt, ?_, htime, fun hone => ?_⟩
    · show tm.t0 + tm.dt = _
      rw [h.t0, h.dt, Nat.succ_mul, ← Nat.add_assoc]
      simp only [reading_add, reading_toNat]
    · rw [hst] at hone
      cases hone

/-! ## One step -/

variable {σ τ : Runtime} {es : List Event}

/-- **A command** starts a timer or leaves the running ones as they are. -/
theorem Tracked.call (h : Tracked σ es) (c : Call) {t : Nat} (ht : σ.clock ≤ t) :
    Tracked { σ with timers := c.run σ.timers (reading t), clock := t } (es ++ c.starts σ.timers t) := by
  intro i hi hrun
  rw [latest_append]
  have hstart : ∀ b id timeout,
      let r := start b σ.timers id timeout (reading t)
      (r.2.timers i).isrunning = true → ∃ st,
        (if r.1 = .success then [Event.started id b timeout t] else []).foldl (record i) (latest i es) =
          some st ∧ Follows (r.2.timers i) st t := by
    intro b id timeout r hrun
    obtain ⟨rfl, hok, hslot⟩ | ⟨hfail, hslot⟩ := start_timers b σ.timers id timeout (reading t) i
    · refine ⟨⟨b, timeout, t, 0⟩, ?_, ?_⟩
      · simp only [r, hok, if_true, List.foldl_cons, List.foldl_nil, record]
      · simp only [r, hslot]
        exact follows_start _ b timeout t
    · simp only [r, hslot] at hrun ⊢
      obtain ⟨st, hst, hfol⟩ := h i hi hrun
      refine ⟨st, ?_, hfol.later ht⟩
      split
      · next hok =>
        have hne : id ≠ i := by
          rintro rfl
          rw [hfail rfl] at hok
          cases hok
        simp only [List.foldl_cons, List.foldl_nil, record, if_neg hne, hst]
      · exact hst
  -- the timers a command does not start
  have hquiet : ∀ s' : RuntimeSWTimers, Carries (σ.timers.timers i) (s'.timers i) →
      (s'.timers i).isrunning = true → ∃ st, latest i es = some st ∧ Follows (s'.timers i) st t := by
    intro s' hcarries hrun
    obtain ⟨hwas, hsame⟩ := hcarries hrun
    obtain ⟨st, hst, hfol⟩ := h i hi hwas
    exact ⟨st, hst, (hfol.later ht).carries hsame⟩
  cases c with
  | createTimer id => exact hquiet _ (createTimer_carries σ.timers id i) hrun
  | destroyTimer id => exact hquiet _ (destroyTimer_carries σ.timers id i) hrun
  | startOneShot id timeout => exact hstart true id timeout hrun
  | startPeriodic id timeout => exact hstart false id timeout hrun
  | getNow => exact hquiet _ (.refl _) hrun
  | getTimeLeft id remaining => exact hquiet _ (.refl _) hrun

/-- **A firing** is on time, and the timer follows its start with one firing
more. -/
theorem Tracked.fires (h : Tracked σ es) {t : Nat} (ht : σ.clock ≤ t)
    {r : Option TimerId × RuntimeSWTimers} (hr : Fires σ.timers.timers (reading t) r) :
    Tracked (.after t r) (es ++ (r.1.map fun id => Event.fired id t).toList) ∧
      ∀ id, r.1 = some id → OnTime es (.fired id t) := by
  obtain ⟨hnone, hsame⟩ | ⟨num, hnum, hdue, hsome, hset⟩ := hr
  · rw [hnone]
    refine ⟨fun i hi hrun => ?_, fun id hid => (nomatch hid)⟩
    simp only [Runtime.after, hsame] at hrun ⊢
    obtain ⟨st, hst, hfol⟩ := h i hi hrun
    exact ⟨st, by simpa using hst, hfol.later ht⟩
  · have hrunning : (σ.timers.timers num).isrunning = true := by
      unfold due at hdue
      rw [Bool.and_eq_true] at hdue
      exact hdue.1
    obtain ⟨st, hst, hfol⟩ := h num hnum hrunning
    have htime := due_true_time (hfol.later ht) hdue
    rw [hsome]
    constructor
    · intro i hi hrun
      simp only [Runtime.after, hset] at hrun ⊢
      rw [latest_append]
      simp only [Option.map_some, Option.toList_some, List.foldl_cons, List.foldl_nil]
      by_cases hin : i = num
      · cases hin
        rw [Function.update_self] at hrun ⊢
        refine ⟨{ st with firings := st.firings + 1 }, ?_, (hfol.later ht).advance hdue hrun⟩
        rw [record, if_pos rfl, hst, Option.map_some]
      · rw [Function.update_of_ne hin] at hrun ⊢
        rw [record_fired_of_ne (Ne.symm hin)]
        obtain ⟨st', hst', hfol'⟩ := h i hi hrun
        exact ⟨st', hst', hfol'.later ht⟩
    · intro id hid
      cases hid
      refine ⟨st, hst, ?_⟩
      unfold Start.Allows
      split
      · next hone =>
        have hzero := hfol.once hone
        rw [hzero, Nat.zero_add, Nat.one_mul] at htime
        exact ⟨hzero, htime⟩
      · exact htime

/-- **One step** keeps the table and the history together, and adds nothing to
the history that is not on time. -/
theorem tracked_step {a : Action} (h : Tracked σ es) (hes : Punctual es)
    (hst : Runtime.step σ a = some τ) :
    Tracked τ (es ++ σ.events a) ∧ Punctual (es ++ σ.events a) := by
  have hfires : ∀ {t : Nat} {r : Option TimerId × RuntimeSWTimers}, σ.clock ≤ t →
      Fires σ.timers.timers (reading t) r →
      Tracked (.after t r) (es ++ (r.1.map fun id => Event.fired id t).toList) ∧
        Punctual (es ++ (r.1.map fun id => Event.fired id t).toList) := by
    intro t r ht hr
    obtain ⟨htracked, htime⟩ := h.fires ht hr
    refine ⟨htracked, ?_⟩
    cases hid : r.1 with
    | none => simpa using hes
    | some id => exact hes.concat (htime id hid)
  cases a with
  | call c t =>
      simp only [Runtime.step, Option.ite_none_right_eq_some, Option.some.injEq] at hst
      obtain ⟨ht, rfl⟩ := hst
      refine ⟨h.call c ht, ?_⟩
      obtain hnone | ⟨id, b, timeout, hone⟩ := c.starts_cases σ.timers t
      · rw [Runtime.events, hnone, List.append_nil]
        exact hes
      · rw [Runtime.events, hone]
        exact hes.concat trivial
  | handled t =>
      simp only [Runtime.step, Option.ite_none_right_eq_some, Option.some.injEq] at hst
      obtain ⟨⟨ht, -⟩, rfl⟩ := hst
      have hnone : es ++ σ.events (.handled t) = es := List.append_nil es
      rw [hnone]
      refine ⟨fun i hi hrun => ?_, hes⟩
      obtain ⟨st, hst, hfol⟩ := h i hi hrun
      exact ⟨st, hst, hfol.later ht⟩
  | task t =>
      simp only [Runtime.step, Option.ite_none_right_eq_some, Option.some.injEq] at hst
      obtain ⟨⟨ht, -⟩, rfl⟩ := hst
      exact hfires ht (updateFromTimer_fires σ.timers (reading t))
  | hardware t =>
      simp only [Runtime.step, Option.ite_none_right_eq_some, Option.some.injEq] at hst
      obtain ⟨⟨ht, -⟩, rfl⟩ := hst
      exact hfires ht (fired_fires σ.timers (reading t))

/-! ## Whole runs -/

/-- After `Init.init()` no timer runs. -/
theorem tracked_boot (timers : TimerId → RTimer) (t : Nat) : Tracked (.boot timers t) [] := by
  intro i hi hrun
  simp [Runtime.boot, init, hi] at hrun

/-- The table and the history after a run. -/
theorem tracked_of_run (timers : TimerId → RTimer) (t₀ : Nat) {as : List Action}
    (hrun : Lts.run Runtime.step (.boot timers t₀) as = some σ) :
    Tracked σ (Lts.trace Runtime.step Runtime.events (.boot timers t₀) as) ∧
      Punctual (Lts.trace Runtime.step Runtime.events (.boot timers t₀) as) :=
  Lts.trace_induct (P := fun σ es => Tracked σ es ∧ Punctual es)
    (fun _ _ _ _ hs _ hst => tracked_step hs.1 hs.2 hst) (Lts.along_true _ _)
    ⟨tracked_boot timers t₀, punctual_nil⟩ hrun

/-- **No early firing**: in every run from `Init.init()`, with calls at any
time, also from the handler of `fired`, every firing of a one-shot timer is the
first since its latest start and not before its timeout, and the `k`-th firing
of a periodic timer since then is not before `k` periods. -/
theorem no_early_firing (timers : TimerId → RTimer) (t₀ : Nat) {as : List Action}
    (hrun : Lts.run Runtime.step (.boot timers t₀) as = some σ) :
    Punctual (Lts.trace Runtime.step Runtime.events (.boot timers t₀) as) := by
  exact (tracked_of_run timers t₀ hrun).2

/-- A timer is created, started for 100 ms just before the reading wraps, and
fires after that. -/
def oneShotRun : List Action :=
  [.call (.createTimer 0) 0, .call (.startOneShot 0 100) 4294967290, .task 4294967291,
    .hardware 4294967390, .handled 4294967391]

/-- Nothing fires early there. -/
theorem no_early_firing_oneShot :
    Lts.trace Runtime.step Runtime.events (.boot (fun _ => ⟨0, 0, true, true, true⟩) 0) oneShotRun =
      [.started 0 true 100 4294967290, .fired 0 4294967390] ∧
    Punctual (Lts.trace Runtime.step Runtime.events (.boot (fun _ => ⟨0, 0, true, true, true⟩) 0)
      oneShotRun) := by
  have hrun : (Lts.run Runtime.step (.boot (fun _ => ⟨0, 0, true, true, true⟩) 0) oneShotRun).isSome =
      true := by
    decide +kernel
  obtain ⟨σ, hσ⟩ := Option.isSome_iff_exists.mp hrun
  exact ⟨by decide +kernel, no_early_firing _ 0 hσ⟩

end Pobicos.Middleware
