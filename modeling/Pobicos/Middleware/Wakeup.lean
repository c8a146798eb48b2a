import Pobicos.Middleware.Punctuality
import Mathlib.Algebra.Group.Nat.Defs

/-!
# Pobicos.Middleware.Wakeup

Whether the runtime timers are woken up, over whole runs.

Between its steps the module rests on the hardware timer: unless the task is
pending, it has to be armed for the next deadline.  The task stops it and arms
it again for the least time remaining, which it looks for below the greatest
signed number, so that a timer with exactly that time remaining is not found
(`updateFromTimer_idle`).  `awake_of_run` says that nothing else goes wrong.
-/

namespace Pobicos.Middleware

open RuntimeSWTimers

/-! ## The hardware timer -/

/-- What happens to the hardware timer at the true time `t`; it is armed from
the reading of that time. -/
inductive HwEvent
  | stop (t : Nat)
  | startOneShotAt (t : Nat) (dt : BitVec 32)
  | fired (t : Nat)
  deriving DecidableEq, Repr

/-- What a step does to the hardware timer. -/
def Runtime.hwEvents (σ : Runtime) : Action → List HwEvent
  | .call _ _ => []
  | .handled _ => []
  | .task t =>
      .stop t :: ((σ.timers.updateFromTimer (reading t)).2.armed.map fun start =>
        HwEvent.startOneShotAt t start.2).toList
  | .hardware t => [.fired t]

/-- The true time a timer has to be fired at next. -/
def Start.deadline (st : Start) : Nat := st.began + (st.firings + 1) * st.timeout.toNat

/-- Unless the task is pending, or is going to be posted after the handler of
`fired`, the last that has happened to the hardware timer is that it has been
armed, for no later than the deadline of any running timer. -/
def Awake (σ : Runtime) (es : List Event) (hw : List HwEvent) : Prop :=
  σ.signalling = false → σ.timers.posted = false →
    ∀ i ∈ nums, (σ.timers.timers i).isrunning = true →
      ∃ t dt, hw.getLast? = some (.startOneShotAt t dt) ∧
        ∃ st, latest i es = some st ∧ t + dt.toNat ≤ st.deadline

/-! ## The runs -/

def Action.time : Action → Nat
  | .call _ t => t
  | .handled t => t
  | .task t => t
  | .hardware t => t

/-- A timeout that the comment of `updateFromTimer` says is supported. -/
def Event.Supported : Event → Prop
  | .started _ _ timeout _ => timeout.toNat ≤ 2 ^ 31 - 1
  | .fired _ _ => True

/-- A step that starts no timer with a greater timeout than supported, at a time
when no deadline is overdue by `2 ^ 31`. -/
def Admitted (p : Runtime × List Event) (a : Action) : Prop :=
  (∀ e ∈ p.1.events a, e.Supported) ∧
    ∀ i ∈ nums, (p.1.timers.timers i).isrunning = true →
      ∀ st ∈ latest i p.2, a.time < st.deadline + 2 ^ 31

/-- The timer has the greatest timeout supported and all of it to go. -/
def Farthest (now : BitVec 32) (tm : RTimer) : Prop := tm.dt = 0x7FFFFFFF#32 ∧ tm.t0 = now

/-- The task does not run when every running timer is a farthest one. -/
def Wakes (σ : Runtime) : Action → Prop
  | .task t => (∃ i ∈ nums, (σ.timers.timers i).isrunning = true) →
      ∃ i ∈ nums, (σ.timers.timers i).isrunning = true ∧ ¬ Farthest (reading t) (σ.timers.timers i)
  | _ => True

instance : DecidablePred Event.Supported
  | .started _ _ timeout _ => inferInstanceAs (Decidable (timeout.toNat ≤ 2 ^ 31 - 1))
  | .fired _ _ => isTrue trivial

instance (p : Runtime × List Event) (a : Action) : Decidable (Admitted p a) :=
  @instDecidableAnd _ _ inferInstance (List.decidableBAll _ nums)

instance (now : BitVec 32) (tm : RTimer) : Decidable (Farthest now tm) :=
  inferInstanceAs (Decidable (_ ∧ _))

instance (σ : Runtime) : DecidablePred (Wakes σ)
  | .task _ => @instDecidableForall _ _ (List.decidableBEx _ nums) (List.decidableBEx _ nums)
  | .call _ _ => isTrue trivial
  | .handled _ => isTrue trivial
  | .hardware _ => isTrue trivial

variable {σ τ : Runtime} {es : List Event} {hw : List HwEvent} {a : Action}

/-! ## Times remaining -/

/-- Every start in the history had a timeout that is supported. -/
def Short (es : List Event) : Prop :=
  ∀ i st, latest i es = some st → st.timeout.toNat ≤ 2 ^ 31 - 1

theorem short_nil : Short [] := fun _ _ h => nomatch h

theorem Short.append {fs : List Event} (h : Short es) (hfs : ∀ e ∈ fs, e.Supported) :
    Short (es ++ fs) := by
  intro i
  rw [latest_append]
  have hnow := h i
  generalize latest i es = st at hnow
  clear h
  induction fs generalizing st with
  | nil => exact hnow
  | cons e fs ih =>
      rw [List.foldl_cons]
      refine ih (fun e he => hfs e (List.mem_cons_of_mem _ he)) _ fun st' hst' => ?_
      have hthis := hfs e List.mem_cons_self
      cases e with
      | started id b timeout t =>
          rw [record] at hst'
          split at hst'
          · cases hst'
            exact hthis
          · exact hnow st' hst'
      | fired id t =>
          rw [record] at hst'
          split at hst'
          · obtain ⟨st₀, hst₀, rfl⟩ := Option.map_eq_some_iff.mp hst'
            exact hnow st₀ hst₀
          · exact hnow st' hst'

theorem Start.deadline_eq (st : Start) :
    st.deadline = st.began + st.firings * st.timeout.toNat + st.timeout.toNat := by
  rw [Start.deadline, Nat.succ_mul, Nat.add_assoc]

/-- **The time elapsed** is the true one for as long as a reading can tell. -/
theorem Follows.elapsed_toNat {tm : RTimer} {st : Start} {t : Nat} (h : Follows tm st t)
    (hover : t < st.began + st.firings * st.timeout.toNat + 2 ^ 32) :
    (reading t - tm.t0).toNat = t - (st.began + st.firings * st.timeout.toNat) := by
  have hpassed := h.passed
  rw [h.t0, reading, reading, BitVec.toNat_sub, BitVec.toNat_ofNat, BitVec.toNat_ofNat]
  omega

/-- **The time remaining** is the time to the deadline, if the timeout is
supported and the deadline not overdue for too long. -/
theorem Follows.remaining_toInt {tm : RTimer} {st : Start} {t : Nat} (h : Follows tm st t)
    (hshort : st.timeout.toNat ≤ 2 ^ 31 - 1) (hover : t ≤ st.deadline + 2 ^ 31) :
    (remaining (reading t) tm).toInt = (st.deadline : Int) - t := by
  have hpassed := h.passed
  rw [st.deadline_eq] at hover ⊢
  have helapsed := h.elapsed_toNat (by omega)
  rw [remaining, BitVec.toInt_eq_toNat_cond, BitVec.toNat_sub, helapsed, h.dt]
  split <;> omega

/-- A timer with the greatest signed number remaining is a farthest one. -/
theorem Follows.farthest {tm : RTimer} {st : Start} {t : Nat} (h : Follows tm st t)
    (hshort : st.timeout.toNat ≤ 2 ^ 31 - 1) (hover : t < st.deadline + 2 ^ 31)
    (hrem : remaining (reading t) tm = 0x7FFFFFFF#32) : Farthest (reading t) tm := by
  have hint := h.remaining_toInt hshort (Nat.le_of_lt hover)
  have hpassed := h.passed
  have htop : (0x7FFFFFFF#32).toInt = 2147483647 := by decide
  rw [hrem, htop, Start.deadline, Nat.succ_mul] at hint
  have htime : st.began + st.firings * st.timeout.toNat = t := by omega
  refine ⟨?_, by rw [h.t0, htime]⟩
  apply BitVec.eq_of_toNat_eq
  rw [h.dt, BitVec.toNat_ofNat]
  omega

/-! ## One step -/

/-- A firing posts the task, at once or after the handler of the signal. -/
theorem fireTimers_posted (s : RuntimeSWTimers) (now : BitVec 32) (h : (s.fireTimers now).1 = none) :
    (s.fireTimers now).2.posted = true := by
  unfold fireTimers at h ⊢
  split at h
  · cases h
  · rfl

theorem awake_of_posted (h : σ.timers.posted = true) : Awake σ es hw := by
  intro _ hpost
  rw [h] at hpost
  cases hpost

/-- A firing leaves the module awake. -/
theorem awake_fireTimers (s : RuntimeSWTimers) (now : BitVec 32) (t : Nat) :
    Awake (.after t (s.fireTimers now)) es hw := by
  intro hquiet hpost
  have hnone : (s.fireTimers now).1 = none := by simpa [Runtime.after] using hquiet
  have hposted : (Runtime.after t (s.fireTimers now)).timers.posted = true :=
    fireTimers_posted s now hnone
  rw [hposted] at hpost
  cases hpost

/-- A command that does not post the task makes no timer run. -/
theorem Call.run_quiet (c : Call) (s : RuntimeSWTimers) (t : Nat) :
    (c.run s (reading t)).posted = true ∨
      c.starts s t = [] ∧ (c.run s (reading t)).posted = s.posted ∧
        ∀ i, Carries (s.timers i) ((c.run s (reading t)).timers i) := by
  have hstart : ∀ b id timeout, (start b s id timeout (reading t)).2.posted = true ∨
      (start b s id timeout (reading t)) = (.fail, s) := by
    intro b id timeout
    unfold start
    split
    · exact Or.inl rfl
    · exact Or.inr rfl
  cases c with
  | createTimer id =>
      refine Or.inr ⟨rfl, ?_, createTimer_carries s id⟩
      simp only [Call.run, RuntimeSWTimers.createTimer]
      split <;> rfl
  | destroyTimer id =>
      refine Or.inr ⟨rfl, ?_, destroyTimer_carries s id⟩
      simp only [Call.run, RuntimeSWTimers.destroyTimer]
      split
      · rfl
      · split <;> rfl
  | startOneShot id timeout =>
      refine (hstart true id timeout).imp_right fun hfail => ?_
      have hrun : s.startOneShot id timeout (reading t) = (.fail, s) := hfail
      rw [Call.run, Call.starts, hrun]
      exact ⟨rfl, rfl, fun _ => .refl _⟩
  | startPeriodic id timeout =>
      refine (hstart false id timeout).imp_right fun hfail => ?_
      have hrun : s.startPeriodic id timeout (reading t) = (.fail, s) := hfail
      rw [Call.run, Call.starts, hrun]
      exact ⟨rfl, rfl, fun _ => .refl _⟩
  | getNow => exact Or.inr ⟨rfl, rfl, fun _ => .refl _⟩
  | getTimeLeft id remaining => exact Or.inr ⟨rfl, rfl, fun _ => .refl _⟩

/-- **The task** arms the hardware timer for the next deadline, fires, or comes
back. -/
theorem awake_task {t : Nat} (htracked : Tracked σ es) (hshort : Short es)
    (hadm : Admitted (σ, es) (.task t)) (hwakes : Wakes σ (.task t)) (ht : σ.clock ≤ t) :
    Awake (.after t (σ.timers.updateFromTimer (reading t))) (es ++ σ.events (.task t))
      (hw ++ σ.hwEvents (.task t)) := by
  by_cases hex : ∃ i ∈ nums, exhausted (reading t) (σ.timers.timers i) = true
  · rw [updateFromTimer_exhausted hex]
    exact awake_fireTimers _ _ _
  · have hidle : ∀ i ∈ nums, exhausted (reading t) (σ.timers.timers i) = false := by simpa using hex
    obtain ⟨hnone, hsame, -, harm⟩ := updateFromTimer_idle hidle
    have hevents : es ++ σ.events (.task t) = es := by
      rw [Runtime.events, hnone]
      exact List.append_nil es
    rw [hevents]
    intro _ _ i hi hrun
    rw [Runtime.after, hsame] at hrun
    have hnear : ∀ i ∈ nums, (σ.timers.timers i).isrunning = true → ∃ st, latest i es = some st ∧
        Follows (σ.timers.timers i) st t ∧
        (remaining (reading t) (σ.timers.timers i)).toInt = (st.deadline : Int) - t := by
      intro i hi hrun
      obtain ⟨st, hst, hfol⟩ := htracked i hi hrun
      exact ⟨st, hst, hfol.later ht,
        (hfol.later ht).remaining_toInt (hshort i st hst) (Nat.le_of_lt (hadm.2 i hi hrun st hst))⟩
    obtain ⟨-, hall⟩ | ⟨j, hj, hjrun, hsome, hleast⟩ := harm
    · -- every running timer is a farthest one
      obtain ⟨k, hk, hkrun, hnot⟩ := hwakes ⟨i, hi, hrun⟩
      obtain ⟨st, hst, hfol, -⟩ := hnear k hk hkrun
      exact absurd (hfol.farthest (hshort k st hst) (hadm.2 k hk hkrun st hst) (hall k hk hkrun)) hnot
    · obtain ⟨st, hst, -, hint⟩ := hnear i hi hrun
      have hle := hleast i hi hrun
      have hpos := hidle j hj
      rw [exhausted, hjrun, Bool.true_and, BitVec.sle, decide_eq_false_iff_not] at hpos
      have hnat : ((remaining (reading t) (σ.timers.timers j)).toNat : Int) =
          (remaining (reading t) (σ.timers.timers j)).toInt := by
        have hzero : (0 : BitVec 32).toInt = 0 := by decide
        rw [BitVec.toInt_eq_toNat_cond] at hpos ⊢
        split at hpos <;> omega
      refine ⟨t, remaining (reading t) (σ.timers.timers j), ?_, st, hst, by omega⟩
      rw [Runtime.hwEvents, hsome]
      simp

/-- A search that comes upon nothing less finds what it has started with. -/
theorem foldl_closer_same {now : BitVec 32} {timers : TimerId → RTimer} {ids : List TimerId}
    {m : BitVec 32 × Bool}
    (h : ∀ i ∈ ids, (timers i).isrunning = true → (remaining now (timers i)).slt m.1 = false) :
    ids.foldl (closer now timers) m = m := by
  induction ids with
  | nil => rfl
  | cons i ids ih =>
      have hthis : closer now timers m i = m := by
        unfold closer
        split
        · next hrun => rw [if_neg (by simp [h i List.mem_cons_self hrun])]
        · rfl
      rw [List.foldl_cons, hthis, ih fun j hj => h j (List.mem_cons_of_mem _ hj)]

/-- **A task that finds only farthest timers** stops the hardware timer and
leaves it so. -/
theorem asleep_of_not_wakes {t : Nat} (h : ¬ Wakes σ (.task t)) (es : List Event) (hw : List HwEvent) :
    ¬ Awake (.after t (σ.timers.updateFromTimer (reading t))) es (hw ++ σ.hwEvents (.task t)) := by
  rw [Wakes, Classical.not_imp] at h
  obtain ⟨⟨i, hi, hrun⟩, hall⟩ := h
  have hfar : ∀ j ∈ nums, (σ.timers.timers j).isrunning = true →
      (remaining (reading t) (σ.timers.timers j)).slt 0x7FFFFFFF#32 = false := by
    intro j hj hjrun
    have hj' : Farthest (reading t) (σ.timers.timers j) := by
      by_contra hnot
      exact hall ⟨j, hj, hjrun, hnot⟩
    rw [remaining, hj'.1, hj'.2]
    simp
  have hsame : nums.foldl (closer (reading t) σ.timers.timers) (0x7FFFFFFF#32, false) =
      (0x7FFFFFFF#32, false) := foldl_closer_same hfar
  have hupdate : σ.timers.updateFromTimer (reading t) =
      (none, { σ.timers with posted := false, armed := none }) := by
    simp only [updateFromTimer, minRemaining_eq, hsame, Bool.false_eq_true, if_false]
  rw [Runtime.hwEvents, hupdate]
  intro hawake
  obtain ⟨t', dt, hlast, -⟩ := hawake rfl rfl i hi hrun
  simp at hlast

/-- **One step** keeps the module awake. -/
theorem awake_step (htracked : Tracked σ es) (hshort : Short es) (h : Awake σ es hw)
    (hadm : Admitted (σ, es) a) (hwakes : Wakes σ a) (hst : Runtime.step σ a = some τ) :
    Awake τ (es ++ σ.events a) (hw ++ σ.hwEvents a) := by
  cases a with
  | call c t =>
      simp only [Runtime.step, Option.ite_none_right_eq_some, Option.some.injEq] at hst
      obtain ⟨-, rfl⟩ := hst
      obtain hposted | ⟨hnone, hsame, hcarries⟩ := c.run_quiet σ.timers t
      · exact awake_of_posted hposted
      · rw [Runtime.events, hnone, List.append_nil, Runtime.hwEvents, List.append_nil]
        intro hquiet hpost i hi hrun
        exact h hquiet (hsame ▸ hpost) i hi (hcarries i hrun).1
  | handled t =>
      simp only [Runtime.step, Option.ite_none_right_eq_some, Option.some.injEq] at hst
      obtain ⟨-, rfl⟩ := hst
      exact awake_of_posted rfl
  | task t =>
      simp only [Runtime.step, Option.ite_none_right_eq_some, Option.some.injEq] at hst
      obtain ⟨⟨ht, -⟩, rfl⟩ := hst
      exact awake_task htracked hshort hadm hwakes ht
  | hardware t =>
      simp only [Runtime.step, Option.ite_none_right_eq_some, Option.some.injEq] at hst
      obtain ⟨-, rfl⟩ := hst
      exact awake_fireTimers _ _ _

/-! ## Whole runs -/

/-- What holds in every state with its history, when no step of the run has been
without a wake-up. -/
structure Rested (p : Runtime × List Event) (hw : List HwEvent) : Prop where
  tracked : Tracked p.1 p.2
  punctual : Punctual p.2
  short : Short p.2
  awake : Awake p.1 p.2 hw

theorem rested_boot (timers : TimerId → RTimer) (t : Nat) : Rested (.boot timers t, []) [] := by
  refine ⟨tracked_boot timers t, punctual_nil, short_nil, fun _ _ i hi hrun => ?_⟩
  simp [Runtime.boot, init, hi] at hrun

theorem rested_step {p q : Runtime × List Event} (h : Rested p hw) (hok : Admitted p a ∧ Wakes p.1 a)
    (hst : Lts.logged Runtime.step Runtime.events p a = some q) : Rested q (hw ++ p.1.hwEvents a) := by
  obtain ⟨hstep, hlog⟩ := Lts.logged_eq_some.mp hst
  obtain ⟨htracked, hpunctual⟩ := tracked_step h.tracked h.punctual hstep
  rw [hlog] at htracked hpunctual
  refine ⟨htracked, hpunctual, ?_, ?_⟩
  · rw [← hlog]
    exact h.short.append hok.1.1
  · rw [← hlog]
    exact awake_step h.tracked h.short h.awake hok.1 hok.2 hstep

/-- **No lost wake-up**: in every run from `Init.init()` with the timeouts that
are supported and no deadline overdue for too long, if the task never finds
only farthest timers, the hardware timer is armed for the next deadline
whenever the module rests and a timer is running. -/
theorem awake_of_run (timers : TimerId → RTimer) (t₀ : Nat) {as : List Action}
    (hok : Lts.Along (Lts.logged Runtime.step Runtime.events)
      (fun p a => Admitted p a ∧ Wakes p.1 a) (.boot timers t₀, []) as)
    (hrun : Lts.run Runtime.step (.boot timers t₀) as = some σ) :
    Awake σ (Lts.trace Runtime.step Runtime.events (.boot timers t₀) as)
      (Lts.trace Runtime.step Runtime.hwEvents (.boot timers t₀) as) := by
  have hall : Rested (σ, [] ++ Lts.trace Runtime.step Runtime.events (.boot timers t₀) as)
      ([] ++ Lts.trace (Lts.logged Runtime.step Runtime.events) (fun p a => Runtime.hwEvents p.1 a)
        (.boot timers t₀, []) as) :=
    Lts.trace_induct (fun _ _ _ _ h hok hst => rested_step h hok hst) hok (rested_boot timers t₀)
      (Lts.run_logged hrun)
  rw [Lts.trace_logged] at hall
  exact hall.awake

/-- A memory in which no timer has been created. -/
theorem boot_blank (tm : RTimer) (h : tm.iscreated = false ∧ tm.isrunning = false) (t : Nat) :
    Runtime.boot (fun _ => tm) t = ⟨⟨fun _ => tm, false, none⟩, false, t⟩ := by
  have hsame : { tm with iscreated := false, isrunning := false } = tm := by
    obtain ⟨hcreated, hrunning⟩ := h
    cases tm
    cases hcreated
    cases hrunning
    rfl
  simp only [Runtime.boot, init, hsame, ite_self]

/-- A timer of 100 ms, started just before the reading wraps: the hardware
timer is armed for it. -/
theorem awake_of_run_wake :
    let boot := Runtime.boot (fun _ => ⟨0, 0, false, true, false⟩) 0
    let as := [.call (.createTimer 0) 0, .call (.startOneShot 0 100) 4294967290, .task 4294967291]
    Lts.trace Runtime.step Runtime.hwEvents boot as =
        [.stop 4294967291, .startOneShotAt 4294967291 99] ∧
      ∃ σ, Lts.run Runtime.step boot as = some σ ∧
        Awake σ (Lts.trace Runtime.step Runtime.events boot as)
          (Lts.trace Runtime.step Runtime.hwEvents boot as) := by
  intro boot as
  have hboot : boot = ⟨⟨fun _ => ⟨0, 0, false, true, false⟩, false, none⟩, false, 0⟩ :=
    boot_blank _ ⟨rfl, rfl⟩ 0
  have hok : Lts.Along (Lts.logged Runtime.step Runtime.events)
      (fun p a => Admitted p a ∧ Wakes p.1 a) (boot, []) as := by
    rw [hboot]
    decide +kernel
  have hrun : (Lts.run Runtime.step boot as).isSome = true := by
    rw [hboot]
    decide +kernel
  obtain ⟨σ, hσ⟩ := Option.isSome_iff_exists.mp hrun
  refine ⟨?_, σ, hσ, awake_of_run _ 0 hok hσ⟩
  rw [hboot]
  decide +kernel

/-- A timer with the greatest timeout supported: the task stops the hardware
timer and does not arm it. -/
theorem lost_wakeup :
    let boot := Runtime.boot (fun _ => ⟨0, 0, false, true, false⟩) 0
    let as := [.call (.createTimer 0) 0, .call (.startOneShot 0 0x7FFFFFFF) 5, .task 5]
    Lts.Along (Lts.logged Runtime.step Runtime.events) Admitted (boot, []) as ∧
      ∃ σ, Lts.run Runtime.step boot as = some σ ∧
        ¬ Awake σ (Lts.trace Runtime.step Runtime.events boot as)
          (Lts.trace Runtime.step Runtime.hwEvents boot as) := by
  intro boot as
  have hboot : boot = ⟨⟨fun _ => ⟨0, 0, false, true, false⟩, false, none⟩, false, 0⟩ :=
    boot_blank _ ⟨rfl, rfl⟩ 0
  have hend : ((Lts.run Runtime.step boot as).map fun σ =>
      (σ.signalling, σ.timers.posted, (σ.timers.timers 0).isrunning)) = some (false, false, true) := by
    rw [hboot]
    decide +kernel
  have hstop : Lts.trace Runtime.step Runtime.hwEvents boot as = [.stop 5] := by
    rw [hboot]
    decide +kernel
  obtain ⟨σ, hσ, hleft⟩ := Option.map_eq_some_iff.mp hend
  simp only [Prod.mk.injEq] at hleft
  refine ⟨?_, σ, hσ, fun hawake => ?_⟩
  · rw [hboot]
    decide +kernel
  · obtain ⟨t, dt, hlast, -⟩ := hawake hleft.1 hleft.2.1 0 (by decide) hleft.2.2
    rw [hstop] at hlast
    cases hlast

end Pobicos.Middleware
