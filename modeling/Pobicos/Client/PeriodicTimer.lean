import Pobicos.Client.SWTimer

/-!
# Pobicos.Client.PeriodicTimer

What becomes of a timer that is neither stopped nor started again.

Only its own task offers expiries of it, and the scheduler does one of two
things with that task: it begins a run, when the task is due, or ends one and
offers an expiry (`Sole.step`).  Everything about the number of expiries is a
consequence of that: with a period there is one for every period that has
passed (`keepsFiring_startPeriodicAt`), without a period there is one at all.

`PoSWTimerM` starts a periodic timer without a period
(`startPeriodic_fires_once`).
-/

namespace Pobicos.Client

open Octets TimerService

/-! ## The contract -/

/-- The label is not a call for the timer `num`. -/
def TimerAction.LeavesAlone (num : Byte) : TimerAction → Prop
  | .startTimer tid _ _ _ _ => tid ≠ num
  | .stop tid _ => tid ≠ num
  | .begin _ _ => True
  | .offer _ => True
  | .other _ => True
  | .dispatch _ => True

instance (num : Byte) : DecidablePred (TimerAction.LeavesAlone num)
  | .startTimer tid _ _ _ _ => inferInstanceAs (Decidable (tid ≠ num))
  | .stop tid _ => inferInstanceAs (Decidable (tid ≠ num))
  | .begin _ _ => isTrue trivial
  | .offer _ => isTrue trivial
  | .other _ => isTrue trivial
  | .dispatch _ => isTrue trivial

/-- The time of the `PoTimerFired` of `num` that the step offers, if it does. -/
def TimerSystem.offers (num : Byte) (σ : TimerSystem) : TimerAction → List Nat
  | .startTimer _ _ _ _ _ => []
  | .stop _ _ => []
  | .begin _ _ => []
  | .offer t =>
      match σ.service.finish with
      | some (tid, _) => if tid = num then [t] else []
      | none => []
  | .other _ => []
  | .dispatch _ => []

/-- The scheduler has been punctual: it runs nothing, and nothing is due. -/
def TimerSystem.Punctual (σ : TimerSystem) : Prop :=
  σ.service.running = none ∧ ∀ f ∈ σ.service.futures, f.pending = true → σ.clock < f.time

/-- No expiry of `num` is being offered, from before. -/
def TimerSystem.Quiet (σ : TimerSystem) (num : Byte) : Prop :=
  ∀ k ∈ σ.service.running, ∀ f ∈ σ.service.futures[k]?, f.uTid ≠ num

instance (σ : TimerSystem) (num : Byte) : Decidable (σ.Quiet num) :=
  inferInstanceAs (Decidable (∀ k ∈ σ.service.running, ∀ f ∈ σ.service.futures[k]?, f.uTid ≠ num))

/-- A start of `num` for every `dt` ms, made at the time `now` with the result
`r`, is one of `startPeriodicAt`, and until the timer is stopped or started
again it runs, is not a one-shot timer and has expired once for every period
that has passed. -/
structure KeepsFiring (σ : TimerSystem) (num : Byte) (dt : BitVec 32) (now : Nat)
    (r : Option TimerException × TimerService) : Prop where
  same : r = SWTimer.startPeriodicAt σ.service num (SWTimer.getNow now) dt now
  flags : ∀ as τ, (∀ a ∈ as, TimerAction.LeavesAlone num a) →
    Lts.run TimerSystem.step (σ.after now r) as = some τ →
    SWTimer.isRunning τ.service num = true ∧ SWTimer.isOneShot τ.service num = false
  fires : ∀ as τ, (∀ a ∈ as, TimerAction.LeavesAlone num a) →
    Lts.run TimerSystem.step (σ.after now r) as = some τ → τ.Punctual →
    (Lts.trace TimerSystem.step (TimerSystem.offers num) (σ.after now r) as).length =
      (τ.clock - now) / dt.toNat

/-! ## Tasks of other timers -/

namespace TimerService

variable {s : TimerService} {tid : Byte} {i j : Nat} {f : ScheduledFuture}

/-- A task that is added is one of its own timer. -/
theorem getElem?_concat_of_ne {fs : List ScheduledFuture} {g : ScheduledFuture} (h : f.uTid ≠ g.uTid) :
    (fs ++ [g])[i]? = some f ↔ fs[i]? = some f := by
  obtain hlt | hge := Nat.lt_or_ge i fs.length
  · rw [List.getElem?_append_left hlt]
  · rw [List.getElem?_append_right hge, List.getElem?_eq_none hge, List.getElem?_singleton]
    refine iff_of_false ?_ (fun h => nomatch h)
    split
    · intro heq
      exact h (congrArg ScheduledFuture.uTid (Option.some.inj heq).symm)
    · exact fun h => nomatch h

/-- And so is one that is changed. -/
theorem getElem?_modify_of_ne {fs : List ScheduledFuture} {g : ScheduledFuture → ScheduledFuture}
    (hg : ∀ f, (g f).uTid = f.uTid) (hj : ∃ f, fs[j]? = some f ∧ f.uTid = tid) (h : f.uTid ≠ tid) :
    (fs.modify j g)[i]? = some f ↔ fs[i]? = some f := by
  rw [List.getElem?_modify]
  by_cases hi : j = i
  · subst hi
    obtain ⟨f₀, hf₀, htid⟩ := hj
    simp only [hf₀, if_true, Option.map_eq_map, Option.map_some, Option.some.injEq]
    refine iff_of_false ?_ ?_
    · rintro rfl
      exact h ((hg f₀).trans htid)
    · rintro rfl
      exact h htid
  · simp [hi]

/-- **A start** leaves the tasks of the other timers alone. -/
theorem futures_start (hs : s.Equipped) (h : f.uTid ≠ tid) (t0 dt : BitVec 32) (isOneShot : Bool) (now : Nat) :
    (s.jniCallbackStartTimer tid t0 dt isOneShot now).2.futures[i]? = some f ↔ s.futures[i]? = some f := by
  have hfire : ∀ s' : TimerService, (s'.futures[i]? = some f ↔ s.futures[i]? = some f) →
      ((s'.fire tid t0 dt isOneShot now).2.futures[i]? = some f ↔ s.futures[i]? = some f) := by
    intro s' hsame
    obtain heq | ⟨time, period, -, heq⟩ := fire_spec s' tid t0 dt isOneShot now
    · rw [heq]
      exact hsame
    · rw [heq]
      exact (getElem?_concat_of_ne h).trans hsame
  unfold jniCallbackStartTimer
  cases hfind : s.findTimer tid with
  | none => exact hfire _ Iff.rfl
  | some td =>
      obtain ⟨k, f₀, hk, hf₀, htid⟩ := hs.task tid td hfind
      simp only [hk]
      exact hfire _ (getElem?_modify_of_ne (g := ScheduledFuture.cancel) (fun _ => rfl) ⟨f₀, hf₀, htid⟩ h)

/-- **A stop** does so too. -/
theorem futures_stop (hs : s.Equipped) (h : f.uTid ≠ tid) :
    (s.jniCallbackStop tid).2.futures[i]? = some f ↔ s.futures[i]? = some f := by
  unfold jniCallbackStop
  cases hfind : s.findTimer tid with
  | none => exact Iff.rfl
  | some td =>
      obtain ⟨k, f₀, hk, hf₀, htid⟩ := hs.task tid td hfind
      simp only [hk]
      exact getElem?_modify_of_ne (g := ScheduledFuture.cancel) (fun _ => rfl) ⟨f₀, hf₀, htid⟩ h

end TimerService

/-! ## The task of a timer -/

/-- The task `k` is the only one that may offer expiries of `num`, which is a
one-shot timer or not, and runs if it is not. -/
structure Sole (num : Byte) (k : Nat) (isOneShot : Bool) (σ : TimerSystem) : Prop where
  sound : Sound σ
  timer : ∃ td, σ.service.findTimer num = some td ∧ td.isOneShot = isOneShot ∧
    (isOneShot = false → td.isRunning = true)
  task : ∃ f, σ.service.futures[k]? = some f ∧ f.uTid = num
  others : ∀ j f, σ.service.futures[j]? = some f → f.uTid = num → j ≠ k →
    f.pending = false ∧ σ.service.running ≠ some j

/-- What the scheduler has done with the task `k` of `num` in a step: nothing,
or it has begun a run, or it has ended one and offered an expiry. -/
inductive Moves (num : Byte) (k : Nat) (σ τ : TimerSystem) (offered : List Nat) : Prop
  | none (f : ScheduledFuture) (before : σ.service.futures[k]? = some f) (after : τ.service.futures[k]? = some f)
      (running : τ.service.running = some k ↔ σ.service.running = some k) (silent : offered = [])
  | begin (f : ScheduledFuture) (before : σ.service.futures[k]? = some f)
      (after : τ.service.futures[k]? = some f.begin) (idle : σ.service.running ≠ some k)
      (running : τ.service.running = some k) (pending : f.pending = true) (due : f.time ≤ τ.clock)
      (silent : offered = [])
  | finish (f : ScheduledFuture) (before : σ.service.futures[k]? = some f)
      (after : τ.service.futures[k]? = some f.finish) (running : σ.service.running = some k)
      (idle : τ.service.running ≠ some k) (t : Nat) (offers : offered = [t])

variable {σ τ : TimerSystem} {num : Byte} {k : Nat} {isOneShot : Bool}

/-- A call for another timer. -/
theorem Sole.call (h : Sole num k isOneShot σ) {tid : Byte} (htid : tid ≠ num) {s' : TimerService}
    (hrunning : s'.running = σ.service.running)
    (hothers : ∀ i, i ≠ tid → s'.findTimer i = σ.service.findTimer i)
    (hfutures : ∀ (i : Nat) (f : ScheduledFuture), f.uTid ≠ tid →
      (s'.futures[i]? = some f ↔ σ.service.futures[i]? = some f))
    {alive : Bool} {t : Nat} (hsound : Sound { σ with service := s', alive := alive, clock := t }) :
    Sole num k isOneShot { σ with service := s', alive := alive, clock := t } ∧
      Moves num k σ { σ with service := s', alive := alive, clock := t } [] := by
  obtain ⟨f, hf, hnum⟩ := h.task
  have hf' : s'.futures[k]? = some f := (hfutures k f (by rw [hnum]; exact htid.symm)).mpr hf
  refine ⟨⟨hsound, ?_, ⟨f, hf', hnum⟩, fun j g hg hgnum hj => ?_⟩, .none f hf hf' ?_ rfl⟩
  · rw [hothers num htid.symm]
    exact h.timer
  · simp only [hrunning]
    exact h.others j g ((hfutures j g (by rw [hgnum]; exact htid.symm)).mp hg) hgnum hj
  · simp only [hrunning]

/-- **The scheduler** goes on with one of its tasks. -/
theorem Sole.schedule (h : Sole num k isOneShot σ) {j : Nat} {g : ScheduledFuture → ScheduledFuture}
    (htid : ∀ f, (g f).uTid = f.uTid) (hpend : ∀ f, (g f).pending = true → f.pending = true)
    {running : Option Nat} (hruns : ∀ i, running = some i → ∃ f, σ.service.futures[i]? = some f)
    (hrunning : ∀ i f, σ.service.futures[i]? = some f → f.uTid = num → i ≠ k → f.pending = false →
      running ≠ some i) {queue : List ServiceEvent} {t : Nat} :
    Sole num k isOneShot { σ with
      service := { σ.service with futures := σ.service.futures.modify j g, running := running },
      queue := queue, clock := t } := by
  refine ⟨fun halive => (h.sound halive).modify htid hpend j hruns, h.timer, ?_, fun i f hf hnum hi => ?_⟩
  · obtain ⟨f, hf, hnum⟩ := h.task
    obtain ⟨f', hf', htid'⟩ := kept_modify (j := j) htid hf
    exact ⟨f', hf', htid'.trans hnum⟩
  · change (σ.service.futures.modify j g)[i]? = some f at hf
    rw [List.getElem?_modify] at hf
    obtain ⟨f₀, hf₀, rfl⟩ := Option.map_eq_some_iff.mp hf
    have hsame : f₀.uTid = num := by
      split at hnum
      · exact (htid f₀).symm.trans hnum
      · exact hnum
    obtain ⟨hidle, -⟩ := h.others i f₀ hf₀ hsame hi
    refine ⟨?_, hrunning i f₀ hf₀ hsame hi hidle⟩
    split
    · by_contra hbusy
      rw [hpend f₀ (Bool.not_eq_false _ ▸ hbusy)] at hidle
      cases hidle
    · exact hidle

/-- A run begins. -/
theorem Sole.begin (h : Sole num k isOneShot σ) {j t : Nat} {s : TimerService} (hs : σ.service.begin j t = some s) :
    Sole num k isOneShot { σ with service := s, clock := t } ∧
      Moves num k σ { σ with service := s, clock := t } [] := by
  obtain ⟨f, hidle, hf, hpending, hdue, rfl⟩ := begin_eq_some hs
  refine ⟨h.schedule ScheduledFuture.uTid_begin (fun _ => ScheduledFuture.pending_of_begin) ?_ ?_, ?_⟩
  · rintro i ⟨⟩
    exact ⟨f, hf⟩
  · rintro i g hg - - hgidle heq
    obtain rfl := Option.some.inj heq
    rw [Option.some.inj (hf.symm.trans hg), hgidle] at hpending
    cases hpending
  · by_cases hj : j = k
    · subst hj
      refine .begin f hf ?_ (by rw [hidle]; exact fun h => nomatch h) rfl hpending hdue rfl
      simp [hf]
    · obtain ⟨f', hf', -⟩ := h.task
      refine .none f' hf' ?_ ?_ rfl
      · simp [hf', hj]
      · rw [hidle]
        exact iff_of_false (fun heq => hj (Option.some.inj heq)) (fun h => nomatch h)

/-- A run ends. -/
theorem Sole.offer (h : Sole num k isOneShot σ) {tid : Byte} {t : Nat} {s : TimerService}
    (hs : σ.service.finish = some (tid, s)) :
    Sole num k isOneShot { σ with service := s, queue := σ.queue ++ [.timerFired tid], clock := t } ∧
      Moves num k σ { σ with service := s, queue := σ.queue ++ [.timerFired tid], clock := t }
        (σ.offers num (.offer t)) := by
  rw [TimerSystem.offers, hs]
  obtain ⟨j, f, hj, hf, htid, rfl⟩ := finish_eq_some hs
  refine ⟨h.schedule (g := ScheduledFuture.finish) (fun _ => rfl) (fun _ hf => hf) ?_
    (fun i _ _ _ _ _ => (Option.some_ne_none i).symm), ?_⟩
  · intro i hi
    cases hi
  obtain ⟨f', hf', hnum⟩ := h.task
  by_cases hjk : j = k
  · subst hjk
    rw [hf'] at hf
    cases hf
    rw [hnum] at htid
    simp only [htid, if_true]
    refine .finish f hf' ?_ hj (fun h => nomatch h) t rfl
    simp [hf']
  · have hne : tid ≠ num := by
      rintro rfl
      exact (h.others j f hf htid hjk).2 hj
    simp only [hne, if_false]
    refine .none f' hf' ?_ ?_ rfl
    · simp [hf', hjk]
    · rw [hj]
      exact iff_of_false (fun h => nomatch h) (fun heq => hjk (Option.some.inj heq))

/-- **A dispatch** keeps what a descriptor says about a timer that is not
one-shot. -/
theorem Sole.dispatch (h : Sole num k isOneShot σ) {queue : List ServiceEvent} (tid : Byte) {t : Nat}
    (hsound : Sound ({ σ with queue := queue }.after t (σ.service.jniCallFireTimer tid t))) :
    Sole num k isOneShot ({ σ with queue := queue }.after t (σ.service.jniCallFireTimer tid t)) ∧
      Moves num k σ ({ σ with queue := queue }.after t (σ.service.jniCallFireTimer tid t)) [] := by
  obtain ⟨hrunning, hfutures, -⟩ := fireTimer_spec σ.service tid t
  obtain ⟨f, hf, hnum⟩ := h.task
  have hf' : (σ.service.jniCallFireTimer tid t).2.futures[k]? = some f := by rw [hfutures, hf]
  refine ⟨⟨hsound, ?_, ⟨f, hf', hnum⟩, fun j g hg hgnum hj => ?_⟩, .none f hf hf' ?_ rfl⟩
  · obtain ⟨td, htd, hone, hrun⟩ := h.timer
    simp only [TimerSystem.after, findTimer_fireTimer]
    split
    · refine ⟨td.fired t, by rw [htd]; rfl, ?_, fun hperiodic => ?_⟩
      · rw [← hone]
        unfold TimerDescriptor.fired
        split <;> rfl
      · rw [TimerDescriptor.fired, hone, hperiodic, if_neg (by decide)]
        exact hrun hperiodic
    · exact ⟨td, htd, hone, hrun⟩
  · simp only [TimerSystem.after, hrunning, hfutures] at hg ⊢
    exact h.others j g hg hgnum hj
  · simp only [TimerSystem.after, hrunning]

/-- **One step** that leaves the timer alone: its task is begun or ended, or
nothing happens to it. -/
theorem Sole.step (h : Sole num k isOneShot σ) {a : TimerAction} (ha : a.LeavesAlone num)
    (hst : TimerSystem.step σ a = some τ) :
    Sole num k isOneShot τ ∧ σ.clock ≤ τ.clock ∧ Moves num k σ τ (σ.offers num a) := by
  have hsound := h.sound.step hst
  cases a with
  | startTimer tid t0 dt b t =>
      simp only [TimerSystem.step, Option.ite_none_right_eq_some, Option.some.injEq] at hst
      obtain ⟨⟨ht, halive⟩, rfl⟩ := hst
      have hr := startTimer_reschedules σ.service tid t0 dt b t
      obtain ⟨hsole, hmoves⟩ := h.call ha hr.running hr.others
        (fun i f hf => futures_start (h.sound halive) hf t0 dt b t) hsound
      exact ⟨hsole, ht, hmoves⟩
  | stop tid t =>
      simp only [TimerSystem.step, Option.ite_none_right_eq_some, Option.some.injEq] at hst
      obtain ⟨⟨ht, halive⟩, rfl⟩ := hst
      have hc := stop_cancels σ.service tid
      obtain ⟨hsole, hmoves⟩ := h.call ha hc.running hc.others
        (fun i f hf => futures_stop (h.sound halive) hf) hsound
      exact ⟨hsole, ht, hmoves⟩
  | begin j t =>
      simp only [TimerSystem.step, Option.ite_none_right_eq_some, Option.map_eq_some_iff] at hst
      obtain ⟨ht, s, hs, rfl⟩ := hst
      obtain ⟨hsole, hmoves⟩ := h.begin hs
      exact ⟨hsole, ht, hmoves⟩
  | offer t =>
      simp only [TimerSystem.step, Option.ite_none_right_eq_some, Option.map_eq_some_iff] at hst
      obtain ⟨ht, ⟨tid, s⟩, hs, rfl⟩ := hst
      obtain ⟨hsole, hmoves⟩ := h.offer hs
      exact ⟨hsole, ht, hmoves⟩
  | other t =>
      simp only [TimerSystem.step, Option.ite_none_right_eq_some, Option.some.injEq] at hst
      obtain ⟨ht, rfl⟩ := hst
      obtain ⟨f, hf, -⟩ := h.task
      exact ⟨⟨hsound, h.timer, h.task, h.others⟩, ht, .none f hf hf Iff.rfl rfl⟩
  | dispatch t =>
      simp only [TimerSystem.step, Option.ite_none_right_eq_some] at hst
      obtain ⟨⟨ht, -⟩, hst⟩ := hst
      split at hst
      · cases hst
      · cases hst
        obtain ⟨f, hf, -⟩ := h.task
        exact ⟨⟨hsound, h.timer, h.task, h.others⟩, ht, .none f hf hf Iff.rfl rfl⟩
      · next tid queue _ =>
          cases hst
          obtain ⟨hsole, hmoves⟩ := h.dispatch tid hsound
          exact ⟨hsole, ht, hmoves⟩

/-! ## Expiries -/

/-- The task of `num` is due for the first time at `first` and then every `dt`
ms, and has offered the expiries at the times `ts`. -/
structure Repeats (num : Byte) (k first dt : Nat) (σ : TimerSystem) (ts : List Nat) : Prop where
  sole : Sole num k false σ
  task : σ.service.futures[k]? = some ⟨num, first + ts.length * dt, some dt, true⟩
  passed : ts = [] ∨ first + ts.length * dt ≤ σ.clock + dt
  begun : σ.service.running = some k → first + ts.length * dt ≤ σ.clock

/-- **A task with a period**: after every run it is put off by a period. -/
theorem Repeats.step {first dt : Nat} {ts : List Nat} (h : Repeats num k first dt σ ts) {a : TimerAction}
    (ha : a.LeavesAlone num) (hst : TimerSystem.step σ a = some τ) :
    Repeats num k first dt τ (ts ++ σ.offers num a) := by
  obtain ⟨hsole, hclock, hmoves⟩ := h.sole.step ha hst
  have hpassed : ts = [] ∨ first + ts.length * dt ≤ τ.clock + dt :=
    h.passed.imp_right fun hle => Nat.le_trans hle (Nat.add_le_add_right hclock dt)
  cases hmoves with
  | none f before after running silent =>
      cases h.task.symm.trans before
      rw [silent, List.append_nil]
      exact ⟨hsole, after, hpassed, fun hrun => Nat.le_trans (h.begun (running.mp hrun)) hclock⟩
  | begin f before after idle running pending due silent =>
      cases h.task.symm.trans before
      rw [silent, List.append_nil]
      exact ⟨hsole, after, hpassed, fun _ => due⟩
  | finish f before after running idle t offers =>
      cases h.task.symm.trans before
      have hnext : first + (ts ++ [t]).length * dt = first + ts.length * dt + dt := by
        rw [List.length_append, List.length_singleton, Nat.succ_mul, Nat.add_assoc]
      rw [offers]
      refine ⟨hsole, ?_, Or.inr ?_, fun hrun => absurd hrun idle⟩
      · rw [hnext, after]
        rfl
      · rw [hnext]
        exact Nat.add_le_add_right (Nat.le_trans (h.begun running) hclock) dt

/-- **One expiry for every period** that has passed, if the scheduler has been
punctual. -/
theorem Repeats.length_eq {now dt : Nat} {ts : List Nat} (h : Repeats num k (now + dt) dt σ ts)
    (hdt : 0 < dt) (hpunctual : σ.Punctual) : ts.length = (σ.clock - now) / dt := by
  have hlater := hpunctual.2 _ (List.mem_of_getElem? h.task) rfl
  have hlow : now + ts.length * dt ≤ σ.clock ∨ ts = [] := by
    refine h.passed.symm.imp_left fun hle => ?_
    omega
  refine (Nat.div_eq_of_lt_le ?_ ?_).symm
  · obtain hle | rfl := hlow
    · omega
    · rw [List.length_nil, Nat.zero_mul]
      exact Nat.zero_le _
  · rw [Nat.succ_mul]
    simp only at hlater
    omega

/-- The task of `num` is due at `first` and does not repeat: it has not begun,
or has begun, or has offered an expiry. -/
structure Once (num : Byte) (k first : Nat) (σ : TimerSystem) (ts : List Nat) : Prop where
  sole : Sole num k true σ
  task : ∃ pending, σ.service.futures[k]? = some ⟨num, first, none, pending⟩ ∧
    (pending = true ∧ σ.service.running ≠ some k ∧ ts = [] ∨
      pending = false ∧ σ.service.running = some k ∧ first ≤ σ.clock ∧ ts = [] ∨
      pending = false ∧ σ.service.running ≠ some k ∧ first ≤ σ.clock ∧ ts.length = 1)

/-- **A task without a period** offers one expiry. -/
theorem Once.step {first : Nat} {ts : List Nat} (h : Once num k first σ ts) {a : TimerAction}
    (ha : a.LeavesAlone num) (hst : TimerSystem.step σ a = some τ) :
    Once num k first τ (ts ++ σ.offers num a) := by
  obtain ⟨hsole, hclock, hmoves⟩ := h.sole.step ha hst
  obtain ⟨pending, htask, hphase⟩ := h.task
  refine ⟨hsole, ?_⟩
  cases hmoves with
  | none f before after running silent =>
      cases htask.symm.trans before
      rw [silent, List.append_nil, running.ne]
      refine ⟨pending, after, hphase.imp_right (Or.imp ?_ ?_)⟩
      · exact fun ⟨hpend, hrun, hfirst, hnone⟩ => ⟨hpend, running.mpr hrun, Nat.le_trans hfirst hclock, hnone⟩
      · exact fun ⟨hpend, hrun, hfirst, hone⟩ => ⟨hpend, hrun, Nat.le_trans hfirst hclock, hone⟩
  | begin f before after idle running hpending due silent =>
      cases htask.symm.trans before
      cases hpending
      rw [silent, List.append_nil]
      obtain ⟨-, -, hnone⟩ | ⟨hpend, -⟩ | ⟨hpend, -⟩ := hphase
      · exact ⟨false, after, Or.inr (Or.inl ⟨rfl, running, due, hnone⟩)⟩
      · cases hpend
      · cases hpend
  | finish f before after running idle t offers =>
      cases htask.symm.trans before
      rw [offers]
      obtain ⟨-, hidle, -⟩ | ⟨rfl, -, hfirst, rfl⟩ | ⟨-, hidle, -⟩ := hphase
      · exact absurd running hidle
      · exact ⟨false, after, Or.inr (Or.inr ⟨rfl, idle, Nat.le_trans hfirst hclock, rfl⟩)⟩
      · exact absurd running hidle

/-- **One expiry at all**: when it is due. -/
theorem Once.length_eq {first : Nat} {ts : List Nat} (h : Once num k first σ ts) (hpunctual : σ.Punctual) :
    ts.length = if first ≤ σ.clock then 1 else 0 := by
  obtain ⟨pending, htask, ⟨rfl, -, rfl⟩ | ⟨-, hrun, -⟩ | ⟨-, -, hfirst, hone⟩⟩ := h.task
  · have hlater := hpunctual.2 _ (List.mem_of_getElem? htask) rfl
    exact (if_neg (Nat.not_le.mpr hlater)).symm
  · rw [hpunctual.1] at hrun
    cases hrun
  · rw [if_pos hfirst, hone]

/-! ## The starts -/

variable {dt : BitVec 32} {now : Nat}

/-- After a start its task is the only one of the timer, if no expiry was being
offered. -/
theorem sole_start (hs : σ.service.Equipped) (hquiet : σ.Quiet num) {t0 : BitVec 32}
    (h : isOneShot = true ∨ dt ≠ 0) :
    Sole num σ.service.futures.length isOneShot
      (σ.after now (σ.service.jniCallbackStartTimer num t0 dt isOneShot now)) := by
  have hstart : Starts σ.service num t0 dt isOneShot now _ :=
    start_spec (fun td htd => hs.task_ne_none td htd) h t0 now
  have hr := startTimer_reschedules σ.service num t0 dt isOneShot now
  refine ⟨fun _ => hs.start t0 now hstart.returns, ⟨_, hstart.timer, rfl, fun _ => rfl⟩,
    ⟨_, hstart.task, rfl⟩, fun j f hf hnum hj => ⟨?_, fun hrun => ?_⟩⟩
  · rw [← Bool.not_eq_true]
    intro hpend
    obtain ⟨hwas, hnot⟩ | ⟨-, -, td, htd, htask⟩ := hr.pending j f hf hpend
    · obtain ⟨td, htd, htask⟩ := hs.owned j f hwas hpend
      rw [hnum] at htd
      exact hnot td htd htask
    · cases hstart.timer.symm.trans htd
      exact hj (Option.some.inj htask).symm
  · have hlt : j < σ.service.futures.length := by
      have hle := (List.getElem?_eq_some_iff.mp hf).1
      simp only [TimerSystem.after, hstart.length] at hle
      omega
    obtain ⟨f', hf', htid⟩ := hr.kept j _ (List.getElem?_eq_getElem hlt)
    cases hf'.symm.trans hf
    exact hquiet j (hr.running.symm.trans hrun) _ (List.getElem?_eq_getElem hlt) (htid.symm.trans hnum)

/-- A task that has just been scheduled is not being run. -/
theorem running_start (hs : σ.service.Equipped) (t0 : BitVec 32) :
    (σ.after now (σ.service.jniCallbackStartTimer num t0 dt isOneShot now)).service.running ≠
      some σ.service.futures.length := by
  intro hrun
  have hr := startTimer_reschedules σ.service num t0 dt isOneShot now
  obtain ⟨f, hf⟩ := hs.runs _ (hr.running.symm.trans hrun)
  exact absurd (List.getElem?_eq_some_iff.mp hf).1 (Nat.lt_irrefl _)

/-- What the commands say about a timer. -/
theorem Sole.flags {σ : TimerSystem} (h : Sole num k isOneShot σ) :
    SWTimer.isOneShot σ.service num = isOneShot ∧
      (isOneShot = false → SWTimer.isRunning σ.service num = true) := by
  obtain ⟨td, htd, hone, hrun⟩ := h.timer
  simp only [SWTimer.isOneShot, SWTimer.isRunning, htd]
  exact ⟨hone, hrun⟩

/-- **`startPeriodicAt` keeps firing**, as long as the clock has not wrapped
when it is called. -/
theorem keepsFiring_startPeriodicAt (hs : σ.service.Equipped) (hquiet : σ.Quiet num) (hdt : dt ≠ 0)
    (hnow : now < 2 ^ 32) :
    KeepsFiring σ num dt now (SWTimer.startPeriodicAt σ.service num (SWTimer.getNow now) dt now) := by
  have hpos : 0 < dt.toNat := Nat.pos_of_ne_zero fun hzero => hdt (BitVec.eq_of_toNat_eq hzero)
  have hdelay : initialDelay now (SWTimer.getNow now) dt = dt.toNat := by
    have h := (initialDelay_eq_iff now now dt).mpr (Or.inl hnow)
    rwa [Nat.add_sub_cancel_left] at h
  have hstart : Starts σ.service num (SWTimer.getNow now) dt false now _ :=
    start_spec (fun td htd => hs.task_ne_none td htd) (Or.inr hdt) _ now
  have hrepeats : Repeats num σ.service.futures.length (now + dt.toNat) dt.toNat
      (σ.after now (SWTimer.startPeriodicAt σ.service num (SWTimer.getNow now) dt now)) [] := by
    refine ⟨sole_start hs hquiet (Or.inr hdt), ?_, Or.inl rfl, fun hrun => absurd hrun (running_start hs _)⟩
    refine hstart.task.trans ?_
    simp [hdelay]
  have hrun : ∀ as τ, (∀ a ∈ as, TimerAction.LeavesAlone num a) →
      Lts.run TimerSystem.step (σ.after now _) as = some τ →
      Repeats num σ.service.futures.length (now + dt.toNat) dt.toNat τ
        ([] ++ Lts.trace TimerSystem.step (TimerSystem.offers num) (σ.after now _) as) :=
    fun as τ has hτ => Lts.trace_induct (fun _ _ _ _ h ha hst => h.step ha hst)
      (Lts.along_of_forall (fun a ha _ => has a ha) _) hrepeats hτ
  refine ⟨rfl, fun as τ has hτ => ?_, fun as τ has hτ hpunctual => ?_⟩
  · obtain ⟨hone, hrunning⟩ := (hrun as τ has hτ).sole.flags
    exact ⟨hrunning rfl, hone⟩
  · exact (hrun as τ has hτ).length_eq hpos hpunctual

/-- A start without a period, by what its task does. -/
theorem once_of_run (hs : σ.service.Equipped) (hquiet : σ.Quiet num) {as : List TimerAction}
    (has : ∀ a ∈ as, TimerAction.LeavesAlone num a)
    (hrun : Lts.run TimerSystem.step (σ.after now (SWTimer.startPeriodic σ.service num dt now)) as = some τ) :
    Once num σ.service.futures.length (now + initialDelay now (SWTimer.getNow now) dt) τ
      (Lts.trace TimerSystem.step (TimerSystem.offers num)
        (σ.after now (SWTimer.startPeriodic σ.service num dt now)) as) := by
  have hstart : Starts σ.service num (SWTimer.getNow now) dt true now _ :=
    start_spec (fun td htd => hs.task_ne_none td htd) (Or.inl rfl) _ now
  have honce : Once num σ.service.futures.length (now + initialDelay now (SWTimer.getNow now) dt)
      (σ.after now (SWTimer.startPeriodic σ.service num dt now)) [] :=
    ⟨sole_start hs hquiet (Or.inl rfl), true, hstart.task, Or.inl ⟨rfl, running_start hs _, rfl⟩⟩
  exact Lts.trace_induct (fun _ _ _ _ h ha hst => h.step ha hst)
    (Lts.along_of_forall (fun a ha _ => has a ha) _) honce hrun

/-- **`startPeriodic` does not keep firing**, whatever the service has been
asked for before: it is not `startPeriodicAt`, the timer is a one-shot timer,
and until it is stopped or started again it expires once, if no expiry of it
was being offered. -/
theorem startPeriodic_fires_once (t₀ : Nat) {as : List TimerAction}
    (hrun : Lts.run TimerSystem.step (.init t₀) as = some σ) (halive : σ.alive = true) (num : Byte)
    {dt : BitVec 32} (hdt : dt ≠ 0) (now : Nat) :
    let r := SWTimer.startPeriodic σ.service num dt now
    ¬ KeepsFiring σ num dt now r ∧
      r.2 ≠ (SWTimer.startPeriodicAt σ.service num (SWTimer.getNow now) dt now).2 ∧
      SWTimer.isOneShot r.2 num = true ∧
      (σ.Quiet num → ∀ bs τ, (∀ a ∈ bs, TimerAction.LeavesAlone num a) →
        Lts.run TimerSystem.step (σ.after now r) bs = some τ → τ.Punctual →
        SWTimer.isOneShot τ.service num = true ∧
          (Lts.trace TimerSystem.step (TimerSystem.offers num) (σ.after now r) bs).length =
            if now + initialDelay now (SWTimer.getNow now) dt ≤ τ.clock then 1 else 0) := by
  intro r
  have hs := sound_of_run t₀ hrun halive
  have hone : Starts σ.service num (SWTimer.getNow now) dt true now r :=
    start_spec (fun td htd => hs.task_ne_none td htd) (Or.inl rfl) _ now
  have hperiodic : Starts σ.service num (SWTimer.getNow now) dt false now _ :=
    start_spec (fun td htd => hs.task_ne_none td htd) (Or.inr hdt) _ now
  have hne : r.2 ≠ (SWTimer.startPeriodicAt σ.service num (SWTimer.getNow now) dt now).2 := by
    intro heq
    have htimer := hone.timer
    rw [heq] at htimer
    cases hperiodic.timer.symm.trans htimer
  refine ⟨fun h => hne (congrArg Prod.snd h.same), hne, ?_, fun hquiet bs τ hbs hτ hpunctual => ?_⟩
  · rw [SWTimer.isOneShot, hone.timer]
  · have honce := once_of_run hs hquiet hbs hτ
    exact ⟨honce.sole.flags.1, honce.length_eq hpunctual⟩

/-- The first timer of the service, started for every 10 ms. -/
theorem startPeriodic_fires_once_first :
    let r := SWTimer.startPeriodic (TimerSystem.init 0).service 1 10 0
    ¬ KeepsFiring (.init 0) 1 10 0 r ∧
      r.2 ≠ (SWTimer.startPeriodicAt (TimerSystem.init 0).service 1 (SWTimer.getNow 0) 10 0).2 ∧
      SWTimer.isOneShot r.2 1 = true := by
  intro r
  obtain ⟨hnot, hne, hone, -⟩ := startPeriodic_fires_once 0
    (rfl : Lts.run TimerSystem.step (.init 0) [] = some _) rfl 1 (show (10 : BitVec 32) ≠ 0 by decide) 0
  exact ⟨hnot, hne, hone⟩

/-- 35 ms later it has expired once, and not three times. -/
theorem startPeriodic_stops :
    let r := SWTimer.startPeriodic (TimerSystem.init 0).service 1 10 0
    let bs := [TimerAction.begin 0 10, .offer 10, .dispatch 11, .other 35]
    Lts.trace TimerSystem.step (TimerSystem.offers 1) ((TimerSystem.init 0).after 0 r) bs = [10] ∧
      ¬ KeepsFiring (.init 0) 1 10 0 r := by
  intro r bs
  have hoffers : Lts.trace TimerSystem.step (TimerSystem.offers 1) ((TimerSystem.init 0).after 0 r) bs = [10] := by
    decide
  refine ⟨hoffers, fun h => ?_⟩
  have hthree := h.fires bs _ (by decide) rfl ⟨rfl, by decide⟩
  rw [hoffers] at hthree
  exact absurd hthree (by decide)

/-- `startPeriodicAt` has fired three times by then. -/
example :
    let r := SWTimer.startPeriodicAt (TimerSystem.init 0).service 1 (SWTimer.getNow 0) 10 0
    let bs := [TimerAction.begin 0 10, .offer 10, .begin 0 20, .offer 20, .begin 0 30, .offer 30, .other 35]
    Lts.trace TimerSystem.step (TimerSystem.offers 1) ((TimerSystem.init 0).after 0 r) bs = [10, 20, 30] := by
  decide

end Pobicos.Client
