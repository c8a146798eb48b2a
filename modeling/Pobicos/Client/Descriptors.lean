import Pobicos.Client.SWTimer

/-!
# Pobicos.Client.Descriptors

The descriptors of the timer service under any sequence of calls.

A start makes or updates the descriptor first and schedules its task afterwards,
and `scheduleAtFixedRate` rejects a period of zero: then the descriptor is left
with no task, or with the one that has been cancelled.  `always_intact_iff` says
that nothing else goes wrong.
-/

namespace Pobicos.Client

open Octets

/-! ## Sequences of calls -/

/-- The service, the timers that have been started, the tasks that have been
cancelled, and whether a call has thrown. -/
structure TimerCalls where
  service : TimerService
  started : List Byte
  cancelled : List Nat
  threw : Bool
  deriving DecidableEq, Repr

/-- The calls of the event handler thread, each at some time, and what the
thread of the scheduler does between them. -/
inductive TimerCall
  | startTimer (tid : Byte) (t0 dt : BitVec 32) (isOneShot : Bool) (now : Nat)
  | stop (tid : Byte)
  | fireTimer (tid : Byte) (now : Nat)
  | begin (k : Nat) (now : Nat)
  | finish
  deriving DecidableEq, Repr

/-- The task of `tid`, which a start or a stop cancels. -/
def TimerService.taskOf (s : TimerService) (tid : Byte) : List Nat :=
  ((s.findTimer tid).bind TimerDescriptor.task).toList

namespace TimerCalls

def init : TimerCalls := ⟨⟨[], [], none⟩, [], [], false⟩

/-- A call has been made. -/
def after (s : TimerCalls) (r : Option TimerException × TimerService) : TimerCalls :=
  { s with service := r.2, threw := s.threw || r.1.isSome }

/-- One call; a timer fires only if it has been started. -/
def step (s : TimerCalls) : TimerCall → Option TimerCalls
  | .startTimer tid t0 dt isOneShot now =>
      some { s.after (s.service.jniCallbackStartTimer tid t0 dt isOneShot now) with
        started := tid :: s.started
        cancelled := s.service.taskOf tid ++ s.cancelled }
  | .stop tid =>
      some { s.after (s.service.jniCallbackStop tid) with cancelled := s.service.taskOf tid ++ s.cancelled }
  | .fireTimer tid now => if tid ∈ s.started then some (s.after (s.service.jniCallFireTimer tid now)) else none
  | .begin k now => (s.service.begin k now).map fun service => { s with service := service }
  | .finish => s.service.finish.map fun r => { s with service := r.2 }

/-- No call has thrown, a timer has one descriptor, which has a task, and the
task of a timer that is reported as running is one of it and has not been
cancelled. -/
structure Intact (s : TimerCalls) : Prop where
  returned : s.threw = false
  unique : (s.service.timerList.map TimerDescriptor.uTid).Nodup
  scheduled : ∀ td ∈ s.service.timerList, td.task ≠ none
  running : ∀ td ∈ s.service.timerList, td.isRunning = true →
    ∃ k ∈ td.task, k ∉ s.cancelled ∧ ∃ f ∈ s.service.futures[k]?, f.uTid = td.uTid

end TimerCalls

/-- A start that repeats has a period. -/
def TimerCall.HasPeriod : TimerCall → Prop
  | .startTimer _ _ dt isOneShot _ => isOneShot = true ∨ dt ≠ 0
  | .stop _ => True
  | .fireTimer _ _ => True
  | .begin _ _ => True
  | .finish => True

instance decidableHasPeriod : (c : TimerCall) → Decidable c.HasPeriod
  | .startTimer _ _ dt isOneShot _ => inferInstanceAs (Decidable (isOneShot = true ∨ dt ≠ 0))
  | .stop _ => inferInstanceAs (Decidable True)
  | .fireTimer _ _ => inferInstanceAs (Decidable True)
  | .begin _ _ => inferInstanceAs (Decidable True)
  | .finish => inferInstanceAs (Decidable True)

/-! ## One descriptor for a timer -/

namespace TimerService

variable {s : TimerService} {tid : Byte}

theorem map_uTid_modifyFirst {g : TimerDescriptor → TimerDescriptor} (hg : ∀ td, (g td).uTid = td.uTid)
    (tds : List TimerDescriptor) :
    (modifyFirst tid g tds).map TimerDescriptor.uTid = tds.map TimerDescriptor.uTid := by
  induction tds with
  | nil => rfl
  | cons td tds ih =>
      rw [modifyFirst]
      split
      · rw [List.map_cons, List.map_cons, hg]
      · rw [List.map_cons, List.map_cons, ih]

/-- A descriptor of the list is the one that is found. -/
theorem findTimer_of_mem (h : (s.timerList.map TimerDescriptor.uTid).Nodup) {td : TimerDescriptor}
    (hmem : td ∈ s.timerList) : s.findTimer td.uTid = some td := by
  rw [findTimer]
  generalize s.timerList = tds at h hmem
  induction tds with
  | nil => cases hmem
  | cons td' tds ih =>
      rw [List.map_cons, List.nodup_cons] at h
      rw [List.find?_cons]
      obtain rfl | hmem := List.mem_cons.mp hmem
      · simp
      · have hne : td'.uTid ≠ td.uTid := by
          intro heq
          rw [heq] at h
          exact h.1 (List.mem_map_of_mem hmem)
        rw [decide_eq_false hne]
        exact ih h.2 hmem

/-- The second half of a start leaves the ids. -/
theorem map_uTid_fire (s : TimerService) (tid : Byte) (t0 dt : BitVec 32) (isOneShot : Bool) (now : Nat) :
    (s.fire tid t0 dt isOneShot now).2.timerList.map TimerDescriptor.uTid =
      s.timerList.map TimerDescriptor.uTid := by
  obtain heq | ⟨time, period, -, heq⟩ := fire_spec s tid t0 dt isOneShot now
  · rw [heq]
  · rw [heq]
    refine map_uTid_modifyFirst ?_ s.timerList
    exact fun _ => rfl

/-- **A start** adds an id only if it is new. -/
theorem nodup_start (h : (s.timerList.map TimerDescriptor.uTid).Nodup) (tid : Byte) (t0 dt : BitVec 32)
    (isOneShot : Bool) (now : Nat) :
    ((s.jniCallbackStartTimer tid t0 dt isOneShot now).2.timerList.map TimerDescriptor.uTid).Nodup := by
  unfold jniCallbackStartTimer
  cases hfind : s.findTimer tid with
  | none =>
      have hnew : tid ∉ s.timerList.map TimerDescriptor.uTid := by
        intro hmem
        obtain ⟨td, htd, rfl⟩ := List.mem_map.mp hmem
        exact absurd (findTimer_of_mem h htd) (by simp [hfind])
      rw [map_uTid_fire, List.map_append]
      refine List.nodup_append.mpr ⟨h, List.pairwise_singleton _ tid, ?_⟩
      rintro i hi j hj rfl
      cases List.mem_singleton.mp hj
      exact hnew hi
  | some td =>
      cases htask : td.task with
      | none => simpa only [htask] using h
      | some k =>
          simp only [htask]
          rw [map_uTid_fire]
          refine Eq.mpr (congrArg List.Nodup (map_uTid_modifyFirst ?_ _)) h
          exact fun _ => rfl

theorem map_uTid_stop (s : TimerService) (tid : Byte) :
    (s.jniCallbackStop tid).2.timerList.map TimerDescriptor.uTid = s.timerList.map TimerDescriptor.uTid := by
  unfold jniCallbackStop
  split
  · split
    · rfl
    · refine map_uTid_modifyFirst ?_ s.timerList
      exact fun _ => rfl
  · rfl

theorem map_uTid_fireTimer (s : TimerService) (tid : Byte) (now : Nat) :
    (s.jniCallFireTimer tid now).2.timerList.map TimerDescriptor.uTid =
      s.timerList.map TimerDescriptor.uTid := by
  unfold jniCallFireTimer
  split
  · rfl
  · split
    all_goals
      refine map_uTid_modifyFirst ?_ s.timerList
      exact fun _ => rfl

/-- A descriptor that is changed is still found. -/
theorem ite_map_ne_none {o : Option TimerDescriptor} (h : o ≠ none) (c : Prop) [Decidable c]
    (g : TimerDescriptor → TimerDescriptor) : (if c then o.map g else o) ≠ none := by
  split
  · rwa [Ne, Option.map_eq_none_iff]
  · exact h

/-! ## Calls that return -/

theorem stop_returns (hs : ∀ td, s.findTimer tid = some td → td.task ≠ none) :
    (s.jniCallbackStop tid).1 = none := by
  unfold jniCallbackStop
  split
  · next td hfind =>
      obtain ⟨k, hk⟩ := Option.ne_none_iff_exists'.mp (hs td hfind)
      rw [hk]
  · rfl

theorem fireTimer_returns (h : s.findTimer tid ≠ none) (now : Nat) :
    (s.jniCallFireTimer tid now).1 = none := by
  obtain ⟨td, hfind⟩ := Option.ne_none_iff_exists'.mp h
  rw [jniCallFireTimer, hfind]
  dsimp only
  split <;> rfl

/-! ## What is cancelled -/

/-- The task that a call for `tid` cancels is one of `tid`. -/
theorem Equipped.of_mem_taskOf (h : s.Equipped) {k : Nat} (hk : k ∈ s.taskOf tid) :
    ∃ f, s.futures[k]? = some f ∧ f.uTid = tid := by
  rw [taskOf, Option.mem_toList, Option.bind_eq_some_iff] at hk
  obtain ⟨td, htd, htask⟩ := hk
  obtain ⟨k', f, hk', hf, htid⟩ := h.task tid td htd
  cases htask.symm.trans hk'
  exact ⟨f, hf, htid⟩

/-- It is not the task of another timer. -/
theorem Equipped.not_mem_taskOf (h : s.Equipped) {i : Byte} (hi : i ≠ tid) {td : TimerDescriptor}
    (htd : s.findTimer i = some td) {k : Nat} (hk : td.task = some k) : k ∉ s.taskOf tid := by
  intro hmem
  obtain ⟨f, hf, htid⟩ := h.of_mem_taskOf hmem
  obtain ⟨k', f', hk', hf', hi'⟩ := h.task i td htd
  cases hk.symm.trans hk'
  cases hf.symm.trans hf'
  exact hi (hi'.symm.trans htid)

end TimerService

/-! ## One call -/

namespace TimerCalls

variable {s : TimerCalls} {tid : Byte}

/-- What the calls keep: every descriptor has a task of its timer, and the task
of a timer that is running has not been cancelled. -/
structure Kept (s : TimerCalls) : Prop where
  returned : s.threw = false
  unique : (s.service.timerList.map TimerDescriptor.uTid).Nodup
  equipped : s.service.Equipped
  started : ∀ tid ∈ s.started, s.service.findTimer tid ≠ none
  cancelled : ∀ k ∈ s.cancelled, ∃ f, s.service.futures[k]? = some f
  running : ∀ tid td, s.service.findTimer tid = some td → td.isRunning = true →
    ∀ k, td.task = some k → k ∉ s.cancelled

theorem kept_init : Kept init where
  returned := rfl
  unique := List.nodup_nil
  equipped := equipped_init
  started _ h := by cases h
  cancelled _ h := by cases h
  running _ _ h := by simp [init, TimerService.findTimer] at h

theorem Kept.intact (h : Kept s) : Intact s := by
  refine ⟨h.returned, h.unique, ?_, ?_⟩
  · intro td hmem
    exact h.equipped.task_ne_none td (TimerService.findTimer_of_mem h.unique hmem)
  · intro td hmem hrunning
    have htd := TimerService.findTimer_of_mem h.unique hmem
    obtain ⟨k, f, hk, hf, htid⟩ := h.equipped.task td.uTid td htd
    exact ⟨k, hk, h.running td.uTid td htd hrunning k hk, f, hf, htid⟩

theorem threw_after (h : s.threw = false) {r : Option TimerException × TimerService} (hr : r.1 = none) :
    (s.after r).threw = false := by
  rw [after, h, hr]
  rfl

/-- What has been cancelled after a call for `tid`. -/
theorem Kept.cancelled_append (h : Kept s) {service : TimerService}
    (hkept : ∀ (k : Nat) (f : ScheduledFuture), s.service.futures[k]? = some f →
      ∃ f' : ScheduledFuture, service.futures[k]? = some f' ∧ f'.uTid = f.uTid) :
    ∀ k ∈ s.service.taskOf tid ++ s.cancelled, ∃ f, service.futures[k]? = some f := by
  intro k hk
  have hwas : ∃ f, s.service.futures[k]? = some f := by
    obtain hk | hk := List.mem_append.mp hk
    · obtain ⟨f, hf, -⟩ := h.equipped.of_mem_taskOf hk
      exact ⟨f, hf⟩
    · exact h.cancelled k hk
  obtain ⟨f, hf⟩ := hwas
  obtain ⟨f', hf', -⟩ := hkept k f hf
  exact ⟨f', hf'⟩

/-- A timer that runs, other than the one that is called for. -/
theorem Kept.running_append (h : Kept s) {i : Byte} (hi : i ≠ tid) {td : TimerDescriptor}
    (htd : s.service.findTimer i = some td) (hrunning : td.isRunning = true) {k : Nat}
    (hk : td.task = some k) : k ∉ s.service.taskOf tid ++ s.cancelled := by
  rw [List.mem_append, not_or]
  exact ⟨h.equipped.not_mem_taskOf hi htd hk, h.running i td htd hrunning k hk⟩

/-- **A start** that has a period, or needs none. -/
theorem Kept.startTimer (h : Kept s) {t : TimerCalls} {t0 dt : BitVec 32} {isOneShot : Bool} {now : Nat}
    (hperiod : isOneShot = true ∨ dt ≠ 0) (hst : step s (.startTimer tid t0 dt isOneShot now) = some t) :
    Kept t := by
  cases hst
  have hr := TimerService.startTimer_reschedules s.service tid t0 dt isOneShot now
  have htask : ∀ td, s.service.findTimer tid = some td → td.task ≠ none :=
    fun td htd => h.equipped.task_ne_none td htd
  have hstart := TimerService.start_spec htask hperiod t0 now
  constructor
  · exact threw_after h.returned hstart.returns
  · exact TimerService.nodup_start h.unique tid t0 dt isOneShot now
  · exact h.equipped.start t0 now hstart.returns
  · intro i hi
    by_cases heq : i = tid
    · subst heq
      exact Option.ne_none_iff_exists'.mpr ⟨_, hstart.timer⟩
    · refine fun hnone => h.started i ?_ ((hr.others i heq).symm.trans hnone)
      exact (List.mem_cons.mp hi).resolve_left heq
  · exact h.cancelled_append hr.kept
  · intro i td htd hrunning k hk
    by_cases heq : i = tid
    · subst heq
      cases hstart.timer.symm.trans htd
      cases hk
      -- the new task is none of those there were
      intro hmem
      obtain ⟨f, hf⟩ := h.cancelled_append (fun k f hf => ⟨f, hf, rfl⟩) _ hmem
      exact absurd (List.getElem?_eq_some_iff.mp hf).1 (Nat.lt_irrefl _)
    · exact h.running_append heq ((hr.others i heq).symm.trans htd) hrunning hk

/-- **A stop**. -/
theorem Kept.stop (h : Kept s) {t : TimerCalls} (hst : step s (.stop tid) = some t) : Kept t := by
  cases hst
  have hc := TimerService.stop_cancels s.service tid
  have htask : ∀ td, s.service.findTimer tid = some td → td.task ≠ none :=
    fun td htd => h.equipped.task_ne_none td htd
  have hfind := TimerService.findTimer_stop htask
  constructor
  · exact threw_after h.returned (TimerService.stop_returns htask)
  · exact (congrArg List.Nodup (TimerService.map_uTid_stop s.service tid)).mpr h.unique
  · exact h.equipped.stop tid
  · intro i hi
    change (s.service.jniCallbackStop tid).2.findTimer i ≠ none
    rw [hfind]
    exact TimerService.ite_map_ne_none (h.started i hi) _ _
  · exact h.cancelled_append hc.kept
  · intro i td htd hrunning k hk
    by_cases heq : i = tid
    · -- it is not running any more
      change (s.service.jniCallbackStop tid).2.findTimer i = some td at htd
      rw [hfind, if_pos heq] at htd
      obtain ⟨td', -, rfl⟩ := Option.map_eq_some_iff.mp htd
      cases hrunning
    · exact h.running_append heq ((hc.others i heq).symm.trans htd) hrunning hk

theorem isRunning_of_fired {td : TimerDescriptor} {now : Nat} (h : (td.fired now).isRunning = true) :
    td.isRunning = true := by
  unfold TimerDescriptor.fired at h
  split at h
  · cases h
  · exact h

/-- **A dispatch** of a timer that has been started. -/
theorem Kept.fireTimer (h : Kept s) {t : TimerCalls} {now : Nat}
    (hst : step s (.fireTimer tid now) = some t) : Kept t := by
  obtain ⟨hstarted, ⟨⟩⟩ := Option.ite_none_right_eq_some.mp hst
  have hfind := TimerService.findTimer_fireTimer s.service tid now
  obtain ⟨-, hfutures, -⟩ := TimerService.fireTimer_spec s.service tid now
  constructor
  · exact threw_after h.returned (TimerService.fireTimer_returns (h.started tid hstarted) now)
  · exact (congrArg List.Nodup (TimerService.map_uTid_fireTimer s.service tid now)).mpr h.unique
  · exact h.equipped.fireTimer tid now
  · intro i hi
    change (s.service.jniCallFireTimer tid now).2.findTimer i ≠ none
    rw [hfind]
    exact TimerService.ite_map_ne_none (h.started i hi) _ _
  · intro k hk
    change ∃ f, (s.service.jniCallFireTimer tid now).2.futures[k]? = some f
    rw [hfutures]
    exact h.cancelled k hk
  · intro i td htd hrunning k hk
    change (s.service.jniCallFireTimer tid now).2.findTimer i = some td at htd
    rw [hfind] at htd
    split at htd
    · obtain ⟨td', htd', rfl⟩ := Option.map_eq_some_iff.mp htd
      rw [TimerService.task_fired] at hk
      exact h.running i td' htd' (isRunning_of_fired hrunning) k hk
    · exact h.running i td htd hrunning k hk

/-- **The scheduler** changes a task, and no descriptor. -/
theorem Kept.modify (h : Kept s) {g : ScheduledFuture → ScheduledFuture} (htid : ∀ f, (g f).uTid = f.uTid)
    (hpend : ∀ f, (g f).pending = true → f.pending = true) (j : Nat) {running : Option Nat}
    (hruns : ∀ k, running = some k → ∃ f, s.service.futures[k]? = some f) :
    Kept { s with service := { s.service with futures := s.service.futures.modify j g, running := running } } where
  returned := h.returned
  unique := h.unique
  equipped := h.equipped.modify htid hpend j hruns
  started := h.started
  cancelled k hk := by
    obtain ⟨f, hf⟩ := h.cancelled k hk
    obtain ⟨f', hf', -⟩ := TimerService.kept_modify (j := j) htid hf
    exact ⟨f', hf'⟩
  running := h.running

/-- **One call** that has a period, or needs none. -/
theorem Kept.step (h : Kept s) {c : TimerCall} (hperiod : c.HasPeriod) {t : TimerCalls}
    (hst : TimerCalls.step s c = some t) : Kept t := by
  cases c with
  | startTimer tid t0 dt isOneShot now => exact h.startTimer hperiod hst
  | stop tid => exact h.stop hst
  | fireTimer tid now => exact h.fireTimer hst
  | begin k now =>
      obtain ⟨service, hs, rfl⟩ := Option.map_eq_some_iff.mp hst
      obtain ⟨f, -, hf, -, -, rfl⟩ := begin_eq_some hs
      refine h.modify ScheduledFuture.uTid_begin (fun _ => ScheduledFuture.pending_of_begin) k ?_
      rintro j ⟨⟩
      exact ⟨f, hf⟩
  | finish =>
      obtain ⟨⟨tid, service⟩, hs, rfl⟩ := Option.map_eq_some_iff.mp hst
      obtain ⟨k, f, -, -, -, rfl⟩ := finish_eq_some hs
      exact h.modify (g := ScheduledFuture.finish) (fun _ => rfl) (fun _ hf => hf) k
        (fun j hj => absurd hj (Option.not_mem_none j))

/-- **Only a call without a period** breaks what the calls keep: it throws. -/
theorem hasPeriod_of_intact {c : TimerCall} {t : TimerCalls} (hst : step s c = some t) (ht : Intact t) :
    c.HasPeriod := by
  cases c with
  | startTimer tid t0 dt isOneShot now =>
      cases hst
      have hreturned := (Bool.or_eq_false_iff.mp ht.returned).2
      exact TimerService.ok_of_start (Option.isSome_eq_false_iff.mp hreturned |> Option.isNone_iff_eq_none.mp)
  | stop tid => trivial
  | fireTimer tid now => trivial
  | begin k now => trivial
  | finish => trivial

end TimerCalls

/-! ## Whole sequences -/

/-- **The descriptors**, after every call of a sequence: no call has thrown,
every timer has one descriptor, which has a task, and the task of a running
timer has not been cancelled, exactly if no start of the sequence repeats with
a period of 0. -/
theorem always_intact_iff {calls : List TimerCall} {s : TimerCalls}
    (hrun : Lts.run TimerCalls.step .init calls = some s) :
    Lts.Always TimerCalls.step TimerCalls.Intact .init calls ↔ ∀ c ∈ calls, c.HasPeriod := by
  have hintact : ∀ s : TimerCalls, s.Kept → s.Intact := fun s h => h.intact
  have hkeep : ∀ (s : TimerCalls) (c : TimerCall) (t : TimerCalls), s.Kept → c.HasPeriod →
      s.step c = some t → t.Kept := fun s c t h hperiod hst => h.step hperiod hst
  rw [← Lts.along_iff_forall hrun]
  refine Lts.always_iff_along hintact hkeep ?_ TimerCalls.kept_init hrun
  exact fun s c t _ ht hst => TimerCalls.hasPeriod_of_intact hst ht

/-- A periodic timer that fires, is started again as a one-shot timer, fires and
is stopped. -/
def startedTwice : List TimerCall :=
  [.startTimer 1 0 5 false 0, .startTimer 2 0 0 true 0, .begin 0 5, .finish, .fireTimer 1 6,
    .startTimer 1 6 0 true 7, .begin 2 7, .finish, .fireTimer 1 8, .stop 1]

theorem always_intact_iff_startedTwice :
    Lts.Always TimerCalls.step TimerCalls.Intact .init startedTwice :=
  (always_intact_iff (Option.some_get (by decide :
    (Lts.run TimerCalls.step .init startedTwice).isSome = true)).symm).mpr (by decide)

/-- A timer that is to repeat without a pause throws, and so does every call for
it from then on. -/
theorem broken_without_period :
    ∃ s, Lts.run TimerCalls.step .init [.startTimer 1 0 0 false 0] = some s ∧ ¬ s.Intact ∧
      s.service.timerList = [⟨1, 0, 0, false, true, none⟩] ∧
      s.service.jniCallbackStop 1 = (some .nullPointer, s.service) := by
  refine ⟨_, rfl, fun h => ?_, by decide, by decide⟩
  exact absurd h.returned (by decide)

end Pobicos.Client
