import Pobicos.Java
import Pobicos.Lib.Lts

/-!
# Pobicos.Client.TimerService

`TimerService.java`: the platform timers, kept on a scheduler with one thread.

A timer that expires does not call the middleware: its task offers an event to
the queue of the event handler thread, which calls it when it comes to
dispatch the event.  The calls of the middleware that start and stop timers are
made by that thread too, while it dispatches other events; they cancel the task
of the timer, which does not recall an event that has been offered already.
`honoured_of_run` says that nothing else goes wrong.

Times are milliseconds since `Init_Time`.
-/

namespace Pobicos.Client

open Octets

/-! ## The scheduler -/

/-- A task of the `ScheduledThreadPoolExecutor`: the `TimerTask` of a timer,
when it is to run next, its period if it has one, and whether it has still to
run. -/
structure ScheduledFuture where
  uTid : Byte
  time : Nat
  period : Option Nat
  pending : Bool
  deriving DecidableEq, Repr

/-- `cancel(false)`: a run that has begun goes on to its end. -/
def ScheduledFuture.cancel (f : ScheduledFuture) : ScheduledFuture := { f with pending := false }

/-- The task when its run begins: one without a period does not run again. -/
def ScheduledFuture.begin (f : ScheduledFuture) : ScheduledFuture :=
  if f.period.isNone then { f with pending := false } else f

/-- The task when its run has ended: one with a period has been put off by it. -/
def ScheduledFuture.finish (f : ScheduledFuture) : ScheduledFuture :=
  { f with time := f.time + f.period.getD 0 }

/-! ## The service -/

structure TimerDescriptor where
  uTid : Byte
  uT0 : BitVec 32
  uDt : BitVec 32
  isOneShot : Bool
  isRunning : Bool
  task : Option Nat
  deriving DecidableEq, Repr

inductive TimerException
  | nullPointer
  | illegalArgument
  deriving DecidableEq, Repr

/-- `timer_list`, the tasks that have been scheduled, and the one that the
thread of the scheduler runs. -/
structure TimerService where
  timerList : List TimerDescriptor
  futures : List ScheduledFuture
  running : Option Nat
  deriving DecidableEq, Repr

namespace TimerService

variable {s : TimerService} {tid : Byte}

/-- `findTimer(tid)`. -/
def findTimer (s : TimerService) (tid : Byte) : Option TimerDescriptor :=
  s.timerList.find? fun td => td.uTid = tid

/-- A change of the first descriptor of `tid`. -/
def modifyFirst (tid : Byte) (f : TimerDescriptor → TimerDescriptor) :
    List TimerDescriptor → List TimerDescriptor
  | [] => []
  | td :: tds => if td.uTid = tid then f td :: tds else td :: modifyFirst tid f tds

/-- A change of the descriptor that `findTimer(tid)` finds. -/
def setTimer (s : TimerService) (tid : Byte) (f : TimerDescriptor → TimerDescriptor) : TimerService :=
  { s with timerList := modifyFirst tid f s.timerList }

/-- `cancel(false)` on a task. -/
def cancel (s : TimerService) (k : Nat) : TimerService :=
  { s with futures := s.futures.modify k ScheduledFuture.cancel }

/-- A task that has been scheduled, and `td.setTask(t)`. -/
def schedule (s : TimerService) (tid : Byte) (time : Nat) (period : Option Nat) : TimerService :=
  let s' : TimerService := { s with futures := s.futures ++ [⟨tid, time, period, true⟩] }
  s'.setTimer tid fun td => { td with task := some s.futures.length }

/-- `getIntNow()`. -/
def getIntNow (now : Nat) : BitVec 32 := BitVec.ofNat 32 now

/-- `JNICall_fireTimer(tid)`, up to the call of `nativeTimerFired(tid)`. -/
def jniCallFireTimer (s : TimerService) (tid : Byte) (now : Nat) :
    Option TimerException × TimerService :=
  match s.findTimer tid with
  | none => (some .nullPointer, s)
  | some td =>
      if td.isOneShot then (none, s.setTimer tid fun td => { td with isRunning := false })
      else (none, s.setTimer tid fun td => { td with uT0 := getIntNow now })

/-- `initial_delay` of `JNICallback_startTimer`. -/
def initialDelay (now : Nat) (t0 dt : BitVec 32) : Nat :=
  let t1 := t0.toNat + dt.toNat
  if now ≤ t1 then t1 - now else 0

/-- The second half of `JNICallback_startTimer`, from `if(isoneshot)` on. -/
def fire (s : TimerService) (tid : Byte) (t0 dt : BitVec 32) (isOneShot : Bool) (now : Nat) :
    Option TimerException × TimerService :=
  if isOneShot then (none, s.schedule tid (now + initialDelay now t0 dt) none)
  else if dt.toNat = 0 then (some .illegalArgument, s)
  else (none, s.schedule tid (now + initialDelay now t0 dt) (some dt.toNat))

/-- `JNICallback_startTimer(tid, t0, dt, isoneshot)`. -/
def jniCallbackStartTimer (s : TimerService) (tid : Byte) (t0 dt : BitVec 32) (isOneShot : Bool)
    (now : Nat) : Option TimerException × TimerService :=
  match s.findTimer tid with
  | some td =>
      match td.task with
      | none => (some .nullPointer, s)
      | some k =>
          ((s.cancel k).setTimer tid fun td =>
            { td with uT0 := t0, uDt := dt, isOneShot := isOneShot, isRunning := true }).fire
              tid t0 dt isOneShot now
  | none =>
      let s' : TimerService :=
        { s with timerList := s.timerList ++ [⟨tid, t0, dt, isOneShot, true, none⟩] }
      s'.fire tid t0 dt isOneShot now

/-- `JNICallback_stop(tid)`. -/
def jniCallbackStop (s : TimerService) (tid : Byte) : Option TimerException × TimerService :=
  match s.findTimer tid with
  | some td =>
      match td.task with
      | none => (some .nullPointer, s)
      | some k => (none, (s.cancel k).setTimer tid fun td => { td with isRunning := false })
  | none => (none, s)

/-- The thread of the scheduler begins to run the task `k`: of the tasks that
are due any may come first. -/
def begin (s : TimerService) (k now : Nat) : Option TimerService :=
  match s.running, s.futures[k]? with
  | none, some f =>
      if f.pending ∧ f.time ≤ now then
        some { s with futures := s.futures.modify k ScheduledFuture.begin, running := some k }
      else none
  | _, _ => none

/-- The thread of the scheduler ends the run of its task, which has offered the
event of the timer. -/
def finish (s : TimerService) : Option (Byte × TimerService) :=
  s.running.bind fun k => s.futures[k]?.map fun f =>
    (f.uTid, { s with futures := s.futures.modify k ScheduledFuture.finish, running := none })

end TimerService

/-! ## Runs -/

/-- What is in the event queue: the expiry of a timer, or an event of another
service. -/
inductive ServiceEvent
  | timerFired (tid : Byte)
  | other
  deriving DecidableEq, Repr

/-- The service between the scheduler and the event handler thread, which ends
when a dispatch throws. -/
structure TimerSystem where
  service : TimerService
  queue : List ServiceEvent
  alive : Bool
  clock : Nat
  deriving DecidableEq, Repr

inductive TimerAction
  | startTimer (tid : Byte) (t0 dt : BitVec 32) (isOneShot : Bool) (t : Nat)
  | stop (tid : Byte) (t : Nat)
  | begin (k : Nat) (t : Nat)
  | offer (t : Nat)
  | other (t : Nat)
  | dispatch (t : Nat)
  deriving DecidableEq, Repr

/-- What the middleware has asked for and what it has been told. -/
inductive TimerEvent
  | started (tid : Byte) (t0 dt : BitVec 32)
  | stopped (tid : Byte)
  | fired (tid : Byte) (t : Nat)
  deriving DecidableEq, Repr

namespace TimerSystem

/-- The service when it has been created at the time `t`. -/
def init (t : Nat) : TimerSystem := ⟨⟨[], [], none⟩, [], true, t⟩

/-- A call has been made by the event handler thread at the time `t`. -/
def after (σ : TimerSystem) (t : Nat) (r : Option TimerException × TimerService) : TimerSystem :=
  { σ with service := r.2, alive := r.1.isNone, clock := t }

/-- One step.  The event handler thread may call the service at any time while
it lives. -/
def step (σ : TimerSystem) : TimerAction → Option TimerSystem
  | .startTimer tid t0 dt isOneShot t =>
      if σ.clock ≤ t ∧ σ.alive then
        some (σ.after t (σ.service.jniCallbackStartTimer tid t0 dt isOneShot t))
      else none
  | .stop tid t =>
      if σ.clock ≤ t ∧ σ.alive then some (σ.after t (σ.service.jniCallbackStop tid)) else none
  | .begin k t =>
      if σ.clock ≤ t then (σ.service.begin k t).map fun s => { σ with service := s, clock := t }
      else none
  | .offer t =>
      if σ.clock ≤ t then
        σ.service.finish.map fun (tid, s) =>
          { σ with service := s, queue := σ.queue ++ [.timerFired tid], clock := t }
      else none
  | .other t =>
      if σ.clock ≤ t then some { σ with queue := σ.queue ++ [.other], clock := t } else none
  | .dispatch t =>
      if σ.clock ≤ t ∧ σ.alive then
        match σ.queue with
        | [] => none
        | .other :: queue => some { σ with queue := queue, clock := t }
        | .timerFired tid :: queue =>
            some ({ σ with queue := queue }.after t (σ.service.jniCallFireTimer tid t))
      else none

/-- The calls of a step. -/
def events (σ : TimerSystem) : TimerAction → List TimerEvent
  | .startTimer tid t0 dt _ _ => [.started tid t0 dt]
  | .stop tid _ => [.stopped tid]
  | .dispatch t =>
      match σ.queue with
      | .timerFired tid :: _ =>
          if (σ.service.jniCallFireTimer tid t).1 = none then [.fired tid t] else []
      | _ => []
  | .begin _ _ => []
  | .offer _ => []
  | .other _ => []

end TimerSystem

/-! ## What the middleware can hold a timer to -/

/-- The latest that the middleware has asked of a timer. -/
inductive Control
  | started (t0 dt : BitVec 32)
  | stopped
  deriving DecidableEq, Repr

/-- The latest call for `tid` after one more event. -/
def recordControl (tid : Byte) (c : Option Control) : TimerEvent → Option Control
  | .started i t0 dt => if i = tid then some (.started t0 dt) else c
  | .stopped i => if i = tid then some .stopped else c
  | .fired _ _ => c

/-- The latest call for `tid` in a history. -/
def control (tid : Byte) (es : List TimerEvent) : Option Control := es.foldl (recordControl tid) none

/-- The latest call for `tid` has started it, and its time is over at the time
`t`. -/
def Expired (tid : Byte) (es : List TimerEvent) (t : Nat) : Prop :=
  ∃ t0 dt, control tid es = some (.started t0 dt) ∧ t0.toNat + dt.toNat ≤ t

/-- `nativeTimerFired` is called for a timer only when it has expired. -/
def Honours (es : List TimerEvent) : TimerEvent → Prop
  | .fired tid t => Expired tid es t
  | _ => True

/-- Every event of the history was honoured when it happened. -/
def Honoured (es : List TimerEvent) : Prop := Lts.Each Honours es

/-- An expiry of `tid` has been offered and not dispatched, or is being
offered. -/
def Waiting (σ : TimerSystem) (tid : Byte) : Prop :=
  .timerFired tid ∈ σ.queue ∨ ∃ k ∈ σ.service.running, ∃ f ∈ σ.service.futures[k]?, f.uTid = tid

/-- A timer is not stopped, nor started for a time to come, while an expiry of
it is waiting. -/
def Recalls (σ : TimerSystem) : TimerAction → Prop
  | .startTimer tid t0 dt _ t => t < t0.toNat + dt.toNat → ¬ Waiting σ tid
  | .stop tid _ => ¬ Waiting σ tid
  | _ => True

instance (σ : TimerSystem) (tid : Byte) : Decidable (Waiting σ tid) :=
  inferInstanceAs (Decidable (_ ∨ _))

instance (σ : TimerSystem) : DecidablePred (Recalls σ)
  | .startTimer tid t0 dt _ t => inferInstanceAs (Decidable (t < t0.toNat + dt.toNat → ¬ Waiting σ tid))
  | .stop tid _ => inferInstanceAs (Decidable (¬ Waiting σ tid))
  | .begin _ _ => isTrue trivial
  | .offer _ => isTrue trivial
  | .other _ => isTrue trivial
  | .dispatch _ => isTrue trivial

/-! ## What the calls do -/

namespace TimerService

variable {s : TimerService} {tid i : Byte} {k : Nat} {f : ScheduledFuture}

theorem find_modifyFirst (g : TimerDescriptor → TimerDescriptor) (hg : ∀ td, (g td).uTid = td.uTid)
    (tds : List TimerDescriptor) (tid i : Byte) :
    (modifyFirst tid g tds).find? (fun td => td.uTid = i) =
      if i = tid then (tds.find? fun td => td.uTid = i).map g else tds.find? fun td => td.uTid = i := by
  induction tds with
  | nil => simp [modifyFirst]
  | cons td tds ih =>
      rw [modifyFirst]
      by_cases htd : td.uTid = tid
      · rw [if_pos htd, List.find?_cons, List.find?_cons, hg]
        by_cases hi : i = tid
        · simp [hi, htd]
        · simp [hi, htd, Ne.symm hi]
      · rw [if_neg htd, List.find?_cons, List.find?_cons, ih]
        by_cases hi : i = tid
        · simp [hi, htd]
        · simp [hi]

theorem findTimer_setTimer {g : TimerDescriptor → TimerDescriptor} (hg : ∀ td, (g td).uTid = td.uTid) :
    (s.setTimer tid g).findTimer i =
      if i = tid then (s.findTimer i).map g else s.findTimer i := find_modifyFirst g hg s.timerList tid i

theorem findTimer_setTimer_ne_none {g : TimerDescriptor → TimerDescriptor}
    (hg : ∀ td, (g td).uTid = td.uTid) (h : s.findTimer tid ≠ none) :
    (s.setTimer tid g).findTimer tid ≠ none := by
  rw [findTimer_setTimer hg, if_pos rfl]
  simpa using h

/-- The task of `tid` has been cancelled, if there was one; the other timers
have been left alone. -/
structure Cancels (s s' : TimerService) (tid : Byte) : Prop where
  running : s'.running = s.running
  others : ∀ i, i ≠ tid → s'.findTimer i = s.findTimer i
  kept : ∀ (k : Nat) (f : ScheduledFuture), s.futures[k]? = some f →
    ∃ f' : ScheduledFuture, s'.futures[k]? = some f' ∧ f'.uTid = f.uTid
  pending : ∀ k f, s'.futures[k]? = some f → f.pending = true →
    s.futures[k]? = some f ∧ ∀ td, s.findTimer tid = some td → td.task ≠ some k

/-- The task of `tid` has been cancelled, and another one may have been
scheduled, to run at `time` or later. -/
structure Reschedules (s s' : TimerService) (tid : Byte) (time : Nat) : Prop where
  running : s'.running = s.running
  others : ∀ i, i ≠ tid → s'.findTimer i = s.findTimer i
  kept : ∀ (k : Nat) (f : ScheduledFuture), s.futures[k]? = some f →
    ∃ f' : ScheduledFuture, s'.futures[k]? = some f' ∧ f'.uTid = f.uTid
  pending : ∀ k f, s'.futures[k]? = some f → f.pending = true →
    (s.futures[k]? = some f ∧ ∀ td, s.findTimer tid = some td → td.task ≠ some k) ∨
    f.uTid = tid ∧ time ≤ f.time ∧ ∃ td, s'.findTimer tid = some td ∧ td.task = some k

theorem Cancels.reschedules {s' : TimerService} (h : Cancels s s' tid) (time : Nat) :
    Reschedules s s' tid time :=
  ⟨h.running, h.others, h.kept, fun k f hf hpending => Or.inl (h.pending k f hf hpending)⟩

/-- Tasks that are changed without a change of their timers. -/
theorem kept_modify {g : ScheduledFuture → ScheduledFuture} (hg : ∀ f, (g f).uTid = f.uTid) {j : Nat}
    (h : s.futures[k]? = some f) : ∃ f', (s.futures.modify j g)[k]? = some f' ∧ f'.uTid = f.uTid := by
  rw [List.getElem?_modify, h]
  by_cases hj : j = k
  · exact ⟨g f, by simp [hj], hg f⟩
  · exact ⟨f, by simp [hj], rfl⟩

/-- What is pending after a `cancel(false)`. -/
theorem pending_cancel {j : Nat} (h : (s.cancel j).futures[k]? = some f) (hpending : f.pending = true) :
    s.futures[k]? = some f ∧ k ≠ j := by
  rw [cancel, List.getElem?_modify] at h
  obtain ⟨f₀, hf₀, rfl⟩ := Option.map_eq_some_iff.mp h
  by_cases hj : j = k
  · simp [hj, ScheduledFuture.cancel] at hpending
  · rw [if_neg hj]
    exact ⟨hf₀, Ne.symm hj⟩

/-- **A task that has been scheduled** is the one its descriptor names. -/
theorem schedule_spec (s : TimerService) (tid : Byte) (time : Nat) (period : Option Nat) :
    (s.schedule tid time period).running = s.running ∧
      (∀ i, i ≠ tid → (s.schedule tid time period).findTimer i = s.findTimer i) ∧
      (s.schedule tid time period).futures = s.futures ++ [⟨tid, time, period, true⟩] ∧
      (s.schedule tid time period).findTimer tid =
        (s.findTimer tid).map fun td => { td with task := some s.futures.length } := by
  refine ⟨rfl, fun i hi => ?_, rfl, ?_⟩
  · refine (findTimer_setTimer ?_).trans (if_neg hi)
    exact fun _ => rfl
  · refine (findTimer_setTimer ?_).trans (if_pos rfl)
    exact fun _ => rfl

theorem time_le_initialDelay (now : Nat) (t0 dt : BitVec 32) :
    t0.toNat + dt.toNat ≤ now + initialDelay now t0 dt := by
  unfold initialDelay
  simp only
  split <;> omega

/-- **The second half of a start** schedules a task for the time it is started
for, or throws. -/
theorem fire_spec (s : TimerService) (tid : Byte) (t0 dt : BitVec 32) (isOneShot : Bool) (now : Nat) :
    (s.fire tid t0 dt isOneShot now).2 = s ∨
      ∃ time period, t0.toNat + dt.toNat ≤ time ∧
        (s.fire tid t0 dt isOneShot now).2 = s.schedule tid time period := by
  unfold fire
  split
  · exact Or.inr ⟨_, _, time_le_initialDelay now t0 dt, rfl⟩
  · split
    · exact Or.inl rfl
    · exact Or.inr ⟨_, _, time_le_initialDelay now t0 dt, rfl⟩

theorem Cancels.schedule {s' : TimerService} (h : Cancels s s' tid) (hfind : s'.findTimer tid ≠ none)
    {time t : Nat} (ht : t ≤ time) (period : Option Nat) :
    Reschedules s (s'.schedule tid time period) tid t := by
  obtain ⟨hrunning, hothers, hfutures, htask⟩ := schedule_spec s' tid time period
  refine ⟨hrunning.trans h.running, fun i hi => (hothers i hi).trans (h.others i hi), ?_, ?_⟩
  · intro k f hf
    obtain ⟨f', hf', htid⟩ := h.kept k f hf
    refine ⟨f', ?_, htid⟩
    rw [hfutures, List.getElem?_append_left (List.getElem?_eq_some_iff.mp hf').1, hf']
  · intro k f hf hpending
    rw [hfutures] at hf
    by_cases hk : k < s'.futures.length
    · rw [List.getElem?_append_left hk] at hf
      exact Or.inl (h.pending k f hf hpending)
    · obtain ⟨td, htd⟩ := Option.ne_none_iff_exists'.mp hfind
      rw [List.getElem?_append_right (Nat.not_lt.mp hk), List.getElem?_singleton] at hf
      split at hf
      · next hlast =>
        cases hf
        rw [htask, htd]
        refine Or.inr ⟨rfl, ht, _, rfl, ?_⟩
        rw [show k = s'.futures.length by omega]
      · cases hf

/-- Where there is no task there is none to cancel. -/
theorem cancels_self (h : ∀ td, s.findTimer tid = some td → td.task = none) : Cancels s s tid where
  running := rfl
  others _ _ := rfl
  kept k f hf := ⟨f, hf, rfl⟩
  pending k f hf _ := ⟨hf, fun td htd => by rw [h td htd]; exact Option.some_ne_none k |>.symm⟩

/-- `cancel(false)` on the task of a descriptor, and a change of the
descriptor. -/
theorem cancels_setTimer {td : TimerDescriptor} {j : Nat} (hfind : s.findTimer tid = some td)
    (htask : td.task = some j) {g : TimerDescriptor → TimerDescriptor}
    (hg : ∀ td, (g td).uTid = td.uTid) : Cancels s ((s.cancel j).setTimer tid g) tid where
  running := rfl
  others i hi := (findTimer_setTimer hg).trans (if_neg hi)
  kept k f hf := kept_modify (g := ScheduledFuture.cancel) (fun _ => rfl) hf
  pending k f hf hpending := by
    obtain ⟨hwas, hne⟩ := pending_cancel hf hpending
    refine ⟨hwas, fun td' htd' heq => hne ?_⟩
    rw [hfind] at htd'
    cases htd'
    rw [htask] at heq
    exact (Option.some.inj heq).symm

/-- **A start** cancels the task of the timer and schedules another one. -/
theorem startTimer_reschedules (s : TimerService) (tid : Byte) (t0 dt : BitVec 32) (isOneShot : Bool)
    (now : Nat) :
    Reschedules s (s.jniCallbackStartTimer tid t0 dt isOneShot now).2 tid (t0.toNat + dt.toNat) := by
  have hfire : ∀ s', Cancels s s' tid → s'.findTimer tid ≠ none →
      Reschedules s (s'.fire tid t0 dt isOneShot now).2 tid (t0.toNat + dt.toNat) := by
    intro s' hcancels hfind
    obtain hsame | ⟨time, period, htime, hsched⟩ := fire_spec s' tid t0 dt isOneShot now
    · rw [hsame]
      exact hcancels.reschedules _
    · rw [hsched]
      exact hcancels.schedule hfind htime period
  unfold jniCallbackStartTimer
  cases hfind : s.findTimer tid with
  | none =>
      refine hfire _ ⟨rfl, fun i hi => ?_, fun k f hf => ⟨f, hf, rfl⟩, fun k f hf _ => ⟨hf, ?_⟩⟩ ?_
      · have hne : ¬ tid = i := Ne.symm hi
        simp [findTimer, List.find?_append, hne]
      · intro td htd
        rw [hfind] at htd
        cases htd
      · simp [findTimer, List.find?_append]
  | some td =>
      cases htask : td.task with
      | none =>
          simp only [htask]
          refine (cancels_self fun td' htd' => ?_).reschedules _
          rw [hfind] at htd'
          cases htd'
          exact htask
      | some j =>
          simp only [htask]
          refine hfire _ (cancels_setTimer hfind htask ?_) ?_
          · exact fun _ => rfl
          · have hfound : (s.cancel j).findTimer tid ≠ none := by
              show s.findTimer tid ≠ none
              simp [hfind]
            refine findTimer_setTimer_ne_none ?_ hfound
            exact fun _ => rfl

/-- **A stop** cancels the task of the timer. -/
theorem stop_cancels (s : TimerService) (tid : Byte) : Cancels s (s.jniCallbackStop tid).2 tid := by
  unfold jniCallbackStop
  cases hfind : s.findTimer tid with
  | none =>
      refine cancels_self fun td htd => ?_
      rw [hfind] at htd
      cases htd
  | some td =>
      cases htask : td.task with
      | none =>
          simp only [htask]
          refine cancels_self fun td' htd' => ?_
          rw [hfind] at htd'
          cases htd'
          exact htask
      | some j =>
          simp only [htask]
          refine cancels_setTimer hfind htask ?_
          exact fun _ => rfl

/-- **A firing** leaves the tasks of the timers alone. -/
theorem fireTimer_spec (s : TimerService) (tid : Byte) (now : Nat) :
    (s.jniCallFireTimer tid now).2.running = s.running ∧
      (s.jniCallFireTimer tid now).2.futures = s.futures ∧
      ∀ i td, s.findTimer i = some td →
        ∃ td', (s.jniCallFireTimer tid now).2.findTimer i = some td' ∧ td'.task = td.task := by
  have hset : ∀ g : TimerDescriptor → TimerDescriptor, (∀ td, (g td).uTid = td.uTid) →
      (∀ td, (g td).task = td.task) → ∀ i td, s.findTimer i = some td →
        ∃ td', (s.setTimer tid g).findTimer i = some td' ∧ td'.task = td.task := by
    intro g hg hkeep i td htd
    rw [findTimer_setTimer hg, htd]
    by_cases hi : i = tid
    · exact ⟨g td, by simp [hi], hkeep td⟩
    · exact ⟨td, by simp [hi], rfl⟩
  unfold jniCallFireTimer
  split
  · exact ⟨rfl, rfl, fun i td htd => ⟨td, htd, rfl⟩⟩
  · split
    · refine ⟨rfl, rfl, hset _ ?_ ?_⟩ <;> exact fun _ => rfl
    · refine ⟨rfl, rfl, hset _ ?_ ?_⟩ <;> exact fun _ => rfl

end TimerService

/-! ## Expiries and the history -/

variable {σ τ : TimerSystem} {es : List TimerEvent} {tid : Byte}

theorem control_append (tid : Byte) (es fs : List TimerEvent) :
    control tid (es ++ fs) = fs.foldl (recordControl tid) (control tid es) := List.foldl_append ..

theorem control_started (tid : Byte) (es : List TimerEvent) (t0 dt : BitVec 32) :
    control tid (es ++ [.started tid t0 dt]) = some (.started t0 dt) := by
  rw [control_append, List.foldl_cons, List.foldl_nil, recordControl, if_pos rfl]

theorem control_fired (tid i : Byte) (es : List TimerEvent) (t : Nat) :
    control tid (es ++ [.fired i t]) = control tid es := control_append ..

theorem Expired.later {t u : Nat} (h : Expired tid es t) (htu : t ≤ u) : Expired tid es u := by
  obtain ⟨t0, dt, hcontrol, hle⟩ := h
  exact ⟨t0, dt, hcontrol, Nat.le_trans hle htu⟩

theorem Expired.congr {fs : List TimerEvent} {t : Nat} (h : Expired tid es t)
    (hsame : control tid fs = control tid es) : Expired tid fs t := by
  obtain ⟨t0, dt, hcontrol, hle⟩ := h
  exact ⟨t0, dt, hsame.trans hcontrol, hle⟩

/-- What has been offered and what is being offered has expired; what is pending
waits for its timer to expire, and can be cancelled. -/
structure Accounted (σ : TimerSystem) (es : List TimerEvent) : Prop where
  queued : ∀ tid, .timerFired tid ∈ σ.queue → Expired tid es σ.clock
  running : ∀ k, σ.service.running = some k →
    ∃ f, σ.service.futures[k]? = some f ∧ Expired f.uTid es σ.clock
  pending : ∀ k f, σ.service.futures[k]? = some f → f.pending = true →
    Expired f.uTid es f.time ∧ ∃ td, σ.service.findTimer f.uTid = some td ∧ td.task = some k

theorem accounted_init (t : Nat) : Accounted (.init t) [] :=
  ⟨fun _ h => (nomatch h), fun _ h => (nomatch h), fun _ _ h => (nomatch h)⟩

/-- **A call for a timer** of which nothing is waiting, or which has expired
already. -/
theorem Accounted.call (h : Accounted σ es) {s' : TimerService} (hrunning : s'.running = σ.service.running)
    (hothers : ∀ i, i ≠ tid → s'.findTimer i = σ.service.findTimer i)
    (hkept : ∀ (k : Nat) (f : ScheduledFuture), σ.service.futures[k]? = some f →
      ∃ f' : ScheduledFuture, s'.futures[k]? = some f' ∧ f'.uTid = f.uTid)
    {e : TimerEvent} {t : Nat} (hother : ∀ i, i ≠ tid → control i (es ++ [e]) = control i es)
    (hpending : ∀ k f, s'.futures[k]? = some f → f.pending = true →
      (σ.service.futures[k]? = some f ∧ ∀ td, σ.service.findTimer tid = some td → td.task ≠ some k) ∨
      Expired f.uTid (es ++ [e]) f.time ∧ ∃ td, s'.findTimer f.uTid = some td ∧ td.task = some k)
    (ht : σ.clock ≤ t) (hwaiting : Waiting σ tid → Expired tid (es ++ [e]) t) (alive : Bool) :
    Accounted { σ with service := s', alive := alive, clock := t } (es ++ [e]) := by
  -- an expiry that is waiting is one of `tid`, or of a timer that is left alone
  have hwait : ∀ i, Waiting σ i → Expired i es σ.clock → Expired i (es ++ [e]) t := by
    intro i hi hexp
    by_cases heq : i = tid
    · subst heq
      exact hwaiting hi
    · exact (hexp.congr (hother i heq)).later ht
  refine ⟨fun i hi => hwait i (Or.inl hi) (h.queued i hi), fun k hk => ?_, fun k f hf hpend => ?_⟩
  · simp only [hrunning] at hk
    obtain ⟨f, hf, hexp⟩ := h.running k hk
    obtain ⟨f', hf', htid⟩ := hkept k f hf
    refine ⟨f', hf', ?_⟩
    rw [htid]
    exact hwait f.uTid (Or.inr ⟨k, hk, f, hf, rfl⟩) hexp
  · obtain ⟨hwas, htask⟩ | hnew := hpending k f hf hpend
    · obtain ⟨hexp, td, htd, hk⟩ := h.pending k f hwas hpend
      have hne : f.uTid ≠ tid := by
        intro heq
        rw [heq] at htd
        exact htask td htd hk
      exact ⟨hexp.congr (hother f.uTid hne), td, (hothers f.uTid hne).trans htd, hk⟩
    · exact hnew

/-- **A task that begins or ends its run** keeps its timer, and does not run
earlier. -/
theorem Accounted.pending_modify (h : Accounted σ es) {g : ScheduledFuture → ScheduledFuture}
    (htid : ∀ f, (g f).uTid = f.uTid) (hpend : ∀ f, (g f).pending = true → f.pending = true)
    (htime : ∀ f, f.time ≤ (g f).time) (j k : Nat) (f : ScheduledFuture)
    (hf : (σ.service.futures.modify j g)[k]? = some f) (hpending : f.pending = true) :
    Expired f.uTid es f.time ∧ ∃ td, σ.service.findTimer f.uTid = some td ∧ td.task = some k := by
  rw [List.getElem?_modify] at hf
  obtain ⟨f₀, hf₀, rfl⟩ := Option.map_eq_some_iff.mp hf
  by_cases hj : j = k
  · rw [if_pos hj] at hpending ⊢
    obtain ⟨hexp, td, htd, hk⟩ := h.pending k f₀ hf₀ (hpend f₀ hpending)
    rw [htid]
    exact ⟨hexp.later (htime f₀), td, htd, hk⟩
  · rw [if_neg hj] at hpending ⊢
    exact h.pending k f₀ hf₀ hpending

theorem Accounted.begin (h : Accounted σ es) {k t : Nat} {s : TimerService} (ht : σ.clock ≤ t)
    (hs : σ.service.begin k t = some s) : Accounted { σ with service := s, clock := t } es := by
  unfold TimerService.begin at hs
  split at hs
  · next f hidle hf =>
    rw [Option.ite_none_right_eq_some] at hs
    obtain ⟨⟨hpending, hdue⟩, hs⟩ := hs
    cases hs
    obtain ⟨hexp, -⟩ := h.pending k f hf hpending
    have hkeep : ∀ f : ScheduledFuture, f.begin.uTid = f.uTid := by
      intro f
      unfold ScheduledFuture.begin
      split <;> rfl
    refine ⟨fun i hi => (h.queued i hi).later ht, fun j hj => ?_, ?_⟩
    · cases hj
      obtain ⟨f', hf', htid⟩ := TimerService.kept_modify (j := k) hkeep hf
      exact ⟨f', hf', by rw [htid]; exact hexp.later hdue⟩
    · refine h.pending_modify hkeep (fun f hf => ?_) (fun f => ?_) k
      · unfold ScheduledFuture.begin at hf
        split at hf
        · cases hf
        · exact hf
      · unfold ScheduledFuture.begin
        split <;> exact Nat.le_refl _
  · cases hs

theorem Accounted.offer (h : Accounted σ es) {t : Nat} {s : TimerService} (ht : σ.clock ≤ t)
    (hs : σ.service.finish = some (tid, s)) :
    Accounted { σ with service := s, queue := σ.queue ++ [.timerFired tid], clock := t } es := by
  rw [TimerService.finish, Option.bind_eq_some_iff] at hs
  obtain ⟨k, hk, hs⟩ := hs
  obtain ⟨f, hf, hs⟩ := Option.map_eq_some_iff.mp hs
  cases hs
  obtain ⟨f', hf', hexp⟩ := h.running k hk
  rw [hf] at hf'
  cases hf'
  refine ⟨fun i hi => ?_, fun j hj => (nomatch hj), ?_⟩
  · obtain hi | hi := List.mem_append.mp hi
    · exact (h.queued i hi).later ht
    · cases List.mem_singleton.mp hi
      exact hexp.later ht
  · exact h.pending_modify (g := ScheduledFuture.finish) (fun _ => rfl) (fun _ hf => hf)
      (fun _ => Nat.le_add_right _ _) k

/-- **A dispatch** tells the middleware only of timers that have expired. -/
theorem Accounted.fire (h : Accounted σ es) {t : Nat} {queue : List ServiceEvent} (ht : σ.clock ≤ t)
    (hqueue : ∀ i, .timerFired i ∈ queue → .timerFired i ∈ σ.queue) (tid : Byte) {fs : List TimerEvent}
    (hfs : ∀ i, control i (es ++ fs) = control i es) :
    Accounted ({ σ with queue := queue }.after t (σ.service.jniCallFireTimer tid t)) (es ++ fs) := by
  obtain ⟨hrunning, hfutures, hfind⟩ := TimerService.fireTimer_spec σ.service tid t
  refine ⟨fun i hi => ((h.queued i (hqueue i hi)).congr (hfs i)).later ht, fun k hk => ?_, fun k f hf hpend => ?_⟩
  · simp only [TimerSystem.after, hrunning, hfutures] at hk ⊢
    obtain ⟨f, hf, hexp⟩ := h.running k hk
    exact ⟨f, hf, (hexp.congr (hfs _)).later ht⟩
  · simp only [TimerSystem.after, hfutures] at hf ⊢
    obtain ⟨hexp, td, htd, hk⟩ := h.pending k f hf hpend
    obtain ⟨td', htd', htask⟩ := hfind f.uTid td htd
    exact ⟨hexp.congr (hfs _), td', htd', htask.trans hk⟩

/-- **Time passes**, and events leave the queue or come that are not expiries. -/
theorem Accounted.pass (h : Accounted σ es) {t : Nat} {queue : List ServiceEvent} (ht : σ.clock ≤ t)
    (hqueue : ∀ i, .timerFired i ∈ queue → .timerFired i ∈ σ.queue) :
    Accounted { σ with queue := queue, clock := t } es := by
  refine ⟨fun i hi => (h.queued i (hqueue i hi)).later ht, fun k hk => ?_, h.pending⟩
  obtain ⟨f, hf, hexp⟩ := h.running k hk
  exact ⟨f, hf, hexp.later ht⟩

/-- **A start** whose time is over, or of a timer of which nothing is waiting. -/
theorem Accounted.startTimer (h : Accounted σ es) {t0 dt : BitVec 32} {t : Nat} (isOneShot : Bool)
    (ht : σ.clock ≤ t) (hrecalls : t < t0.toNat + dt.toNat → ¬ Waiting σ tid) :
    Accounted (σ.after t (σ.service.jniCallbackStartTimer tid t0 dt isOneShot t))
      (es ++ [.started tid t0 dt]) := by
  have hr := TimerService.startTimer_reschedules σ.service tid t0 dt isOneShot t
  have hnew : ∀ u, t0.toNat + dt.toNat ≤ u → Expired tid (es ++ [.started tid t0 dt]) u :=
    fun u hu => ⟨t0, dt, control_started tid es t0 dt, hu⟩
  refine h.call hr.running hr.others hr.kept (fun i hi => ?_) (fun k f hf hpend => ?_) ht
    (fun hwait => hnew t ?_) _
  · rw [control_append]
    exact if_neg (Ne.symm hi)
  · refine (hr.pending k f hf hpend).imp_right ?_
    rintro ⟨htid, htime, htask⟩
    rw [htid]
    exact ⟨hnew _ htime, htask⟩
  · by_contra hlt
    exact hrecalls (Nat.not_le.mp hlt) hwait

/-- **A stop** of a timer of which nothing is waiting. -/
theorem Accounted.stop (h : Accounted σ es) {t : Nat} (ht : σ.clock ≤ t) (hrecalls : ¬ Waiting σ tid) :
    Accounted (σ.after t (σ.service.jniCallbackStop tid)) (es ++ [.stopped tid]) := by
  have hc := TimerService.stop_cancels σ.service tid
  refine h.call hc.running hc.others hc.kept (fun i hi => ?_)
    (fun k f hf hpend => Or.inl (hc.pending k f hf hpend)) ht (fun hwait => absurd hwait hrecalls) _
  rw [control_append]
  exact if_neg (Ne.symm hi)

/-- **The next event of the queue**. -/
theorem Accounted.dispatch (h : Accounted σ es) (hes : Honoured es) {t : Nat}
    (hst : TimerSystem.step σ (.dispatch t) = some τ) :
    Accounted τ (es ++ σ.events (.dispatch t)) ∧ Honoured (es ++ σ.events (.dispatch t)) := by
  simp only [TimerSystem.step, Option.ite_none_right_eq_some] at hst
  obtain ⟨⟨ht, -⟩, hst⟩ := hst
  cases hqueue : σ.queue with
  | nil =>
      rw [hqueue] at hst
      cases hst
  | cons e queue =>
      have hrest : ∀ i, .timerFired i ∈ queue → .timerFired i ∈ σ.queue := by
        intro i hi
        rw [hqueue]
        exact List.mem_cons_of_mem _ hi
      rw [hqueue] at hst
      cases e with
      | other =>
          cases hst
          have hnone : σ.events (.dispatch t) = [] := by
            rw [TimerSystem.events, hqueue]
          rw [hnone, List.append_nil]
          exact ⟨h.pass ht hrest, hes⟩
      | timerFired tid =>
          cases hst
          have hexp : Expired tid es t := by
            refine (h.queued tid ?_).later ht
            rw [hqueue]
            exact List.mem_cons_self
          have hevents : σ.events (.dispatch t) =
              if (σ.service.jniCallFireTimer tid t).1 = none then [.fired tid t] else [] := by
            rw [TimerSystem.events, hqueue]
          rw [hevents]
          split
          · exact ⟨h.fire ht hrest tid fun i => control_fired i tid es t, hes.concat hexp⟩
          · refine ⟨h.fire ht hrest tid fun i => ?_, ?_⟩
            · rw [List.append_nil]
            · rwa [List.append_nil]

/-! ## One step -/

/-- **One step** that recalls what it has to keeps the service and the history
together, and calls the middleware only for a timer that has expired. -/
theorem accounted_step {a : TimerAction} (h : Accounted σ es) (hes : Honoured es)
    (hrecalls : Recalls σ a) (hst : TimerSystem.step σ a = some τ) :
    Accounted τ (es ++ σ.events a) ∧ Honoured (es ++ σ.events a) := by
  cases a with
  | startTimer tid t0 dt isOneShot t =>
      simp only [TimerSystem.step, Option.ite_none_right_eq_some, Option.some.injEq] at hst
      obtain ⟨⟨ht, -⟩, rfl⟩ := hst
      exact ⟨h.startTimer isOneShot ht hrecalls, hes.concat trivial⟩
  | stop tid t =>
      simp only [TimerSystem.step, Option.ite_none_right_eq_some, Option.some.injEq] at hst
      obtain ⟨⟨ht, -⟩, rfl⟩ := hst
      exact ⟨h.stop ht hrecalls, hes.concat trivial⟩
  | begin k t =>
      simp only [TimerSystem.step, Option.ite_none_right_eq_some, Option.map_eq_some_iff] at hst
      obtain ⟨ht, s, hs, rfl⟩ := hst
      rw [TimerSystem.events, List.append_nil]
      exact ⟨h.begin ht hs, hes⟩
  | offer t =>
      simp only [TimerSystem.step, Option.ite_none_right_eq_some, Option.map_eq_some_iff] at hst
      obtain ⟨ht, ⟨tid, s⟩, hs, rfl⟩ := hst
      rw [TimerSystem.events, List.append_nil]
      exact ⟨h.offer ht hs, hes⟩
  | other t =>
      simp only [TimerSystem.step, Option.ite_none_right_eq_some, Option.some.injEq] at hst
      obtain ⟨ht, rfl⟩ := hst
      rw [TimerSystem.events, List.append_nil]
      refine ⟨h.pass ht fun i hi => ?_, hes⟩
      obtain hi | hi := List.mem_append.mp hi
      · exact hi
      · cases List.mem_singleton.mp hi
  | dispatch t => exact h.dispatch hes hst

/-! ## Whole runs -/

/-- **Stopped and restarted timers**: in every run in which no timer is stopped,
or started for a time to come, while an expiry of it is waiting,
`nativeTimerFired` is called only for timers whose latest call has started
them, and not before the time they have been started for. -/
theorem honoured_of_run (t₀ : Nat) {as : List TimerAction}
    (hok : Lts.Along TimerSystem.step Recalls (.init t₀) as)
    (hrun : Lts.run TimerSystem.step (.init t₀) as = some σ) :
    Honoured (Lts.trace TimerSystem.step TimerSystem.events (.init t₀) as) := by
  have hall := Lts.trace_induct (P := fun σ es => Accounted σ es ∧ Honoured es)
    (fun _ _ _ _ hs hok hst => accounted_step hs.1 hs.2 hok hst) hok
    ⟨accounted_init t₀, Lts.each_nil⟩ hrun
  exact hall.2

/-- A one-shot timer of 5 ms that fires, is started again and is stopped in
time. -/
theorem honoured_of_run_stop :
    let as := [.startTimer 1 0 5 true 0, .begin 0 5, .offer 5, .dispatch 6, .startTimer 1 6 5 true 6, .stop 1 8]
    Lts.trace TimerSystem.step TimerSystem.events (.init 0) as =
        [.started 1 0 5, .fired 1 6, .started 1 6 5, .stopped 1] ∧
      Honoured (Lts.trace TimerSystem.step TimerSystem.events (.init 0) as) := by
  intro as
  have hrun : (Lts.run TimerSystem.step (.init 0) as).isSome = true := by decide
  obtain ⟨σ, hσ⟩ := Option.isSome_iff_exists.mp hrun
  exact ⟨by decide, honoured_of_run 0 (by decide) hσ⟩

/-- The timer expires while another event is waiting to be dispatched, whose
dispatch stops it: it fires all the same. -/
theorem fires_when_stopped :
    let as := [.startTimer 1 0 5 true 0, .other 4, .begin 0 5, .offer 5, .dispatch 6, .stop 1 6, .dispatch 7]
    (Lts.run TimerSystem.step (.init 0) as).isSome = true ∧
      Lts.trace TimerSystem.step TimerSystem.events (.init 0) as =
        [.started 1 0 5, .stopped 1, .fired 1 7] ∧
      ¬ Honoured (Lts.trace TimerSystem.step TimerSystem.events (.init 0) as) := by
  intro as
  have htrace : Lts.trace TimerSystem.step TimerSystem.events (.init 0) as =
      [.started 1 0 5, .stopped 1, .fired 1 7] := by decide
  refine ⟨by decide, htrace, fun hes => ?_⟩
  obtain ⟨t0, dt, hcontrol, -⟩ := hes [.started 1 0 5, .stopped 1] (.fired 1 7) [] htrace
  have hstopped : control 1 [.started 1 0 5, .stopped 1] = some .stopped := by decide
  rw [hstopped] at hcontrol
  cases hcontrol

end Pobicos.Client
