import Pobicos.Client.TimerService

/-!
# Pobicos.Client.SWTimer

`PoSWTimerM.nc`: the timer commands of the middleware on `TimerService`, and
when the timers they start fire.

A timer number is passed on as it is, and so are `t0` and `dt`; `t0` is a
reading of the clock, 32 bits of the time since `Init_Time`.  What a start does
is said once, in `start_spec`: a task is scheduled, `initialDelay` ms from the
call.
-/

namespace Pobicos.Client

open Octets TimerService

/-! ## The commands -/

namespace SWTimer

/-- `Timer.getNow[num]()`. -/
def getNow (now : Nat) : BitVec 32 := getIntNow now

/-- `Timer.startPeriodicAt[num](t0, dt)`. -/
def startPeriodicAt (s : TimerService) (num : Byte) (t0 dt : BitVec 32) (now : Nat) :
    Option TimerException × TimerService := s.jniCallbackStartTimer num t0 dt false now

/-- `Timer.startOneShotAt[num](t0, dt)`. -/
def startOneShotAt (s : TimerService) (num : Byte) (t0 dt : BitVec 32) (now : Nat) :
    Option TimerException × TimerService := s.jniCallbackStartTimer num t0 dt true now

/-- `Timer.startPeriodic[num](dt)`. -/
def startPeriodic (s : TimerService) (num : Byte) (dt : BitVec 32) (now : Nat) :
    Option TimerException × TimerService := startOneShotAt s num (getNow now) dt now

/-- `Timer.startOneShot[num](dt)`. -/
def startOneShot (s : TimerService) (num : Byte) (dt : BitVec 32) (now : Nat) :
    Option TimerException × TimerService := startOneShotAt s num (getNow now) dt now

/-- `Timer.isRunning[num]()`, which is `JNICallback_isRunning(num)`. -/
def isRunning (s : TimerService) (num : Byte) : Bool :=
  match s.findTimer num with
  | some td => td.isRunning
  | none => false

/-- `Timer.isOneShot[num]()`, which is `JNICallback_isOneShot(num)`. -/
def isOneShot (s : TimerService) (num : Byte) : Bool :=
  match s.findTimer num with
  | some td => td.isOneShot
  | none => false

end SWTimer

/-! ## What the calls do to the descriptors -/

/-- A descriptor once its expiry has been dispatched. -/
def TimerDescriptor.fired (td : TimerDescriptor) (now : Nat) : TimerDescriptor :=
  if td.isOneShot then { td with isRunning := false } else { td with uT0 := getIntNow now }

namespace TimerService

variable {s : TimerService} {tid i : Byte} {k : Nat} {f : ScheduledFuture}

theorem uTid_of_findTimer {td : TimerDescriptor} (h : s.findTimer tid = some td) : td.uTid = tid := by
  simpa using List.find?_some h

/-- The second half of a start that does not throw. -/
theorem fire_eq {isOneShot : Bool} {dt : BitVec 32} (h : isOneShot = true ∨ dt ≠ 0) (s : TimerService)
    (tid : Byte) (t0 : BitVec 32) (now : Nat) :
    s.fire tid t0 dt isOneShot now = (none, s.schedule tid (now + initialDelay now t0 dt)
      (if isOneShot then none else some dt.toNat)) := by
  cases isOneShot with
  | true => rfl
  | false =>
      have hdt : ¬ dt.toNat = 0 := by
        intro hzero
        exact absurd (BitVec.eq_of_toNat_eq hzero) (by simpa using h)
      rw [fire, if_neg (by decide), if_neg hdt]
      rfl

/-- What a start leaves: the descriptor of the timer and its task. -/
structure Starts (s : TimerService) (tid : Byte) (t0 dt : BitVec 32) (isOneShot : Bool) (now : Nat)
    (r : Option TimerException × TimerService) : Prop where
  returns : r.1 = none
  running : r.2.running = s.running
  length : r.2.futures.length = s.futures.length + 1
  timer : r.2.findTimer tid = some ⟨tid, t0, dt, isOneShot, true, some s.futures.length⟩
  task : r.2.futures[s.futures.length]? =
    some ⟨tid, now + initialDelay now t0 dt, if isOneShot then none else some dt.toNat, true⟩

/-- **A start** of a timer that is new or has a task. -/
theorem start_spec (hs : ∀ td, s.findTimer tid = some td → td.task ≠ none) {dt : BitVec 32}
    {isOneShot : Bool} (h : isOneShot = true ∨ dt ≠ 0) (t0 : BitVec 32) (now : Nat) :
    Starts s tid t0 dt isOneShot now (s.jniCallbackStartTimer tid t0 dt isOneShot now) := by
  -- the descriptor before it is given its task
  have hfire : ∀ s' : TimerService, s'.running = s.running → s'.futures.length = s.futures.length →
      (∃ task, s'.findTimer tid = some ⟨tid, t0, dt, isOneShot, true, task⟩) →
      Starts s tid t0 dt isOneShot now (s'.fire tid t0 dt isOneShot now) := by
    rintro s' hrunning hlength ⟨task, htimer⟩
    rw [fire_eq h]
    obtain ⟨hrun, -, hfutures, hfind⟩ := schedule_spec s' tid (now + initialDelay now t0 dt)
      (if isOneShot then none else some dt.toNat)
    refine ⟨rfl, hrun.trans hrunning, ?_, ?_, ?_⟩
    · rw [hfutures, List.length_append, List.length_singleton, hlength]
    · rw [hfind, htimer, hlength]
      rfl
    · rw [hfutures, ← hlength]
      exact List.getElem?_concat_length
  unfold jniCallbackStartTimer
  cases hfind : s.findTimer tid with
  | none =>
      refine hfire _ rfl rfl ⟨none, ?_⟩
      rw [findTimer] at hfind ⊢
      rw [List.find?_append, hfind]
      simp
  | some td =>
      obtain ⟨k, hk⟩ := Option.ne_none_iff_exists'.mp (hs td hfind)
      have htid := uTid_of_findTimer hfind
      simp only [hk]
      refine hfire _ rfl ?_ ⟨some k, ?_⟩
      · exact List.length_modify ..
      · refine (findTimer_setTimer ?_).trans ?_
        · exact fun _ => rfl
        · rw [if_pos rfl]
          show (s.findTimer tid).map _ = _
          rw [hfind, Option.map_some, hk, htid]

/-- A periodic start of period 0 throws. -/
theorem start_throws (t0 : BitVec 32) (now : Nat) :
    (s.jniCallbackStartTimer tid t0 0 false now).1 ≠ none := by
  unfold jniCallbackStartTimer
  split
  · split
    · exact fun h => nomatch h
    · exact fun h => nomatch h
  · exact fun h => nomatch h

theorem ok_of_start {t0 dt : BitVec 32} {isOneShot : Bool} {now : Nat}
    (h : (s.jniCallbackStartTimer tid t0 dt isOneShot now).1 = none) : isOneShot = true ∨ dt ≠ 0 := by
  by_contra hbad
  rw [not_or, not_not, Bool.not_eq_true] at hbad
  obtain ⟨rfl, rfl⟩ := hbad
  exact start_throws t0 now h

/-- **A stop** of a timer that has a task. -/
theorem findTimer_stop (hs : ∀ td, s.findTimer tid = some td → td.task ≠ none) (i : Byte) :
    (s.jniCallbackStop tid).2.findTimer i =
      if i = tid then (s.findTimer i).map fun td => { td with isRunning := false } else s.findTimer i := by
  unfold jniCallbackStop
  cases hfind : s.findTimer tid with
  | none =>
      by_cases hi : i = tid
      · rw [if_pos hi, hi, hfind]
        rfl
      · rw [if_neg hi]
  | some td =>
      obtain ⟨k, hk⟩ := Option.ne_none_iff_exists'.mp (hs td hfind)
      simp only [hk]
      refine (findTimer_setTimer ?_).trans rfl
      exact fun _ => rfl

/-- **A dispatch** of an expiry. -/
theorem findTimer_fireTimer (s : TimerService) (tid : Byte) (now : Nat) (i : Byte) :
    (s.jniCallFireTimer tid now).2.findTimer i =
      if i = tid then (s.findTimer i).map (TimerDescriptor.fired · now) else s.findTimer i := by
  unfold jniCallFireTimer
  cases hfind : s.findTimer tid with
  | none =>
      by_cases hi : i = tid
      · rw [if_pos hi, hi, hfind]
        rfl
      · rw [if_neg hi]
  | some td =>
      have hset : ∀ g : TimerDescriptor → TimerDescriptor, (∀ td, (g td).uTid = td.uTid) →
          g td = td.fired now →
          (s.setTimer tid g).findTimer i =
            if i = tid then (s.findTimer i).map (TimerDescriptor.fired · now) else s.findTimer i := by
        intro g hg hfired
        rw [findTimer_setTimer hg]
        by_cases hi : i = tid
        · rw [if_pos hi, if_pos hi, hi, hfind, Option.map_some, Option.map_some, hfired]
        · rw [if_neg hi, if_neg hi]
      dsimp only
      split
      · next hone =>
          refine hset _ (fun _ => rfl) ?_
          exact (if_pos hone).symm
      · next hperiodic =>
          refine hset _ (fun _ => rfl) ?_
          exact (if_neg hperiodic).symm

theorem task_fired (td : TimerDescriptor) (now : Nat) : (td.fired now).task = td.task := by
  unfold TimerDescriptor.fired
  split <;> rfl

/-! ## Descriptors and their tasks -/

/-- Every descriptor has a task, which is one of its timer, every task that is
pending is the task of its timer, and what runs is a task. -/
structure Equipped (s : TimerService) : Prop where
  runs : ∀ k, s.running = some k → ∃ f, s.futures[k]? = some f
  task : ∀ tid td, s.findTimer tid = some td →
    ∃ k f, td.task = some k ∧ s.futures[k]? = some f ∧ f.uTid = tid
  owned : ∀ k f, s.futures[k]? = some f → f.pending = true →
    ∃ td, s.findTimer f.uTid = some td ∧ td.task = some k

theorem Equipped.task_ne_none (h : Equipped s) (td : TimerDescriptor) (htd : s.findTimer tid = some td) :
    td.task ≠ none := by
  obtain ⟨k, -, hk, -⟩ := h.task tid td htd
  rw [hk]
  exact Option.some_ne_none k

/-- The service has the descriptors it had, up to what is not a task. -/
theorem Equipped.congr (h : Equipped s) {s' : TimerService}
    (hrunning : ∀ k, s'.running = some k → ∃ f, s.futures[k]? = some f)
    (hfind : ∀ i, (s'.findTimer i).map (·.task) = (s.findTimer i).map (·.task))
    (hkept : ∀ (k : Nat) (f : ScheduledFuture), s.futures[k]? = some f →
      ∃ f' : ScheduledFuture, s'.futures[k]? = some f' ∧ f'.uTid = f.uTid)
    (hpending : ∀ (k : Nat) (f : ScheduledFuture), s'.futures[k]? = some f → f.pending = true →
      ∃ f₀ : ScheduledFuture, s.futures[k]? = some f₀ ∧ f₀.pending = true ∧ f₀.uTid = f.uTid) :
    Equipped s' := by
  have htask : ∀ i td, s'.findTimer i = some td → ∃ td₀, s.findTimer i = some td₀ ∧ td₀.task = td.task := by
    intro i td htd
    have heq := hfind i
    rw [htd, Option.map_some] at heq
    exact Option.map_eq_some_iff.mp heq.symm
  constructor
  · intro k hk
    obtain ⟨f, hf⟩ := hrunning k hk
    obtain ⟨f', hf', -⟩ := hkept k f hf
    exact ⟨f', hf'⟩
  · intro tid td htd
    obtain ⟨td₀, htd₀, heq⟩ := htask tid td htd
    obtain ⟨k, f, hk, hf, htid⟩ := h.task tid td₀ htd₀
    obtain ⟨f', hf', htid'⟩ := hkept k f hf
    exact ⟨k, f', heq.symm.trans hk, hf', htid'.trans htid⟩
  · intro k f hf hpend
    obtain ⟨f₀, hf₀, hpend₀, htid⟩ := hpending k f hf hpend
    obtain ⟨td₀, htd₀, hk⟩ := h.owned k f₀ hf₀ hpend₀
    have heq := hfind f.uTid
    rw [← htid, htd₀, Option.map_some] at heq
    obtain ⟨td, htd, htask'⟩ := Option.map_eq_some_iff.mp heq
    rw [← htid]
    exact ⟨td, htd, htask'.trans hk⟩

/-- **A start** that returns. -/
theorem Equipped.start (h : Equipped s) {dt : BitVec 32} {isOneShot : Bool} (t0 : BitVec 32) (now : Nat)
    (hreturns : (s.jniCallbackStartTimer tid t0 dt isOneShot now).1 = none) :
    Equipped (s.jniCallbackStartTimer tid t0 dt isOneShot now).2 := by
  have hok := ok_of_start hreturns
  have hstart : Starts s tid t0 dt isOneShot now _ := start_spec (fun td htd => h.task_ne_none td htd) hok t0 now
  have hr := startTimer_reschedules s tid t0 dt isOneShot now
  constructor
  · intro k hk
    obtain ⟨f, hf⟩ := h.runs k (hr.running.symm.trans hk)
    obtain ⟨f', hf', -⟩ := hr.kept k f hf
    exact ⟨f', hf'⟩
  · intro i td htd
    by_cases hi : i = tid
    · subst hi
      cases hstart.timer.symm.trans htd
      exact ⟨_, _, rfl, hstart.task, rfl⟩
    · rw [hr.others i hi] at htd
      obtain ⟨k, f, hk, hf, htid⟩ := h.task i td htd
      obtain ⟨f', hf', htid'⟩ := hr.kept k f hf
      exact ⟨k, f', hk, hf', htid'.trans htid⟩
  · intro k f hf hpend
    obtain ⟨hwas, hnot⟩ | ⟨htid, -, htask⟩ := hr.pending k f hf hpend
    · obtain ⟨td, htd, hk⟩ := h.owned k f hwas hpend
      have hne : f.uTid ≠ tid := by
        intro heq
        rw [heq] at htd
        exact hnot td htd hk
      exact ⟨td, (hr.others f.uTid hne).trans htd, hk⟩
    · rw [htid]
      exact htask

/-- **A stop**. -/
theorem Equipped.stop (h : Equipped s) (tid : Byte) : Equipped (s.jniCallbackStop tid).2 := by
  have hc := stop_cancels s tid
  refine h.congr (fun k hk => h.runs k (hc.running.symm.trans hk)) (fun i => ?_) hc.kept
    fun k f hf hpend => ⟨f, (hc.pending k f hf hpend).1, hpend, rfl⟩
  rw [findTimer_stop fun td htd => h.task_ne_none td htd]
  split
  · rw [Option.map_map]
    rfl
  · rfl

/-- **A dispatch**. -/
theorem Equipped.fireTimer (h : Equipped s) (tid : Byte) (now : Nat) :
    Equipped (s.jniCallFireTimer tid now).2 := by
  obtain ⟨hrunning, hfutures, -⟩ := fireTimer_spec s tid now
  refine h.congr (fun k hk => h.runs k (hrunning.symm.trans hk)) (fun i => ?_) (fun k f hf => ?_)
    fun k f hf hpend => ?_
  · rw [findTimer_fireTimer]
    split
    · rw [Option.map_map]
      exact congrArg (fun g => (s.findTimer i).map g) (funext fun td => task_fired td now)
    · rfl
  · exact ⟨f, by rw [hfutures, hf], rfl⟩
  · rw [hfutures] at hf
    exact ⟨f, hf, hpend, rfl⟩

/-- **The scheduler** begins or ends the run of a task. -/
theorem Equipped.modify (h : Equipped s) {g : ScheduledFuture → ScheduledFuture}
    (htid : ∀ f, (g f).uTid = f.uTid) (hpend : ∀ f, (g f).pending = true → f.pending = true) (j : Nat)
    {running : Option Nat} (hruns : ∀ k, running = some k → ∃ f, s.futures[k]? = some f) :
    Equipped { s with futures := s.futures.modify j g, running := running } := by
  refine h.congr hruns (fun _ => rfl) (fun k f hf => kept_modify htid hf) fun k f hf hpending => ?_
  change (s.futures.modify j g)[k]? = some f at hf
  rw [List.getElem?_modify] at hf
  obtain ⟨f₀, hf₀, rfl⟩ := Option.map_eq_some_iff.mp hf
  refine ⟨f₀, hf₀, ?_, ?_⟩
  · split at hpending
    · exact hpend f₀ hpending
    · exact hpending
  · split
    · exact (htid f₀).symm
    · rfl

end TimerService

/-! ## Runs -/

variable {σ τ : TimerSystem} {num : Byte}

theorem ScheduledFuture.uTid_begin (f : ScheduledFuture) : f.begin.uTid = f.uTid := by
  unfold ScheduledFuture.begin
  split <;> rfl

theorem ScheduledFuture.pending_of_begin {f : ScheduledFuture} (h : f.begin.pending = true) :
    f.pending = true := by
  unfold ScheduledFuture.begin at h
  split at h
  · cases h
  · exact h

/-- The thread of the scheduler has begun to run the task `k`, which is due. -/
theorem begin_eq_some {s s' : TimerService} {k now : Nat} (h : s.begin k now = some s') :
    ∃ f, s.running = none ∧ s.futures[k]? = some f ∧ f.pending = true ∧ f.time ≤ now ∧
      s' = { s with futures := s.futures.modify k ScheduledFuture.begin, running := some k } := by
  unfold TimerService.begin at h
  split at h
  · next f hidle hf =>
      rw [Option.ite_none_right_eq_some, Option.some.injEq] at h
      obtain ⟨⟨hpending, hdue⟩, rfl⟩ := h
      exact ⟨f, hidle, hf, hpending, hdue, rfl⟩
  · cases h

/-- It has ended the run of its task. -/
theorem finish_eq_some {s s' : TimerService} (h : s.finish = some (num, s')) :
    ∃ k f, s.running = some k ∧ s.futures[k]? = some f ∧ f.uTid = num ∧
      s' = { s with futures := s.futures.modify k ScheduledFuture.finish, running := none } := by
  rw [TimerService.finish, Option.bind_eq_some_iff] at h
  obtain ⟨k, hk, h⟩ := h
  obtain ⟨f, hf, h⟩ := Option.map_eq_some_iff.mp h
  cases h
  exact ⟨k, f, hk, hf, rfl, rfl⟩

/-- As long as the event handler thread lives. -/
def Sound (σ : TimerSystem) : Prop := σ.alive = true → σ.service.Equipped

/-- **One step** keeps the descriptors and the tasks together, or the thread has
ended. -/
theorem Sound.step (h : Sound σ) {a : TimerAction} (hst : TimerSystem.step σ a = some τ) : Sound τ := by
  cases a with
  | startTimer tid t0 dt isOneShot t =>
      simp only [TimerSystem.step, Option.ite_none_right_eq_some, Option.some.injEq] at hst
      obtain ⟨⟨-, halive⟩, rfl⟩ := hst
      exact fun hreturns => (h halive).start t0 t (Option.isNone_iff_eq_none.mp hreturns)
  | stop tid t =>
      simp only [TimerSystem.step, Option.ite_none_right_eq_some, Option.some.injEq] at hst
      obtain ⟨⟨-, halive⟩, rfl⟩ := hst
      exact fun _ => (h halive).stop tid
  | begin k t =>
      simp only [TimerSystem.step, Option.ite_none_right_eq_some, Option.map_eq_some_iff] at hst
      obtain ⟨-, s, hs, rfl⟩ := hst
      obtain ⟨f, -, hf, -, -, rfl⟩ := begin_eq_some hs
      refine fun halive => (h halive).modify ScheduledFuture.uTid_begin
        (fun _ => ScheduledFuture.pending_of_begin) k ?_
      rintro j ⟨⟩
      exact ⟨f, hf⟩
  | offer t =>
      simp only [TimerSystem.step, Option.ite_none_right_eq_some, Option.map_eq_some_iff] at hst
      obtain ⟨-, ⟨tid, s⟩, hs, rfl⟩ := hst
      obtain ⟨k, f, -, -, -, rfl⟩ := finish_eq_some hs
      exact fun halive => (h halive).modify (g := ScheduledFuture.finish) (fun _ => rfl) (fun _ hf => hf) k
        (fun j hj => absurd hj (Option.not_mem_none j))
  | other t =>
      simp only [TimerSystem.step, Option.ite_none_right_eq_some, Option.some.injEq] at hst
      obtain ⟨-, rfl⟩ := hst
      exact h
  | dispatch t =>
      simp only [TimerSystem.step, Option.ite_none_right_eq_some] at hst
      obtain ⟨⟨-, halive⟩, hst⟩ := hst
      split at hst
      · cases hst
      · cases hst
        exact h
      · next tid _ _ =>
          cases hst
          exact fun _ => (h halive).fireTimer tid t

theorem equipped_init : Equipped ⟨[], [], none⟩ where
  runs _ h := nomatch h
  task _ _ h := by simp [findTimer] at h
  owned _ _ h := by simp at h

theorem sound_of_run (t₀ : Nat) {as : List TimerAction}
    (hrun : Lts.run TimerSystem.step (.init t₀) as = some σ) : Sound σ :=
  Lts.run_invariant (P := Sound) (fun _ _ _ hs hst => hs.step hst)
    (fun _ => equipped_init) hrun

/-! ## The first expiry -/

/-- The start, made at the time `now`, has returned, and the task of the timer
is to run `delay` ms later. -/
def SchedulesIn (r : Option TimerException × TimerService) (num : Byte) (now delay : Nat) : Prop :=
  r.1 = none ∧ ∃ td k f, r.2.findTimer num = some td ∧ td.task = some k ∧ r.2.futures[k]? = some f ∧
    f.uTid = num ∧ f.pending = true ∧ f.time = now + delay

/-- A start schedules the first expiry in `initialDelay` ms, and in no other
time. -/
theorem schedulesIn_start_iff {s : TimerService} (hs : s.Equipped) (num : Byte) (t0 dt : BitVec 32)
    (isOneShot : Bool) (now delay : Nat) :
    SchedulesIn (s.jniCallbackStartTimer num t0 dt isOneShot now) num now delay ↔
      (isOneShot = true ∨ dt ≠ 0) ∧ initialDelay now t0 dt = delay := by
  constructor
  · rintro ⟨hreturns, td, k, f, htd, hk, hf, -, -, htime⟩
    have hok := ok_of_start hreturns
    have hstart : Starts s num t0 dt isOneShot now _ := start_spec (fun td htd => hs.task_ne_none td htd) hok t0 now
    cases hstart.timer.symm.trans htd
    cases hk
    cases hstart.task.symm.trans hf
    exact ⟨hok, Nat.add_left_cancel htime⟩
  · rintro ⟨hok, rfl⟩
    have hstart : Starts s num t0 dt isOneShot now _ := start_spec (fun td htd => hs.task_ne_none td htd) hok t0 now
    exact ⟨hstart.returns, _, _, _, hstart.timer, rfl, hstart.task, rfl, rfl, rfl⟩

/-- **The delay** is right as long as the clock had not wrapped when `t0` was
read, or the time is over already. -/
theorem initialDelay_eq_iff (now read : Nat) (dt : BitVec 32) :
    initialDelay now (getIntNow read) dt = read + dt.toNat - now ↔
      read < 2 ^ 32 ∨ read + dt.toNat ≤ now := by
  have hread : (getIntNow read).toNat = read % 2 ^ 32 := BitVec.toNat_ofNat read 32
  unfold initialDelay
  simp only [hread]
  split <;> omega

/-- **The first expiry**: whatever the service has been asked for before, a
start with `t0` read from the clock at the time `read` schedules it for `dt` ms
after that, or at once if this is over, exactly if it does not throw, and the
clock had not wrapped at `read` or the time is over. -/
theorem first_expiry_iff (t₀ : Nat) {as : List TimerAction}
    (hrun : Lts.run TimerSystem.step (.init t₀) as = some σ) (halive : σ.alive = true) (num : Byte)
    (dt : BitVec 32) :
    (∀ now, SchedulesIn (SWTimer.startOneShot σ.service num dt now) num now dt.toNat ↔
      now < 2 ^ 32 ∨ dt = 0) ∧
    ∀ isOneShot read now,
      SchedulesIn (σ.service.jniCallbackStartTimer num (SWTimer.getNow read) dt isOneShot now) num now
          (read + dt.toNat - now) ↔
        (isOneShot = true ∨ dt ≠ 0) ∧ (read < 2 ^ 32 ∨ read + dt.toNat ≤ now) := by
  have hequipped := sound_of_run t₀ hrun halive
  constructor
  · intro now
    rw [SWTimer.startOneShot, SWTimer.startOneShotAt, SWTimer.getNow, schedulesIn_start_iff hequipped]
    have hdelay := initialDelay_eq_iff now now dt
    rw [Nat.add_sub_cancel_left] at hdelay
    rw [and_iff_right (Or.inl rfl), hdelay]
    refine or_congr_right ⟨fun hle => ?_, fun hzero => ?_⟩
    · apply BitVec.eq_of_toNat_eq
      show dt.toNat = 0
      omega
    · rw [hzero]
      exact Nat.le_refl now
  · intro isOneShot read now
    rw [SWTimer.getNow, schedulesIn_start_iff hequipped, initialDelay_eq_iff]

/-- A one-shot timer of 100 ms, 5 ms after the service has been created. -/
theorem first_expiry_early :
    SchedulesIn (SWTimer.startOneShot (TimerSystem.init 0).service 1 100 5) 1 5 100 :=
  ((first_expiry_iff 0 (rfl : Lts.run TimerSystem.step (.init 0) [] = some _) rfl 1 100).1 5).mpr
    (Or.inl (by decide))

/-- The same 5 ms after the clock has wrapped: it expires at once. -/
theorem first_expiry_wrapped :
    SchedulesIn (SWTimer.startOneShot (TimerSystem.init 4294967301).service 1 100 4294967301) 1 4294967301 0 ∧
      ¬ SchedulesIn (SWTimer.startOneShot (TimerSystem.init 4294967301).service 1 100 4294967301) 1
        4294967301 100 := by
  have hdelay : ∀ delay, SchedulesIn (SWTimer.startOneShot (TimerSystem.init 4294967301).service 1 100
      4294967301) 1 4294967301 delay ↔ _ :=
    fun delay => schedulesIn_start_iff equipped_init 1 (getIntNow 4294967301) 100 true 4294967301 delay
  rw [hdelay, hdelay]
  decide

end Pobicos.Client
