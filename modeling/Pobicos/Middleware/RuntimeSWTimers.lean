import Pobicos.Lib.Lts
import Mathlib.Logic.Function.Basic

/-!
# Pobicos.Middleware.RuntimeSWTimers

`PoRuntimeSWTimersM.nc`: the 128 timers of the runtime, kept on one hardware
timer.

Every change posts the task `updateFromTimer`, which looks for the timer with
the least time remaining and fires a timer or arms the hardware timer.
`fireTimers` signals at most one timer and posts the task again once the
handler of the signal has returned; until then the handler may call anything.

All times are 32-bit readings of a clock that is not reset, so the true time
is a number of milliseconds and a reading its residue (`reading`).  Timers are
numbered by the 8-bit ids of the interface; what `timers[id]` finds behind the
array is taken to be left alone by the rest of the program.
-/

namespace Pobicos.Middleware

inductive ErrorT
  | success
  | fail
  deriving DecidableEq, Repr

def NUM_TIMERS : Nat := 128

abbrev TimerId := BitVec 8

/-- `RTimer_t`. -/
structure RTimer where
  t0 : BitVec 32
  dt : BitVec 32
  iscreated : Bool
  isoneshot : Bool
  isrunning : Bool
  deriving DecidableEq, Repr

/-- The ids the loops over the array run through. -/
def nums : List TimerId := (List.range NUM_TIMERS).map (BitVec.ofNat 8)

/-- The test on an id that two commands make. -/
theorem inRange_iff {id : TimerId} : ¬ id.toNat > NUM_TIMERS - 1 ↔ id.toNat < NUM_TIMERS := by
  rw [NUM_TIMERS]
  omega

theorem mem_nums {id : TimerId} : id ∈ nums ↔ id.toNat < NUM_TIMERS := by
  rw [nums, List.mem_map]
  constructor
  · rintro ⟨n, hn, rfl⟩
    rw [List.mem_range] at hn
    exact Nat.lt_of_le_of_lt (Nat.mod_le n _) hn
  · intro h
    exact ⟨id.toNat, List.mem_range.mpr h, by simp⟩

/-- The reading of the 32-bit millisecond clock at the true time `t`. -/
def reading (t : Nat) : BitVec 32 := BitVec.ofNat 32 t

theorem reading_add (t u : Nat) : reading (t + u) = reading t + reading u := BitVec.ofNat_add t u

@[simp] theorem reading_toNat (x : BitVec 32) : reading x.toNat = x := by simp [reading]

/-- The variables of the module, whether `updateFromTimer` is in the task
queue, and the start and the delay the hardware timer has been armed with. -/
structure RuntimeSWTimers where
  timers : TimerId → RTimer
  posted : Bool
  armed : Option (BitVec 32 × BitVec 32)

namespace RuntimeSWTimers

variable {s : RuntimeSWTimers} {id : TimerId} {now : BitVec 32}

/-- A write to `timers[id]`. -/
def set (s : RuntimeSWTimers) (id : TimerId) (tm : RTimer) : RuntimeSWTimers :=
  { s with timers := Function.update s.timers id tm }

/-- `post updateFromTimer()`, which does nothing while the task is pending. -/
def post (s : RuntimeSWTimers) : RuntimeSWTimers := { s with posted := true }

@[simp] theorem timers_post (s : RuntimeSWTimers) : s.post.timers = s.timers := rfl

theorem timers_set_self (s : RuntimeSWTimers) (id : TimerId) (tm : RTimer) :
    (s.set id tm).timers id = tm := Function.update_self ..

theorem timers_set_of_ne (s : RuntimeSWTimers) {id i : TimerId} (tm : RTimer) (h : i ≠ id) :
    (s.set id tm).timers i = s.timers i := Function.update_of_ne h ..

/-! ## The commands -/

/-- `Init.init()`. -/
def init (s : RuntimeSWTimers) : RuntimeSWTimers :=
  { s with timers := fun i =>
      if i ∈ nums then { s.timers i with iscreated := false, isrunning := false } else s.timers i }

/-- `createTimer(id)`: the error code and what `*id` is afterwards. -/
def createTimer (s : RuntimeSWTimers) (id : TimerId) : ErrorT × TimerId × RuntimeSWTimers :=
  match nums.find? fun num => !(s.timers num).iscreated with
  | some num => (.success, num, s.set num { s.timers num with iscreated := true })
  | none => (.fail, id, s)

/-- `destroyTimer(id)`. -/
def destroyTimer (s : RuntimeSWTimers) (id : TimerId) : ErrorT × RuntimeSWTimers :=
  if id.toNat > NUM_TIMERS - 1 then (.fail, s)
  else if (s.timers id).iscreated then
    (.success, s.set id { s.timers id with iscreated := false, isrunning := false })
  else (.fail, s)

/-- `startTimer(id, t0, timeout, isoneshot)`. -/
def startTimer (s : RuntimeSWTimers) (id : TimerId) (t0 timeout : BitVec 32) (isoneshot : Bool) :
    RuntimeSWTimers :=
  (s.set id { s.timers id with t0 := t0, dt := timeout, isoneshot := isoneshot }).post

/-- `startOneShot` and `startPeriodic`. -/
def start (isoneshot : Bool) (s : RuntimeSWTimers) (id : TimerId) (timeout now : BitVec 32) :
    ErrorT × RuntimeSWTimers :=
  if (s.timers id).iscreated then
    (.success, (s.set id { s.timers id with isrunning := true }).startTimer id now timeout isoneshot)
  else (.fail, s)

/-- `startOneShot(id, timeout)` when `getNow()` is `now`. -/
def startOneShot : RuntimeSWTimers → TimerId → BitVec 32 → BitVec 32 → ErrorT × RuntimeSWTimers :=
  start true

/-- `startPeriodic(id, timeout)` when `getNow()` is `now`. -/
def startPeriodic : RuntimeSWTimers → TimerId → BitVec 32 → BitVec 32 → ErrorT × RuntimeSWTimers :=
  start false

/-- `getTimeLeft(id, remaining)`: the error code and what `*remaining` is
afterwards. -/
def getTimeLeft (s : RuntimeSWTimers) (id : TimerId) (remaining now : BitVec 32) :
    ErrorT × BitVec 32 :=
  if id.toNat > NUM_TIMERS - 1 then (.fail, remaining)
  else if (s.timers id).isrunning then
    let elapsed := now - (s.timers id).t0
    let remTime := (s.timers id).dt - elapsed
    if remTime.slt 0 then (.success, 0) else (.success, remTime)
  else (.fail, remaining)

/-! ## The task -/

/-- `elapsed >= timer->dt` for a running timer. -/
def due (now : BitVec 32) (tm : RTimer) : Bool := tm.isrunning && tm.dt.ule (now - tm.t0)

/-- A timer as `fireTimers` leaves it before it signals. -/
def RTimer.advance (tm : RTimer) : RTimer :=
  if tm.isoneshot then { tm with isrunning := false } else { tm with t0 := tm.t0 + tm.dt }

/-- `fireTimers(now)`, up to the signal of `fired`, if there is one; the task
is posted once its handler has returned. -/
def fireTimers (s : RuntimeSWTimers) (now : BitVec 32) : Option TimerId × RuntimeSWTimers :=
  match nums.find? fun num => due now (s.timers num) with
  | some num => (some num, s.set num (RTimer.advance (s.timers num)))
  | none => (none, s.post)

/-- The loop of `updateFromTimer` for `min_remaining` and
`min_remaining_isset`. -/
def minRemaining (timers : TimerId → RTimer) (now : BitVec 32) : BitVec 32 × Bool :=
  nums.foldl (fun (m : BitVec 32 × Bool) num =>
    let tm := timers num
    if tm.isrunning then
      let elapsed := now - tm.t0
      let remaining := tm.dt - elapsed
      if remaining.slt m.1 then (remaining, true) else m
    else m) (0x7FFFFFFF#32, false)

/-- `updateFromTimer()`, up to the signal of `fired`, if there is one. -/
def updateFromTimer (s : RuntimeSWTimers) (now : BitVec 32) : Option TimerId × RuntimeSWTimers :=
  let s := { s with posted := false, armed := none }
  let (minRemaining, isset) := minRemaining s.timers now
  if isset then
    if minRemaining.sle 0 then fireTimers s now
    else (none, { s with armed := some (now, minRemaining) })
  else (none, s)

/-- `TimerMilli.fired()`: the hardware timer, which runs once, has expired. -/
def fired (s : RuntimeSWTimers) (now : BitVec 32) : Option TimerId × RuntimeSWTimers :=
  fireTimers { s with armed := none } now

/-! ## What they do to the table -/

/-- Nothing is signalled and the table is left alone, or one timer that is due
is advanced and signalled. -/
def Fires (timers : TimerId → RTimer) (now : BitVec 32) (r : Option TimerId × RuntimeSWTimers) : Prop :=
  r.1 = none ∧ r.2.timers = timers ∨
  ∃ num ∈ nums, due now (timers num) = true ∧ r.1 = some num ∧
    r.2.timers = Function.update timers num (RTimer.advance (timers num))

theorem fireTimers_fires (s : RuntimeSWTimers) (now : BitVec 32) :
    Fires s.timers now (s.fireTimers now) := by
  unfold fireTimers
  split
  · next num hnum =>
    have hdue : due now (s.timers num) = true := by simpa using List.find?_some hnum
    exact Or.inr ⟨num, List.mem_of_find?_eq_some hnum, hdue, rfl, rfl⟩
  · exact Or.inl ⟨rfl, rfl⟩

theorem fired_fires (s : RuntimeSWTimers) (now : BitVec 32) : Fires s.timers now (s.fired now) :=
  fireTimers_fires { s with armed := none } now

theorem updateFromTimer_fires (s : RuntimeSWTimers) (now : BitVec 32) :
    Fires s.timers now (s.updateFromTimer now) := by
  unfold updateFromTimer
  simp only
  split
  · split
    · exact fireTimers_fires { s with posted := false, armed := none } now
    · exact Or.inl ⟨rfl, rfl⟩
  · exact Or.inl ⟨rfl, rfl⟩

/-! ## The search for the least time remaining -/

/-- `remaining` for a timer, read as a signed number. -/
def remaining (now : BitVec 32) (tm : RTimer) : BitVec 32 := tm.dt - (now - tm.t0)

/-- A running timer whose time remaining is not positive. -/
def exhausted (now : BitVec 32) (tm : RTimer) : Bool := tm.isrunning && (remaining now tm).sle 0

/-- What the search has found once it has looked at one more timer. -/
def closer (now : BitVec 32) (timers : TimerId → RTimer) (m : BitVec 32 × Bool) (num : TimerId) :
    BitVec 32 × Bool :=
  if (timers num).isrunning then
    if (remaining now (timers num)).slt m.1 then (remaining now (timers num), true) else m
  else m

theorem minRemaining_eq (timers : TimerId → RTimer) (now : BitVec 32) :
    minRemaining timers now = nums.foldl (closer now timers) (0x7FFFFFFF#32, false) := rfl

theorem closer_spec (now : BitVec 32) (timers : TimerId → RTimer) (m : BitVec 32 × Bool) (num : TimerId) :
    (closer now timers m num).1.toInt ≤ m.1.toInt ∧
      ((timers num).isrunning = true →
        (closer now timers m num).1.toInt ≤ (remaining now (timers num)).toInt) ∧
      (closer now timers m num = m ∨
        (timers num).isrunning = true ∧ closer now timers m num = (remaining now (timers num), true)) := by
  unfold closer
  split
  · next hrun =>
    split
    · next hless =>
      rw [BitVec.slt, decide_eq_true_iff] at hless
      exact ⟨Int.le_of_lt hless, fun _ => Int.le_refl _, Or.inr ⟨hrun, rfl⟩⟩
    · next hless =>
      rw [BitVec.slt, decide_eq_true_iff] at hless
      exact ⟨Int.le_refl _, fun _ => Int.not_lt.mp hless, Or.inl rfl⟩
  · next hrun => exact ⟨Int.le_refl _, fun h => absurd h hrun, Or.inl rfl⟩

/-- The search over `ids` finds the least time remaining, or what it has
started with. -/
theorem foldl_closer (now : BitVec 32) (timers : TimerId → RTimer) (ids : List TimerId)
    (m : BitVec 32 × Bool) :
    (ids.foldl (closer now timers) m).1.toInt ≤ m.1.toInt ∧
      (∀ i ∈ ids, (timers i).isrunning = true →
        (ids.foldl (closer now timers) m).1.toInt ≤ (remaining now (timers i)).toInt) ∧
      (ids.foldl (closer now timers) m = m ∨ ∃ i ∈ ids, (timers i).isrunning = true ∧
        ids.foldl (closer now timers) m = (remaining now (timers i), true)) := by
  induction ids generalizing m with
  | nil => exact ⟨Int.le_refl _, fun i hi => (nomatch hi), Or.inl rfl⟩
  | cons id ids ih =>
      obtain ⟨hle, hall, hfound⟩ := ih (closer now timers m id)
      obtain ⟨hstep, hthis, hone⟩ := closer_spec now timers m id
      rw [List.foldl_cons]
      refine ⟨Int.le_trans hle hstep, fun i hi hrun => ?_, ?_⟩
      · obtain rfl | hi := List.mem_cons.mp hi
        · exact Int.le_trans hle (hthis hrun)
        · exact hall i hi hrun
      · obtain hsame | ⟨i, hi, hrun, hi'⟩ := hfound
        · rw [hsame]
          exact hone.imp_right fun h => ⟨id, List.mem_cons_self, h⟩
        · exact Or.inr ⟨i, List.mem_cons_of_mem _ hi, hrun, hi'⟩

/-- **The task**, if some time remaining is not positive. -/
theorem updateFromTimer_exhausted (h : ∃ i ∈ nums, exhausted now (s.timers i) = true) :
    s.updateFromTimer now = fireTimers { s with posted := false, armed := none } now := by
  obtain ⟨i, hi, hex⟩ := h
  rw [exhausted, Bool.and_eq_true, BitVec.sle, decide_eq_true_iff] at hex
  obtain ⟨-, hall, hfound⟩ := foldl_closer now s.timers nums (0x7FFFFFFF#32, false)
  have hmin := Int.le_trans (hall i hi hex.1) hex.2
  obtain hsame | ⟨j, -, -, hj⟩ := hfound
  · rw [hsame] at hmin
    exact absurd hmin (by decide)
  · rw [hj] at hmin
    have hle : (remaining now (s.timers j)).sle 0 = true := by rwa [BitVec.sle, decide_eq_true_iff]
    simp only [updateFromTimer, minRemaining_eq, hj, if_true, hle]

/-- **The task**, if all times remaining are positive: it arms the hardware
timer with the least of them, if one of them is less than the greatest signed
number. -/
theorem updateFromTimer_idle (h : ∀ i ∈ nums, exhausted now (s.timers i) = false) :
    (s.updateFromTimer now).1 = none ∧ (s.updateFromTimer now).2.timers = s.timers ∧
      (s.updateFromTimer now).2.posted = false ∧
      ((s.updateFromTimer now).2.armed = none ∧
        (∀ i ∈ nums, (s.timers i).isrunning = true → remaining now (s.timers i) = 0x7FFFFFFF#32) ∨
      ∃ i ∈ nums, (s.timers i).isrunning = true ∧
        (s.updateFromTimer now).2.armed = some (now, remaining now (s.timers i)) ∧
        ∀ j ∈ nums, (s.timers j).isrunning = true →
          (remaining now (s.timers i)).toInt ≤ (remaining now (s.timers j)).toInt) := by
  obtain ⟨-, hall, hfound⟩ := foldl_closer now s.timers nums (0x7FFFFFFF#32, false)
  obtain hsame | ⟨i, hi, hrun, hmin⟩ := hfound
  · have hnone : s.updateFromTimer now = (none, { s with posted := false, armed := none }) := by
      simp only [updateFromTimer, minRemaining_eq, hsame, Bool.false_eq_true, if_false]
    rw [hnone]
    refine ⟨rfl, rfl, rfl, Or.inl ⟨rfl, fun i hi hrun => ?_⟩⟩
    have hge := hall i hi hrun
    rw [hsame] at hge
    have hlt := BitVec.toInt_lt (x := remaining now (s.timers i))
    have htop : (0x7FFFFFFF#32).toInt = 2147483647 := by decide
    apply BitVec.eq_of_toInt_eq
    simp only [htop] at hge ⊢
    omega
  · have hpos : ((remaining now (s.timers i)).sle 0) = false := by
      have hidle := h i hi
      rwa [exhausted, hrun, Bool.true_and] at hidle
    have harm : s.updateFromTimer now =
        (none, { s with posted := false, armed := some (now, remaining now (s.timers i)) }) := by
      simp only [updateFromTimer, minRemaining_eq, hmin, if_true, hpos, Bool.false_eq_true, if_false]
    rw [harm]
    rw [hmin] at hall
    exact ⟨rfl, rfl, rfl, Or.inr ⟨i, hi, hrun, rfl, hall⟩⟩

/-- If the timer `tm'` runs, it runs as `tm` did. -/
def Carries (tm tm' : RTimer) : Prop :=
  tm'.isrunning = true →
    tm.isrunning = true ∧ tm'.t0 = tm.t0 ∧ tm'.dt = tm.dt ∧ tm'.isoneshot = tm.isoneshot

theorem Carries.refl (tm : RTimer) : Carries tm tm := fun h => ⟨h, rfl, rfl, rfl⟩

theorem createTimer_carries (s : RuntimeSWTimers) (id i : TimerId) :
    Carries (s.timers i) ((s.createTimer id).2.2.timers i) := by
  unfold createTimer
  split
  · next num _ =>
    by_cases h : i = num
    · cases h
      rw [timers_set_self]
      exact fun hrun => ⟨hrun, rfl, rfl, rfl⟩
    · rw [timers_set_of_ne _ _ h]
      exact .refl _
  · exact .refl _

theorem destroyTimer_carries (s : RuntimeSWTimers) (id i : TimerId) :
    Carries (s.timers i) ((s.destroyTimer id).2.timers i) := by
  unfold destroyTimer
  split
  · exact .refl _
  · split
    · by_cases h : i = id
      · cases h
        rw [timers_set_self]
        exact fun hrun => nomatch hrun
      · rw [timers_set_of_ne _ _ h]
        exact .refl _
    · exact .refl _

/-- Only a start makes a timer run, and sets it up. -/
theorem start_timers (isoneshot : Bool) (s : RuntimeSWTimers) (id : TimerId) (timeout now : BitVec 32)
    (i : TimerId) :
    (i = id ∧ (start isoneshot s id timeout now).1 = .success ∧
      (start isoneshot s id timeout now).2.timers i =
        { s.timers i with t0 := now, dt := timeout, isoneshot := isoneshot, isrunning := true }) ∨
    ((i = id → (start isoneshot s id timeout now).1 = .fail) ∧
      (start isoneshot s id timeout now).2.timers i = s.timers i) := by
  unfold start
  split
  · by_cases h : i = id
    · cases h
      refine Or.inl ⟨rfl, rfl, ?_⟩
      simp only [startTimer, timers_post, timers_set_self]
    · refine Or.inr ⟨fun heq => absurd heq h, ?_⟩
      simp only [startTimer, timers_post, timers_set_of_ne _ _ h]
  · exact Or.inr ⟨fun _ => rfl, rfl⟩

end RuntimeSWTimers

end Pobicos.Middleware
