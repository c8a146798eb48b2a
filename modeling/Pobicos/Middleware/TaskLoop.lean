import Pobicos.Middleware.Punctuality
import Mathlib.Algebra.Order.BigOperators.Group.List
import Mathlib.Algebra.Order.Group.Nat

/-!
# Pobicos.Middleware.TaskLoop

`nativeCompleteTasks`: the loop that runs `updateFromTimer` until it is not
posted any more, with the clock standing still and handlers of `fired` that do
not touch the timers.

A turn fires the first timer that is due, if any time remaining is not
positive, and posts the task again.  The two tests are different ones: the
first takes the time remaining as a signed number, the second compares the time
elapsed unsigned.  `completeTasks_returns_iff` says for which tables the loop ends, and
`drains_exactly` what it has signalled then.
-/

namespace Pobicos.Middleware

namespace RuntimeSWTimers

variable {s : RuntimeSWTimers} {now : BitVec 32} {tm : RTimer} {timers : TimerId → RTimer} {num : TimerId}

/-! ## The loop -/

/-- `Scheduler.runNextTask()`: the task, if it is pending, to its end; it has
signalled a timer or none. -/
def runNextTask (s : RuntimeSWTimers) (now : BitVec 32) : Option TimerId × RuntimeSWTimers :=
  if s.posted then
    match s.updateFromTimer now with
    | (some num, s') => (some num, s'.post)
    | (none, s') => (none, s')
  else (none, s)

/-- `n` turns of the loop: the timers signalled, and what is left. -/
def completeTasks (now : BitVec 32) : Nat → RuntimeSWTimers → List TimerId × RuntimeSWTimers
  | 0, s => ([], s)
  | n + 1, s =>
      let (num, s') := s.runNextTask now
      let (nums, s'') := completeTasks now n s'
      (num.toList ++ nums, s'')

theorem completeTasks_succ (s : RuntimeSWTimers) (now : BitVec 32) (n : Nat) :
    completeTasks now (n + 1) s =
      ((s.runNextTask now).1.toList ++ (completeTasks now n (s.runNextTask now).2).1,
        (completeTasks now n (s.runNextTask now).2).2) := rfl

/-! ## The two tests -/

/-- `elapsed`, as a number. -/
def elapsed (now : BitVec 32) (tm : RTimer) : Nat := (now - tm.t0).toNat

theorem due_iff : due now tm = true ↔ tm.isrunning = true ∧ tm.dt.toNat ≤ elapsed now tm := by
  rw [due, Bool.and_eq_true, BitVec.ule, decide_eq_true_iff]
  rfl

/-- **The signed test** in terms of the time elapsed: the timeout is over, by at
most `2 ^ 31`, or so far ahead that the time remaining is negative. -/
theorem exhausted_iff : exhausted now tm = true ↔ tm.isrunning = true ∧
    (tm.dt.toNat ≤ elapsed now tm ∧ elapsed now tm ≤ tm.dt.toNat + 2 ^ 31 ∨
      elapsed now tm + 2 ^ 31 ≤ tm.dt.toNat) := by
  rw [exhausted, Bool.and_eq_true, BitVec.sle, decide_eq_true_iff, remaining, elapsed,
    BitVec.toInt_eq_toNat_cond, BitVec.toNat_sub tm.dt]
  have hdt := tm.dt.isLt
  have he := (now - tm.t0).isLt
  refine and_congr_right fun _ => ?_
  have hzero : (0 : BitVec 32).toInt = 0 := by decide
  rw [hzero]
  split <;> omega

theorem isrunning_of_due (h : due now tm = true) : tm.isrunning = true := (due_iff.mp h).1

/-- How often a timer has to be fired until it is not due any more. -/
def firings (now : BitVec 32) (tm : RTimer) : Nat :=
  if tm.isrunning then
    if tm.isoneshot then if tm.dt.toNat ≤ elapsed now tm then 1 else 0
    else elapsed now tm / tm.dt.toNat
  else 0

/-- A running timer of period 0: it is always due. -/
def Stuck (tm : RTimer) : Prop := tm.isrunning = true ∧ tm.isoneshot = false ∧ tm.dt = 0

theorem Stuck.due (h : Stuck tm) (now : BitVec 32) : due now tm = true := by
  rw [due_iff, h.2.2]
  exact ⟨h.1, Nat.zero_le _⟩

theorem Stuck.advance (h : Stuck tm) : (RTimer.advance tm) = tm := by
  obtain ⟨-, hone, hdt⟩ := h
  have hsame : tm.t0 + tm.dt = tm.t0 := by simp [hdt]
  rw [RTimer.advance, if_neg (by simp [hone]), hsame]

theorem stuck_advance_iff : Stuck (RTimer.advance tm) ↔ Stuck tm := by
  unfold RTimer.advance
  split
  · next hone => simp [Stuck, hone]
  · exact Iff.rfl

/-- A firing takes a period off the time elapsed. -/
theorem elapsed_advance (hdue : due now tm = true) (hone : tm.isoneshot = false) :
    elapsed now (RTimer.advance tm) = elapsed now tm - tm.dt.toNat := by
  have hle := (due_iff.mp hdue).2
  rw [RTimer.advance, if_neg (by simp [hone])]
  unfold elapsed at hle ⊢
  bv_omega

/-- **One firing less** to come. -/
theorem firings_advance (hdue : due now tm = true) (hstuck : ¬ Stuck tm) :
    firings now (RTimer.advance tm) + 1 = firings now tm := by
  obtain ⟨hrun, hle⟩ := due_iff.mp hdue
  cases hone : tm.isoneshot with
  | true => simp [firings, RTimer.advance, hone, hrun, hle]
  | false =>
      have hdt : 0 < tm.dt.toNat := by
        refine Nat.pos_of_ne_zero fun hzero => hstuck ⟨hrun, hone, ?_⟩
        exact BitVec.eq_of_toNat_eq hzero
      have hsame : (RTimer.advance tm).isrunning = true ∧ (RTimer.advance tm).isoneshot = false ∧ (RTimer.advance tm).dt = tm.dt := by
        simp [RTimer.advance, hone, hrun]
      obtain ⟨hrun', hone', hdt'⟩ := hsame
      simp only [firings, hrun, hone, hrun', hone', hdt', elapsed_advance hdue hone, if_true,
        Bool.false_eq_true, if_false]
      rw [Nat.div_eq_sub_div hdt hle]

/-! ## One turn -/

theorem nums_sorted : nums.Pairwise (· < ·) := by
  rw [nums, List.pairwise_map]
  refine List.Pairwise.imp_of_mem (fun ha hb hab => ?_) List.pairwise_lt_range
  rw [List.mem_range, NUM_TIMERS] at ha hb
  rw [BitVec.lt_def, BitVec.toNat_ofNat, BitVec.toNat_ofNat]
  omega

/-- **A firing** is the first timer that is due. -/
theorem fireTimers_due (h : ∃ i ∈ nums, due now (s.timers i) = true) :
    ∃ num ∈ nums, due now (s.timers num) = true ∧
      (∀ j ∈ nums, j < num → due now (s.timers j) = false) ∧
      s.fireTimers now = (some num, s.set num (RTimer.advance (s.timers num))) := by
  obtain ⟨i, hi, hdue⟩ := h
  cases hfind : nums.find? fun num => due now (s.timers num) with
  | none =>
      have hnone := List.find?_eq_none.mp hfind i hi
      exact absurd hdue hnone
  | some num =>
      obtain ⟨hnum, as, bs, hsplit, hbefore⟩ := List.find?_eq_some_iff_append.mp hfind
      refine ⟨num, by rw [hsplit]; simp, hnum, fun j hj hlt => ?_, by rw [fireTimers, hfind]⟩
      have hsorted := nums_sorted
      rw [hsplit, List.mem_append, List.mem_cons] at hj
      rw [hsplit, List.pairwise_append, List.pairwise_cons] at hsorted
      obtain hj | rfl | hj := hj
      · simpa using hbefore j hj
      · exact absurd hlt (BitVec.lt_irrefl _)
      · exact absurd (hsorted.2.1.1 j hj) (BitVec.not_lt.mpr (BitVec.le_of_lt hlt))

theorem fireTimers_none (h : ∀ i ∈ nums, due now (s.timers i) = false) :
    s.fireTimers now = (none, s.post) := by
  rw [fireTimers, List.find?_eq_none.mpr fun i hi => by simp [h i hi]]

/-- **Inversion of a turn**: the loop ends; the turn does nothing but post the
task again; or it signals the first timer that is due. -/
theorem runNextTask_cases (hposted : s.posted = true) (now : BitVec 32) :
    (∀ i ∈ nums, exhausted now (s.timers i) = false) ∧ (s.runNextTask now).1 = none ∧
      (s.runNextTask now).2.timers = s.timers ∧ (s.runNextTask now).2.posted = false ∨
    (∃ i ∈ nums, exhausted now (s.timers i) = true) ∧ (s.runNextTask now).2.posted = true ∧
      ((∀ i ∈ nums, due now (s.timers i) = false) ∧ (s.runNextTask now).1 = none ∧
        (s.runNextTask now).2.timers = s.timers ∨
      ∃ num ∈ nums, due now (s.timers num) = true ∧
        (∀ j ∈ nums, j < num → due now (s.timers j) = false) ∧ (s.runNextTask now).1 = some num ∧
        (s.runNextTask now).2.timers = Function.update s.timers num (RTimer.advance (s.timers num))) := by
  rw [runNextTask, if_pos hposted]
  by_cases hex : ∃ i ∈ nums, exhausted now (s.timers i) = true
  · right
    rw [updateFromTimer_exhausted hex]
    by_cases hdue : ∃ i ∈ nums, due now (s.timers i) = true
    · obtain ⟨num, hnum, hd, hfirst, heq⟩ :=
        fireTimers_due (s := { s with posted := false, armed := none }) hdue
      rw [heq]
      exact ⟨hex, rfl, Or.inr ⟨num, hnum, hd, hfirst, rfl, rfl⟩⟩
    · have hnone : ∀ i ∈ nums, due now (s.timers i) = false := by simpa using hdue
      rw [fireTimers_none (s := { s with posted := false, armed := none }) hnone]
      exact ⟨hex, rfl, Or.inl ⟨hnone, rfl, rfl⟩⟩
  · left
    have hidle : ∀ i ∈ nums, exhausted now (s.timers i) = false := by simpa using hex
    obtain ⟨hnone, hsame, hpost, -⟩ := updateFromTimer_idle hidle
    rcases hr : s.updateFromTimer now with ⟨o, s'⟩
    rw [hr] at hnone hsame hpost
    simp only at hnone hsame hpost
    rw [hnone]
    exact ⟨hidle, rfl, hsame, hpost⟩

/-! ## The end of the loop -/

/-- The timer, once it has been fired as often as it is due, is not exhausted. -/
def Settles (now : BitVec 32) (tm : RTimer) : Prop :=
  tm.isrunning = true →
    if tm.isoneshot then tm.dt.toNat < elapsed now tm + 2 ^ 31
    else if tm.dt = 0 then 2 ^ 31 < elapsed now tm
    else tm.dt.toNat < elapsed now tm % tm.dt.toNat + 2 ^ 31

/-- Every timer settles; those behind a timer of period 0 are not reached, and
are not exhausted as they are. -/
def Halts (now : BitVec 32) (timers : TimerId → RTimer) : Prop :=
  ∀ i ∈ nums, ((∃ j ∈ nums, j < i ∧ Stuck (timers j)) → exhausted now (timers i) = false) ∧
    ((¬ ∃ j ∈ nums, j < i ∧ Stuck (timers j)) → Settles now (timers i))

/-- A timer that is not exhausted has settled. -/
theorem settles_of_not_exhausted (h : exhausted now tm = false) : Settles now tm := by
  intro hrun
  have hnot : ¬ (tm.dt.toNat ≤ elapsed now tm ∧ elapsed now tm ≤ tm.dt.toNat + 2 ^ 31 ∨
      elapsed now tm + 2 ^ 31 ≤ tm.dt.toNat) := fun hex => by
    rw [exhausted_iff.mpr ⟨hrun, hex⟩] at h
    cases h
  have hlt : elapsed now tm < 2 ^ 32 := (now - tm.t0).isLt
  split
  · omega
  · split
    · next hdt =>
      rw [hdt] at hnot
      simp only [BitVec.ofNat_eq_ofNat, BitVec.toNat_ofNat] at hnot
      omega
    · have hmod := Nat.mod_le (elapsed now tm) tm.dt.toNat
      by_cases hsmall : elapsed now tm < tm.dt.toNat
      · rw [Nat.mod_eq_of_lt hsmall]
        omega
      · omega

theorem halts_of_not_exhausted (h : ∀ i ∈ nums, exhausted now (timers i) = false) :
    Halts now timers := fun i hi => ⟨fun _ => h i hi, fun _ => settles_of_not_exhausted (h i hi)⟩

/-- An exhausted timer that settles is due. -/
theorem Settles.due (h : Settles now tm) (hex : exhausted now tm = true) :
    due now tm = true ∧ ¬ Stuck tm := by
  obtain ⟨hrun, hex⟩ := exhausted_iff.mp hex
  have hset := h hrun
  rw [due_iff]
  split at hset
  · next hone => exact ⟨⟨hrun, by omega⟩, fun hstuck => by simp [hstuck.2.1] at hone⟩
  · split at hset
    · next hdt =>
      rw [hdt] at hex
      simp only [BitVec.ofNat_eq_ofNat, BitVec.toNat_ofNat] at hex
      omega
    · next hdt =>
      refine ⟨⟨hrun, ?_⟩, fun hstuck => hdt hstuck.2.2⟩
      by_contra hsmall
      rw [Nat.mod_eq_of_lt (by omega)] at hset
      omega

/-- A firing does not change whether the timer settles. -/
theorem settles_advance_iff (hdue : due now tm = true) (hstuck : ¬ Stuck tm) :
    Settles now (RTimer.advance tm) ↔ Settles now tm := by
  obtain ⟨hrun, hle⟩ := due_iff.mp hdue
  cases hone : tm.isoneshot with
  | true =>
      have hstopped : (RTimer.advance tm).isrunning = false := by simp [RTimer.advance, hone]
      simp only [Settles, hstopped, hrun, hone, if_true, Bool.false_eq_true, false_implies, true_implies,
        true_iff]
      omega
  | false =>
      have hdt : tm.dt ≠ 0 := fun hzero => hstuck ⟨hrun, hone, hzero⟩
      have hsame : (RTimer.advance tm).isrunning = true ∧ (RTimer.advance tm).isoneshot = false ∧
          (RTimer.advance tm).dt = tm.dt := by
        simp [RTimer.advance, hone, hrun]
      obtain ⟨hrun', hone', hdt'⟩ := hsame
      simp only [Settles, hrun, hone, hrun', hone', hdt', hdt, elapsed_advance hdue hone,
        Bool.false_eq_true, if_false, ← Nat.mod_eq_sub_mod hle]

/-- **Nor does it change whether the loop ends.** -/
theorem halts_update_iff (hdue : due now (timers num) = true)
    (hfirst : ∀ j ∈ nums, j < num → due now (timers j) = false) :
    Halts now (Function.update timers num (RTimer.advance (timers num))) ↔ Halts now timers := by
  by_cases hstuck : Stuck (timers num)
  · rw [hstuck.advance, Function.update_eq_self]
  · have hsame : ∀ j, Stuck (Function.update timers num (RTimer.advance (timers num)) j) ↔
        Stuck (timers j) := by
      intro j
      by_cases hj : j = num
      · rw [hj, Function.update_self, stuck_advance_iff]
      · rw [Function.update_of_ne hj]
    have hfree : ¬ ∃ j ∈ nums, j < num ∧ Stuck (timers j) := by
      rintro ⟨j, hj, hlt, hs⟩
      have hnot := hfirst j hj hlt
      rw [hs.due now] at hnot
      cases hnot
    refine forall₂_congr fun i hi => ?_
    simp only [hsame]
    by_cases hin : i = num
    · rw [hin, Function.update_self]
      simp only [hfree, not_false_eq_true, true_implies, false_implies, true_and,
        settles_advance_iff hdue hstuck]
    · rw [Function.update_of_ne hin]

theorem halts_runNextTask_iff (hposted : s.posted = true) (now : BitVec 32) :
    Halts now (s.runNextTask now).2.timers ↔ Halts now s.timers := by
  obtain ⟨-, -, hsame, -⟩ | ⟨-, -, ⟨-, -, hsame⟩ | ⟨num, -, hdue, hfirst, -, hset⟩⟩ :=
    runNextTask_cases hposted now
  · rw [hsame]
  · rw [hsame]
  · rw [hset, halts_update_iff hdue hfirst]

/-- A loop that has ended was one that ends. -/
theorem halts_of_returns {n : Nat} (hposted : s.posted = true)
    (hend : (completeTasks now n s).2.posted = false) : Halts now s.timers := by
  induction n generalizing s with
  | zero =>
      rw [completeTasks, hposted] at hend
      cases hend
  | succ n ih =>
      rw [completeTasks_succ] at hend
      obtain ⟨hidle, -⟩ | ⟨-, hpost, -⟩ := runNextTask_cases hposted now
      · exact halts_of_not_exhausted hidle
      · exact (halts_runNextTask_iff hposted now).mp (ih hpost hend)

/-- **A turn of a loop that ends** ends it, or leaves one firing less to come. -/
theorem Halts.runNextTask (h : Halts now s.timers) (hposted : s.posted = true) :
    (s.runNextTask now).1 = none ∧ (s.runNextTask now).2.timers = s.timers ∧
      (s.runNextTask now).2.posted = false ∨
    ∃ num ∈ nums, due now (s.timers num) = true ∧ ¬ Stuck (s.timers num) ∧
      (s.runNextTask now).1 = some num ∧ (s.runNextTask now).2.posted = true ∧
      (s.runNextTask now).2.timers = Function.update s.timers num (RTimer.advance (s.timers num)) := by
  obtain ⟨-, hend⟩ | ⟨⟨i, hi, hex⟩, hpost, hcases⟩ := runNextTask_cases hposted now
  · exact Or.inl hend
  · right
    obtain ⟨hbehind, hsettles⟩ := h i hi
    have hfree : ¬ ∃ j ∈ nums, j < i ∧ Stuck (s.timers j) := by
      intro hstuck
      rw [hbehind hstuck] at hex
      cases hex
    obtain ⟨hdue, hnot⟩ := (hsettles hfree).due hex
    obtain ⟨hnone, -⟩ | ⟨num, hnum, hd, hfirst, hsig, hset⟩ := hcases
    · rw [hnone i hi] at hdue
      cases hdue
    · refine ⟨num, hnum, hd, fun hstuck => ?_, hsig, hpost, hset⟩
      -- the first timer that is due is not behind `i`
      obtain hlt | heq | hgt := Nat.lt_trichotomy num.toNat i.toNat
      · exact hfree ⟨num, hnum, hlt, hstuck⟩
      · rw [BitVec.eq_of_toNat_eq heq] at hstuck
        exact hnot hstuck
      · rw [hfirst i hi hgt] at hdue
        cases hdue

theorem returns_of_halts (hposted : s.posted = true) (h : Halts now s.timers) :
    ∃ n, (completeTasks now n s).2.posted = false := by
  generalize hm : (nums.map fun i => firings now (s.timers i)).sum = m
  induction m using Nat.strong_induction_on generalizing s with
  | _ m ih =>
      obtain ⟨-, -, hend⟩ | ⟨num, hnum, hdue, hstuck, -, hpost, hset⟩ := h.runNextTask hposted
      · exact ⟨1, hend⟩
      · have hless := firings_advance hdue hstuck
        have hsum : (nums.map fun i => firings now ((s.runNextTask now).2.timers i)).sum < m := by
          rw [← hm, hset]
          refine List.sum_lt_sum _ _ (fun i hi => ?_) ⟨num, hnum, ?_⟩
          · by_cases hin : i = num
            · rw [hin, Function.update_self]
              omega
            · rw [Function.update_of_ne hin]
          · rw [Function.update_self]
            omega
        obtain ⟨n, hn⟩ := ih _ hsum hpost ((halts_runNextTask_iff hposted now).mpr h) rfl
        exact ⟨n + 1, hn⟩

/-- **When the loop returns.** -/
theorem completeTasks_returns_iff (s : RuntimeSWTimers) (now : BitVec 32) :
    (∃ n, (completeTasks now n s).2.posted = false) ↔ (s.posted = true → Halts now s.timers) := by
  constructor
  · rintro ⟨n, hend⟩ hposted
    exact halts_of_returns hposted hend
  · intro h
    cases hposted : s.posted with
    | false => exact ⟨0, hposted⟩
    | true => exact returns_of_halts hposted (h hposted)

/-- The loop does not return if the first timer does not settle. -/
theorem posted_of_not_settles (hposted : s.posted = true) (h : ¬ Settles now (s.timers 0)) (n : Nat) :
    (completeTasks now n s).2.posted = true := by
  by_contra hend
  rw [Bool.not_eq_true] at hend
  have hfirst : ¬ ∃ j ∈ nums, j < (0 : TimerId) ∧ Stuck (s.timers j) := by
    rintro ⟨j, -, hlt, -⟩
    exact absurd hlt (by bv_omega)
  exact h ((halts_of_returns hposted hend 0 (by decide)).2 hfirst)

/-- A periodic timer of 0 ms, or a timer of `2 ^ 31` ms, that has just been
started: the loop never returns. -/
theorem never_returns :
    let s := ((init ⟨fun _ => ⟨0, 0, true, true, true⟩, false, none⟩).createTimer 0).2.2
    (∀ n, (completeTasks 7 n (s.startPeriodic 0 0 7).2).2.posted = true) ∧
      ∀ n, (completeTasks 7 n (s.startOneShot 0 0x80000000 7).2).2.posted = true := by
  intro s
  have hperiodic : (s.startPeriodic 0 0 7).2.timers 0 = ⟨7, 0, true, false, true⟩ := by decide
  have honeshot : (s.startOneShot 0 0x80000000 7).2.timers 0 = ⟨7, 0x80000000, true, true, true⟩ := by
    decide
  constructor
  · refine posted_of_not_settles rfl ?_
    rw [hperiodic]
    simp [Settles, elapsed]
  · refine posted_of_not_settles rfl ?_
    rw [honeshot]
    simp [Settles, elapsed]

/-! ## What the loop signals -/

/-- The timeout is one the code supports, and it has not been over for too
long. -/
structure Drainable (now : BitVec 32) (tm : RTimer) : Prop where
  timeout : tm.dt.toNat ≤ 2 ^ 31 - 1
  period : tm.isoneshot = false → 1 ≤ tm.dt.toNat
  overdue : elapsed now tm ≤ tm.dt.toNat + (2 ^ 31 - 1)

theorem Drainable.settles (h : tm.isrunning = true → Drainable now tm) : Settles now tm := by
  intro hrun
  obtain ⟨htimeout, hperiod, -⟩ := h hrun
  split
  · omega
  · next hone =>
    have hpos := hperiod (by simpa using hone)
    split
    · next hdt =>
      rw [hdt] at hpos
      cases hpos
    · omega

theorem Drainable.not_stuck (h : tm.isrunning = true → Drainable now tm) : ¬ Stuck tm := by
  rintro ⟨hrun, hone, hdt⟩
  have hpos := (h hrun).period hone
  rw [hdt] at hpos
  cases hpos

theorem halts_of_drainable (h : ∀ i ∈ nums, (timers i).isrunning = true → Drainable now (timers i)) :
    Halts now timers := by
  intro i hi
  refine ⟨?_, fun _ => Drainable.settles (h i hi)⟩
  rintro ⟨j, hj, -, hstuck⟩
  exact absurd hstuck (Drainable.not_stuck (h j hj))

theorem Drainable.advance (h : tm.isrunning = true → Drainable now tm) (hdue : due now tm = true)
    (hrun : (RTimer.advance tm).isrunning = true) : Drainable now (RTimer.advance tm) := by
  have htm := h (isrunning_of_due hdue)
  cases hone : tm.isoneshot with
  | true => simp [RTimer.advance, hone] at hrun
  | false =>
      have hdt : (RTimer.advance tm).dt = tm.dt := by simp [RTimer.advance, hone]
      refine ⟨hdt ▸ htm.timeout, fun _ => hdt ▸ htm.period hone, ?_⟩
      have hover := htm.overdue
      rw [elapsed_advance hdue hone, hdt]
      omega

/-- A timer that is not exhausted is not due. -/
theorem Drainable.lt_of_not_exhausted (h : Drainable now tm) (hrun : tm.isrunning = true)
    (hex : exhausted now tm = false) : elapsed now tm < tm.dt.toNat := by
  by_contra hge
  have hover := h.overdue
  rw [exhausted_iff.mpr ⟨hrun, Or.inl ⟨Nat.not_lt.mp hge, by omega⟩⟩] at hex
  cases hex

/-- Nothing happens any more once the task is not pending. -/
theorem completeTasks_of_idle (h : s.posted = false) (n : Nat) : completeTasks now n s = ([], s) := by
  induction n with
  | zero => rfl
  | succ n ih =>
      have hskip : s.runNextTask now = (none, s) := by rw [runNextTask, if_neg (by simp [h])]
      rw [completeTasks_succ, hskip]
      exact Prod.ext (congrArg Prod.fst ih) (congrArg Prod.snd ih)

/-- When the loop has ended, no timer is exhausted. -/
theorem not_exhausted_of_returns {n : Nat} (hposted : s.posted = true)
    (hend : (completeTasks now n s).2.posted = false) :
    ∀ i ∈ nums, exhausted now ((completeTasks now n s).2.timers i) = false := by
  induction n generalizing s with
  | zero =>
      rw [completeTasks, hposted] at hend
      cases hend
  | succ n ih =>
      rw [completeTasks_succ] at hend ⊢
      obtain ⟨hidle, -, hsame, hpost⟩ | ⟨-, hpost, -⟩ := runNextTask_cases hposted now
      · simp only [completeTasks_of_idle hpost, hsame]
        exact hidle
      · exact ih hpost hend

/-- **Conservation**: what has been signalled and what has still to be fired is
what had to be fired at first. -/
theorem count_completeTasks (hposted : s.posted = true)
    (h : ∀ i ∈ nums, (s.timers i).isrunning = true → Drainable now (s.timers i)) (n : Nat) :
    (∀ i ∈ nums, ((completeTasks now n s).2.timers i).isrunning = true →
        Drainable now ((completeTasks now n s).2.timers i)) ∧
      (∀ i ∈ (completeTasks now n s).1, i ∈ nums) ∧
      ∀ i ∈ nums, (completeTasks now n s).1.count i +
        firings now ((completeTasks now n s).2.timers i) = firings now (s.timers i) := by
  induction n generalizing s with
  | zero => exact ⟨h, fun i hi => (nomatch hi), fun i _ => by simp [completeTasks]⟩
  | succ n ih =>
      rw [completeTasks_succ]
      obtain ⟨hnone, hsame, hend⟩ | ⟨num, hnum, hdue, hstuck, hsome, hpost, hset⟩ :=
        (halts_of_drainable h).runNextTask hposted
      · rw [completeTasks_of_idle hend, hnone, hsame]
        exact ⟨h, fun i hi => (nomatch hi), fun i _ => by simp⟩
      · have hkeep : ∀ i ∈ nums, ((s.runNextTask now).2.timers i).isrunning = true →
            Drainable now ((s.runNextTask now).2.timers i) := by
          intro i hi
          rw [hset]
          by_cases hin : i = num
          · rw [hin, Function.update_self]
            exact Drainable.advance (h num hnum) hdue
          · rw [Function.update_of_ne hin]
            exact h i hi
        obtain ⟨hleft, hmem, hcount⟩ := ih hpost hkeep
        rw [hsome, Option.toList_some, List.singleton_append]
        refine ⟨hleft, fun i hi => ?_, fun i hi => ?_⟩
        · obtain rfl | hi := List.mem_cons.mp hi
          · exact hnum
          · exact hmem i hi
        · have hrest := hcount i hi
          rw [hset] at hrest
          by_cases hin : i = num
          · rw [hin, Function.update_self] at hrest
            rw [hin, List.count_cons_self, ← firings_advance hdue hstuck, ← hrest]
            exact Nat.add_right_comm _ _ _
          · rw [Function.update_of_ne hin] at hrest
            rw [List.count_cons_of_ne (Ne.symm hin)]
            exact hrest

/-- A running timer that is not due has nothing to be fired for. -/
theorem firings_of_lt (h : tm.isrunning = true → elapsed now tm < tm.dt.toNat) : firings now tm = 0 := by
  unfold firings
  split
  · next hrun =>
    have hlt := h hrun
    split
    · rw [if_neg (Nat.not_le.mpr hlt)]
    · exact Nat.div_eq_of_lt hlt
  · rfl

/-- **Exact draining**: the loop ends; a one-shot timer whose timeout is over
has been signalled once, a periodic one as often as its period has passed, and
no other timer; and no running timer is due any more. -/
theorem drains_exactly (hposted : s.posted = true)
    (h : ∀ i ∈ nums, (s.timers i).isrunning = true → Drainable now (s.timers i)) :
    ∃ n, (completeTasks now n s).2.posted = false ∧
      (∀ i ∈ (completeTasks now n s).1, i ∈ nums) ∧
      (∀ i ∈ nums, (completeTasks now n s).1.count i = firings now (s.timers i)) ∧
      ∀ i ∈ nums, ((completeTasks now n s).2.timers i).isrunning = true →
        elapsed now ((completeTasks now n s).2.timers i) < ((completeTasks now n s).2.timers i).dt.toNat := by
  obtain ⟨n, hend⟩ := returns_of_halts hposted (halts_of_drainable h)
  obtain ⟨hleft, hmem, hcount⟩ := count_completeTasks hposted h n
  have hidle := not_exhausted_of_returns hposted hend
  have hlt : ∀ i ∈ nums, ((completeTasks now n s).2.timers i).isrunning = true →
      elapsed now ((completeTasks now n s).2.timers i) < ((completeTasks now n s).2.timers i).dt.toNat :=
    fun i hi hrun => (hleft i hi hrun).lt_of_not_exhausted hrun (hidle i hi)
  refine ⟨n, hend, hmem, fun i hi => ?_, hlt⟩
  have hsum := hcount i hi
  rwa [firings_of_lt (hlt i hi), Nat.add_zero] at hsum

/-- A table that can be drained: a one-shot timer of 10 ms and a periodic timer
of 3 ms, both started 7 ms ago. -/
theorem drains_exactly_seven :
    let s : RuntimeSWTimers :=
      ⟨fun i => if i = 0 then ⟨0, 10, true, true, true⟩ else if i = 1 then ⟨0, 3, true, false, true⟩
        else ⟨0, 0, false, false, false⟩, true, none⟩
    firings 7 (s.timers 0) = 0 ∧ firings 7 (s.timers 1) = 2 ∧
      ∃ n, (completeTasks 7 n s).2.posted = false ∧
        (∀ i ∈ (completeTasks 7 n s).1, i ∈ nums) ∧
        (∀ i ∈ nums, (completeTasks 7 n s).1.count i = firings 7 (s.timers i)) ∧
        ∀ i ∈ nums, ((completeTasks 7 n s).2.timers i).isrunning = true →
          elapsed 7 ((completeTasks 7 n s).2.timers i) < ((completeTasks 7 n s).2.timers i).dt.toNat := by
  intro s
  refine ⟨by decide, by decide, drains_exactly rfl fun i _ hrun => ?_⟩
  by_cases h0 : i = 0
  · subst h0
    exact ⟨by decide, by decide, by decide⟩
  · by_cases h1 : i = 1
    · subst h1
      exact ⟨by decide, by decide, by decide⟩
    · rw [show s.timers i = ⟨0, 0, false, false, false⟩ from (if_neg h0).trans (if_neg h1)] at hrun
      cases hrun

end RuntimeSWTimers

/-! ## The loop as a run -/

open RuntimeSWTimers

/-- One turn of the loop: the task, and the handler if a timer has been
signalled. -/
theorem runNextTask_run {σ : Runtime} (hidle : σ.signalling = false) :
    ∃ as, (∀ a ∈ as, a = Action.task σ.clock ∨ a = Action.handled σ.clock) ∧
      Lts.run Runtime.step σ as =
        some { σ with timers := (σ.timers.runNextTask (reading σ.clock)).2 } ∧
      Lts.trace Runtime.step Runtime.events σ as =
        (σ.timers.runNextTask (reading σ.clock)).1.toList.map fun id => Event.fired id σ.clock := by
  rw [runNextTask]
  cases hposted : σ.timers.posted with
  | false => exact ⟨[], fun a ha => (nomatch ha), rfl, rfl⟩
  | true =>
      rcases hr : σ.timers.updateFromTimer (reading σ.clock) with ⟨o, s'⟩
      have htask : Runtime.step σ (.task σ.clock) = some (Runtime.after σ.clock (o, s')) := by
        simp [Runtime.step, hidle, hposted, hr]
      cases o with
      | none =>
          have hsame : Runtime.after σ.clock (none, s') = { σ with timers := s' } := by
            simp [Runtime.after, hidle]
          refine ⟨[.task σ.clock], fun a ha => Or.inl (List.mem_singleton.mp ha), ?_, ?_⟩
          · exact Lts.run_of_step (htask.trans (congrArg some hsame))
          · rw [Lts.trace_singleton, Runtime.events, hr]
            rfl
      | some num =>
          have hhandled : Runtime.step (Runtime.after σ.clock (some num, s')) (.handled σ.clock) =
              some { σ with timers := s'.post } := by
            simp [Runtime.step, Runtime.after, hidle]
          have hsignal : σ.events (.task σ.clock) = [.fired num σ.clock] := by
            rw [Runtime.events, hr]
            rfl
          refine ⟨[.task σ.clock, .handled σ.clock], ?_, ?_, ?_⟩
          · intro a ha
            obtain rfl | ha := List.mem_cons.mp ha
            · exact Or.inl rfl
            · exact Or.inr (List.mem_singleton.mp ha)
          · exact Lts.run_cons_eq_some.mpr ⟨_, htask, Lts.run_of_step hhandled⟩
          · rw [Lts.trace_cons_of_step _ htask, Lts.trace_singleton, hsignal]
            rfl

/-- **The loop is a run** of the middleware on its thread in which every handler
returns at once: it raises the same signals and ends with the same table. -/
theorem completeTasks_run {σ : Runtime} (hidle : σ.signalling = false) (n : Nat) :
    ∃ as, (∀ a ∈ as, a = Action.task σ.clock ∨ a = Action.handled σ.clock) ∧
      Lts.run Runtime.step σ as =
        some { σ with timers := (completeTasks (reading σ.clock) n σ.timers).2 } ∧
      Lts.trace Runtime.step Runtime.events σ as =
        (completeTasks (reading σ.clock) n σ.timers).1.map fun id => Event.fired id σ.clock := by
  induction n generalizing σ with
  | zero => exact ⟨[], fun a ha => (nomatch ha), rfl, rfl⟩
  | succ n ih =>
      obtain ⟨as, hlabels, hrun, htrace⟩ := runNextTask_run hidle
      obtain ⟨bs, hlabels', hrun', htrace'⟩ :=
        ih (σ := { σ with timers := (σ.timers.runNextTask (reading σ.clock)).2 }) hidle
      refine ⟨as ++ bs, ?_, ?_, ?_⟩
      · intro a ha
        exact (List.mem_append.mp ha).elim (hlabels a) (hlabels' a)
      · rw [Lts.run_append, hrun, completeTasks_succ]
        exact hrun'
      · rw [Lts.trace_append bs hrun, htrace, htrace', completeTasks_succ, List.map_append]

end Pobicos.Middleware
