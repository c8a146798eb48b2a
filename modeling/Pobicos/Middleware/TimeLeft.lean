import Pobicos.Middleware.Wakeup

/-!
# Pobicos.Middleware.TimeLeft

`getTimeLeft` and `fireTimers` on one timer.

The one takes the 32-bit time remaining as a signed number, the other compares
the time elapsed with the timeout unsigned.  On a timer whose timeout is
supported and that is not overdue for too long both are about the time to its
deadline, wherever the clock wraps (`timeLeft_of_run`).
-/

namespace Pobicos.Middleware

open RuntimeSWTimers

variable {s : RuntimeSWTimers} {id : TimerId} {now : BitVec 32} {tm : RTimer} {st : Start} {t : Nat}

/-- What `getTimeLeft` gives for a running timer. -/
theorem getTimeLeft_of_running (hid : id.toNat < NUM_TIMERS) (hrun : (s.timers id).isrunning = true)
    (rem : BitVec 32) :
    s.getTimeLeft id rem now =
      (.success, if (remaining now (s.timers id)).slt 0 then 0 else remaining now (s.timers id)) := by
  rw [getTimeLeft, if_neg (inRange_iff.mpr hid), if_pos hrun]
  exact (apply_ite (Prod.mk ErrorT.success) _ _ _).symm

/-- **The signed test**: the time to the deadline, or nothing if it is over. -/
theorem Follows.timeLeft_toNat (h : Follows tm st t) (hshort : st.timeout.toNat ≤ 2 ^ 31 - 1)
    (hover : t ≤ st.deadline + 2 ^ 31) :
    (if (remaining (reading t) tm).slt 0 then 0 else remaining (reading t) tm).toNat = st.deadline - t := by
  have hint := h.remaining_toInt hshort hover
  have hzero : (0 : BitVec 32).toInt = 0 := rfl
  split
  · next hneg =>
      rw [BitVec.slt, decide_eq_true_iff, hint, hzero] at hneg
      show 0 = st.deadline - t
      omega
  · next hpos =>
      rw [BitVec.slt, decide_eq_true_iff, hint, hzero] at hpos
      rw [BitVec.toInt_eq_toNat_cond] at hint
      split at hint <;> omega

/-- **The unsigned test**: whether the deadline is over. -/
theorem Follows.due_iff (h : Follows tm st t) (hrun : tm.isrunning = true)
    (hshort : st.timeout.toNat ≤ 2 ^ 31 - 1) (hover : t ≤ st.deadline + 2 ^ 31) :
    due (reading t) tm = true ↔ st.deadline ≤ t := by
  constructor
  · exact fun hdue => due_true_time h hdue
  · intro hdead
    rw [st.deadline_eq] at hdead hover
    have helapsed := h.elapsed_toNat (by omega)
    rw [due, hrun, Bool.true_and, BitVec.ule, decide_eq_true_iff, helapsed, h.dt]
    omega

/-- **`getTimeLeft` and firing**: in every run from `Init.init()`, for a running
timer whose timeout is supported, at every time from then on at which it is
not overdue for more than `2 ^ 31` ms, `getTimeLeft` gives the time to its
deadline, or 0 if that is over, and it gives 0 exactly when `fireTimers` finds
the timer due. -/
theorem timeLeft_of_run (timers : TimerId → RTimer) (t₀ : Nat) {as : List Action} {σ : Runtime}
    (hrun : Lts.run Runtime.step (.boot timers t₀) as = some σ) {id : TimerId} (hid : id.toNat < NUM_TIMERS)
    (hrunning : (σ.timers.timers id).isrunning = true)
    (hshort : (σ.timers.timers id).dt.toNat ≤ 2 ^ 31 - 1) :
    ∃ st, latest id (Lts.trace Runtime.step Runtime.events (.boot timers t₀) as) = some st ∧
      ∀ t, σ.clock ≤ t → t ≤ st.deadline + 2 ^ 31 → ∀ rem,
        (σ.timers.getTimeLeft id rem (reading t)).1 = .success ∧
        (σ.timers.getTimeLeft id rem (reading t)).2.toNat = st.deadline - t ∧
        ((σ.timers.getTimeLeft id rem (reading t)).2 = 0 ↔
          due (reading t) (σ.timers.timers id) = true) := by
  obtain ⟨st, hst, hfol⟩ := (tracked_of_run timers t₀ hrun).1 id (mem_nums.mpr hid) hrunning
  refine ⟨st, hst, fun t ht hover rem => ?_⟩
  rw [hfol.dt] at hshort
  have hlater := hfol.later ht
  have hleft := hlater.timeLeft_toNat hshort hover
  rw [getTimeLeft_of_running hid hrunning]
  refine ⟨rfl, hleft, ?_⟩
  rw [hlater.due_iff hrunning hshort hover, ← BitVec.toNat_inj]
  simp only [hleft]
  exact Nat.sub_eq_zero_iff_le

/-- A timer is started for 100 ms just before the reading wraps. -/
def wrapRun : List Action :=
  [.call (.createTimer 0) 0, .call (.startOneShot 0 100) 4294967290, .task 4294967291]

/-- 10 ms before its deadline, and 2 after it. -/
theorem timeLeft_of_run_wrap :
    ∃ σ, Lts.run Runtime.step (.boot (fun _ => ⟨0, 0, true, true, true⟩) 0) wrapRun = some σ ∧
      ((σ.timers.getTimeLeft 0 7 (reading 4294967380)).1 = .success ∧
        (σ.timers.getTimeLeft 0 7 (reading 4294967380)).2.toNat = 10) ∧
      ((σ.timers.getTimeLeft 0 7 (reading 4294967392)).2 = 0 ↔
        due (reading 4294967392) (σ.timers.timers 0) = true) := by
  have hrun := (Option.some_get (by decide +kernel :
    (Lts.run Runtime.step (.boot (fun _ => ⟨0, 0, true, true, true⟩) 0) wrapRun).isSome = true)).symm
  obtain ⟨st, hst, hleft⟩ := timeLeft_of_run _ 0 hrun
    (by decide : (0 : TimerId).toNat < NUM_TIMERS) (by decide +kernel) (by decide +kernel)
  have hstart : latest 0 (Lts.trace Runtime.step Runtime.events (.boot (fun _ => ⟨0, 0, true, true, true⟩) 0)
      wrapRun) = some ⟨true, 100, 4294967290, 0⟩ := by decide +kernel
  cases hst.symm.trans hstart
  obtain ⟨hok, hten, -⟩ := hleft 4294967380 (by decide +kernel) (by decide) 7
  obtain ⟨-, -, hdue⟩ := hleft 4294967392 (by decide +kernel) (by decide) 7
  exact ⟨_, hrun, ⟨hok, hten⟩, hdue⟩

end Pobicos.Middleware
