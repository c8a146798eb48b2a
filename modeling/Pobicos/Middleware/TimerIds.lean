import Pobicos.Lib.Cells
import Pobicos.Middleware.Punctuality

/-!
# Pobicos.Middleware.TimerIds

The commands of `PoRuntimeSWTimersI` that are given the id of a timer, with an
account of the slots of `timers` they touch.

An id is any number of 8 bits, also `PO_RUNTIME_TIMER_ID_INVALID`, and the array
has 128 slots.  `destroyTimer` and `getTimeLeft` look at the id before they touch
anything; `startOneShot` and `startPeriodic` do not, and `guarded_iff` says
what comes of it.
-/

namespace Pobicos.Middleware

open Cells RuntimeSWTimers

def PO_RUNTIME_TIMER_ID_INVALID : TimerId := 0xFF

/-- A command of the module on its variables. -/
abbrev Command := Access TimerId RuntimeSWTimers

/-- The value of a field of `timers[id]`. -/
def readSlot {α : Type} (id : TimerId) (field : RTimer → α) : Command α :=
  Access.load id fun s => field (s.timers id)

/-- An assignment to a field of `timers[id]`. -/
def writeSlot (id : TimerId) (assign : RTimer → RTimer) : Command Unit :=
  Access.store id fun s => s.set id (assign (s.timers id))

/-! ## The commands -/

namespace Command

/-- `destroyTimer(id)`. -/
def destroyTimer (id : TimerId) : Command ErrorT :=
  if id.toNat > NUM_TIMERS - 1 then pure .fail
  else do
    let iscreated ← readSlot id (·.iscreated)
    if iscreated = false then pure .fail
    else do
      writeSlot id fun tm => { tm with iscreated := false }
      writeSlot id fun tm => { tm with isrunning := false }
      pure .success

/-- `startTimer(id, t0, timeout, isoneshot)`. -/
def startTimer (id : TimerId) (t0 timeout : BitVec 32) (isoneshot : Bool) : Command Unit := do
  writeSlot id fun tm => { tm with t0 := t0 }
  writeSlot id fun tm => { tm with dt := timeout }
  writeSlot id fun tm => { tm with isoneshot := isoneshot }
  Access.modify RuntimeSWTimers.post

/-- `startOneShot(id, timeout)` and `startPeriodic(id, timeout)`. -/
def start (isoneshot : Bool) (id : TimerId) (timeout now : BitVec 32) : Command ErrorT := do
  let iscreated ← readSlot id (·.iscreated)
  if iscreated = false then pure .fail
  else do
    writeSlot id fun tm => { tm with isrunning := true }
    startTimer id now timeout isoneshot
    pure .success

/-- `getTimeLeft(id, remaining)`: the error code and `*remaining`. -/
def getTimeLeft (id : TimerId) (remaining now : BitVec 32) : Command (ErrorT × BitVec 32) :=
  if id.toNat > NUM_TIMERS - 1 then pure (.fail, remaining)
  else do
    let isrunning ← readSlot id (·.isrunning)
    if isrunning = false then pure (.fail, remaining)
    else do
      let t0 ← readSlot id (·.t0)
      let dt ← readSlot id (·.dt)
      let remTime := dt - (now - t0)
      if remTime.slt 0 then pure (.success, 0) else pure (.success, remTime)

end Command

/-! ## They are the commands of the module -/

variable {s : RuntimeSWTimers} {id : TimerId}

theorem set_set (s : RuntimeSWTimers) (id : TimerId) (tm tm' : RTimer) :
    (s.set id tm).set id tm' = s.set id tm' := by
  simp [RuntimeSWTimers.set]

theorem writeSlot_run (s : RuntimeSWTimers) (id : TimerId) (assign : RTimer → RTimer) :
    writeSlot id assign s = ⟨(), s.set id (assign (s.timers id)), [id]⟩ := rfl

theorem readSlot_run {α : Type} (s : RuntimeSWTimers) (id : TimerId) (field : RTimer → α) :
    readSlot id field s = ⟨field (s.timers id), s, [id]⟩ := rfl

theorem destroyTimer_outcome (s : RuntimeSWTimers) (id : TimerId) :
    (Command.destroyTimer id s).result = (s.destroyTimer id).1 ∧
      (Command.destroyTimer id s).state = (s.destroyTimer id).2 := by
  rw [Command.destroyTimer, RuntimeSWTimers.destroyTimer, Access.ite_run]
  split
  · exact ⟨rfl, rfl⟩
  · cases hcreated : (s.timers id).iscreated <;>
      simp [readSlot_run, writeSlot_run, hcreated, timers_set_self, set_set]

theorem start_outcome (isoneshot : Bool) (s : RuntimeSWTimers) (id : TimerId) (timeout now : BitVec 32) :
    (Command.start isoneshot id timeout now s).result = (RuntimeSWTimers.start isoneshot s id timeout now).1 ∧
      (Command.start isoneshot id timeout now s).state =
        (RuntimeSWTimers.start isoneshot s id timeout now).2 := by
  cases hcreated : (s.timers id).iscreated <;>
    simp [Command.start, Command.startTimer, RuntimeSWTimers.start, RuntimeSWTimers.startTimer,
      readSlot_run, writeSlot_run, hcreated, timers_set_self, set_set]

theorem getTimeLeft_outcome (s : RuntimeSWTimers) (id : TimerId) (remaining now : BitVec 32) :
    (Command.getTimeLeft id remaining now s).result = s.getTimeLeft id remaining now ∧
      (Command.getTimeLeft id remaining now s).state = s := by
  rw [Command.getTimeLeft, RuntimeSWTimers.getTimeLeft, Access.ite_run]
  split
  · exact ⟨rfl, rfl⟩
  · cases hrunning : (s.timers id).isrunning
    · simp [readSlot_run, hrunning]
    · cases hneg : ((s.timers id).dt - (now - (s.timers id).t0)).slt 0#32 <;>
        simp [readSlot_run, hrunning, hneg]

/-! ## Ids that are not valid -/

/-- A command that is given an id. -/
inductive IdCommand
  | destroyTimer
  | startOneShot (timeout : BitVec 32)
  | startPeriodic (timeout : BitVec 32)
  | getTimeLeft (remaining : BitVec 32)
  deriving DecidableEq, Repr

namespace IdCommand

/-- The command for `id` when `getNow()` is `now`, and its error code. -/
def run (c : IdCommand) (id : TimerId) (now : BitVec 32) : Command ErrorT :=
  match c with
  | destroyTimer => Command.destroyTimer id
  | startOneShot timeout => Command.start true id timeout now
  | startPeriodic timeout => Command.start false id timeout now
  | getTimeLeft remaining => do
      let r ← Command.getTimeLeft id remaining now
      pure r.1

/-- The bit of a timer that the command supposes. -/
def Supposes (c : IdCommand) (tm : RTimer) : Prop :=
  match c with
  | destroyTimer => tm.iscreated = true
  | startOneShot _ => tm.iscreated = true
  | startPeriodic _ => tm.iscreated = true
  | getTimeLeft _ => tm.isrunning = true

/-- The command starts a timer. -/
def IsStart : IdCommand → Prop
  | destroyTimer => False
  | startOneShot _ => True
  | startPeriodic _ => True
  | getTimeLeft _ => False

end IdCommand

/-- The command touches the 128 slots only, and fails without effect if the id
is not one of theirs or the timer is not in the state it supposes. -/
structure Guarded (c : IdCommand) (s : RuntimeSWTimers) (id : TimerId) (now : BitVec 32) : Prop where
  within : ∀ i ∈ (c.run id now s).cells, i.toNat < NUM_TIMERS
  rejects : ¬ (id.toNat < NUM_TIMERS ∧ c.Supposes (s.timers id)) →
    (c.run id now s).result = .fail ∧ (c.run id now s).state = s

variable {c : IdCommand} {now : BitVec 32}

/-- A start touches one slot. -/
theorem cells_start (isoneshot : Bool) (s : RuntimeSWTimers) (id : TimerId) (timeout now : BitVec 32) {i : TimerId}
    (hi : i ∈ (Command.start isoneshot id timeout now s).cells) : i = id := by
  cases hcreated : (s.timers id).iscreated <;>
    simpa [Command.start, Command.startTimer, readSlot_run, writeSlot_run, hcreated] using hi

/-- It fails without effect on a timer that is not created. -/
theorem start_fails (isoneshot : Bool) (timeout now : BitVec 32) (hcreated : (s.timers id).iscreated ≠ true) :
    (Command.start isoneshot id timeout now s).result = .fail ∧
      (Command.start isoneshot id timeout now s).state = s := by
  obtain ⟨hresult, hstate⟩ := start_outcome isoneshot s id timeout now
  rw [hresult, hstate, RuntimeSWTimers.start, if_neg hcreated]
  exact ⟨rfl, rfl⟩

/-- **What is touched**: the slot of the id, and nothing if the id is looked at
and not valid. -/
theorem eq_of_mem_cells (c : IdCommand) (s : RuntimeSWTimers) (id : TimerId) (now : BitVec 32) {i : TimerId}
    (hi : i ∈ (c.run id now s).cells) : i = id ∧ (c.IsStart ∨ id.toNat < NUM_TIMERS) := by
  cases c with
  | destroyTimer =>
      rw [IdCommand.run, Command.destroyTimer, Access.ite_run] at hi
      split at hi
      · cases hi
      · next hid =>
          refine ⟨?_, Or.inr (inRange_iff.mp hid)⟩
          cases hcreated : (s.timers id).iscreated <;>
            simpa [readSlot_run, writeSlot_run, hcreated] using hi
  | startOneShot timeout => exact ⟨cells_start true s id timeout now hi, Or.inl trivial⟩
  | startPeriodic timeout => exact ⟨cells_start false s id timeout now hi, Or.inl trivial⟩
  | getTimeLeft remaining =>
      have hi : i ∈ (Command.getTimeLeft id remaining now s).cells := by
        rwa [IdCommand.run, Access.bind_run, Access.pure_run, List.append_nil] at hi
      rw [Command.getTimeLeft, Access.ite_run] at hi
      split at hi
      · cases hi
      · next hid =>
          refine ⟨?_, Or.inr (inRange_iff.mp hid)⟩
          cases hrunning : (s.timers id).isrunning
          · simpa [readSlot_run, hrunning] using hi
          · cases hneg : ((s.timers id).dt - (now - (s.timers id).t0)).slt 0#32 <;>
              simpa [readSlot_run, hrunning, hneg] using hi

/-- A start touches the slot of its id, whatever the id is. -/
theorem mem_cells_of_isStart (hstart : c.IsStart) (s : RuntimeSWTimers) (id : TimerId) (now : BitVec 32) :
    id ∈ (c.run id now s).cells := by
  cases c with
  | destroyTimer => exact absurd hstart (fun h => h)
  | startOneShot timeout => exact List.mem_append_left _ (List.mem_singleton_self id)
  | startPeriodic timeout => exact List.mem_append_left _ (List.mem_singleton_self id)
  | getTimeLeft remaining => exact absurd hstart (fun h => h)

/-- **What fails has no effect**: a command on a timer that is not in the state
it supposes, or on an id that it finds not to be valid. -/
theorem fails_of_not_supposes (hbad : ¬ c.Supposes (s.timers id) ∨ ¬ c.IsStart ∧ ¬ id.toNat < NUM_TIMERS) :
    (c.run id now s).result = .fail ∧ (c.run id now s).state = s := by
  cases c with
  | destroyTimer =>
      obtain ⟨hresult, hstate⟩ := destroyTimer_outcome s id
      rw [IdCommand.run, hresult, hstate, RuntimeSWTimers.destroyTimer]
      split
      · exact ⟨rfl, rfl⟩
      · next hid =>
          obtain hcreated | ⟨-, hout⟩ := hbad
          · rw [if_neg (show ¬ (s.timers id).iscreated = true from hcreated)]
            exact ⟨rfl, rfl⟩
          · exact absurd (inRange_iff.mp hid) hout
  | startOneShot timeout => exact start_fails true timeout now (hbad.resolve_right fun h => h.1 trivial)
  | startPeriodic timeout => exact start_fails false timeout now (hbad.resolve_right fun h => h.1 trivial)
  | getTimeLeft remaining =>
      obtain ⟨hresult, hstate⟩ := getTimeLeft_outcome s id remaining now
      rw [IdCommand.run, Access.bind_run, hresult, hstate, RuntimeSWTimers.getTimeLeft]
      refine ⟨?_, rfl⟩
      split
      · rfl
      · next hid =>
          obtain hrunning | ⟨-, hout⟩ := hbad
          · rw [if_neg (show ¬ (s.timers id).isrunning = true from hrunning)]
            rfl
          · exact absurd (inRange_iff.mp hid) hout

/-- **Invalid ids**: on every table and for every id, a command touches the 128
slots only and fails without effect where it has to, exactly if it does not
start a timer or the id is one of a slot. -/
theorem guarded_iff (c : IdCommand) (s : RuntimeSWTimers) (id : TimerId) (now : BitVec 32) :
    Guarded c s id now ↔ (c.IsStart → id.toNat < NUM_TIMERS) := by
  constructor
  · intro h hstart
    exact h.within id (mem_cells_of_isStart hstart s id now)
  · intro h
    refine ⟨fun i hi => ?_, fun hbad => fails_of_not_supposes ?_⟩
    · obtain ⟨rfl, hid⟩ := eq_of_mem_cells c s id now hi
      exact hid.elim h fun hlt => hlt
    · by_cases hsupposes : c.Supposes (s.timers id)
      · have hout : ¬ id.toNat < NUM_TIMERS := fun hid => hbad ⟨hid, hsupposes⟩
        exact Or.inr ⟨fun hstart => hout (h hstart), hout⟩
      · exact Or.inl hsupposes

/-- After `Init.init()`, with a bit set in the memory behind the array:
`startOneShot` of `PO_RUNTIME_TIMER_ID_INVALID` succeeds and has overwritten
that memory. -/
theorem startOneShot_invalid :
    let σ := Runtime.boot (fun _ => ⟨0, 0, true, true, false⟩) 0
    let o := (IdCommand.startOneShot 100).run PO_RUNTIME_TIMER_ID_INVALID 7 σ.timers
    o.result = .success ∧ o.state.timers 0xFF = ⟨7, 100, true, true, true⟩ ∧
      ¬ Guarded (.startOneShot 100) σ.timers PO_RUNTIME_TIMER_ID_INVALID 7 := by
  refine ⟨by decide +kernel, by decide +kernel, fun h => ?_⟩
  have htouched := mem_cells_of_isStart (c := .startOneShot 100) trivial
    (Runtime.boot (fun _ => ⟨0, 0, true, true, false⟩) 0).timers PO_RUNTIME_TIMER_ID_INVALID 7
  exact absurd (h.within _ htouched) (by decide)

end Pobicos.Middleware
