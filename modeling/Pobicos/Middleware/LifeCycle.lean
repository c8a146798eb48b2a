import Pobicos.Middleware.Punctuality
import Mathlib.Data.Finset.Card

/-!
# Pobicos.Middleware.LifeCycle

The life of a timer of the runtime: it is created, started, and destroyed, and
another one is created with its id.

What this means is a matter of the calls that have succeeded, not of the table:
`Lives` is the ids that are live and those of them that have been started, and
`Lives.step` says which call may succeed and which firing may be signalled.
`Refines` relates it to the three bits of a slot, and `run_refines` says that
whatever the module does is a run of `Lives`; the values that a destroyed timer
leaves behind in its slot are in no relation to anything.
-/

namespace Pobicos.Middleware

open RuntimeSWTimers

/-! ## The life of an id -/

/-- A call that has succeeded, or a signal of `fired`. -/
inductive LifeEvent
  | created (id : TimerId)
  | destroyed (id : TimerId)
  | started (id : TimerId)
  | fired (id : TimerId)
  deriving DecidableEq, Repr

/-- The ids that are live, and those of them that have been started. -/
structure Lives where
  live : Finset TimerId
  started : Finset TimerId
  started_subset : started ⊆ live

namespace Lives

def empty : Lives := ⟨∅, ∅, Finset.Subset.refl _⟩

/-- What may happen, and what it makes of the ids. -/
def step (l : Lives) : LifeEvent → Option Lives
  | .created id =>
      if id ∈ l.live then none
      else some ⟨insert id l.live, l.started, l.started_subset.trans (Finset.subset_insert id l.live)⟩
  | .destroyed id =>
      if id ∈ l.live then
        some ⟨l.live.erase id, l.started.erase id, Finset.erase_subset_erase id l.started_subset⟩
      else none
  | .started id =>
      if h : id ∈ l.live then
        some ⟨l.live, insert id l.started, Finset.insert_subset h l.started_subset⟩
      else none
  | .fired id => if id ∈ l.started then some l else none

variable {l l' : Lives} {id : TimerId} {e : LifeEvent}

/-- What each event does. -/
theorem step_cases (h : l.step e = some l') :
    (∃ i, e = .created i ∧ l'.live = insert i l.live ∧ l'.started = l.started) ∨
      (∃ i, e = .destroyed i ∧ l'.live = l.live.erase i ∧ l'.started = l.started.erase i) ∨
      (∃ i, e = .started i ∧ i ∈ l.live ∧ l'.live = l.live ∧ l'.started = insert i l.started) ∨
      ∃ i, e = .fired i ∧ i ∈ l.started ∧ l'.live = l.live ∧ l'.started = l.started := by
  cases e with
  | created i =>
      simp only [step, Option.ite_none_left_eq_some, Option.some.injEq] at h
      obtain ⟨-, rfl⟩ := h
      exact Or.inl ⟨i, rfl, rfl, rfl⟩
  | destroyed i =>
      simp only [step, Option.ite_none_right_eq_some, Option.some.injEq] at h
      obtain ⟨-, rfl⟩ := h
      exact Or.inr (Or.inl ⟨i, rfl, rfl, rfl⟩)
  | started i =>
      simp only [step, Option.dite_none_right_eq_some, Option.some.injEq] at h
      obtain ⟨hlive, rfl⟩ := h
      exact Or.inr (Or.inr (Or.inl ⟨i, rfl, hlive, rfl, rfl⟩))
  | fired i =>
      simp only [step, Option.ite_none_right_eq_some, Option.some.injEq] at h
      obtain ⟨hstarted, rfl⟩ := h
      exact Or.inr (Or.inr (Or.inr ⟨i, rfl, hstarted, rfl, rfl⟩))

/-- An id becomes live when it is created. -/
theorem eq_created_of_step (h : l.step e = some l') (hbefore : id ∉ l.live) (hafter : id ∈ l'.live) :
    e = .created id := by
  obtain ⟨i, rfl, hlive, -⟩ | ⟨i, rfl, hlive, -⟩ | ⟨i, -, -, hlive, -⟩ | ⟨i, -, -, hlive, -⟩ := step_cases h
  · rw [hlive] at hafter
    obtain rfl | hold := Finset.mem_insert.mp hafter
    · rfl
    · exact absurd hold hbefore
  · rw [hlive] at hafter
    exact absurd (Finset.mem_of_mem_erase hafter) hbefore
  · exact absurd (hlive ▸ hafter) hbefore
  · exact absurd (hlive ▸ hafter) hbefore

/-- It is started only when it is live. -/
theorem eq_started_of_step (h : l.step e = some l') (hbefore : id ∉ l.started) (hafter : id ∈ l'.started) :
    e = .started id ∧ id ∈ l.live := by
  obtain ⟨i, -, -, hstarted⟩ | ⟨i, -, -, hstarted⟩ | ⟨i, rfl, hlive, -, hstarted⟩ | ⟨i, -, -, -, hstarted⟩ :=
    step_cases h
  · exact absurd (hstarted ▸ hafter) hbefore
  · rw [hstarted] at hafter
    exact absurd (Finset.mem_of_mem_erase hafter) hbefore
  · rw [hstarted] at hafter
    obtain rfl | hold := Finset.mem_insert.mp hafter
    · exact ⟨rfl, hlive⟩
    · exact absurd hold hbefore
  · exact absurd (hstarted ▸ hafter) hbefore

end Lives

/-- Whenever `fired` is signalled for an id that has been destroyed before, a
timer has been created with this id in between, and then started. -/
def NoGhosts (es : List LifeEvent) : Prop :=
  ∀ id pre mid post, es = pre ++ .destroyed id :: (mid ++ .fired id :: post) →
    ∃ m₁ m₂ m₃, mid = m₁ ++ .created id :: (m₂ ++ .started id :: m₃)

/-- **No ghosts** in a run of the life cycle. -/
theorem noGhosts_of_run {l l' : Lives} {es : List LifeEvent} (h : Lts.run Lives.step l es = some l') :
    NoGhosts es := by
  rintro id pre mid post rfl
  rw [Lts.run_append, Option.bind_eq_some_iff] at h
  obtain ⟨l₀, -, h⟩ := h
  obtain ⟨l₁, hdestroyed, h⟩ := Lts.run_cons_eq_some.mp h
  rw [Lts.run_append, Option.bind_eq_some_iff] at h
  obtain ⟨l₂, hmid, h⟩ := h
  obtain ⟨l₃, hfired, -⟩ := Lts.run_cons_eq_some.mp h
  simp only [Lives.step, Option.ite_none_right_eq_some, Option.some.injEq] at hdestroyed hfired
  obtain ⟨-, rfl⟩ := hdestroyed
  -- from the destruction, where it is not started, to the firing, where it is
  obtain ⟨bs, e, cs, t, v, rfl, hbs, ht, hstep, hv⟩ :=
    Lts.run_turns (P := fun l => id ∈ l.started) (Finset.notMem_erase id _) hfired.1 hmid
  obtain ⟨rfl, hlive⟩ := Lives.eq_started_of_step hstep ht hv
  -- from the destruction, where it is not live, to the start, where it is
  obtain ⟨bs₁, e, bs₂, t', v', rfl, -, ht', hstep', hv'⟩ :=
    Lts.run_turns (P := fun l => id ∈ l.live) (Finset.notMem_erase id _) hlive hbs
  obtain rfl := Lives.eq_created_of_step hstep' ht' hv'
  exact ⟨bs₁, bs₂, cs, by rw [List.append_assoc, List.cons_append]⟩

/-! ## The history of the module -/

/-- What a command has done, if it succeeds. -/
def Call.life (s : RuntimeSWTimers) (now : BitVec 32) : Call → Option LifeEvent
  | .createTimer id =>
      if (s.createTimer id).1 = .success then some (.created (s.createTimer id).2.1) else none
  | .destroyTimer id => if (s.destroyTimer id).1 = .success then some (.destroyed id) else none
  | .startOneShot id timeout =>
      if (s.startOneShot id timeout now).1 = .success then some (.started id) else none
  | .startPeriodic id timeout =>
      if (s.startPeriodic id timeout now).1 = .success then some (.started id) else none
  | .getNow => none
  | .getTimeLeft _ _ => none

/-- The call of a step that has succeeded, or the signal it has come to. -/
def Runtime.life (σ : Runtime) : Action → Option LifeEvent
  | .call c t => c.life σ.timers (reading t)
  | .handled _ => none
  | .task t => (σ.timers.updateFromTimer (reading t)).1.map .fired
  | .hardware t => (σ.timers.fired (reading t)).1.map .fired

/-- The same for a history. -/
def Runtime.lives (σ : Runtime) (a : Action) : List LifeEvent := (σ.life a).toList

/-- Timers are started by an id of the table. -/
def Action.InRange : Action → Prop
  | .call (.startOneShot id _) _ => id.toNat < NUM_TIMERS
  | .call (.startPeriodic id _) _ => id.toNat < NUM_TIMERS
  | .call (.createTimer _) _ => True
  | .call (.destroyTimer _) _ => True
  | .call .getNow _ => True
  | .call (.getTimeLeft _ _) _ => True
  | .handled _ => True
  | .task _ => True
  | .hardware _ => True

instance : DecidablePred Action.InRange
  | .call (.startOneShot id _) _ => inferInstanceAs (Decidable (id.toNat < NUM_TIMERS))
  | .call (.startPeriodic id _) _ => inferInstanceAs (Decidable (id.toNat < NUM_TIMERS))
  | .call (.createTimer _) _ => isTrue trivial
  | .call (.destroyTimer _) _ => isTrue trivial
  | .call .getNow _ => isTrue trivial
  | .call (.getTimeLeft _ _) _ => isTrue trivial
  | .handled _ => isTrue trivial
  | .task _ => isTrue trivial
  | .hardware _ => isTrue trivial

/-! ## The table -/

theorem card_nums : nums.toFinset.card = NUM_TIMERS := by decide +kernel

/-- The bit of a live timer is set, and one that runs has been started. -/
structure Refines (timers : TimerId → RTimer) (l : Lives) : Prop where
  live : ∀ i, i ∈ l.live ↔ i ∈ nums ∧ (timers i).iscreated = true
  started : ∀ i ∈ nums, (timers i).isrunning = true → i ∈ l.started

variable {s : RuntimeSWTimers} {timers : TimerId → RTimer} {l : Lives} {id : TimerId}

/-- **Running timers are live**. -/
theorem Refines.live_of_running (h : Refines timers l) (hid : id ∈ nums)
    (hrun : (timers id).isrunning = true) : id ∈ l.live := l.started_subset (h.started id hid hrun)

theorem Refines.live_subset (h : Refines timers l) : l.live ⊆ nums.toFinset := by
  intro i hi
  exact List.mem_toFinset.mpr ((h.live i).mp hi).1

/-- There is a slot to create a timer in as long as not all ids are live. -/
theorem Refines.card_lt_iff (h : Refines timers l) :
    l.live.card < NUM_TIMERS ↔ ∃ num ∈ nums, (timers num).iscreated = false := by
  rw [← card_nums]
  constructor
  · intro hlt
    obtain ⟨num, hnum, hfree⟩ := Finset.exists_mem_notMem_of_card_lt_card hlt
    have hmem : num ∈ nums := List.mem_toFinset.mp hnum
    rw [h.live, not_and, Bool.not_eq_true] at hfree
    exact ⟨num, hmem, hfree hmem⟩
  · rintro ⟨num, hnum, hfree⟩
    refine Finset.card_lt_card (Finset.ssubset_iff_subset_ne.mpr ⟨h.live_subset, ?_⟩)
    intro heq
    have hlive : num ∈ l.live := by
      rw [heq]
      exact List.mem_toFinset.mpr hnum
    rw [((h.live num).mp hlive).2] at hfree
    cases hfree

/-! ## One call -/

theorem fail_ne_success : ErrorT.fail ≠ ErrorT.success := by decide

/-- `createTimer` takes a slot that is free, or there is none. -/
theorem createTimer_cases (s : RuntimeSWTimers) (id : TimerId) :
    (∃ num ∈ nums, (s.timers num).iscreated = false ∧
      s.createTimer id = (.success, num, s.set num { s.timers num with iscreated := true })) ∨
    ((¬ ∃ num ∈ nums, (s.timers num).iscreated = false) ∧ s.createTimer id = (.fail, id, s)) := by
  unfold createTimer
  split
  · next num hnum =>
      have hfree : (s.timers num).iscreated = false := by simpa using List.find?_some hnum
      exact Or.inl ⟨num, List.mem_of_find?_eq_some hnum, hfree, rfl⟩
  · next hnone =>
      refine Or.inr ⟨?_, rfl⟩
      rintro ⟨num, hnum, hfree⟩
      have htaken := List.find?_eq_none.mp hnone num hnum
      rw [hfree] at htaken
      exact htaken rfl

/-- **A timer is created** exactly if not all ids are live, with one that is
not. -/
theorem Refines.createTimer (h : Refines s.timers l) (id : TimerId) :
    ((s.createTimer id).1 = .success ↔ l.live.card < NUM_TIMERS) ∧
      ((s.createTimer id).1 = .success →
        (s.createTimer id).2.1 ∈ nums ∧ (s.createTimer id).2.1 ∉ l.live) := by
  rw [h.card_lt_iff]
  obtain ⟨num, hnum, hfree, heq⟩ | ⟨hfull, heq⟩ := createTimer_cases s id
  · rw [heq]
    refine ⟨iff_of_true rfl ⟨num, hnum, hfree⟩, fun _ => ⟨hnum, fun hlive => ?_⟩⟩
    rw [((h.live num).mp hlive).2] at hfree
    cases hfree
  · rw [heq]
    exact ⟨iff_of_false fail_ne_success hfull, fun h => absurd h fail_ne_success⟩

/-- What a slot is after a write, if its bits are as they were elsewhere. -/
theorem Refines.set (h : Refines s.timers l) {l' : Lives} {tm : RTimer}
    (hlive : ∀ i, i ≠ id → (i ∈ l'.live ↔ i ∈ l.live)) (hself : id ∈ l'.live ↔ id ∈ nums ∧ tm.iscreated = true)
    (hstarted : ∀ i, i ≠ id → i ∈ l.started → i ∈ l'.started)
    (hrun : id ∈ nums → tm.isrunning = true → id ∈ l'.started) : Refines (s.set id tm).timers l' := by
  constructor
  · intro i
    by_cases hi : i = id
    · subst hi
      rw [timers_set_self]
      exact hself
    · rw [timers_set_of_ne _ _ hi, hlive i hi]
      exact h.live i
  · intro i hnum
    by_cases hi : i = id
    · subst hi
      rw [timers_set_self]
      exact hrun hnum
    · rw [timers_set_of_ne _ _ hi]
      exact fun hrunning => hstarted i hi (h.started i hnum hrunning)

/-- The life event of a command is one that may happen, and the table goes along
with it. -/
def Follow (s' : RuntimeSWTimers) (l : Lives) (e : Option LifeEvent) : Prop :=
  ∃ l', Lts.run Lives.step l e.toList = some l' ∧ Refines s'.timers l'

theorem Refines.follow_none (h : Refines timers l) {s' : RuntimeSWTimers} (hsame : s'.timers = timers) :
    Follow s' l none := ⟨l, rfl, by rwa [hsame]⟩

theorem Refines.follow_some {s' : RuntimeSWTimers} {l' : Lives} {e : LifeEvent} (hstep : l.step e = some l')
    (h : Refines s'.timers l') : Follow s' l (some e) := ⟨l', Lts.run_of_step hstep, h⟩

/-- **Creation**. -/
theorem Refines.follow_createTimer (h : Refines s.timers l) (id : TimerId) (now : BitVec 32) :
    Follow (Call.run s now (.createTimer id)) l (Call.life s now (.createTimer id)) := by
  rw [Call.run, Call.life]
  obtain ⟨num, hnum, hfree, heq⟩ | ⟨-, heq⟩ := createTimer_cases s id
  · rw [heq, if_pos rfl]
    have hdead : num ∉ l.live := by
      intro hlive
      rw [((h.live num).mp hlive).2] at hfree
      cases hfree
    refine Refines.follow_some (if_neg hdead) (h.set ?_ ?_ ?_ ?_)
    · exact fun i hi => Finset.mem_insert.trans (or_iff_right hi)
    · exact iff_of_true (Finset.mem_insert_self num l.live) ⟨hnum, rfl⟩
    · exact fun i _ hi => hi
    · exact fun hmem hrun => h.started num hmem hrun
  · rw [heq, if_neg fail_ne_success]
    exact h.follow_none rfl

/-- **Destruction**. -/
theorem Refines.follow_destroyTimer (h : Refines s.timers l) (id : TimerId) (now : BitVec 32) :
    Follow (Call.run s now (.destroyTimer id)) l (Call.life s now (.destroyTimer id)) := by
  rw [Call.run, Call.life, destroyTimer]
  split
  · rw [if_neg fail_ne_success]
    exact h.follow_none rfl
  · next hrange =>
      split
      · next hcreated =>
          rw [if_pos rfl]
          have hnum : id ∈ nums := mem_nums.mpr (inRange_iff.mp hrange)
          have hlive : id ∈ l.live := (h.live id).mpr ⟨hnum, hcreated⟩
          refine Refines.follow_some (if_pos hlive) (h.set ?_ ?_ ?_ ?_)
          · exact fun i hi => Finset.mem_erase.trans (and_iff_right hi)
          · exact iff_of_false (Finset.notMem_erase id l.live) (fun hmem => Bool.false_ne_true hmem.2)
          · exact fun i hi hstarted => Finset.mem_erase.mpr ⟨hi, hstarted⟩
          · exact fun _ hrun => absurd hrun Bool.false_ne_true
      · rw [if_neg fail_ne_success]
        exact h.follow_none rfl

/-- A start that succeeds makes one write to the slot. -/
theorem start_of_created (isoneshot : Bool) (timeout now : BitVec 32)
    (hcreated : (s.timers id).iscreated = true) :
    start isoneshot s id timeout now = (.success, (s.set id { s.timers id with
      t0 := now, dt := timeout, isoneshot := isoneshot, isrunning := true }).post) := by
  simp [start, startTimer, RuntimeSWTimers.set, hcreated]

/-- **Start** of an id of the table. -/
theorem Refines.follow_start (h : Refines s.timers l) (isoneshot : Bool) (hid : id.toNat < NUM_TIMERS)
    (timeout now : BitVec 32) :
    Follow (start isoneshot s id timeout now).2 l
      (if (start isoneshot s id timeout now).1 = .success then some (.started id) else none) := by
  by_cases hcreated : (s.timers id).iscreated = true
  · rw [start_of_created isoneshot timeout now hcreated, if_pos rfl]
    have hlive : id ∈ l.live := (h.live id).mpr ⟨mem_nums.mpr hid, hcreated⟩
    refine Refines.follow_some (dif_pos hlive) (h.set (fun i _ => Iff.rfl) ?_ ?_ ?_)
    · exact iff_of_true hlive ⟨mem_nums.mpr hid, hcreated⟩
    · exact fun i _ hi => Finset.mem_insert_of_mem hi
    · exact fun _ _ => Finset.mem_insert_self id l.started
  · rw [start, if_neg hcreated, if_neg fail_ne_success]
    exact h.follow_none rfl

/-- **A signal** of `fired`, or none. -/
theorem Refines.follow_fires (h : Refines timers l) {now : BitVec 32} {r : Option TimerId × RuntimeSWTimers}
    (hr : Fires timers now r) : Follow r.2 l (r.1.map .fired) := by
  obtain ⟨hnone, hsame⟩ | ⟨num, hnum, hdue, hsome, hset⟩ := hr
  · rw [hnone]
    exact h.follow_none hsame
  · have hrun : (timers num).isrunning = true := by
      rw [due, Bool.and_eq_true] at hdue
      exact hdue.1
    have hcreated : (RTimer.advance (timers num)).iscreated = (timers num).iscreated := by
      unfold RTimer.advance
      split <;> rfl
    have hstarted := h.started num hnum hrun
    rw [hsome]
    refine Refines.follow_some (if_pos hstarted) ?_
    rw [hset]
    refine Refines.set (s := ⟨timers, false, none⟩) h (fun i _ => Iff.rfl) ?_ (fun i _ hi => hi) ?_
    · rw [hcreated]
      exact h.live num
    · exact fun _ _ => hstarted

/-! ## Runs -/

/-- **One step** of the module is one of the life cycle, or none. -/
theorem Refines.step {σ τ : Runtime} {a : Action} (h : Refines σ.timers.timers l) (ha : a.InRange)
    (hst : Runtime.step σ a = some τ) : Follow τ.timers l (σ.life a) := by
  cases a with
  | call c t =>
      simp only [Runtime.step, Option.ite_none_right_eq_some, Option.some.injEq] at hst
      obtain ⟨-, rfl⟩ := hst
      cases c with
      | createTimer id => exact h.follow_createTimer id (reading t)
      | destroyTimer id => exact h.follow_destroyTimer id (reading t)
      | startOneShot id timeout => exact h.follow_start true ha timeout (reading t)
      | startPeriodic id timeout => exact h.follow_start false ha timeout (reading t)
      | getNow => exact h.follow_none rfl
      | getTimeLeft id remaining => exact h.follow_none rfl
  | handled t =>
      simp only [Runtime.step, Option.ite_none_right_eq_some, Option.some.injEq] at hst
      obtain ⟨-, rfl⟩ := hst
      exact h.follow_none rfl
  | task t =>
      simp only [Runtime.step, Option.ite_none_right_eq_some, Option.some.injEq] at hst
      obtain ⟨-, rfl⟩ := hst
      exact h.follow_fires (updateFromTimer_fires σ.timers (reading t))
  | hardware t =>
      simp only [Runtime.step, Option.ite_none_right_eq_some, Option.some.injEq] at hst
      obtain ⟨-, rfl⟩ := hst
      exact h.follow_fires (fired_fires σ.timers (reading t))

theorem refines_boot (timers : TimerId → RTimer) (t : Nat) :
    Refines (Runtime.boot timers t).timers.timers .empty := by
  constructor
  · intro i
    refine iff_of_false (Finset.notMem_empty i) ?_
    rintro ⟨hnum, hcreated⟩
    simp [Runtime.boot, init, hnum] at hcreated
  · intro i hnum hrun
    simp [Runtime.boot, init, hnum] at hrun

/-- The history so far is a run of the life cycle, and the table goes along. -/
def Living (σ : Runtime) (es : List LifeEvent) : Prop :=
  ∃ l, Lts.run Lives.step .empty es = some l ∧ Refines σ.timers.timers l

theorem Living.step {σ τ : Runtime} {es : List LifeEvent} {a : Action} (h : Living σ es) (ha : a.InRange)
    (hst : Runtime.step σ a = some τ) : Living τ (es ++ σ.lives a) := by
  obtain ⟨l, hl, href⟩ := h
  obtain ⟨l', hl', href'⟩ := href.step ha hst
  refine ⟨l', ?_, href'⟩
  rw [Lts.run_append, hl]
  exact hl'

/-- **Refinement**: the history of every run from `Init.init()` is a run of the
life cycle. -/
theorem run_refines (timers : TimerId → RTimer) (t₀ : Nat) {as : List Action} {σ : Runtime}
    (hids : ∀ a ∈ as, a.InRange) (hrun : Lts.run Runtime.step (.boot timers t₀) as = some σ) :
    Living σ (Lts.trace Runtime.step Runtime.lives (.boot timers t₀) as) := by
  have hboot : Living (.boot timers t₀) [] := ⟨.empty, rfl, refines_boot timers t₀⟩
  exact Lts.trace_induct (P := Living) (fun _ _ _ _ hs ha hst => hs.step ha hst)
    (Lts.along_of_forall (fun a ha _ => hids a ha) _) hboot hrun

/-- **The life cycle of a timer**: after every run from `Init.init()`, with
calls, tasks and events of the hardware timer in any order, a timer is created
exactly if fewer than 128 are live, with an id of the table that is not live;
every timer that runs is live; and `fired` has not been signalled for an id
between its destruction and a start of another timer created with it. -/
theorem life_cycle (timers : TimerId → RTimer) (t₀ : Nat) {as : List Action} {σ : Runtime}
    (hids : ∀ a ∈ as, a.InRange) (hrun : Lts.run Runtime.step (.boot timers t₀) as = some σ) :
    let es := Lts.trace Runtime.step Runtime.lives (.boot timers t₀) as
    ∃ l, Lts.run Lives.step .empty es = some l ∧
      (∀ id, ((σ.timers.createTimer id).1 = .success ↔ l.live.card < NUM_TIMERS) ∧
        ((σ.timers.createTimer id).1 = .success →
          (σ.timers.createTimer id).2.1 ∈ nums ∧ (σ.timers.createTimer id).2.1 ∉ l.live)) ∧
      (∀ id ∈ nums, (σ.timers.timers id).isrunning = true → id ∈ l.live) ∧ NoGhosts es := by
  intro es
  obtain ⟨l, hl, href⟩ := run_refines timers t₀ hids hrun
  exact ⟨l, hl, href.createTimer, fun id hid hrunning => href.live_of_running hid hrunning, noGhosts_of_run hl⟩

/-- A timer is destroyed while the task is pending that its start has posted,
and another one is created with its id, started, and fires. -/
def recycledRun : List Action :=
  [.call (.createTimer 9) 0, .call (.startOneShot 0 10) 5, .call (.destroyTimer 0) 6, .task 20,
    .call (.createTimer 9) 30, .hardware 40, .call (.startPeriodic 0 10) 50, .task 70]

/-- It fires once, for the second start. -/
theorem life_cycle_recycled :
    let boot := Runtime.boot (fun _ => ⟨0, 0, true, true, true⟩) 0
    let es := Lts.trace Runtime.step Runtime.lives boot recycledRun
    es = [.created 0, .started 0, .destroyed 0, .created 0, .started 0, .fired 0] ∧
      ∃ σ, Lts.run Runtime.step boot recycledRun = some σ ∧
        ∃ l, Lts.run Lives.step .empty es = some l ∧
          (∀ id, ((σ.timers.createTimer id).1 = .success ↔ l.live.card < NUM_TIMERS) ∧
            ((σ.timers.createTimer id).1 = .success →
              (σ.timers.createTimer id).2.1 ∈ nums ∧ (σ.timers.createTimer id).2.1 ∉ l.live)) ∧
          (∀ id ∈ nums, (σ.timers.timers id).isrunning = true → id ∈ l.live) ∧ NoGhosts es := by
  intro boot es
  have hrun : (Lts.run Runtime.step boot recycledRun).isSome = true := by decide +kernel
  obtain ⟨σ, hσ⟩ := Option.isSome_iff_exists.mp hrun
  exact ⟨by decide +kernel, σ, hσ, life_cycle _ 0 (by decide) hσ⟩

end Pobicos.Middleware
