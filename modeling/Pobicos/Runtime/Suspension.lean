import Pobicos.Runtime.Isolation

/-!
# Pobicos.Runtime.Suspension

Suspension of agents, and their move to another node.

An agent is suspended in two steps: its slot is marked, and `suspendDoneTask`
finds the mark.  `suspension_not_lost` says that a mark is always ahead of the
task, however calls come between its turns; `migration` that what is saved of a
suspended agent is restored on another node.
-/

namespace Pobicos.Runtime

open Octets CArray FlatMemory Vm

variable {o : ByteOrder} {hdr : AgentType → AgentImage} {s s' : RuntimeMngr} {a aid : AgentID} {i j k n lo : Nat}
  {mem mem' : Memory}

namespace RuntimeMngr

/-! ## What a call does to a slot -/

/-- The slot `j` before and after a call: as it was, given back, given to
somebody, or in another state. -/
inductive SlotStep (o : ByteOrder) (s : RuntimeMngr) (c : Call) (s' : RuntimeMngr) (j : Nat) : Prop
  | kept (hid : slotId o s'.mem j = slotId o s.mem j) (hstate : slotSuspended s'.mem j = slotSuspended s.mem j)
  | freed (hid : slotId o s'.mem j = NO_AGENT)
  | created (img : Images) (at' : AgentType) (hc : c = .createUARuntime img at' (slotId o s'.mem j))
      (hfree : slotId o s.mem j = NO_AGENT) (hstate : slotSuspended s'.mem j = 0)
  | restored (buffer : Memory) (hc : c = .createUARuntimeFromSavedState (slotId o s'.mem j) buffer)
      (hfree : slotId o s.mem j = NO_AGENT) (hstate : slotSuspended s'.mem j = 3)
  | suspended (busy timers : Bool) (hc : c = .suspendAgent (slotId o s.mem j) busy timers)
      (hid : slotId o s'.mem j = slotId o s.mem j)
      (hstate : slotSuspended s'.mem j = suspendStateToSet busy (slotSuspended s.mem j))
      (hposted : slotSuspended s'.mem j = 2 → s'.posted = true)
  | resumed (timers : Bool) (hc : c = .resumeAgent (slotId o s.mem j) timers)
      (hid : slotId o s'.mem j = slotId o s.mem j) (hbefore : slotSuspended s.mem j = 3)
      (hstate : slotSuspended s'.mem j = 0)
  | ended (endedEventType : BitVec 32) (hc : c = .handlerExecutionEnded endedEventType (slotId o s.mem j) false)
      (hid : slotId o s'.mem j = slotId o s.mem j) (hstate : slotSuspended s'.mem j = 2)
      (hposted : s'.posted = true)
  | done (hc : c = .suspendDoneTurn) (hscan : s.scan = some j) (hid : slotId o s'.mem j = slotId o s.mem j)
      (hbefore : slotSuspended s.mem j = 2) (hstate : slotSuspended s'.mem j = 3)

/-- A write between the id and the state keeps both, in every slot. -/
theorem SlotStep.of_outside {c : Call} (h : Outside (agentOffs i + lo) n s.mem s'.mem) (hlo : 4 ≤ lo)
    (hn : lo + n ≤ SUSPENDED_OFFS) : SlotStep o s c s' j := by
  have hlast : SUSPENDED_OFFS = 525 := rfl
  exact .kept (slotId_of_outside h (by omega) (.inr hlo)) (slotSuspended_of_outside h (by omega) (.inr hn))

/-- A new state in the slot `i`: that slot, and the others. -/
theorem slot_putSuspended (o : ByteOrder) (mem : Memory) (i : Nat) (state : Byte) (j : Nat) :
    slotId o (putSuspended mem i state) j = slotId o mem j ∧
      slotSuspended (putSuspended mem i state) j = if j = i then state else slotSuspended mem j := by
  have hout := outside_putSuspended mem i state
  refine ⟨slotId_of_outside hout (by decide) (.inr (by decide)), ?_⟩
  split_ifs with hji
  · subst hji
    exact slotSuspended_putSuspended mem j state
  · exact slotSuspended_of_outside hout (by decide) (.inl hji)

/-- A state is written to one slot. -/
theorem slot_putState (o : ByteOrder) (i : Nat) (aid : AgentID) (state : Byte) (s : RuntimeMngr) (j : Nat) :
    slotId o (s.putState i aid state).mem j = slotId o s.mem j ∧
      slotSuspended (s.putState i aid state).mem j = if j = i then state else slotSuspended s.mem j := by
  have hput := slot_putSuspended o s.mem i state j
  unfold putState
  dsimp only
  split_ifs at hput ⊢
  · exact hput
  · exact hput
  · exact hput
  · exact hput

/-- A call that gives a slot away leaves the others as they are; the slot itself
is to be looked at. -/
theorem SlotStep.of_gives {c : Call} (h : Gives o i aid s.mem s'.mem) (hi : SlotStep o s c s' i) :
    SlotStep o s c s' j := by
  by_cases hji : j = i
  · rwa [hji]
  · exact .kept (h.slotId_ne hji) (slotSuspended_of_outside h.outside (by decide) (.inl hji))

/-- `saveContext` writes data only. -/
theorem Sound.slot_saveContext {c : Call} (h : Sound hdr o s) (hmem : s'.mem = s.saveContext.mem) (j : Nat) :
    SlotStep o s c s' j := by
  obtain hnone | ⟨i, hi⟩ := h.context
  · rw [saveContext_of_noAgent hnone] at hmem
    exact .kept (by rw [hmem]) (by rw [hmem])
  · have hsmall := hi.small
    have hout := hi.outside_saveContext
    rw [← hmem] at hout
    refine SlotStep.of_outside hout (by decide) ?_
    unfold DATA_OFFS SUSPENDED_OFFS
    omega

/-- **One turn**: a slot with a mark is taken to be suspended, any other one is
passed. -/
theorem suspendDoneTurn_cases (o : ByteOrder) (i : Nat) (s : RuntimeMngr) :
    (s.suspendDoneTurn o i).2 = s ∨
      (slotSuspended s.mem i = 2 ∧ (s.suspendDoneTurn o i).2 = s.putState i (slotId o s.mem i) 3) := by
  unfold suspendDoneTurn
  dsimp only
  split_ifs with hnone hbefore
  · exact .inl rfl
  · exact .inr ⟨hbefore, rfl⟩
  · exact .inl rfl

/-- A creation fills a free slot, in state 0. -/
theorem slot_createUARuntime (hfit : Fits hdr) (o : ByteOrder) (img : Images) (himg : img.image = hdr) (at' : AgentType)
    (aid : AgentID) (s : RuntimeMngr) (j : Nat) :
    SlotStep o s (.createUARuntime img at' aid) (s.createUARuntime o img at' aid).2 j := by
  subst himg
  have hdata := hfit at'
  rw [← length_initialData] at hdata
  have hc := creates_createUARuntime o img at' aid s
  revert hc
  generalize hr : s.createUARuntime o img at' aid = r
  intro hc
  obtain ⟨ok, t⟩ := r
  cases hc with
  | none => exact .kept rfl rfl
  | @fills i hi hfree =>
      have hfilled := filled o i aid ((img.image at').data_len + (img.image at').bss_len) 0 s.mem
        (ByteOrder.length_write o 4 at') (rfl : [(0 : Byte), 0, 0].length = 3) hdata
      refine SlotStep.of_gives hfilled.gives (.created img at' ?_ hfree hfilled.suspended)
      rw [hfilled.gives.slotId]
  | fails hi hfree hgives => exact SlotStep.of_gives hgives (.freed hgives.slotId)

/-- A restoration fills a free slot, in state 3; data that is longer than a slot
would go over the state of this one and the header of the next. -/
theorem slot_createUARuntimeFromSavedState (hfit : Fits hdr) (o : ByteOrder) (aid : AgentID) (buffer : Memory)
    (hsize : (FlatMemory.get o 16 2 buffer 7).toNat = dataSize hdr (o.read 32 (bytes buffer 0 4))) (s : RuntimeMngr) (j : Nat) :
    SlotStep o s (.createUARuntimeFromSavedState aid buffer) (s.createUARuntimeFromSavedState o aid buffer).2 j := by
  have hdata := hfit (o.read 32 (bytes buffer 0 4))
  rw [← hsize] at hdata
  have hc := creates_restore o aid buffer s
  revert hc
  generalize hr : s.createUARuntimeFromSavedState o aid buffer = r
  intro hc
  obtain ⟨ok, t⟩ := r
  cases hc with
  | none => exact .kept rfl rfl
  | @fills i hi hfree =>
      rw [← length_bytes buffer 9 (FlatMemory.get o 16 2 buffer 7).toNat] at hdata
      have hfilled := filled o i aid (FlatMemory.get o 16 2 buffer 7) 3 s.mem (length_bytes buffer 0 4)
        (length_bytes buffer 4 3) hdata
      refine SlotStep.of_gives hfilled.gives (.restored buffer ?_ hfree hfilled.suspended)
      rw [hfilled.gives.slotId]
  | fails hi hfree hgives => exact SlotStep.of_gives hgives (.freed hgives.slotId)

/-- A removal frees a slot. -/
theorem slot_removeUARuntime (o : ByteOrder) (aid : AgentID) (s : RuntimeMngr) (j : Nat) :
    SlotStep o s (.removeUARuntime aid) (s.removeUARuntime o aid).2 j := by
  obtain hsame | ⟨i, -, hfreed⟩ := removeUARuntime_cases o aid s
  · rw [hsame]
    exact .kept rfl rfl
  · have hgives := gives_putId o s.mem i NO_AGENT
    rw [hfreed]
    exact SlotStep.of_gives hgives (.freed hgives.slotId)

/-- A suspension changes the state of the agent's slot, and posts the task if
that is a mark for it. -/
theorem slot_suspendAgent (o : ByteOrder) (aid : AgentID) (busy timers : Bool) (s : RuntimeMngr) (j : Nat) :
    SlotStep o s (.suspendAgent aid busy timers) (s.suspendAgent o aid busy timers).2 j := by
  unfold suspendAgent
  cases hidx : getAgentIdx o s.mem aid with
  | none => exact .kept rfl rfl
  | some i =>
      obtain ⟨-, hi⟩ := slotId_of_getAgentIdx hidx
      have hput := slot_putState o i aid (suspendStateToSet busy (slotSuspended s.mem i)) s j
      dsimp only
      by_cases hji : j = i
      · subst hji
        rw [if_pos rfl] at hput
        split_ifs with hstate
        · exact .suspended busy timers (by rw [hi]) hput.1 hput.2 fun _ => rfl
        · exact .suspended busy timers (by rw [hi]) hput.1 hput.2 fun h2 => absurd (hput.2.symm.trans h2) hstate
      · rw [if_neg hji] at hput
        split_ifs
        · exact .kept hput.1 hput.2
        · exact .kept hput.1 hput.2

/-- A resumption takes a suspended agent's state back. -/
theorem slot_resumeAgent (o : ByteOrder) (aid : AgentID) (timers : Bool) (s : RuntimeMngr) (j : Nat) :
    SlotStep o s (.resumeAgent aid timers) (s.resumeAgent o aid timers).2 j := by
  unfold resumeAgent
  cases hidx : getAgentIdx o s.mem aid with
  | none => exact .kept rfl rfl
  | some i =>
      obtain ⟨-, hi⟩ := slotId_of_getAgentIdx hidx
      have hput := slot_putState o i aid 0 s j
      dsimp only
      split_ifs with hbefore
      · by_cases hji : j = i
        · subst hji
          rw [if_pos rfl] at hput
          exact .resumed timers (by rw [hi]) hput.1 hbefore hput.2
        · rw [if_neg hji] at hput
          exact .kept hput.1 hput.2
      · exact .kept rfl rfl

/-- The end of a handler marks an agent whose suspension was waiting for it, and
posts the task. -/
theorem slot_handlerExecutionEnded (o : ByteOrder) (endedEventType : BitVec 32) (aid : AgentID) (hasEvents : Bool)
    (s : RuntimeMngr) (j : Nat) :
    SlotStep o s (.handlerExecutionEnded endedEventType aid hasEvents)
      (s.handlerExecutionEnded o endedEventType aid hasEvents) j := by
  unfold handlerExecutionEnded
  split_ifs with hnone hfinal hloaded hended
  · exact .kept rfl rfl
  · exact .kept rfl rfl
  · exact .kept rfl rfl
  · cases hidx : getAgentIdx o s.mem aid with
    | none => exact .kept rfl rfl
    | some i =>
        obtain ⟨-, hi⟩ := slotId_of_getAgentIdx hidx
        have hput := slot_putSuspended o s.mem i 2 j
        by_cases hji : j = i
        · subst hji
          rw [if_pos rfl] at hput
          exact .ended endedEventType (by rw [hi, hended.2]) hput.1 hput.2 rfl
        · rw [if_neg hji] at hput
          exact .kept hput.1 hput.2
  · exact .kept rfl rfl

/-- The turn of the task is for one slot. -/
theorem slot_suspendDoneTurn {t : RuntimeMngr} (hscan : s.scan = some i) (hmem : t.mem = (s.suspendDoneTurn o i).2.mem)
    (j : Nat) : SlotStep o s .suspendDoneTurn t j := by
  obtain heq | ⟨hbefore, heq⟩ := suspendDoneTurn_cases o i s
  · rw [heq] at hmem
    exact .kept (by rw [hmem]) (by rw [hmem])
  · rw [heq] at hmem
    have hput := slot_putState o i (slotId o s.mem i) 3 s j
    rw [← hmem] at hput
    by_cases hji : j = i
    · subst hji
      rw [if_pos rfl] at hput
      exact .done rfl hscan hput.1 hbefore hput.2
    · rw [if_neg hji] at hput
      exact .kept hput.1 hput.2

/-- **What a call does to a slot**, whatever call it is. -/
theorem Sound.slot (hfit : Fits hdr) (h : Sound hdr o s) {c : Call} (hok : Orderly hdr o s c)
    (hstep : RuntimeMngr.step o s c = some s') (j : Nat) : SlotStep o s c s' j := by
  -- one lemma for each call that writes a state or an id; the others write neither
  cases c with
  | contextChanged img aid =>
      cases hstep
      obtain ⟨heq, -⟩ | ⟨hmem, -⟩ | ⟨-, i, hi⟩ := contextChanged_cases o img aid s
      · exact .kept (by rw [heq]) (by rw [heq])
      · exact h.slot_saveContext hmem j
      · exact h.slot_saveContext hi.mem j
  | saveContext =>
      cases hstep
      exact h.slot_saveContext rfl j
  | handler host startAddress =>
      obtain ⟨r, -, rfl⟩ := Option.map_eq_some_iff.mp hstep
      exact .kept rfl rfl
  | command c =>
      cases hstep
      exact .kept rfl rfl
  | createUARuntime img at' aid =>
      cases hstep
      exact slot_createUARuntime hfit o img hok.1 at' aid s j
  | createUARuntimeFromSavedState aid buffer =>
      cases hstep
      exact slot_createUARuntimeFromSavedState hfit o aid buffer hok.1 s j
  | removeUARuntime aid =>
      cases hstep
      exact slot_removeUARuntime o aid s j
  | suspendAgent aid busy timers =>
      cases hstep
      exact slot_suspendAgent o aid busy timers s j
  | resumeAgent aid timers =>
      cases hstep
      exact slot_resumeAgent o aid timers s j
  | handlerExecutionEnded endedEventType aid hasEvents =>
      cases hstep
      exact slot_handlerExecutionEnded o endedEventType aid hasEvents s j
  | agentFailed aid =>
      cases hstep
      obtain hsame | ⟨-, hdropped⟩ := agentFailed_cases aid s
      · rw [hsame]
        exact .kept rfl rfl
      · rw [hdropped]
        exact .kept rfl rfl
  | setEventsMask aid em =>
      cases hstep
      unfold setEventsMask
      cases hidx : getAgentIdx o s.mem aid with
      | none => exact .kept rfl rfl
      | some i =>
          have hout := outside_write s.mem (agentOffs i + MASK_OFFS) em.toList
          rw [Vector.length_toList] at hout
          exact SlotStep.of_outside hout (by decide) (by decide)
  | saveRuntimeState aid =>
      cases hstep
      exact h.slot_saveContext (by rw [saveRuntimeState_snd]) j
  | suspendDoneTask =>
      obtain rfl := eq_of_suspendDoneTask hstep
      exact .kept rfl rfl
  | suspendDoneTurn =>
      obtain ⟨i, hscan, rfl⟩ := turn_of_suspendDoneTurn hstep
      refine slot_suspendDoneTurn hscan ?_ j
      rfl

/-! ## The task -/

theorem task_saveContext (s : RuntimeMngr) :
    s.saveContext.scan = s.scan ∧ s.saveContext.posted = s.posted := by
  unfold saveContext
  split_ifs
  · exact ⟨rfl, rfl⟩
  · exact ⟨rfl, rfl⟩

/-- A change of context does nothing to the task. -/
theorem task_contextChanged (o : ByteOrder) (img : Images) (aid : AgentID) (s : RuntimeMngr) :
    (s.contextChanged o img aid).2.scan = s.scan ∧ (s.contextChanged o img aid).2.posted = s.posted := by
  have hsave := task_saveContext s
  unfold contextChanged
  split_ifs
  · exact ⟨rfl, rfl⟩
  · exact ⟨rfl, rfl⟩
  · dsimp only
    generalize s.saveContext = u at hsave ⊢
    split_ifs
    · exact hsave
    · exact hsave
    · exact hsave
    · exact hsave

/-- Nor does a write of a state. -/
theorem task_putState (i : Nat) (aid : AgentID) (state : Byte) (s : RuntimeMngr) :
    (s.putState i aid state).scan = s.scan ∧ (s.putState i aid state).posted = s.posted := by
  unfold putState
  dsimp only
  split_ifs
  · exact ⟨rfl, rfl⟩
  · exact ⟨rfl, rfl⟩

/-- Nor does a creation. -/
theorem task_creates {ty mask data : List Byte} {len : Word} {state : Byte} {ok : Bool}
    (hc : Creates o aid ty mask len data state s ok s') : s'.scan = s.scan ∧ s'.posted = s.posted := by
  cases hc with
  | none => exact ⟨rfl, rfl⟩
  | fills => exact ⟨rfl, rfl⟩
  | fails => exact ⟨rfl, rfl⟩

/-- Other calls do not run the task, and do not take it back. -/
theorem task_step {c : Call} (hstep : step o s c = some s') (htask : c ≠ .suspendDoneTask)
    (hturn : c ≠ .suspendDoneTurn) : s'.scan = s.scan ∧ (s.posted = true → s'.posted = true) := by
  have hsame : ∀ t : RuntimeMngr, t.scan = s.scan ∧ t.posted = s.posted →
      t.scan = s.scan ∧ (s.posted = true → t.posted = true) := fun t ht => ⟨ht.1, fun h => ht.2.trans h⟩
  cases c with
  | contextChanged img aid =>
      cases hstep
      exact hsame _ (task_contextChanged o img aid s)
  | saveContext =>
      cases hstep
      exact hsame _ (task_saveContext s)
  | handler host startAddress =>
      obtain ⟨r, -, rfl⟩ := Option.map_eq_some_iff.mp hstep
      exact ⟨rfl, id⟩
  | command c =>
      cases hstep
      exact ⟨rfl, id⟩
  | createUARuntime img at' aid =>
      cases hstep
      exact hsame _ (task_creates (creates_createUARuntime o img at' aid s))
  | createUARuntimeFromSavedState aid buffer =>
      cases hstep
      exact hsame _ (task_creates (creates_restore o aid buffer s))
  | removeUARuntime aid =>
      cases hstep
      obtain hsame | ⟨i, -, hfreed⟩ := removeUARuntime_cases o aid s
      · rw [hsame]
        exact ⟨rfl, id⟩
      · rw [hfreed]
        exact ⟨rfl, id⟩
  | suspendAgent aid busy timers =>
      cases hstep
      unfold suspendAgent
      cases getAgentIdx o s.mem aid with
      | none => exact ⟨rfl, id⟩
      | some i =>
          have hput := task_putState i aid (suspendStateToSet busy (slotSuspended s.mem i)) s
          dsimp only
          split_ifs
          · exact ⟨hput.1, fun _ => rfl⟩
          · exact hsame _ hput
  | resumeAgent aid timers =>
      cases hstep
      unfold resumeAgent
      cases getAgentIdx o s.mem aid with
      | none => exact ⟨rfl, id⟩
      | some i =>
          dsimp only
          split_ifs
          · exact hsame _ (task_putState i aid 0 s)
          · exact ⟨rfl, id⟩
  | handlerExecutionEnded endedEventType aid hasEvents =>
      cases hstep
      unfold handlerExecutionEnded
      split_ifs
      · exact ⟨rfl, id⟩
      · exact ⟨rfl, id⟩
      · exact ⟨rfl, id⟩
      · cases getAgentIdx o s.mem aid with
        | none => exact ⟨rfl, id⟩
        | some i => exact ⟨rfl, fun _ => rfl⟩
      · exact ⟨rfl, id⟩
  | agentFailed aid =>
      cases hstep
      obtain hsame | ⟨-, hdropped⟩ := agentFailed_cases aid s
      · rw [hsame]
        exact ⟨rfl, id⟩
      · rw [hdropped]
        exact ⟨rfl, id⟩
  | setEventsMask aid em =>
      cases hstep
      unfold setEventsMask
      cases getAgentIdx o s.mem aid with
      | none => exact ⟨rfl, id⟩
      | some i => exact ⟨rfl, id⟩
  | saveRuntimeState aid =>
      cases hstep
      rw [saveRuntimeState_snd]
      exact hsame _ (task_saveContext s)
  | suspendDoneTask => exact absurd rfl htask
  | suspendDoneTurn => exact absurd rfl hturn

/-! ## Marks -/

/-- The slot `j` is marked for `suspendDoneTask`. -/
def Marked (o : ByteOrder) (mem : Memory) (j : Nat) : Prop := slotId o mem j ≠ NO_AGENT ∧ slotSuspended mem j = 2

/-- The task will come to the slot `j`: it is posted, or not past it. -/
def Ahead (s : RuntimeMngr) (j : Nat) : Prop := s.posted = true ∨ ∃ i, s.scan = some i ∧ i ≤ j

/-- Every mark is ahead of the task. -/
def NotLost (o : ByteOrder) (s : RuntimeMngr) : Prop := ∀ j < SLOTS, Marked o s.mem j → Ahead s j

/-- A slot that is marked was marked before, or the task has been posted. -/
theorem SlotStep.marked {c : Call} (h : SlotStep o s c s' j) (hm : Marked o s'.mem j) :
    Marked o s.mem j ∨ s'.posted = true := by
  obtain ⟨hne, hstate⟩ := hm
  cases h with
  | kept hid hkept =>
      rw [hid] at hne
      exact .inl ⟨hne, hkept.symm.trans hstate⟩
  | freed hid => exact absurd hid hne
  | created img at' hc hfree hnew => exact absurd (hnew.symm.trans hstate) (by decide)
  | restored buffer hc hfree hnew => exact absurd (hnew.symm.trans hstate) (by decide)
  | suspended busy timers hc hid hnew hposted => exact .inr (hposted hstate)
  | resumed timers hc hid hbefore hnew => exact absurd (hnew.symm.trans hstate) (by decide)
  | ended endedEventType hc hid hnew hposted => exact .inr hposted
  | done hc hscan hid hbefore hnew => exact absurd (hnew.symm.trans hstate) (by decide)

/-- The turn of a slot takes its mark. -/
theorem not_marked_suspendDoneTurn (o : ByteOrder) (i : Nat) (s : RuntimeMngr) :
    ¬ Marked o (s.suspendDoneTurn o i).2.mem i := by
  have hput := slot_putState o i (slotId o s.mem i) 3 s i
  rw [if_pos rfl] at hput
  unfold suspendDoneTurn
  dsimp only
  split_ifs with hnone hbefore
  · exact fun hm => hm.1 hnone
  · exact fun hm => absurd (hput.2.symm.trans hm.2) (by decide)
  · exact fun hm => hbefore hm.2

/-- A turn does not post the task. -/
theorem posted_suspendDoneTurn (o : ByteOrder) (i : Nat) (s : RuntimeMngr) :
    (s.suspendDoneTurn o i).2.posted = s.posted := by
  obtain heq | ⟨-, heq⟩ := suspendDoneTurn_cases o i s
  · rw [heq]
  · rw [heq]
    exact (task_putState i _ 3 s).2

/-- **Step lemma**: a mark that is new comes with the task posted, and the task
only passes a slot when it has taken its mark. -/
theorem NotLost.step (hfit : Fits hdr) (hsound : Sound hdr o s) (h : NotLost o s) {c : Call}
    (hok : Orderly hdr o s c) (hstep : RuntimeMngr.step o s c = some s') : NotLost o s' := by
  intro j hj hm
  have hslot := hsound.slot hfit hok hstep j
  -- a mark is old, and then the task must not have passed it, or new
  obtain hbefore | hposted := hslot.marked hm
  · by_cases htask : c = .suspendDoneTask
    · subst htask
      obtain rfl := eq_of_suspendDoneTask hstep
      exact .inr ⟨0, rfl, Nat.zero_le j⟩
    · by_cases hturn : c = .suspendDoneTurn
      · subst hturn
        obtain ⟨i, hscan, rfl⟩ := turn_of_suspendDoneTurn hstep
        obtain hposted | ⟨i', hi', hij⟩ := h j hj hbefore
        · exact .inl ((posted_suspendDoneTurn o i s).trans hposted)
        · obtain rfl : i = i' := Option.some.inj (hscan.symm.trans hi')
          have hji : j ≠ i := by
            rintro rfl
            exact not_marked_suspendDoneTurn o j s hm
          have hnext : i + 1 < SLOTS := by omega
          exact .inr ⟨i + 1, if_pos hnext, by omega⟩
      · obtain ⟨hscan, hposted⟩ := task_step hstep htask hturn
        obtain hahead | ⟨i, hi, hij⟩ := h j hj hbefore
        · exact .inl (hposted hahead)
        · exact .inr ⟨i, hscan.trans hi, hij⟩
  · exact .inl hposted

/-- **No suspension is lost**: over any sequence of orderly calls, also between
the turns of the task, every marked slot is ahead of it; when the task is
neither posted nor running there is none. -/
theorem suspension_not_lost (o : ByteOrder) (hdr : AgentType → AgentImage) (hfit : Fits hdr) (s t : RuntimeMngr)
    (hsound : Sound hdr o s) (hs : NotLost o s) (cs : List Call)
    (hok : Lts.Along (step o) (Orderly hdr o) s cs) (hrun : Lts.run (step o) s cs = some t) :
    NotLost o t ∧ (t.posted = false → t.scan = none → ∀ j < SLOTS, ¬ Marked o t.mem j) := by
  have hall : Sound hdr o t ∧ NotLost o t := by
    refine Lts.run_induct (P := fun u => Sound hdr o u ∧ NotLost o u) (fun u c v hu hc hstep => ?_) hok
      ⟨hsound, hs⟩ hrun
    exact ⟨(hu.1.step hfit hc hstep).1, hu.2.step hfit hu.1 hc hstep⟩
  refine ⟨hall.2, fun hposted hscan j hj hm => ?_⟩
  obtain hahead | ⟨i, hi, -⟩ := hall.2 j hj hm
  · exact nomatch hposted.symm.trans hahead
  · exact nomatch hscan.symm.trans hi

/-- The second agent is suspended while the task is at the first one, which posts
the task once more. -/
def suspendedMeanwhile : List Call :=
  [.suspendAgent 1 false true, .suspendDoneTask, .suspendDoneTurn, .suspendAgent 2 false true] ++
    List.replicate 7 .suspendDoneTurn ++ [.suspendDoneTask] ++ List.replicate 8 .suspendDoneTurn

/-- The task runs twice, and both agents end up suspended. -/
theorem suspension_not_lost_twoAgents :
    ∃ t, Lts.run (step .little) twoAgents suspendedMeanwhile = some t ∧ NotLost .little t ∧
      (∀ j < SLOTS, ¬ Marked .little t.mem j) ∧ slotSuspended t.mem 0 = 3 ∧ slotSuspended t.mem 1 = 3 := by
  have hunmarked : ∀ j < SLOTS, slotSuspended twoAgents.mem j ≠ 2 := by decide +kernel
  have hrun := (Option.some_get (by decide +kernel :
    (Lts.run (step .little) twoAgents suspendedMeanwhile).isSome = true)).symm
  have hok : Lts.Along (step .little) (Orderly twoBytes.image .little) twoAgents suspendedMeanwhile :=
    Lts.along_of_forall (fun c hc s => by
      simp only [suspendedMeanwhile, List.mem_append, List.mem_cons, List.mem_replicate] at hc
      obtain ((((rfl | rfl | rfl | rfl | hc) | ⟨-, rfl⟩) | rfl | hc) | ⟨-, rfl⟩) := hc
      all_goals first | exact trivial | exact absurd hc List.not_mem_nil) twoAgents
  obtain ⟨hnotLost, hnone⟩ := suspension_not_lost .little twoBytes.image (fun _ => by show 2 ≤ 512; decide) twoAgents _
    sound_twoAgents (fun j hj hm => absurd hm.2 (hunmarked j hj)) suspendedMeanwhile hok hrun
  exact ⟨_, hrun, hnotLost, hnone (by decide +kernel) (by decide +kernel), by decide +kernel, by decide +kernel⟩

/-! ## Moving to another node -/

/-- The length in the slot of an agent is that of its type. -/
def Sized (hdr : AgentType → AgentImage) (o : ByteOrder) (mem : Memory) : Prop :=
  ∀ i < SLOTS, slotId o mem i ≠ NO_AGENT → (slotLen o mem i).toNat = dataSize hdr (slotType o mem i)

/-- A write beside the length leaves it. -/
theorem slotLen_of_outside (h : Outside (agentOffs j + lo) n mem mem') (hn : lo + n ≤ 528)
    (hd : i ≠ j ∨ 13 ≤ lo ∨ lo + n ≤ 11) : slotLen o mem' i = slotLen o mem i := by
  have hbytes : bytes mem' (agentOffs i + LEN_OFFS) 2 = bytes mem (agentOffs i + LEN_OFFS) 2 :=
    bytes_slot h hn (by decide) (by unfold LEN_OFFS; omega)
  rw [slotLen, slotLen, FlatMemory.get, FlatMemory.get, hbytes]

/-- Writes behind the type and the length of a slot, or to its mask. -/
theorem Sized.outside (h : Sized hdr o mem) (hout : Outside (agentOffs j + lo) n mem mem') (hn : lo + n ≤ 528)
    (hd : 13 ≤ lo ∨ 8 ≤ lo ∧ lo + n ≤ 11) : Sized hdr o mem' := by
  intro i hi hne
  rw [slotId_of_outside hout hn (.inr (by omega))] at hne
  rw [slotLen_of_outside hout hn (by omega), slotType_of_outside hout hn (.inr (by omega))]
  exact h i hi hne

/-- A slot that is given away has the length of its new type. -/
theorem Sized.gives (h : Sized hdr o mem) (hgives : Gives o j aid mem mem')
    (hnew : aid = NO_AGENT ∨ (slotLen o mem' j).toNat = dataSize hdr (slotType o mem' j)) : Sized hdr o mem' := by
  intro i hi hne
  by_cases hij : i = j
  · subst hij
    rw [hgives.slotId] at hne
    exact hnew.resolve_left hne
  · rw [hgives.slotId_ne hij] at hne
    rw [slotLen_of_outside hgives.outside (by decide) (.inl hij),
      slotType_of_outside hgives.outside (by decide) (.inl hij)]
    exact h i hi hne

/-- So it has after a creation of either kind. -/
theorem Sized.creates {ty mask data : List Byte} {len : Word} {state : Byte} {ok : Bool}
    (h : Sized hdr o s.mem) (hty : ty.length = 4) (hmask : mask.length = 3) (hdata : data.length ≤ 512)
    (hlen : len.toNat = dataSize hdr (o.read 32 ty)) (hc : Creates o aid ty mask len data state s ok s') :
    Sized hdr o s'.mem := by
  cases hc with
  | none => exact h
  | @fills i hi hfree =>
      have hfilled := filled o i aid len state s.mem hty hmask hdata
      refine h.gives hfilled.gives (.inr ?_)
      rw [hfilled.len, slotType, FlatMemory.get, hfilled.type]
      exact hlen
  | fails hi hfree hgives => exact h.gives hgives (.inl rfl)

/-- Harmless calls write no length. -/
theorem Sized.harmless (h : Sized hdr o s.mem) (hs : Harmless s s') : Sized hdr o s'.mem := by
  obtain ⟨j, hmask | hstate⟩ := hs.aside
  · exact h.outside hmask (by decide) (.inr (by decide))
  · exact h.outside hstate (by decide) (.inl (by decide))

/-- Neither does `saveContext`. -/
theorem Sized.saveContext (h : Sized hdr o s.mem) (hsound : Sound hdr o s) : Sized hdr o s.saveContext.mem := by
  obtain hnone | ⟨i, hi⟩ := hsound.context
  · rwa [saveContext_of_noAgent hnone]
  · have hsmall := hi.small
    refine h.outside hi.outside_saveContext ?_ (.inl (by decide))
    unfold DATA_OFFS
    omega

/-- **Step lemma**: lengths stay those of the types, so that `Sized` holds of
every node that has only been used in an orderly way. -/
theorem Sized.step (hfit : Fits hdr) (hsound : Sound hdr o s) (h : Sized hdr o s.mem) {c : Call}
    (hok : Orderly hdr o s c) (hstep : RuntimeMngr.step o s c = some s') : Sized hdr o s'.mem := by
  -- a length is written where a slot is filled, and only there
  cases c with
  | contextChanged img aid =>
      cases hstep
      obtain ⟨heq, -⟩ | ⟨hmem, -⟩ | ⟨-, i, hi⟩ := contextChanged_cases o img aid s
      · rwa [heq]
      · rw [hmem]
        exact h.saveContext hsound
      · rw [hi.mem]
        exact h.saveContext hsound
  | saveContext =>
      cases hstep
      exact h.saveContext hsound
  | handler host startAddress =>
      obtain ⟨r, -, rfl⟩ := Option.map_eq_some_iff.mp hstep
      exact h
  | command c =>
      cases hstep
      exact h
  | createUARuntime img at' aid =>
      cases hstep
      obtain ⟨rfl, -, -⟩ := hok
      have hsize := hfit at'
      have hdata := hfit at'
      rw [← length_initialData] at hdata
      refine h.creates (ByteOrder.length_write o 4 at') rfl hdata ?_ (creates_createUARuntime o img at' aid s)
      rw [read_write o (by decide)]
      unfold dataSize at hsize ⊢
      rw [BitVec.toNat_add, Nat.mod_eq_of_lt]
      omega
  | createUARuntimeFromSavedState aid buffer =>
      cases hstep
      obtain ⟨hsize, -, -⟩ := hok
      have hdata := hfit (o.read 32 (bytes buffer 0 4))
      rw [← hsize] at hdata
      exact h.creates (length_bytes _ _ _) (length_bytes _ _ _) ((length_bytes buffer 9 _).symm ▸ hdata) hsize
        (creates_restore o aid buffer s)
  | removeUARuntime aid =>
      cases hstep
      obtain hsame | ⟨i, -, hfreed⟩ := removeUARuntime_cases o aid s
      · rwa [hsame]
      · rw [hfreed]
        exact h.gives (gives_putId o s.mem i NO_AGENT) (.inl rfl)
  | suspendAgent aid busy timers =>
      cases hstep
      exact h.harmless (harmless_suspendAgent o aid busy timers s)
  | resumeAgent aid timers =>
      cases hstep
      exact h.harmless (harmless_resumeAgent o aid timers s)
  | handlerExecutionEnded endedEventType aid hasEvents =>
      cases hstep
      obtain hsame | ⟨-, hdropped, -⟩ := handlerExecutionEnded_cases o endedEventType aid hasEvents s
      · exact h.harmless hsame
      · rw [hdropped]
        exact h
  | agentFailed aid =>
      cases hstep
      obtain hsame | ⟨-, hdropped⟩ := agentFailed_cases aid s
      · rwa [hsame]
      · rw [hdropped]
        exact h
  | setEventsMask aid em =>
      cases hstep
      exact h.harmless (harmless_setEventsMask o aid em s)
  | saveRuntimeState aid =>
      cases hstep
      rw [saveRuntimeState_snd]
      exact h.saveContext hsound
  | suspendDoneTask =>
      obtain rfl := eq_of_suspendDoneTask hstep
      exact h
  | suspendDoneTurn =>
      obtain ⟨i, -, rfl⟩ := turn_of_suspendDoneTurn hstep
      have hturn : Sized hdr o (s.suspendDoneTurn o i).2.mem := h.harmless (harmless_suspendDoneTurn o i s)
      exact hturn

/-- The bytes of a saved state. -/
def savedState (o : ByteOrder) (mem : Memory) (i : Nat) : List Byte :=
  bytes mem (agentOffs i + TYPE_OFFS) 4 ++ slotMask mem i ++ o.write 2 (slotLen o mem i) ++
    bytes mem (agentOffs i + DATA_OFFS) (slotLen o mem i).toNat

/-- A suspended agent is saved with its type, its mask, its length and its data.
-/
theorem saveRuntimeState_of_suspended (hi : getAgentIdx o s.saveContext.mem a = some i)
    (hsuspended : slotSuspended s.saveContext.mem i = 3) :
    (s.saveRuntimeState o a).1 = some (savedState o s.saveContext.mem i) := by
  unfold saveRuntimeState
  dsimp only
  rw [hi]
  dsimp only
  rw [if_pos hsuspended]
  rfl

/-- A buffer that has them, read as a restoration reads it. -/
theorem read_savedState {buffer : Memory}
    (h : bytes buffer 0 (savedState o mem i).length = savedState o mem i) :
    bytes buffer 0 4 = bytes mem (agentOffs i + TYPE_OFFS) 4 ∧ bytes buffer 4 3 = slotMask mem i ∧
      FlatMemory.get o 16 2 buffer 7 = slotLen o mem i ∧
      bytes buffer 9 (slotLen o mem i).toNat = bytes mem (agentOffs i + DATA_OFFS) (slotLen o mem i).toNat := by
  have hmask : (slotMask mem i).length = 3 := length_bytes _ _ _
  have hlen : (savedState o mem i).length = 4 + 3 + 2 + (slotLen o mem i).toNat := by
    simp [savedState, hmask]
    omega
  rw [hlen, bytes_add, bytes_add, bytes_add] at h
  obtain ⟨h, hdata⟩ := List.append_inj' h (by simp)
  obtain ⟨h, hword⟩ := List.append_inj' h (by simp)
  obtain ⟨htype, hmasks⟩ := List.append_inj' h (by simp [hmask])
  refine ⟨htype, hmasks, ?_, hdata⟩
  rw [FlatMemory.get, hword, read_write o (by decide)]

/-- A save does not touch the other fields of any slot. -/
theorem Sound.bytes_of_saveContext (h : Sound hdr o s) {off k : Nat} (hoff : off + k ≤ 528)
    (hd : off + k ≤ DATA_OFFS ∨ SUSPENDED_OFFS ≤ off) (i : Nat) :
    bytes s.saveContext.mem (agentOffs i + off) k = bytes s.mem (agentOffs i + off) k := by
  obtain hnone | ⟨j, hj⟩ := h.context
  · rw [saveContext_of_noAgent hnone]
  · have hsmall := hj.small
    unfold SUSPENDED_OFFS DATA_OFFS at hd
    refine bytes_slot hj.outside_saveContext ?_ hoff (.inr ?_)
    · unfold DATA_OFFS
      omega
    · unfold DATA_OFFS
      omega

/-- For an agent that comes there is a slot if one is free. -/
theorem firstSlot_isSome (hfree : ∃ j < SLOTS, slotId o mem j = NO_AGENT)
    (hnew : ∀ j < SLOTS, slotId o mem j ≠ a) :
    ∃ j, firstSlot o mem a = some j ∧ j < SLOTS ∧ slotId o mem j = NO_AGENT := by
  cases hslot : firstSlot o mem a with
  | none =>
      obtain ⟨j, hj, hid⟩ := hfree
      have hnot := List.find?_eq_none.mp hslot j (List.mem_range.mpr hj)
      simp [hid] at hnot
  | some j =>
      obtain ⟨hj, hid⟩ := slotId_of_firstSlot hslot
      exact ⟨j, rfl, hj, hid.resolve_left (hnew j hj)⟩

/-- **Migration**: what is saved of a suspended agent is what is restored on
another node with the same images and the same byte order: its type, its mask
and its data, suspended; and nobody's data on that node changes. -/
theorem migration (o : ByteOrder) (hdr : AgentType → AgentImage) (hfit : Fits hdr) (s u : RuntimeMngr)
    (hs : Sound hdr o s) (hsized : Sized hdr o s.mem) (hu : Sound hdr o u) (hfresh : Fresh o u) (a : AgentID)
    (ha : a ≠ NO_AGENT) (i : Nat) (hi : getAgentIdx o s.mem a = some i) (hsuspended : slotSuspended s.mem i = 3)
    (hnew : ∀ j < SLOTS, slotId o u.mem j ≠ a) (hfree : ∃ j < SLOTS, slotId o u.mem j = NO_AGENT) :
    ∃ bs, (s.saveRuntimeState o a).1 = some bs ∧ ∀ buffer : Memory, bytes buffer 0 bs.length = bs →
      (u.createUARuntimeFromSavedState o a buffer).1 = true ∧
      contents hdr o (u.createUARuntimeFromSavedState o a buffer).2 a = contents hdr o s a ∧
      (u.createUARuntimeFromSavedState o a buffer).2.getAgentType o a = s.getAgentType o a ∧
      (u.createUARuntimeFromSavedState o a buffer).2.getEventsMask o a = s.getEventsMask o a ∧
      (u.createUARuntimeFromSavedState o a buffer).2.getSuspendState o a = 3 ∧
      ∀ b ≠ NO_AGENT, b ≠ a →
        contents hdr o (u.createUARuntimeFromSavedState o a buffer).2 b = contents hdr o u b := by
  -- what is saved
  have hidx : getAgentIdx o s.saveContext.mem a = some i := by
    rw [hs.sameIds_saveContext.getAgentIdx a]
    exact hi
  have hstate : slotSuspended s.saveContext.mem i = slotSuspended s.mem i := by
    have hbytes := hs.bytes_of_saveContext (by decide : SUSPENDED_OFFS + 1 ≤ 528) (.inr (Nat.le_refl _)) i
    simpa [bytes, slotSuspended] using hbytes
  have hmask : slotMask s.saveContext.mem i = slotMask s.mem i :=
    hs.bytes_of_saveContext (by decide) (.inl (by decide)) i
  have htype := hs.slotType_saveContext i
  have hsize := (hsized.saveContext hs) i (slotId_of_getAgentIdx hidx).1 (by
    rw [(slotId_of_getAgentIdx hidx).2]
    exact ha)
  have hcontents := hs.bytes_saveContext hfit ha
  rw [hidx, Option.map_some] at hcontents
  refine ⟨_, saveRuntimeState_of_suspended hidx (hstate.trans hsuspended), fun buffer hbuffer => ?_⟩
  obtain ⟨hty, hma, hle, hda⟩ := read_savedState hbuffer
  -- what is restored
  obtain ⟨j, hslot, hj, hjfree⟩ := firstSlot_isSome hfree hnew
  have hrestore : u.createUARuntimeFromSavedState o a buffer =
      (true, { u with mem := restoreIn o a buffer j u.mem }) := by
    unfold createUARuntimeFromSavedState
    rw [hslot]
    exact if_neg (hnew j hj)
  have hlen : (bytes buffer 9 (FlatMemory.get o 16 2 buffer 7).toNat).length ≤ 512 := by
    rw [length_bytes, hle, hsize]
    exact hfit _
  have hfilled : Filled o j a (bytes buffer 0 4) (bytes buffer 4 3) (FlatMemory.get o 16 2 buffer 7)
      (bytes buffer 9 (FlatMemory.get o 16 2 buffer 7).toNat) 3 u.mem (restoreIn o a buffer j u.mem) :=
    filled o j a _ 3 u.mem (length_bytes _ _ _) (length_bytes _ _ _) hlen
  rw [hrestore]
  generalize restoreIn o a buffer j u.mem = mem' at hfilled ⊢
  have hidx' : getAgentIdx o mem' a = some j :=
    getAgentIdx_of_slotId (hfilled.gives.unique hu.unique (.inr hnew)) hj hfilled.gives.slotId ha
  have htype' : slotType o mem' j = slotType o s.saveContext.mem i := by
    rw [slotType, slotType, FlatMemory.get, FlatMemory.get, hfilled.type, hty]
  have hdata := hfilled.data
  rw [length_bytes, hle, hda, hsize] at hdata
  have hunloaded : u.ctx.agentID ≠ a := by
    rintro hua
    obtain hnone | ⟨k, hk, hkd⟩ := hfresh
    · exact ha (hua.symm.trans hnone)
    · exact hnew k hk (hkd.trans hua)
  refine ⟨rfl, ?_, ?_, ?_, ?_, fun b hb hne => ?_⟩
  · rw [hcontents, contents, if_neg ha]
    dsimp only
    rw [hidx', Option.map_some, htype', hdata]
    exact congrArg some (if_neg hunloaded)
  · rw [getAgentType, getAgentType, hi]
    dsimp only
    rw [hidx']
    exact htype'.trans htype
  · rw [getEventsMask, getEventsMask, hi]
    dsimp only
    rw [hidx']
    exact hfilled.mask.trans (hma.trans hmask)
  · rw [getSuspendState]
    dsimp only
    rw [hidx']
    exact hfilled.suspended
  · exact contents_gives hfit hfilled.gives hne (by rw [hjfree]; exact hb.symm)

/-- The two agents, with their lengths, and the first one suspended. -/
def oneSuspended : RuntimeMngr :=
  { twoAgents with
    mem := fun k => if k < 1056 then
        if k = 0 then 1 else if k = 528 ∨ k = 11 ∨ k = 539 then 2 else if k = 525 then 3 else 0
      else 0xFF }

/-- A node without agents. -/
def noAgents : RuntimeMngr where
  machine := { booted with ctx := { booted.ctx with agentID := NO_AGENT } }
  mem := fun _ => 0xFF
  posted := false
  scan := none

theorem sound_oneSuspended : Sound twoBytes.image .little oneSuspended where
  unique := by
    unfold Unique
    decide +kernel
  context := .inr ⟨0, by decide, by decide, by decide, .inl ⟨by decide +kernel, by decide +kernel⟩⟩

theorem sound_noAgents : Sound twoBytes.image .little noAgents where
  unique := by
    unfold Unique
    decide +kernel
  context := .inl rfl

/-- The first agent moves to a node that has none. -/
theorem migration_slot0 :
    ∃ bs, (oneSuspended.saveRuntimeState .little 1).1 = some bs ∧ ∀ buffer : Memory,
      bytes buffer 0 bs.length = bs →
        contents twoBytes.image .little (noAgents.createUARuntimeFromSavedState .little 1 buffer).2 1 =
          contents twoBytes.image .little oneSuspended 1 := by
  have hsized : Sized twoBytes.image .little oneSuspended.mem := by
    unfold Sized
    decide +kernel
  obtain ⟨bs, hbs, hrestored⟩ := migration .little twoBytes.image (fun _ => by show 2 ≤ 512; decide) oneSuspended
    noAgents sound_oneSuspended hsized sound_noAgents (.inl rfl) 1 (by decide) 0 (by decide +kernel)
    (by decide +kernel) (by decide +kernel) ⟨0, by decide, by decide +kernel⟩
  exact ⟨bs, hbs, fun buffer hbuffer => (hrestored buffer hbuffer).2.1⟩

end RuntimeMngr

end Pobicos.Runtime
