import Pobicos.Runtime.Instances
import Mathlib.Data.List.Find

/-!
# Pobicos.Runtime.Slots

The slots as a table.

Whatever the module writes lies in one slot (`bytes_slot`); looking an agent up
in a table where no agent is in two slots finds its slot
(`getAgentIdx_of_slotId`).
-/

namespace Pobicos.Runtime

open Octets CArray FlatMemory Vm

variable {o : ByteOrder} {mem mem' : Memory} {aid : AgentID} {i j lo n off k : Nat}

/-! ## What a write to a slot leaves -/

/-- **Frame of the slots**: other slots, and the other bytes of the same slot. -/
theorem bytes_slot (h : Outside (agentOffs j + lo) n mem mem') (hn : lo + n ≤ 528) (hoff : off + k ≤ 528)
    (hd : i ≠ j ∨ off + k ≤ lo ∨ lo + n ≤ off) :
    bytes mem' (agentOffs i + off) k = bytes mem (agentOffs i + off) k := by
  apply bytes_of_outside h
  unfold agentOffs INSTANCE_SIZE
  omega

/-- A write to another slot, or behind the id, leaves the id. -/
theorem slotId_of_outside (h : Outside (agentOffs j + lo) n mem mem') (hn : lo + n ≤ 528)
    (hd : i ≠ j ∨ 4 ≤ lo) : slotId o mem' i = slotId o mem i := by
  have hbytes : bytes mem' (agentOffs i + 0) 4 = bytes mem (agentOffs i + 0) 4 :=
    bytes_slot h hn (by omega) (by omega)
  rw [Nat.add_zero] at hbytes
  rw [slotId, slotId, FlatMemory.get, FlatMemory.get, hbytes]

/-- A write to another slot, or behind the type, leaves the type. -/
theorem slotType_of_outside (h : Outside (agentOffs j + lo) n mem mem') (hn : lo + n ≤ 528)
    (hd : i ≠ j ∨ 8 ≤ lo) : slotType o mem' i = slotType o mem i := by
  have hbytes : bytes mem' (agentOffs i + TYPE_OFFS) 4 = bytes mem (agentOffs i + TYPE_OFFS) 4 :=
    bytes_slot h hn (by decide) (by unfold TYPE_OFFS; omega)
  rw [slotType, slotType, FlatMemory.get, FlatMemory.get, hbytes]

/-- A write to another slot, or before the last byte, leaves the state. -/
theorem slotSuspended_of_outside (h : Outside (agentOffs j + lo) n mem mem') (hn : lo + n ≤ 528)
    (hd : i ≠ j ∨ lo + n ≤ SUSPENDED_OFFS) : slotSuspended mem' i = slotSuspended mem i := by
  have hlast : SUSPENDED_OFFS = 525 := rfl
  rw [slotSuspended, slotSuspended]
  apply h
  unfold agentOffs INSTANCE_SIZE
  omega

/-- The data of another slot. -/
theorem data_of_outside (h : Outside (agentOffs j + lo) n mem mem') (hn : lo + n ≤ 528) (hk : k ≤ 512)
    (hd : i ≠ j) : bytes mem' (agentOffs i + DATA_OFFS) k = bytes mem (agentOffs i + DATA_OFFS) k :=
  bytes_slot h hn (by unfold DATA_OFFS; omega) (.inl hd)

/-- An id is written to the first four bytes of its slot. -/
theorem outside_putId (o : ByteOrder) (mem : Memory) (i : Nat) (aid : AgentID) :
    Outside (agentOffs i + 0) 4 mem (putId o mem i aid) := by
  rw [Nat.add_zero, putId]
  exact outside_put mem (agentOffs i) aid

/-- The state is the byte behind the data. -/
theorem outside_putSuspended (mem : Memory) (i : Nat) (state : Byte) :
    Outside (agentOffs i + SUSPENDED_OFFS) 1 mem (putSuspended mem i state) := by
  rw [putSuspended]
  exact outside_write mem (agentOffs i + SUSPENDED_OFFS) [state]

theorem slotId_putId (o : ByteOrder) (mem : Memory) (i : Nat) (aid : AgentID) :
    slotId o (putId o mem i aid) i = aid := by
  rw [slotId, putId]
  exact get_put (by decide) mem (agentOffs i) aid

theorem slotSuspended_putSuspended (mem : Memory) (i : Nat) (state : Byte) :
    slotSuspended (putSuspended mem i state) i = state := by
  have hwritten : write mem (agentOffs i + SUSPENDED_OFFS) [state] (agentOffs i + SUSPENDED_OFFS + 0) = state :=
    write_at (by simp)
  rw [Nat.add_zero] at hwritten
  exact hwritten

/-! ## Looking an agent up -/

theorem slotId_of_getAgentIdx (h : getAgentIdx o mem aid = some i) : i < SLOTS ∧ slotId o mem i = aid := by
  have hmem := List.mem_of_find?_eq_some h
  have hid := List.find?_some h
  exact ⟨List.mem_range.mp hmem, by simpa using hid⟩

/-- `getAgentIdx` searches all slots. -/
theorem getAgentIdx_eq_none : getAgentIdx o mem aid = none ↔ ∀ i < SLOTS, slotId o mem i ≠ aid := by
  simp [getAgentIdx, List.find?_eq_none]

/-- No agent is in two slots. -/
def Unique (o : ByteOrder) (mem : Memory) : Prop :=
  ∀ i < SLOTS, ∀ j < SLOTS, slotId o mem i = slotId o mem j → slotId o mem i ≠ NO_AGENT → i = j

/-- With unique ids it finds the slot of an agent, whichever that is. -/
theorem getAgentIdx_of_slotId (hunique : Unique o mem) (hi : i < SLOTS) (hid : slotId o mem i = aid)
    (hne : aid ≠ NO_AGENT) : getAgentIdx o mem aid = some i := by
  cases h : getAgentIdx o mem aid with
  | none => exact absurd hid (getAgentIdx_eq_none.mp h i hi)
  | some j =>
      obtain ⟨hj, hjd⟩ := slotId_of_getAgentIdx h
      rw [hunique j hj i hi (hjd.trans hid.symm) (by rw [hjd]; exact hne)]

/-- The same agents in the same slots. -/
def SameIds (o : ByteOrder) (mem mem' : Memory) : Prop := ∀ i < SLOTS, slotId o mem' i = slotId o mem i

/-- Uniqueness is about the ids only. -/
theorem SameIds.unique (h : SameIds o mem mem') (hunique : Unique o mem) : Unique o mem' := by
  intro i hi j hj heq hne
  rw [h i hi, h j hj] at heq
  rw [h i hi] at hne
  exact hunique i hi j hj heq hne

/-- So is the search. -/
theorem SameIds.getAgentIdx (h : SameIds o mem mem') (aid : AgentID) :
    Runtime.getAgentIdx o mem' aid = Runtime.getAgentIdx o mem aid := by
  apply List.find?_congr
  intro i hi
  rw [h i (List.mem_range.mp hi)]

/-- A write to one slot behind the id keeps all ids. -/
theorem sameIds_of_outside (h : Outside (agentOffs j + lo) n mem mem') (hlo : 4 ≤ lo) (hn : lo + n ≤ 528) :
    SameIds o mem mem' := fun _ _ => slotId_of_outside h hn (.inr hlo)

/-! ## A slot that is given to another agent -/

/-- Only the slot `j` has changed, and `aid` is in it now. -/
structure Gives (o : ByteOrder) (j : Nat) (aid : AgentID) (mem mem' : Memory) : Prop where
  outside : Outside (agentOffs j + 0) 526 mem mem'
  slotId : slotId o mem' j = aid

/-- The other slots keep their ids. -/
theorem Gives.slotId_ne (h : Gives o j aid mem mem') (hi : i ≠ j) :
    Runtime.slotId o mem' i = Runtime.slotId o mem i := slotId_of_outside h.outside (by omega) (.inl hi)

/-- Writing an id gives the slot to the agent. -/
theorem gives_putId (o : ByteOrder) (mem : Memory) (i : Nat) (aid : AgentID) : Gives o i aid mem (putId o mem i aid) :=
  ⟨(outside_putId o mem i aid).mono (Nat.le_refl _) (by omega), slotId_putId o mem i aid⟩

/-- A slot can be given away, or given to an agent that is in none. -/
theorem Gives.unique (h : Gives o j aid mem mem') (hunique : Unique o mem)
    (hnew : aid = NO_AGENT ∨ ∀ i < SLOTS, Runtime.slotId o mem i ≠ aid) : Unique o mem' := by
  have hother : ∀ i < SLOTS, i ≠ j → aid ≠ NO_AGENT → Runtime.slotId o mem' i ≠ aid := by
    intro i hi hij hne
    rw [h.slotId_ne hij]
    exact hnew.resolve_left hne i hi
  intro i hi k hk heq hne
  by_cases hij : i = j
  · subst hij
    rw [h.slotId] at heq hne
    by_contra hki
    exact hother k hk (Ne.symm hki) hne heq.symm
  · by_cases hkj : k = j
    · subst hkj
      rw [heq, h.slotId] at hne
      rw [h.slotId] at heq
      exact absurd heq (hother i hi hij hne)
    · rw [h.slotId_ne hij, h.slotId_ne hkj] at heq
      rw [h.slotId_ne hij] at hne
      exact hunique i hi k hk heq hne

/-- Who else is in the table is where it was. -/
theorem Gives.getAgentIdx (h : Gives o j aid mem mem') {b : AgentID} (hb : b ≠ aid)
    (hj : Runtime.slotId o mem j ≠ b) : Runtime.getAgentIdx o mem' b = Runtime.getAgentIdx o mem b := by
  apply List.find?_congr
  intro i hi
  by_cases hij : i = j
  · subst hij
    have hnew : (Runtime.slotId o mem' i == b) = false := by
      rw [h.slotId]
      exact beq_false_of_ne hb.symm
    rw [hnew, beq_false_of_ne hj]
  · rw [h.slotId_ne hij]

/-! ## A slot that is filled -/

/-- The fields of a slot, written one after another. -/
def fill (o : ByteOrder) (i : Nat) (aid : AgentID) (ty mask : List Byte) (len : Word) (data : List Byte)
    (state : Byte) (mem : Memory) : Memory :=
  putSuspended (write (putLen o (write (write (putId o mem i aid) (agentOffs i + TYPE_OFFS) ty)
    (agentOffs i + MASK_OFFS) mask) i len) (agentOffs i + DATA_OFFS) data) i state

/-- What is in it then. -/
structure Filled (o : ByteOrder) (i : Nat) (aid : AgentID) (ty mask : List Byte) (len : Word) (data : List Byte)
    (state : Byte) (mem mem' : Memory) : Prop where
  gives : Gives o i aid mem mem'
  type : bytes mem' (agentOffs i + TYPE_OFFS) 4 = ty
  mask : slotMask mem' i = mask
  len : slotLen o mem' i = len
  data : bytes mem' (agentOffs i + DATA_OFFS) data.length = data
  suspended : slotSuspended mem' i = state

/-- **A slot that is filled** has all that has been written to it: no field is
written over another one. -/
theorem filled (o : ByteOrder) (i : Nat) (aid : AgentID) {ty mask : List Byte} (len : Word) {data : List Byte}
    (state : Byte) (mem : Memory) (hty : ty.length = 4) (hmask : mask.length = 3) (hdata : data.length ≤ 512) :
    Filled o i aid ty mask len data state mem (fill o i aid ty mask len data state mem) := by
  -- one field after another, and what each write leaves of those before it
  have h₁ := outside_putId o mem i aid
  have hid := slotId_putId o mem i aid
  unfold fill
  generalize putId o mem i aid = m₁ at h₁ hid ⊢
  have h₂ := outside_write m₁ (agentOffs i + TYPE_OFFS) ty
  have hread₂ := bytes_write m₁ (agentOffs i + TYPE_OFFS) ty
  generalize write m₁ (agentOffs i + TYPE_OFFS) ty = m₂ at h₂ hread₂ ⊢
  have h₃ := outside_write m₂ (agentOffs i + MASK_OFFS) mask
  have hread₃ := bytes_write m₂ (agentOffs i + MASK_OFFS) mask
  generalize write m₂ (agentOffs i + MASK_OFFS) mask = m₃ at h₃ hread₃ ⊢
  have h₄ : Outside (agentOffs i + LEN_OFFS) 2 m₃ (putLen o m₃ i len) := outside_put m₃ _ len
  have hread₄ : slotLen o (putLen o m₃ i len) i = len := get_put (by decide) m₃ _ len
  generalize putLen o m₃ i len = m₄ at h₄ hread₄ ⊢
  have h₅ := outside_write m₄ (agentOffs i + DATA_OFFS) data
  have hread₅ := bytes_write m₄ (agentOffs i + DATA_OFFS) data
  generalize write m₄ (agentOffs i + DATA_OFFS) data = m₅ at h₅ hread₅ ⊢
  have h₆ := outside_putSuspended m₅ i state
  have hread₆ := slotSuspended_putSuspended m₅ i state
  generalize putSuspended m₅ i state = m₆ at h₆ hread₆ ⊢
  rw [hty] at h₂ hread₂
  rw [hmask] at h₃ hread₃
  unfold TYPE_OFFS at h₂ hread₂
  unfold MASK_OFFS at h₃ hread₃
  unfold LEN_OFFS at h₄
  unfold DATA_OFFS at h₅ hread₅
  unfold SUSPENDED_OFFS at h₆
  refine ⟨⟨?_, ?_⟩, ?_, ?_, ?_, ?_, hread₆⟩
  · have hall : ∀ lo n m m', Outside (agentOffs i + lo) n m m' → lo + n ≤ 526 →
        Outside (agentOffs i + 0) 526 m m' := fun lo n m m' h hle => h.mono (by omega) (by omega)
    exact (((((hall _ _ _ _ h₁ (by omega)).trans (hall _ _ _ _ h₂ (by omega))).trans
      (hall _ _ _ _ h₃ (by omega))).trans (hall _ _ _ _ h₄ (by omega))).trans
      (hall _ _ _ _ h₅ (by omega))).trans (hall _ _ _ _ h₆ (by omega))
  · rw [slotId_of_outside h₆ (by omega) (.inr (by omega)), slotId_of_outside h₅ (by omega) (.inr (by omega)),
      slotId_of_outside h₄ (by omega) (.inr (by omega)), slotId_of_outside h₃ (by omega) (.inr (by omega)),
      slotId_of_outside h₂ (by omega) (.inr (by omega)), hid]
  · rw [TYPE_OFFS, bytes_slot h₆ (by omega) (by omega) (by omega), bytes_slot h₅ (by omega) (by omega) (by omega),
      bytes_slot h₄ (by omega) (by omega) (by omega), bytes_slot h₃ (by omega) (by omega) (by omega), hread₂]
  · rw [slotMask, MASK_OFFS, bytes_slot h₆ (by omega) (by omega) (by omega),
      bytes_slot h₅ (by omega) (by omega) (by omega), bytes_slot h₄ (by omega) (by omega) (by omega), hread₃]
  · rw [slotLen, FlatMemory.get, LEN_OFFS, bytes_slot h₆ (by omega) (by omega) (by omega),
      bytes_slot h₅ (by omega) (by omega) (by omega)]
    exact hread₄
  · rw [DATA_OFFS, bytes_slot h₆ (by omega) (by omega) (by omega), hread₅]

end Pobicos.Runtime
