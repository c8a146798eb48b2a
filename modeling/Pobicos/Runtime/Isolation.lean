import Pobicos.Runtime.Slots

/-!
# Pobicos.Runtime.Isolation

Every agent has its own data, although they all run in the same buffer.

`contents hdr o s aid` is the data of an agent, wherever it is: in the buffer
while its context is loaded, and in its slot otherwise.  `data_private` says that
nothing but the agent itself changes it, over any sequence of calls, as long as
the data of every image fits into a slot and no slot is given away while the
context of an agent is loaded that is not in the table any more.  The second is
needed: `removeUARuntime` leaves the context of the removed agent loaded, and
the next save of it goes into whatever is in its slot then
(`stale_context_overwrites`).
-/

namespace Pobicos.Runtime

open Octets CArray FlatMemory Vm

variable {o : ByteOrder} {hdr : AgentType → AgentImage} {s s' : RuntimeMngr} {a aid : AgentID} {at' : AgentType}
  {img : Images} {i j n : Nat} {mem mem' : Memory}

/-! ## The data of an agent -/

/-- The bytes of data that an agent of a type has. -/
def dataSize (hdr : AgentType → AgentImage) (at' : AgentType) : Nat :=
  (hdr at').data_len.toNat + (hdr at').bss_len.toNat

/-- The data of every type fits into a slot. -/
def Fits (hdr : AgentType → AgentImage) : Prop := ∀ at', dataSize hdr at' ≤ 512

namespace RuntimeMngr

/-- The data of the agent `aid`, if it is in the table. -/
def contents (hdr : AgentType → AgentImage) (o : ByteOrder) (s : RuntimeMngr) (aid : AgentID) : Option (List Byte) :=
  if aid = NO_AGENT then none
  else
    (getAgentIdx o s.mem aid).map fun i =>
      if s.ctx.agentID = aid then bufferBytes s.ctx.dataBuffer (dataSize hdr (slotType o s.mem i))
      else bytes s.mem (agentOffs i + DATA_OFFS) (dataSize hdr (slotType o s.mem i))

/-- The loaded context is that of the slot `i`, and the slot is the agent's or
free. -/
structure LoadedIn (hdr : AgentType → AgentImage) (o : ByteOrder) (s : RuntimeMngr) (i : Nat) : Prop where
  lt : i < SLOTS
  dataAddr : s.ctx.dataAddr = BitVec.ofNat 32 (agentOffs i + DATA_OFFS)
  small : s.ctx.dataLength.toNat ≤ 512
  owner : slotId o s.mem i = s.ctx.agentID ∧ s.ctx.dataLength.toNat = dataSize hdr (slotType o s.mem i) ∨
    slotId o s.mem i = NO_AGENT ∧ ∀ j < SLOTS, slotId o s.mem j ≠ s.ctx.agentID

/-- The invariant. -/
structure Sound (hdr : AgentType → AgentImage) (o : ByteOrder) (s : RuntimeMngr) : Prop where
  unique : Unique o s.mem
  context : s.ctx.agentID = NO_AGENT ∨ ∃ i, LoadedIn hdr o s i

@[simp] theorem length_bufferBytes (buf : Fin DATA_SIZE → Byte) (n : Nat) : (bufferBytes buf n).length = n := by
  simp [bufferBytes]

/-- Slots are small enough for the address not to wrap. -/
theorem LoadedIn.toNat_dataAddr (h : LoadedIn hdr o s i) : s.ctx.dataAddr.toNat = agentOffs i + DATA_OFFS := by
  have hi := h.lt
  have hslots : SLOTS = 8 := rfl
  rw [h.dataAddr, BitVec.toNat_ofNat, Nat.mod_eq_of_lt]
  unfold agentOffs INSTANCE_SIZE DATA_OFFS
  omega

/-- What a slot keeps for its agent. -/
def SlotKept (o : ByteOrder) (mem mem' : Memory) (i : Nat) : Prop :=
  slotType o mem' i = slotType o mem i ∧
    ∀ n ≤ 512, bytes mem' (agentOffs i + DATA_OFFS) n = bytes mem (agentOffs i + DATA_OFFS) n

/-- The contents of an agent depend on the loaded agent, the buffer, the agent's
slot and what that slot keeps. -/
theorem contents_congr (hfit : Fits hdr) (hid : s'.ctx.agentID = s.ctx.agentID)
    (hbuf : s'.ctx.dataBuffer = s.ctx.dataBuffer) (hidx : getAgentIdx o s'.mem a = getAgentIdx o s.mem a)
    (hslot : ∀ i, getAgentIdx o s.mem a = some i → SlotKept o s.mem s'.mem i) :
    contents hdr o s' a = contents hdr o s a := by
  unfold contents
  rw [hidx, hid, hbuf]
  cases hi : getAgentIdx o s.mem a with
  | none => rw [Option.map_none, Option.map_none]
  | some i =>
      obtain ⟨htype, hdata⟩ := hslot i hi
      have hbytes := hdata (dataSize hdr (slotType o s.mem i)) (hfit _)
      rw [Option.map_some, Option.map_some, htype, hbytes]

/-! ## Writes that agents do not notice -/

/-- A write to the mask or to the suspend state of a slot. -/
def Aside (j : Nat) (mem mem' : Memory) : Prop :=
  Outside (agentOffs j + MASK_OFFS) 3 mem mem' ∨ Outside (agentOffs j + SUSPENDED_OFFS) 1 mem mem'

/-- The ids are before the bytes that change. -/
theorem Aside.sameIds (h : Aside j mem mem') : SameIds o mem mem' := by
  obtain h | h := h
  · exact sameIds_of_outside h (by decide) (by decide)
  · exact sameIds_of_outside h (by decide) (by decide)

/-- So are the type and the data of every slot. -/
theorem Aside.slotKept (h : Aside j mem mem') (i : Nat) : SlotKept o mem mem' i := by
  obtain h | h := h
  · refine ⟨slotType_of_outside h (by decide) (.inr (by decide)), fun n hn => ?_⟩
    apply bytes_slot h (by decide)
    · unfold DATA_OFFS
      omega
    · exact .inr (.inr (by decide))
  · refine ⟨slotType_of_outside h (by decide) (.inr (by decide)), fun n hn => ?_⟩
    apply bytes_slot h (by decide)
    · unfold DATA_OFFS
      omega
    · unfold DATA_OFFS SUSPENDED_OFFS
      omega

/-- So nobody's contents change. -/
theorem Aside.contents (hfit : Fits hdr) (h : Aside j s.mem s'.mem) (hid : s'.ctx.agentID = s.ctx.agentID)
    (hbuf : s'.ctx.dataBuffer = s.ctx.dataBuffer) : contents hdr o s' a = contents hdr o s a :=
  contents_congr hfit hid hbuf (h.sameIds.getAgentIdx a) fun i _ => h.slotKept i

/-- Nothing of the context but what does not matter here. -/
structure SameContext (s s' : RuntimeMngr) : Prop where
  agentID : s'.ctx.agentID = s.ctx.agentID
  dataAddr : s'.ctx.dataAddr = s.ctx.dataAddr
  dataLength : s'.ctx.dataLength = s.ctx.dataLength

/-- The loaded context stays that of its slot as long as the ids and the slot's
type stay. -/
theorem LoadedIn.congr (h : LoadedIn hdr o s i) (hctx : SameContext s s') (hids : SameIds o s.mem s'.mem)
    (htype : slotType o s'.mem i = slotType o s.mem i) : LoadedIn hdr o s' i := by
  refine ⟨h.lt, hctx.dataAddr.trans h.dataAddr, ?_, ?_⟩
  · rw [hctx.dataLength]
    exact h.small
  · rw [hctx.agentID, hctx.dataLength, hids i h.lt, htype]
    refine h.owner.imp id fun hfree => ⟨hfree.1, fun j hj => ?_⟩
    rw [hids j hj]
    exact hfree.2 j hj

/-- The invariant is about the context, the ids and the types only. -/
theorem Sound.congr (h : Sound hdr o s) (hctx : SameContext s s') (hids : SameIds o s.mem s'.mem)
    (htype : ∀ i, slotType o s'.mem i = slotType o s.mem i) : Sound hdr o s' := by
  refine ⟨hids.unique h.unique, ?_⟩
  obtain hnone | ⟨i, hi⟩ := h.context
  · exact .inl (hctx.agentID.trans hnone)
  · exact .inr ⟨i, hi.congr hctx hids (htype i)⟩

theorem Sound.aside (h : Sound hdr o s) (haside : Aside j s.mem s'.mem) (hctx : SameContext s s') :
    Sound hdr o s' := h.congr hctx haside.sameIds fun i => (haside.slotKept i).1

/-- Where no agent is loaded, only the uniqueness of the ids is left of it. -/
theorem Sound.noAgent (h : Sound hdr o s) (hmem : s'.mem = s.mem) (hid : s'.ctx.agentID = NO_AGENT) :
    Sound hdr o s' := by
  refine ⟨?_, .inl hid⟩
  rw [hmem]
  exact h.unique

/-! ## Saving the context -/

theorem LoadedIn.outside_saveContext (h : LoadedIn hdr o s i) :
    Outside (agentOffs i + DATA_OFFS) s.ctx.dataLength.toNat s.mem s.saveContext.mem := by
  unfold saveContext
  split_ifs with hid
  · exact Outside.refl _ _ _
  · have hframe := outside_write s.mem s.ctx.dataAddr.toNat (bufferBytes s.ctx.dataBuffer s.ctx.dataLength.toNat)
    rw [h.toNat_dataAddr, length_bufferBytes] at hframe
    rw [h.toNat_dataAddr]
    exact hframe

/-- The data is saved behind the ids. -/
theorem LoadedIn.sameIds_saveContext (h : LoadedIn hdr o s i) : SameIds o s.mem s.saveContext.mem := by
  have hsmall := h.small
  apply sameIds_of_outside h.outside_saveContext (by decide)
  unfold DATA_OFFS
  omega

/-- It is saved behind the types too. -/
theorem LoadedIn.slotType_saveContext (h : LoadedIn hdr o s i) (j : Nat) :
    slotType o s.saveContext.mem j = slotType o s.mem j := by
  have hsmall := h.small
  apply slotType_of_outside h.outside_saveContext
  · unfold DATA_OFFS
    omega
  · exact .inr (by decide)

/-- `saveContext` writes to the memory and leaves the loaded context as it is. -/
theorem sameContext_saveContext (s : RuntimeMngr) : SameContext s s.saveContext := by
  unfold saveContext
  split_ifs
  · exact ⟨rfl, rfl, rfl⟩
  · exact ⟨rfl, rfl, rfl⟩

/-- With no agent loaded there is nothing to save. -/
theorem saveContext_of_noAgent (h : s.ctx.agentID = NO_AGENT) : s.saveContext = s := by
  rw [saveContext, if_pos h]

/-- `saveContext` keeps the ids, whether or not an agent is loaded. -/
theorem Sound.sameIds_saveContext (h : Sound hdr o s) : SameIds o s.mem s.saveContext.mem := by
  obtain hnone | ⟨i, hi⟩ := h.context
  · rw [saveContext_of_noAgent hnone]
    exact fun _ _ => rfl
  · exact hi.sameIds_saveContext

/-- It keeps the types. -/
theorem Sound.slotType_saveContext (h : Sound hdr o s) (j : Nat) :
    slotType o s.saveContext.mem j = slotType o s.mem j := by
  obtain hnone | ⟨i, hi⟩ := h.context
  · rw [saveContext_of_noAgent hnone]
  · exact hi.slotType_saveContext j

/-- It keeps the invariant. -/
theorem Sound.saveContext (h : Sound hdr o s) : Sound hdr o s.saveContext :=
  h.congr (sameContext_saveContext s) h.sameIds_saveContext h.slotType_saveContext

/-- **After a save the slots have everything**: the data of an agent is that of
its slot. -/
theorem Sound.bytes_saveContext (hfit : Fits hdr) (h : Sound hdr o s) (ha : a ≠ NO_AGENT) :
    contents hdr o s a = (getAgentIdx o s.saveContext.mem a).map fun i =>
      bytes s.saveContext.mem (agentOffs i + DATA_OFFS) (dataSize hdr (slotType o s.saveContext.mem i)) := by
  unfold contents
  rw [if_neg ha, h.sameIds_saveContext.getAgentIdx a]
  cases hi : getAgentIdx o s.mem a with
  | none => rfl
  | some i =>
      obtain ⟨hlt, hid⟩ := slotId_of_getAgentIdx hi
      rw [Option.map_some, Option.map_some, h.slotType_saveContext]
      congr 1
      obtain hnone | ⟨j, hj⟩ := h.context
      · rw [saveContext_of_noAgent hnone, if_neg (by rw [hnone]; exact Ne.symm ha)]
      · have hsmall := hj.small
        by_cases hloaded : s.ctx.agentID = a
        · -- the slot is the agent's, since the agent is in the table
          obtain ⟨hown, hlen⟩ : slotId o s.mem j = s.ctx.agentID ∧ _ := by
            refine hj.owner.resolve_right fun hfree => ?_
            exact hfree.2 i hlt (hid.trans hloaded.symm)
          have hij : i = j := h.unique i hlt j hj.lt (by rw [hid, hown, hloaded]) (by rw [hid]; exact ha)
          subst hij
          rw [if_pos hloaded, ← hlen]
          have hsaved := bytes_write s.mem s.ctx.dataAddr.toNat
            (bufferBytes s.ctx.dataBuffer s.ctx.dataLength.toNat)
          rw [length_bufferBytes, hj.toNat_dataAddr] at hsaved
          unfold RuntimeMngr.saveContext
          rw [if_neg (by rw [hloaded]; exact ha), hj.toNat_dataAddr]
          exact hsaved.symm
        · rw [if_neg hloaded]
          have hij : i ≠ j := by
            rintro rfl
            obtain ⟨hown, -⟩ | ⟨hfree, -⟩ := hj.owner
            · exact hloaded (hown.symm.trans hid)
            · exact ha (hid.symm.trans hfree)
          exact (data_of_outside hj.outside_saveContext (by unfold DATA_OFFS; omega) (hfit _) hij).symm

/-! ## Changing the context -/

/-- The context of the agent `aid` in the slot `i` has been loaded. -/
structure Loads (o : ByteOrder) (img : Images) (aid : AgentID) (i : Nat) (s s' : RuntimeMngr) : Prop where
  idx : getAgentIdx o s'.mem aid = some i
  mem : s'.mem = s.saveContext.mem
  agentID : s'.ctx.agentID = aid
  dataAddr : s'.ctx.dataAddr = BitVec.ofNat 32 (agentOffs i + DATA_OFFS)
  dataLength : s'.ctx.dataLength =
    img.getDataSectionSize (slotType o s'.mem i) + img.getBssDataSectionSize (slotType o s'.mem i)
  loaded : img.loaded (slotType o s'.mem i) = true
  buffer : s'.ctx.dataBuffer =
    loadBuffer s'.mem s'.ctx.dataAddr.toNat s'.ctx.dataLength.toNat s.ctx.dataBuffer
  suspendState : s'.ctx.suspendState = slotSuspended s'.mem i

theorem agentID_saveContext (s : RuntimeMngr) : s.saveContext.ctx.agentID = s.ctx.agentID :=
  (sameContext_saveContext s).agentID

theorem dataBuffer_saveContext (s : RuntimeMngr) : s.saveContext.ctx.dataBuffer = s.ctx.dataBuffer := by
  unfold saveContext
  split_ifs
  · rfl
  · rfl

/-- **What a change of context does**: nothing, or the context is dropped, or it
is that of the agent; in the last two cases it has been saved before. -/
theorem contextChanged_cases (o : ByteOrder) (img : Images) (aid : AgentID) (s : RuntimeMngr) :
    ((s.contextChanged o img aid).2 = s ∧ (s.ctx.agentID = aid ∨ getAgentIdx o s.mem aid = none)) ∨
    ((s.contextChanged o img aid).2.mem = s.saveContext.mem ∧
      (s.contextChanged o img aid).2.ctx.agentID = NO_AGENT) ∨
    (s.ctx.agentID ≠ aid ∧ ∃ i, Loads o img aid i s (s.contextChanged o img aid).2) := by
  have hid := agentID_saveContext s
  have hbuf := dataBuffer_saveContext s
  unfold contextChanged
  split_ifs with hnone hsame
  · exact .inl ⟨rfl, .inr (Option.isNone_iff_eq_none.mp hnone)⟩
  · exact .inl ⟨rfl, .inl hsame⟩
  · dsimp only
    -- the context is saved before anything else is looked at
    generalize hu : s.saveContext = u at hid hbuf ⊢
    split_ifs with htype hbad hdead
    · exact .inr (.inl ⟨rfl, rfl⟩)
    · exact .inr (.inl ⟨rfl, rfl⟩)
    · exact absurd (hid.symm.trans hdead.2.symm) hsame
    · obtain ⟨i, hi⟩ : ∃ i, getAgentIdx o u.mem aid = some i := by
        cases h : getAgentIdx o u.mem aid with
        | some i => exact ⟨i, rfl⟩
        | none => exact absurd (by rw [getAgentType, h]) htype
      have hgetType : u.getAgentType o aid = slotType o u.mem i := by rw [getAgentType, hi]
      have hgetAddr : u.getDataAddr o aid = BitVec.ofNat 32 (agentOffs i + DATA_OFFS) := by
        rw [getDataAddr, hi]
      have hgetState : u.getSuspendState o aid = slotSuspended u.mem i := by rw [getSuspendState, hi]
      refine .inr (.inr ⟨hsame, i, ⟨hi, hu ▸ rfl, rfl, hgetAddr, ?_, ?_, ?_, hgetState⟩⟩)
      · show img.getDataSectionSize (u.getAgentType o aid) + img.getBssDataSectionSize (u.getAgentType o aid) = _
        rw [hgetType]
        rfl
      · -- an image that is not there has the code length of the test
        by_contra hmissing
        refine hbad (.inl ?_)
        show img.getCodeSectionSize (u.getAgentType o aid) = _
        rw [hgetType, Images.getCodeSectionSize]
        exact if_neg hmissing
      · rw [← hbuf]
        rfl

/-- A loaded context has the length of its type's data; the sum of the two
lengths does not wrap as the data fits a slot. -/
theorem Loads.dataLength_eq (h : Loads o img aid i s s') (hfit : Fits img.image) :
    s'.ctx.dataLength.toNat = dataSize img.image (slotType o s'.mem i) := by
  have hle := hfit (slotType o s'.mem i)
  unfold dataSize at hle ⊢
  rw [h.dataLength, Images.getDataSectionSize, Images.getBssDataSectionSize, if_pos h.loaded, if_pos h.loaded,
    BitVec.toNat_add, Nat.mod_eq_of_lt]
  omega

/-- The buffer is what was in the slot. -/
theorem bufferBytes_loadBuffer (mem : Memory) (k n : Nat) (buf : Fin DATA_SIZE → Byte) (hn : n ≤ 512) :
    bufferBytes (loadBuffer mem k n buf) n = bytes mem k n := by
  apply List.map_congr_left
  intro j hj
  have hlt := List.mem_range.mp hj
  have hsize : DATA_SIZE = 1024 := rfl
  rw [dif_pos (by omega)]
  exact if_pos hlt

/-- **Loading** a slot's context makes it the loaded one of that slot. -/
theorem Loads.loadedIn (h : Loads o img aid i s s') (hfit : Fits img.image) : LoadedIn img.image o s' i := by
  obtain ⟨hlt, hid⟩ := slotId_of_getAgentIdx h.idx
  have hlen := h.dataLength_eq hfit
  exact ⟨hlt, h.dataAddr, hlen ▸ hfit _, .inl ⟨hid.trans h.agentID.symm, hlen⟩⟩

/-- A change of context keeps the invariant, and everybody's data. -/
theorem Sound.contextChanged (hfit : Fits img.image) (h : Sound img.image o s) (aid : AgentID) :
    Sound img.image o (s.contextChanged o img aid).2 ∧
      ∀ a ≠ NO_AGENT, contents img.image o (s.contextChanged o img aid).2 a = contents img.image o s a := by
  obtain ⟨heq, -⟩ | ⟨hmem, hid⟩ | ⟨-, i, hi⟩ := contextChanged_cases o img aid s
  · rw [heq]
    exact ⟨h, fun _ _ => rfl⟩
  · refine ⟨h.saveContext.noAgent hmem hid, fun a ha => ?_⟩
    rw [h.bytes_saveContext hfit ha, contents, if_neg ha, hmem]
    simp only [hid, if_neg (Ne.symm ha)]
  · refine ⟨⟨?_, .inr ⟨i, hi.loadedIn hfit⟩⟩, fun a ha => ?_⟩
    · rw [hi.mem]
      exact h.saveContext.unique
    · rw [h.bytes_saveContext hfit ha, ← hi.mem, contents, if_neg ha]
      by_cases hloaded : a = aid
      · subst hloaded
        have hsize := hfit (slotType o (s.contextChanged o img a).2.mem i)
        rw [hi.idx, Option.map_some, Option.map_some, if_pos hi.agentID, hi.buffer, hi.dataLength_eq hfit,
          bufferBytes_loadBuffer _ _ _ _ hsize, (hi.loadedIn hfit).toNat_dataAddr]
      · have hne : (s.contextChanged o img aid).2.ctx.agentID ≠ a := by
          rw [hi.agentID]
          exact Ne.symm hloaded
        simp only [if_neg hne]

/-! ## Creation and removal -/

/-- The first `n` bytes of the data section from `k` on. -/
def sectionBytes (image : AgentImage) (k n : Nat) : List Byte := (List.range n).map fun j => image.data (k + j)

/-- A section is read in two parts as well as in one, as the chunks of
`copyDataSection` need it. -/
theorem sectionBytes_add (image : AgentImage) (k n r : Nat) :
    sectionBytes image k (n + r) = sectionBytes image k n ++ sectionBytes image (k + n) r := by
  simp [sectionBytes, List.range_add, Nat.add_assoc]

@[simp] theorem length_sectionBytes (image : AgentImage) (k n : Nat) : (sectionBytes image k n).length = n := by
  simp [sectionBytes]

/-- The chunks together are the data section. -/
theorem copyDataSection_of_loaded (hloaded : img.loaded at' = true) {fuel dataOffs dataLen offs : Nat}
    (hfuel : dataLen ≤ fuel) :
    copyDataSection img at' fuel dataOffs dataLen offs mem =
      (true, write mem offs (sectionBytes (img.image at') dataOffs dataLen)) := by
  induction fuel generalizing dataOffs dataLen offs mem with
  | zero =>
      obtain rfl : dataLen = 0 := by omega
      simp [copyDataSection, sectionBytes]
  | succ fuel ih =>
      by_cases hzero : dataLen = 0
      · subst hzero
        simp [copyDataSection, sectionBytes]
      · rw [copyDataSection, if_neg hzero]
        have hchunk : (if dataLen ≥ 32 then 32 else dataLen) ≤ dataLen := by split_ifs <;> omega
        have hpos : 0 < (if dataLen ≥ 32 then 32 else dataLen) := by split_ifs <;> omega
        dsimp only
        generalize (if dataLen ≥ 32 then 32 else dataLen) = len at hchunk hpos ⊢
        obtain ⟨r, rfl⟩ := Nat.exists_eq_add_of_le hchunk
        have hread : img.readDataSection at' dataOffs len = some (sectionBytes (img.image at') dataOffs len) := by
          rw [Images.readDataSection, if_pos hloaded]
          rfl
        rw [hread]
        dsimp only
        rw [ih (by omega), Nat.add_sub_cancel_left, sectionBytes_add, write_append, length_sectionBytes]

/-- Of an image that is not loaded nothing is copied. -/
theorem copyDataSection_of_missing (hmissing : img.loaded at' = false) {fuel dataOffs dataLen offs : Nat}
    (hfuel : fuel ≠ 0) (hlen : dataLen ≠ 0) :
    copyDataSection img at' fuel dataOffs dataLen offs mem = (false, mem) := by
  obtain ⟨fuel, rfl⟩ := Nat.exists_eq_succ_of_ne_zero hfuel
  unfold copyDataSection
  simp [Images.readDataSection, hmissing, hlen]

/-- Clearing byte by byte writes that many zeros. -/
theorem zeroBss_eq (n offs : Nat) (mem : Memory) :
    zeroBss n offs mem = write mem offs (List.replicate n 0) := by
  induction n generalizing offs mem with
  | zero => simp [zeroBss]
  | succ n ih =>
      rw [zeroBss, ih, List.replicate_succ]
      exact (write_append mem offs [0] (List.replicate n 0)).symm

/-- The data that an agent of a type starts with. -/
def initialData (image : AgentImage) : List Byte :=
  sectionBytes image 0 image.data_len.toNat ++ List.replicate image.bss_len.toNat 0

/-- The initial data is as long as the data of the type. -/
theorem length_initialData (hdr : AgentType → AgentImage) (at' : AgentType) :
    (initialData (hdr at')).length = dataSize hdr at' := by
  simp [initialData, dataSize]

/-- **Creation** with an image that is there fills the slot. -/
theorem createIn_of_loaded (hloaded : img.loaded at' = true) :
    createIn o img at' aid i mem =
      (true, fill o i aid (o.write 4 at') [0, 0, 0]
        ((img.image at').data_len + (img.image at').bss_len) (initialData (img.image at')) 0 mem) := by
  have hdata : img.getDataSectionSize at' = (img.image at').data_len := if_pos hloaded
  have hbss : img.getBssDataSectionSize at' = (img.image at').bss_len := if_pos hloaded
  unfold createIn
  dsimp only
  rw [hdata, hbss, copyDataSection_of_loaded hloaded (Nat.le_refl _)]
  dsimp only
  rw [zeroBss_eq]
  unfold fill initialData
  rw [write_append, length_sectionBytes]
  rfl

/-- Creation without an image gives the slot back. -/
theorem createIn_of_missing (o : ByteOrder) (aid : AgentID) (i : Nat) (mem : Memory)
    (hmissing : img.loaded at' = false) :
    (createIn o img at' aid i mem).1 = false ∧ Gives o i NO_AGENT mem (createIn o img at' aid i mem).2 := by
  have hdata : img.getDataSectionSize at' = 0xFFFF := by
    rw [Images.getDataSectionSize, hmissing]
    rfl
  unfold createIn
  dsimp only
  rw [hdata, copyDataSection_of_missing hmissing (by decide) (by decide)]
  refine ⟨rfl, ⟨?_, slotId_putId o _ i NO_AGENT⟩⟩
  have hid := outside_putId o mem i aid
  have htype : Outside (agentOffs i + TYPE_OFFS) 4 _ (putType o (putId o mem i aid) i at') := outside_put _ _ at'
  have hmask := outside_write (putType o (putId o mem i aid) i at') (agentOffs i + MASK_OFFS) [0, 0, 0]
  have hlen : Outside (agentOffs i + LEN_OFFS) 2 _ (putLen o (putMask (putType o (putId o mem i aid) i at') i
    [0, 0, 0]) i (0xFFFF + img.getBssDataSectionSize at')) := outside_put _ _ _
  have hfree := outside_putId o (putLen o (putMask (putType o (putId o mem i aid) i at') i [0, 0, 0]) i
    (0xFFFF + img.getBssDataSectionSize at')) i NO_AGENT
  have hall : ∀ lo n m m', Outside (agentOffs i + lo) n m m' → lo + n ≤ 526 → Outside (agentOffs i + 0) 526 m m' :=
    fun lo n m m' h hle => h.mono (by omega) (by omega)
  exact ((((hall _ _ _ _ hid (by decide)).trans (hall _ _ _ _ htype (by decide))).trans
    (hall _ _ _ _ hmask (by decide))).trans (hall _ _ _ _ hlen (by decide))).trans (hall _ _ _ _ hfree (by decide))

/-- `firstSlot` finds the agent's own slot or a free one. -/
theorem slotId_of_firstSlot (h : firstSlot o mem aid = some i) :
    i < SLOTS ∧ (slotId o mem i = aid ∨ slotId o mem i = NO_AGENT) := by
  have hmem := List.mem_of_find?_eq_some h
  have hid := List.find?_some h
  exact ⟨List.mem_range.mp hmem, by simpa using hid⟩

/-- What a creation or a restoration does: nothing, or it fills a free slot, or
it has changed a free slot and left it free. -/
inductive Creates (o : ByteOrder) (aid : AgentID) (ty mask : List Byte) (len : Word) (data : List Byte)
    (state : Byte) (s : RuntimeMngr) : Bool → RuntimeMngr → Prop
  | none : Creates o aid ty mask len data state s false s
  | fills {i : Nat} (hi : i < SLOTS) (hfree : slotId o s.mem i = NO_AGENT) :
      Creates o aid ty mask len data state s true { s with mem := fill o i aid ty mask len data state s.mem }
  | fails {i : Nat} {mem : Memory} (hi : i < SLOTS) (hfree : slotId o s.mem i = NO_AGENT)
      (hgives : Gives o i NO_AGENT s.mem mem) : Creates o aid ty mask len data state s false { s with mem := mem }

/-- **What `createUARuntime` does**: it fills a slot with the initial data of the
type, in state 0. -/
theorem creates_createUARuntime (o : ByteOrder) (img : Images) (at' : AgentType) (aid : AgentID)
    (s : RuntimeMngr) :
    Creates o aid (o.write 4 at') [0, 0, 0] ((img.image at').data_len + (img.image at').bss_len)
      (initialData (img.image at')) 0 s (s.createUARuntime o img at' aid).1 (s.createUARuntime o img at' aid).2 := by
  unfold createUARuntime
  cases hslot : firstSlot o s.mem aid with
  | none => exact .none
  | some i =>
      obtain ⟨hi, hid⟩ := slotId_of_firstSlot hslot
      dsimp only
      split_ifs with hthere
      · exact .none
      · have hfree := hid.resolve_left hthere
        cases hloaded : img.loaded at' with
        | true =>
            rw [createIn_of_loaded hloaded]
            exact .fills hi hfree
        | false =>
            obtain ⟨hfalse, hgives⟩ := createIn_of_missing o aid i s.mem hloaded
            rw [hfalse]
            exact .fails hi hfree hgives

/-- **What `createUARuntimeFromSavedState` does**: it fills a slot with what the
buffer has, in state 3. -/
theorem creates_restore (o : ByteOrder) (aid : AgentID) (buffer : Memory) (s : RuntimeMngr) :
    Creates o aid (bytes buffer 0 4) (bytes buffer 4 3) (FlatMemory.get o 16 2 buffer 7)
      (bytes buffer 9 (FlatMemory.get o 16 2 buffer 7).toNat) 3 s
      (s.createUARuntimeFromSavedState o aid buffer).1 (s.createUARuntimeFromSavedState o aid buffer).2 := by
  unfold createUARuntimeFromSavedState
  cases hslot : firstSlot o s.mem aid with
  | none => exact .none
  | some i =>
      obtain ⟨hi, hid⟩ := slotId_of_firstSlot hslot
      dsimp only
      split_ifs with hthere
      · exact .none
      · exact .fills hi (hid.resolve_left hthere)

/-- The agent whose context is loaded is in the table, if there is one. -/
def Fresh (o : ByteOrder) (s : RuntimeMngr) : Prop :=
  s.ctx.agentID = NO_AGENT ∨ ∃ i < SLOTS, slotId o s.mem i = s.ctx.agentID

/-- An agent that is neither the one that gets a slot nor the one that had it
keeps its contents. -/
theorem contents_gives (hfit : Fits hdr) (h : Gives o i aid s.mem mem) (ha : a ≠ aid)
    (hi : slotId o s.mem i ≠ a) : contents hdr o { s with mem := mem } a = contents hdr o s a := by
  refine contents_congr hfit rfl rfl ?_ ?_
  · exact h.getAgentIdx ha hi
  intro k hk
  obtain ⟨-, hka⟩ := slotId_of_getAgentIdx hk
  have hne : k ≠ i := by
    rintro rfl
    exact hi hka
  exact ⟨slotType_of_outside h.outside (by decide) (.inl hne),
    fun n hn => data_of_outside h.outside (by decide) hn hne⟩

/-- A free slot may be given to an agent that is in none, unless the loaded
context is that of nobody in the table. -/
theorem Sound.gives (h : Sound hdr o s) (hfresh : Fresh o s) (hgives : Gives o i aid s.mem mem)
    (hfree : slotId o s.mem i = NO_AGENT) (hnew : aid = NO_AGENT ∨ ∀ j < SLOTS, slotId o s.mem j ≠ aid) :
    Sound hdr o { s with mem := mem } := by
  refine ⟨hgives.unique h.unique hnew, ?_⟩
  obtain hnone | ⟨j, hj, hjd⟩ := hfresh
  · exact .inl hnone
  · obtain hnone | ⟨k, hk⟩ := h.context
    · exact .inl hnone
    · obtain ⟨hown, hlen⟩ := hk.owner.resolve_right fun hstale => hstale.2 j hj hjd
      by_cases hki : k = i
      · subst hki
        exact .inl (hown.symm.trans hfree)
      · refine .inr ⟨k, hk.lt, hk.dataAddr, hk.small, .inl ⟨?_, ?_⟩⟩
        · exact (hgives.slotId_ne hki).trans hown
        · have htype : slotType o mem k = slotType o s.mem k :=
            slotType_of_outside hgives.outside (by decide) (.inl hki)
          show _ = dataSize hdr (slotType o mem k)
          rw [htype]
          exact hlen

/-- A slot may be given back at any time. -/
theorem Sound.freed (h : Sound hdr o s) (hi : i < SLOTS) (hgives : Gives o i NO_AGENT s.mem mem) :
    Sound hdr o { s with mem := mem } := by
  refine ⟨hgives.unique h.unique (.inl rfl), ?_⟩
  obtain hnone | ⟨k, hk⟩ := h.context
  · exact .inl hnone
  · by_cases hid : s.ctx.agentID = NO_AGENT
    · exact .inl hid
    · -- the agent keeps its slot, or is in none from now on
      have habsent : slotId o mem k = NO_AGENT → ∀ j < SLOTS, slotId o mem j ≠ s.ctx.agentID := by
        intro hkfree j hj hjd
        by_cases hji : j = i
        · subst hji
          exact hid (hjd.symm.trans hgives.slotId)
        · rw [hgives.slotId_ne hji] at hjd
          obtain ⟨hown, -⟩ | ⟨-, hnobody⟩ := hk.owner
          · have hkj : k = j := h.unique k hk.lt j hj (hown.trans hjd.symm) (by rw [hown]; exact hid)
            rw [hkj, hgives.slotId_ne hji, hjd] at hkfree
            exact hid hkfree
          · exact hnobody j hj hjd
      by_cases hki : k = i
      · have hkfree : slotId o mem k = NO_AGENT := by
          rw [hki]
          exact hgives.slotId
        exact .inr ⟨k, hk.lt, hk.dataAddr, hk.small, .inr ⟨hkfree, habsent hkfree⟩⟩
      · have hsame := hgives.slotId_ne hki
        have htype : slotType o mem k = slotType o s.mem k :=
          slotType_of_outside hgives.outside (by decide) (.inl hki)
        refine .inr ⟨k, hk.lt, hk.dataAddr, hk.small, ?_⟩
        obtain ⟨hown, hlen⟩ | ⟨hfree, -⟩ := hk.owner
        · left
          refine ⟨hsame.trans hown, ?_⟩
          show _ = dataSize hdr (slotType o mem k)
          rw [htype]
          exact hlen
        · have hkfree := hsame.trans hfree
          exact .inr ⟨hkfree, habsent hkfree⟩

/-- **A creation**, of either kind, keeps the invariant and the contents of every
other agent, if the new agent is in no slot and the loaded context is of one that
is. -/
theorem Sound.creates {ty mask data : List Byte} {len : Word} {state : Byte} {ok : Bool} (hfit : Fits hdr)
    (h : Sound hdr o s) (hfresh : Fresh o s) (hnew : ∀ j < SLOTS, slotId o s.mem j ≠ aid)
    (hty : ty.length = 4) (hmask : mask.length = 3) (hdata : data.length ≤ 512)
    (hc : Creates o aid ty mask len data state s ok s') :
    Sound hdr o s' ∧ ∀ b ≠ NO_AGENT, b ≠ aid → contents hdr o s' b = contents hdr o s b := by
  cases hc with
  | none => exact ⟨h, fun _ _ _ => rfl⟩
  | @fills i hi hfree =>
      have hgives := (filled o i aid len state s.mem hty hmask hdata).gives
      refine ⟨h.gives hfresh hgives hfree (.inr hnew), fun b hb hne => ?_⟩
      exact contents_gives hfit hgives hne (by rw [hfree]; exact hb.symm)
  | fails hi hfree hgives =>
      refine ⟨h.gives hfresh hgives hfree (.inl rfl), fun b hb _ => ?_⟩
      exact contents_gives hfit hgives hb (by rw [hfree]; exact hb.symm)

/-! ## One call -/

/-- Only a mask or a suspend state has changed in the slots, and nothing of the
context that matters here. -/
structure Harmless (s s' : RuntimeMngr) : Prop where
  aside : ∃ j, Aside j s.mem s'.mem
  context : SameContext s s'
  buffer : s'.ctx.dataBuffer = s.ctx.dataBuffer

theorem Harmless.refl (s : RuntimeMngr) : Harmless s s :=
  ⟨⟨0, .inl (Outside.refl _ _ _)⟩, ⟨rfl, rfl, rfl⟩, rfl⟩

/-- Only the state byte of a slot is written. -/
theorem harmless_putState (i : Nat) (aid : AgentID) (state : Byte) (s : RuntimeMngr) :
    Harmless s (s.putState i aid state) := by
  have haside := outside_putSuspended s.mem i state
  unfold putState
  dsimp only
  split_ifs
  · exact ⟨⟨i, .inr haside⟩, ⟨rfl, rfl, rfl⟩, rfl⟩
  · exact ⟨⟨i, .inr haside⟩, ⟨rfl, rfl, rfl⟩, rfl⟩

/-- A suspension writes the state byte and posts the task. -/
theorem harmless_suspendAgent (o : ByteOrder) (aid : AgentID) (busy timers : Bool) (s : RuntimeMngr) :
    Harmless s (s.suspendAgent o aid busy timers).2 := by
  unfold suspendAgent
  cases hidx : getAgentIdx o s.mem aid with
  | none => exact Harmless.refl s
  | some i =>
      have hput := harmless_putState i aid (suspendStateToSet busy (slotSuspended s.mem i)) s
      dsimp only
      split_ifs
      · exact ⟨hput.aside, ⟨hput.context.agentID, hput.context.dataAddr, hput.context.dataLength⟩, hput.buffer⟩
      · exact hput

/-- A resumption writes the state byte. -/
theorem harmless_resumeAgent (o : ByteOrder) (aid : AgentID) (timers : Bool) (s : RuntimeMngr) :
    Harmless s (s.resumeAgent o aid timers).2 := by
  unfold resumeAgent
  cases hidx : getAgentIdx o s.mem aid with
  | none => exact Harmless.refl s
  | some i =>
      dsimp only
      split_ifs
      · exact harmless_putState i aid 0 s
      · exact Harmless.refl s

/-- A mask is written beside the id, the type and the data. -/
theorem harmless_setEventsMask (o : ByteOrder) (aid : AgentID) (em : Vector Byte 3) (s : RuntimeMngr) :
    Harmless s (s.setEventsMask o aid em).2 := by
  unfold setEventsMask
  cases hidx : getAgentIdx o s.mem aid with
  | none => exact Harmless.refl s
  | some i =>
      have haside := outside_write s.mem (agentOffs i + MASK_OFFS) em.toList
      rw [Vector.length_toList] at haside
      exact ⟨⟨i, .inl haside⟩, ⟨rfl, rfl, rfl⟩, rfl⟩

/-- A turn of the task writes at most the state byte of its slot. -/
theorem harmless_suspendDoneTurn (o : ByteOrder) (i : Nat) (s : RuntimeMngr) :
    Harmless s (s.suspendDoneTurn o i).2 := by
  unfold suspendDoneTurn
  dsimp only
  split_ifs
  · exact Harmless.refl s
  · exact harmless_putState i _ 3 s
  · exact Harmless.refl s

/-- The end of a handler drops the context or changes suspend states only. -/
theorem handlerExecutionEnded_cases (o : ByteOrder) (endedEventType : BitVec 32) (aid : AgentID)
    (hasEvents : Bool) (s : RuntimeMngr) :
    Harmless s (s.handlerExecutionEnded o endedEventType aid hasEvents) ∨
    (endedEventType = EVENT_FINALIZE ∧ s.handlerExecutionEnded o endedEventType aid hasEvents = s.dropContext ∧
      aid = s.ctx.agentID) := by
  unfold handlerExecutionEnded
  split_ifs with hnone hfinal hloaded
  · exact .inl (Harmless.refl s)
  · exact .inr ⟨hfinal, rfl, hloaded⟩
  · exact .inl (Harmless.refl s)
  · cases hidx : getAgentIdx o s.mem aid with
    | none => exact .inl (Harmless.refl s)
    | some i =>
        exact .inl ⟨⟨i, .inr (outside_putSuspended s.mem i 2)⟩, ⟨rfl, rfl, rfl⟩, rfl⟩
  · exact .inl (Harmless.refl s)

/-- Of the memory `saveRuntimeState` changes what `saveContext` does. -/
theorem saveRuntimeState_snd (o : ByteOrder) (aid : AgentID) (s : RuntimeMngr) :
    (s.saveRuntimeState o aid).2 = s.saveContext := by
  unfold saveRuntimeState
  dsimp only
  cases getAgentIdx o s.saveContext.mem aid with
  | none => rfl
  | some i =>
      dsimp only
      split_ifs
      · rfl
      · rfl

/-- **Saving changes nobody's contents**: the buffer of the loaded agent goes to
where its contents are, and to no other slot. -/
theorem Sound.contents_saveContext (hfit : Fits hdr) (h : Sound hdr o s) (ha : a ≠ NO_AGENT) :
    contents hdr o s.saveContext a = contents hdr o s a := by
  by_cases hloaded : s.ctx.agentID = a
  · have htype := h.slotType_saveContext
    unfold contents
    rw [h.sameIds_saveContext.getAgentIdx a, agentID_saveContext, dataBuffer_saveContext]
    simp only [htype, if_pos hloaded]
  · rw [h.bytes_saveContext hfit ha, contents, if_neg ha]
    simp only [agentID_saveContext, if_neg hloaded]

/-- A removal frees the slot and leaves the rest of it, and the loaded context,
as they are. -/
theorem removeUARuntime_of_idx (hidx : getAgentIdx o s.mem a = some i) :
    (s.removeUARuntime o a).2 = { s with mem := putId o s.mem i NO_AGENT } := by
  rw [removeUARuntime, hidx]

/-- An agent that is removed gives its slot back. -/
theorem removeUARuntime_cases (o : ByteOrder) (aid : AgentID) (s : RuntimeMngr) :
    (s.removeUARuntime o aid).2 = s ∨
      ∃ i, getAgentIdx o s.mem aid = some i ∧
        (s.removeUARuntime o aid).2 = { s with mem := putId o s.mem i NO_AGENT } := by
  cases hidx : getAgentIdx o s.mem aid with
  | none =>
      rw [removeUARuntime, hidx]
      exact .inl rfl
  | some i => exact .inr ⟨i, rfl, removeUARuntime_of_idx hidx⟩

/-- The context of an agent that has failed is dropped. -/
theorem agentFailed_cases (aid : AgentID) (s : RuntimeMngr) :
    s.agentFailed aid = s ∨ (aid = s.ctx.agentID ∧ s.agentFailed aid = s.dropContext) := by
  unfold agentFailed
  split_ifs with hnone hloaded
  · exact .inl rfl
  · exact .inr ⟨hloaded, rfl⟩
  · exact .inl rfl

/-- The task starts with the first slot. -/
theorem eq_of_suspendDoneTask (hstep : step o s .suspendDoneTask = some s') :
    s' = { s with posted := false, scan := some 0 } := by
  unfold step at hstep
  split_ifs at hstep
  cases hstep
  rfl

/-- A turn of the task is about the slot that it has come to. -/
theorem turn_of_suspendDoneTurn (hstep : step o s .suspendDoneTurn = some s') :
    ∃ i, s.scan = some i ∧
      s' = { (s.suspendDoneTurn o i).2 with scan := if i + 1 < SLOTS then some (i + 1) else none } := by
  unfold step at hstep
  cases hscan : s.scan with
  | none =>
      rw [hscan] at hstep
      exact nomatch hstep
  | some i =>
      rw [hscan] at hstep
      cases hstep
      exact ⟨i, rfl, rfl⟩

/-- **A harmless call** keeps the invariant and everybody's contents. -/
theorem Sound.harmless (hfit : Fits hdr) (h : Sound hdr o s) (hs : Harmless s s') :
    Sound hdr o s' ∧ ∀ a, contents hdr o s' a = contents hdr o s a := by
  obtain ⟨j, hj⟩ := hs.aside
  exact ⟨h.aside hj hs.context, fun a => hj.contents hfit hs.context.agentID hs.buffer⟩

/-- Dropping the context of an agent concerns that agent only. -/
theorem Sound.dropContext (h : Sound hdr o s) :
    Sound hdr o s.dropContext ∧
      ∀ a ≠ NO_AGENT, s.ctx.agentID ≠ a → contents hdr o s.dropContext a = contents hdr o s a := by
  refine ⟨h.noAgent rfl rfl, fun a ha hne => ?_⟩
  have hnone : s.dropContext.ctx.agentID ≠ a := Ne.symm ha
  unfold contents
  rw [if_neg ha, if_neg ha]
  simp only [if_neg hne, if_neg hnone]
  rfl

/-- Execution concerns the data of the loaded agent only. -/
theorem Sound.executes {m' : Machine} (h : Sound hdr o s)
    (hagent : { m'.ctx with dataBuffer := s.machine.ctx.dataBuffer } = s.machine.ctx) :
    Sound hdr o { s with machine := m' } ∧
      ∀ a, s.ctx.agentID ≠ a → contents hdr o { s with machine := m' } a = contents hdr o s a := by
  have hid : m'.ctx.agentID = s.ctx.agentID := by
    rw [ctx, ← hagent]
  have haddr : m'.ctx.dataAddr = s.ctx.dataAddr := by
    rw [ctx, ← hagent]
  have hlen : m'.ctx.dataLength = s.ctx.dataLength := by
    rw [ctx, ← hagent]
  refine ⟨h.congr ⟨hid, haddr, hlen⟩ (fun _ _ => rfl) (fun _ => rfl), fun a ha => ?_⟩
  unfold contents
  simp only [ctx] at hid ha ⊢
  simp [hid, ha]

/-- The interpreter changes nothing of the context but the buffer. -/
theorem agent_of_run {host : Host} {fuel : Nat} {startAddress : AgentMemAddr} {m : Machine}
    {r : InterpreterStatus × Machine} (h : run host fuel startAddress m = some r) :
    { r.2.ctx with dataBuffer := m.ctx.dataBuffer } = m.ctx := by
  unfold run at h
  split_ifs at h with hrunning
  · cases h
    rfl
  · cases hloop : whileRunning host fuel (beginRun startAddress m) with
    | none =>
        rw [hloop] at h
        exact nomatch h
    | some u =>
        rw [hloop, Option.map_some, Option.some.injEq] at h
        subst h
        have hbegin : { (beginRun startAddress m).ctx with dataBuffer := m.ctx.dataBuffer } = m.ctx := by
          unfold beginRun
          split_ifs
          · rfl
          · rfl
        have hend : (endRun u).ctx = u.ctx := by
          unfold endRun
          split_ifs
          · rfl
          · rfl
        simp only [hend]
        -- no pass of the loop changes more
        refine whileRunning_induct (P := fun x => { x.ctx with dataBuffer := m.ctx.dataBuffer } = m.ctx)
          (fun x _ hx => ?_) hbegin hloop
        have hpass := congrArg (fun c : AgentContext => { c with dataBuffer := m.ctx.dataBuffer })
          (frame_fetchAndStep host x).agent
        have hcount : (loopBody host x).ctx = (fetchAndStep host x).ctx := by
          rw [loopBody_eq]
          unfold countInstr
          dsimp only
          split_ifs
          · rfl
          · rfl
        rw [hcount]
        exact hpass.trans hx

/-- The images are the ones of `hdr`, and a slot is only given to an agent that
has none, while the loaded context is that of an agent in the table; a buffer
that is restored from has as much data as its type. -/
def Orderly (hdr : AgentType → AgentImage) (o : ByteOrder) (s : RuntimeMngr) : Call → Prop
  | .contextChanged img _ => img.image = hdr
  | .createUARuntime img _ aid => img.image = hdr ∧ Fresh o s ∧ ∀ j < SLOTS, slotId o s.mem j ≠ aid
  | .createUARuntimeFromSavedState aid buffer =>
      (FlatMemory.get o 16 2 buffer 7).toNat = dataSize hdr (o.read 32 (bytes buffer 0 4)) ∧ Fresh o s ∧
        ∀ j < SLOTS, slotId o s.mem j ≠ aid
  | _ => True

/-- The call neither executes the agent `a` nor creates, removes or kills it. -/
def Spares (a : AgentID) (s : RuntimeMngr) : Call → Prop
  | .handler _ _ => s.ctx.agentID ≠ a
  | .command _ => s.ctx.agentID ≠ a
  | .createUARuntime _ _ aid => aid ≠ a
  | .createUARuntimeFromSavedState aid _ => aid ≠ a
  | .removeUARuntime aid => aid ≠ a
  | .agentFailed aid => aid ≠ a
  | .handlerExecutionEnded endedEventType aid _ => endedEventType = EVENT_FINALIZE → aid ≠ a
  | _ => True

/-- **One call** keeps the invariant, and the data of every agent that it
spares. -/
theorem Sound.step (hfit : Fits hdr) (h : Sound hdr o s) {c : Call} (hok : Orderly hdr o s c)
    (hstep : step o s c = some s') :
    Sound hdr o s' ∧ ∀ a ≠ NO_AGENT, Spares a s c → contents hdr o s' a = contents hdr o s a := by
  have hspared : ∀ {t : RuntimeMngr}, Harmless s t →
      Sound hdr o t ∧ ∀ a ≠ NO_AGENT, Spares a s c → contents hdr o t a = contents hdr o s a := by
    intro t ht
    obtain ⟨hsound, hcontents⟩ := h.harmless hfit ht
    exact ⟨hsound, fun a _ _ => hcontents a⟩
  -- what each call does has been said once, by a `_cases` lemma or `Harmless`
  cases c with
  | contextChanged img aid =>
      cases hstep
      obtain rfl : img.image = hdr := hok
      obtain ⟨hsound, hcontents⟩ := h.contextChanged hfit aid
      exact ⟨hsound, fun a ha _ => hcontents a ha⟩
  | saveContext =>
      cases hstep
      exact ⟨h.saveContext, fun a ha _ => h.contents_saveContext hfit ha⟩
  | handler host startAddress =>
      obtain ⟨r, hr, rfl⟩ := Option.map_eq_some_iff.mp hstep
      obtain ⟨hsound, hcontents⟩ := h.executes (agent_of_run hr)
      exact ⟨hsound, fun a _ ha => hcontents a ha⟩
  | command c =>
      cases hstep
      obtain ⟨hsound, hcontents⟩ := h.executes (Frame.command s.machine c).agent
      exact ⟨hsound, fun a _ ha => hcontents a ha⟩
  | createUARuntime img at' aid =>
      cases hstep
      obtain ⟨rfl, hfresh, hnew⟩ := hok
      have hdata := hfit at'
      rw [← length_initialData] at hdata
      obtain ⟨hsound, hcontents⟩ := h.creates hfit hfresh hnew (ByteOrder.length_write o 4 at') rfl hdata
        (creates_createUARuntime o img at' aid s)
      exact ⟨hsound, fun a ha hne => hcontents a ha (Ne.symm hne)⟩
  | createUARuntimeFromSavedState aid buffer =>
      cases hstep
      obtain ⟨hsize, hfresh, hnew⟩ := hok
      have hdata := hfit (o.read 32 (bytes buffer 0 4))
      rw [← hsize] at hdata
      obtain ⟨hsound, hcontents⟩ := h.creates hfit hfresh hnew (length_bytes _ _ _) (length_bytes _ _ _)
        ((length_bytes buffer 9 _).symm ▸ hdata) (creates_restore o aid buffer s)
      exact ⟨hsound, fun a ha hne => hcontents a ha (Ne.symm hne)⟩
  | removeUARuntime aid =>
      cases hstep
      obtain hsame | ⟨i, hidx, hfreed⟩ := removeUARuntime_cases o aid s
      · rw [hsame]
        exact ⟨h, fun _ _ _ => rfl⟩
      · obtain ⟨hi, hid⟩ := slotId_of_getAgentIdx hidx
        have hgives := gives_putId o s.mem i NO_AGENT
        rw [hfreed]
        refine ⟨h.freed hi hgives, fun a ha hne => contents_gives hfit hgives ha ?_⟩
        rw [hid]
        exact hne
  | suspendAgent aid busy timers =>
      cases hstep
      exact hspared (harmless_suspendAgent o aid busy timers s)
  | resumeAgent aid timers =>
      cases hstep
      exact hspared (harmless_resumeAgent o aid timers s)
  | handlerExecutionEnded endedEventType aid hasEvents =>
      cases hstep
      obtain hsame | ⟨hfinal, hdropped, hloaded⟩ := handlerExecutionEnded_cases o endedEventType aid hasEvents s
      · exact hspared hsame
      · rw [hdropped]
        refine ⟨h.dropContext.1, fun a ha hspares => h.dropContext.2 a ha ?_⟩
        rw [← hloaded]
        exact hspares hfinal
  | agentFailed aid =>
      cases hstep
      obtain hsame | ⟨hloaded, hdropped⟩ := agentFailed_cases aid s
      · rw [hsame]
        exact ⟨h, fun _ _ _ => rfl⟩
      · rw [hdropped]
        refine ⟨h.dropContext.1, fun a ha hspares => h.dropContext.2 a ha ?_⟩
        rw [← hloaded]
        exact hspares
  | setEventsMask aid em =>
      cases hstep
      exact hspared (harmless_setEventsMask o aid em s)
  | saveRuntimeState aid =>
      cases hstep
      rw [saveRuntimeState_snd]
      exact ⟨h.saveContext, fun a ha _ => h.contents_saveContext hfit ha⟩
  | suspendDoneTask =>
      obtain rfl := eq_of_suspendDoneTask hstep
      exact hspared ⟨(Harmless.refl s).aside, ⟨rfl, rfl, rfl⟩, rfl⟩
  | suspendDoneTurn =>
      obtain ⟨i, -, rfl⟩ := turn_of_suspendDoneTurn hstep
      have hturn := harmless_suspendDoneTurn o i s
      exact hspared ⟨hturn.aside, ⟨hturn.context.agentID, hturn.context.dataAddr, hturn.context.dataLength⟩,
        hturn.buffer⟩

/-! ## Any number of calls -/

/-- **Data is private**: over any sequence of orderly calls that spare an agent
the agent's data stays what it is, and when its context is loaded afterwards,
that is what the buffer has. -/
theorem data_private (o : ByteOrder) (hdr : AgentType → AgentImage) (hfit : Fits hdr) (s t : RuntimeMngr)
    (hsound : Sound hdr o s) (cs : List Call) (hrun : Lts.run (step o) s cs = some t) (a : AgentID)
    (ha : a ≠ NO_AGENT) (hok : Lts.Along (step o) (fun s c => Orderly hdr o s c ∧ Spares a s c) s cs) :
    Sound hdr o t ∧ contents hdr o t a = contents hdr o s a ∧
      ∀ data, contents hdr o s a = some data → t.ctx.agentID = a →
        bufferBytes t.ctx.dataBuffer data.length = data := by
  have hall : Sound hdr o t ∧ contents hdr o t a = contents hdr o s a := by
    refine Lts.run_induct (P := fun u => Sound hdr o u ∧ contents hdr o u a = contents hdr o s a)
      (fun u c v hu hc hstep => ?_) hok ⟨hsound, rfl⟩ hrun
    obtain ⟨hv, hcontents⟩ := hu.1.step hfit hc.1 hstep
    exact ⟨hv, (hcontents a ha hc.2).trans hu.2⟩
  refine ⟨hall.1, hall.2, fun data hdata hloaded => ?_⟩
  have hthere := hall.2.trans hdata
  unfold contents at hthere
  rw [if_neg ha] at hthere
  obtain ⟨i, -, hi⟩ := Option.map_eq_some_iff.mp hthere
  rw [if_pos hloaded] at hi
  rw [← hi, length_bufferBytes]

/-- Two agents of a type with two bytes of data, the first one loaded. -/
def twoAgents : RuntimeMngr where
  machine := { booted with ctx := { booted.ctx with dataAddr := 13, dataLength := 2, dataBuffer := fun _ => 7 } }
  mem := fun k => if k < 1056 then if k = 0 then 1 else if k = 528 then 2 else 0 else 0xFF
  posted := false
  scan := none

/-- Every type has two bytes of data, cleared at the start. -/
def twoBytes : Images where
  image := fun _ => { code_len := 2, data_len := 2, bss_len := 0, data := fun _ => 0 }
  loaded := fun _ => true

theorem sound_twoAgents : Sound twoBytes.image .little twoAgents where
  unique := by
    unfold Unique
    decide +kernel
  context := .inr ⟨0, by decide, by decide, by decide, .inl ⟨by decide +kernel, by decide +kernel⟩⟩

/-- The context of the other agent is loaded and that of the first one again. -/
theorem data_private_twoAgents :
    ∃ t, Lts.run (step .little) twoAgents [.contextChanged twoBytes 2, .contextChanged twoBytes 1] = some t ∧
      contents twoBytes.image .little t 1 = contents twoBytes.image .little twoAgents 1 := by
  refine ⟨_, rfl, ?_⟩
  exact (data_private .little twoBytes.image (fun _ => by show 2 ≤ 512; decide) twoAgents _ sound_twoAgents
    [.contextChanged twoBytes 2, .contextChanged twoBytes 1] rfl 1 (by decide)
    ⟨⟨rfl, trivial⟩, fun _ _ => ⟨⟨rfl, trivial⟩, fun _ _ => trivial⟩⟩).2.1

/-! ## The context of an agent that is gone -/

theorem bytes_write_take {bs : List Byte} {k n : Nat} (mem : Memory) (hn : n ≤ bs.length) :
    bytes (write mem k bs) k n = bs.take n := by
  apply List.ext_getElem
  · simp [hn]
  · intro i hi hi'
    rw [length_bytes] at hi
    simp only [bytes, List.getElem_map, List.getElem_range, List.getElem_take]
    exact write_at (by omega)

/-- The first bytes of a longer piece of the buffer. -/
theorem take_bufferBytes {buf : Fin DATA_SIZE → Byte} {k n : Nat} (h : k ≤ n) :
    (bufferBytes buf n).take k = bufferBytes buf k := by
  unfold bufferBytes
  rw [← List.map_take, List.take_range, Nat.min_eq_left h]

/-- The first free slot is found if the agent has none before it. -/
theorem firstSlot_of_free (hi : i < SLOTS) (hfree : slotId o mem i = NO_AGENT)
    (hbefore : ∀ j < i, slotId o mem j ≠ aid ∧ slotId o mem j ≠ NO_AGENT) : firstSlot o mem aid = some i := by
  rw [firstSlot, List.find?_range_eq_some]
  refine ⟨by simp [hfree], List.mem_range.mpr hi, fun j hj => ?_⟩
  obtain ⟨hne, hused⟩ := hbefore j hj
  simp [hne, hused]

/-- The slot `k` is the agent's, who is of that type. -/
structure Owns (o : ByteOrder) (mem : Memory) (b : AgentID) (at' : AgentType) (k : Nat) : Prop where
  idx : getAgentIdx o mem b = some k
  type : slotType o mem k = at'

/-- A slot that is given back and taken again. -/
theorem owns_handedOver (hfit : Fits img.image) (hunique : Unique o s.mem) (hi : i < SLOTS) {b : AgentID}
    (hidx : getAgentIdx o s.mem a = some i) (hb : b ≠ NO_AGENT) (hnew : ∀ j < SLOTS, slotId o s.mem j ≠ b)
    (hfirst : ∀ j < i, slotId o s.mem j ≠ NO_AGENT) (himage : img.loaded at' = true) :
    ∃ m, ((s.removeUARuntime o a).2.createUARuntime o img at' b).2 = { s with mem := m } ∧ Owns o m b at' i := by
  have hgives := gives_putId o s.mem i NO_AGENT
  rw [removeUARuntime_of_idx hidx]
  generalize putId o s.mem i NO_AGENT = m at hgives ⊢
  have hnew' : ∀ j < SLOTS, slotId o m j ≠ b := by
    intro j hj
    by_cases hji : j = i
    · rw [hji, hgives.slotId]
      exact hb.symm
    · rw [hgives.slotId_ne hji]
      exact hnew j hj
  have hslot : firstSlot o m b = some i := by
    refine firstSlot_of_free hi hgives.slotId fun j hj => ⟨hnew' j (by omega), ?_⟩
    rw [hgives.slotId_ne (by omega)]
    exact hfirst j hj
  have hdata := hfit at'
  rw [← length_initialData] at hdata
  have hfilled := filled o i b ((img.image at').data_len + (img.image at').bss_len) 0 m
    (ByteOrder.length_write o 4 at') (rfl : [(0 : Byte), 0, 0].length = 3) hdata
  refine ⟨fill o i b (o.write 4 at') [0, 0, 0] ((img.image at').data_len + (img.image at').bss_len)
    (initialData (img.image at')) 0 m, ?_, ?_, ?_⟩
  · unfold createUARuntime
    dsimp only
    rw [hslot]
    dsimp only
    rw [if_neg (hnew' i hi), createIn_of_loaded himage]
  · exact getAgentIdx_of_slotId (hfilled.gives.unique (hgives.unique hunique (.inl rfl)) (.inr hnew')) hi
      hfilled.gives.slotId hb
  · rw [slotType, FlatMemory.get, hfilled.type, read_write o (by decide)]

/-- The save of a context goes into its slot, whoever has that. -/
theorem owns_saveContext {m : Memory} {b : AgentID} (hne : s.ctx.agentID ≠ NO_AGENT)
    (haddr : s.ctx.dataAddr.toNat = agentOffs i + DATA_OFFS) (hsmall : s.ctx.dataLength.toNat ≤ 512)
    (hn : n ≤ s.ctx.dataLength.toNat) (h : Owns o m b at' i) :
    Owns o (RuntimeMngr.saveContext { s with mem := m }).mem b at' i ∧
      bytes (RuntimeMngr.saveContext { s with mem := m }).mem (agentOffs i + DATA_OFFS) n =
        bufferBytes s.ctx.dataBuffer n := by
  have hsave : (RuntimeMngr.saveContext { s with mem := m }).mem =
      write m (agentOffs i + DATA_OFFS) (bufferBytes s.ctx.dataBuffer s.ctx.dataLength.toNat) := by
    unfold RuntimeMngr.saveContext
    rw [← haddr]
    exact congrArg RuntimeMngr.mem (if_neg hne)
  rw [hsave]
  have hout := outside_write m (agentOffs i + DATA_OFFS) (bufferBytes s.ctx.dataBuffer s.ctx.dataLength.toNat)
  rw [length_bufferBytes] at hout
  have hend : DATA_OFFS + s.ctx.dataLength.toNat ≤ 528 := by
    unfold DATA_OFFS
    omega
  refine ⟨⟨?_, ?_⟩, ?_⟩
  · rw [(sameIds_of_outside hout (by decide) hend).getAgentIdx b]
    exact h.idx
  · rw [slotType_of_outside hout hend (.inr (by decide))]
    exact h.type
  · rw [bytes_write_take m (by rwa [length_bufferBytes]), take_bufferBytes hn]

/-- **A removed agent comes back**: if the agent whose context is loaded is
removed and its slot is given to another one, the next change of context puts
the data of the first into the slot of the second. -/
theorem stale_context_overwrites (o : ByteOrder) (img : Images) (hfit : Fits img.image) (s : RuntimeMngr)
    (hsound : Sound img.image o s) (a b : AgentID) (at' : AgentType) (i : Nat) (ha : a ≠ NO_AGENT)
    (hb : b ≠ NO_AGENT) (hloaded : s.ctx.agentID = a) (hidx : getAgentIdx o s.mem a = some i)
    (hnew : ∀ j < SLOTS, slotId o s.mem j ≠ b) (hfirst : ∀ j < i, slotId o s.mem j ≠ NO_AGENT)
    (himage : img.loaded at' = true) (hsize : dataSize img.image at' ≤ s.ctx.dataLength.toNat) :
    contents img.image o
        ((((s.removeUARuntime o a).2.createUARuntime o img at' b).2.contextChanged o img b).2) b =
      some (bufferBytes s.ctx.dataBuffer (dataSize img.image at')) := by
  obtain ⟨hlt, hid⟩ := slotId_of_getAgentIdx hidx
  have hab : a ≠ b := fun hab => hnew i hlt (hid.trans hab)
  -- the slot of the loaded context is that of the agent
  obtain ⟨k, hk⟩ := hsound.context.resolve_left (by rw [hloaded]; exact ha)
  obtain ⟨hown, -⟩ := hk.owner.resolve_right fun hgone => hgone.2 i hlt (hid.trans hloaded.symm)
  have hki : k = i := hsound.unique k hk.lt i hlt (by rw [hown, hloaded, hid]) (by rw [hown, hloaded]; exact ha)
  subst hki
  obtain ⟨m, hm, howns⟩ := owns_handedOver hfit hsound.unique hlt hidx hb hnew hfirst himage
  have hne : s.ctx.agentID ≠ NO_AGENT := by
    rw [hloaded]
    exact ha
  obtain ⟨hsaved, hstale⟩ := owns_saveContext hne hk.toNat_dataAddr hk.small hsize howns
  rw [hm]
  obtain ⟨-, hsame | hgone⟩ | ⟨hmem, hnone⟩ | ⟨-, j, hj⟩ := contextChanged_cases o img b { s with mem := m }
  · exact absurd (hloaded.symm.trans hsame) hab
  · exact absurd (hgone.symm.trans howns.idx) nofun
  · rw [contents, if_neg hb, hmem, hsaved.idx, Option.map_some, hnone, if_neg hb.symm, hsaved.type, hstale]
  · have hjk : j = k := Option.some.inj (hj.idx.symm.trans (by rw [hj.mem]; exact hsaved.idx))
    subst hjk
    have haddr : (contextChanged o img b { s with mem := m }).2.ctx.dataAddr.toNat = agentOffs j + DATA_OFFS :=
      (hj.loadedIn hfit).toNat_dataAddr
    rw [contents, if_neg hb, hj.idx, Option.map_some, if_pos hj.agentID, hj.buffer, haddr, hj.dataLength_eq hfit,
      bufferBytes_loadBuffer _ _ _ _ (hfit _), hj.mem, hsaved.type, hstale]

/-- The third agent, of a type whose data is cleared at the start, has the sevens
of the first one. -/
theorem stale_context_overwrites_slot0 :
    contents twoBytes.image .little
        ((((twoAgents.removeUARuntime .little 1).2.createUARuntime .little twoBytes 0 3).2.contextChanged
          .little twoBytes 3).2) 3 = some [7, 7] :=
  stale_context_overwrites .little twoBytes (fun _ => by show 2 ≤ 512; decide) twoAgents sound_twoAgents 1 3 0 0
    (by decide) (by decide) rfl (by decide +kernel) (by decide +kernel) (fun _ h => absurd h (Nat.not_lt_zero _)) rfl
    (by decide)

end RuntimeMngr

end Pobicos.Runtime
