import Pobicos.Lib.FlatMemory
import Pobicos.Lib.Lts
import Pobicos.Vm.Session

/-!
# Pobicos.Runtime.Instances

`RuntimeMngrM` of the middleware that the nesC compiler wrote out: the agents
that a node runs, in eight slots of memory, and the context of one of them,
which is what the interpreter works on.

* A slot is a `RuntimeInstance_t`, but the source reaches its fields by sums of
  `sizeof`s and not by the offsets of the structure, so that they lie without
  padding; only the distance of two slots is that of the padded structure.
* The slots are section 1 of `PoMemMngrM`, the first bytes of its bank.  All
  accesses start in a slot and are shorter than `2 ^ 16`, so none of them
  reaches the end of the bank; bytes behind the slots belong to other sections.
* `dataBuffer` is as long as the address space of an agent.  A data length above
  1024 would copy what is behind it, which is not modelled.
-/

namespace Pobicos.Runtime

open Octets CArray FlatMemory Vm

/-! ## Slots -/

/-- `sizeof(RuntimeInstance_t)`. -/
def INSTANCE_SIZE : Nat := 528

/-- `sizeof(AgentID)`, and the sums that follow. -/
def TYPE_OFFS : Nat := 4
def MASK_OFFS : Nat := 8
def LEN_OFFS : Nat := 11
def DATA_OFFS : Nat := 13
def SUSPENDED_OFFS : Nat := 525

/-- `MAX_RUNNING_AGENTS`. -/
def SLOTS : Nat := 8

def agentOffs (i : Nat) : Nat := i * INSTANCE_SIZE

def NO_TYPE : AgentType := 0xFFFFFFFF

section fields

variable (o : ByteOrder) (mem : Memory) (i : Nat)

def slotId : AgentID := get o 32 4 mem (agentOffs i)
def slotType : AgentType := get o 32 4 mem (agentOffs i + TYPE_OFFS)
def slotMask : List Byte := bytes mem (agentOffs i + MASK_OFFS) 3
def slotLen : Word := get o 16 2 mem (agentOffs i + LEN_OFFS)
def slotSuspended : Byte := mem (agentOffs i + SUSPENDED_OFFS)

def putId (aid : AgentID) : Memory := put o 4 mem (agentOffs i) aid
def putType (at' : AgentType) : Memory := put o 4 mem (agentOffs i + TYPE_OFFS) at'
def putMask (em : List Byte) : Memory := write mem (agentOffs i + MASK_OFFS) em
def putLen (len : Word) : Memory := put o 2 mem (agentOffs i + LEN_OFFS) len
def putSuspended (state : Byte) : Memory := write mem (agentOffs i + SUSPENDED_OFFS) [state]

end fields

/-- `getAgentIdx(aid)`. -/
def getAgentIdx (o : ByteOrder) (mem : Memory) (aid : AgentID) : Option Nat :=
  (List.range SLOTS).find? fun i => slotId o mem i == aid

/-- Where the loops of the two creations stop: at the agent or at a free slot. -/
def firstSlot (o : ByteOrder) (mem : Memory) (aid : AgentID) : Option Nat :=
  (List.range SLOTS).find? fun i => slotId o mem i == aid || slotId o mem i == NO_AGENT

/-! ## Images -/

/-- What `AgentImageInfoI` tells of an agent type. -/
structure AgentImage where
  code_len : Word
  data_len : Word
  bss_len : Word
  data : Nat → Byte

/-- The images, and those that are there. -/
structure Images where
  image : AgentType → AgentImage
  loaded : AgentType → Bool

namespace Images

variable (img : Images) (at' : AgentType)

def getCodeSectionSize : Word := if img.loaded at' then (img.image at').code_len else 0xFFFF
def getDataSectionSize : Word := if img.loaded at' then (img.image at').data_len else 0xFFFF
def getBssDataSectionSize : Word := if img.loaded at' then (img.image at').bss_len else 0xFFFF

/-- `readDataSection(at, offset, buffer, len)`. -/
def readDataSection (offset len : Nat) : Option (List Byte) :=
  if img.loaded at' then some ((List.range len).map fun j => (img.image at').data (offset + j)) else none

end Images

/-! ## The module -/

/-- The interpreter with the loaded context, the memory of the slots, whether
`suspendDoneTask` is posted, and the slot it comes to next when it runs. -/
structure RuntimeMngr where
  machine : Machine
  mem : Memory
  posted : Bool
  scan : Option Nat

namespace RuntimeMngr

def ctx (s : RuntimeMngr) : AgentContext := s.machine.ctx

def withCtx (s : RuntimeMngr) (ctx : AgentContext) : RuntimeMngr := { s with machine := { s.machine with ctx := ctx } }

@[simp] theorem ctx_withCtx (s : RuntimeMngr) (c : AgentContext) : (s.withCtx c).ctx = c := rfl

@[simp] theorem mem_withCtx (s : RuntimeMngr) (c : AgentContext) : (s.withCtx c).mem = s.mem := rfl

/-- `dataBuffer[0 … n)`. -/
def bufferBytes (buf : Fin DATA_SIZE → Byte) (n : Nat) : List Byte :=
  (List.range n).map fun j => if h : j < DATA_SIZE then buf ⟨j, h⟩ else 0

/-- `read(dataAddr, dataBuffer, n)`. -/
def loadBuffer (mem : Memory) (a n : Nat) (buf : Fin DATA_SIZE → Byte) : Fin DATA_SIZE → Byte :=
  fun j => if j.val < n then mem (a + j.val) else buf j

variable (o : ByteOrder)

/-! ### Contexts -/

/-- `AgentContextI.saveContext()`. -/
def saveContext (s : RuntimeMngr) : RuntimeMngr :=
  if s.ctx.agentID = NO_AGENT then s
  else
    { s.withCtx { s.ctx with contextSaved := true } with
      mem := write s.mem s.ctx.dataAddr.toNat (bufferBytes s.ctx.dataBuffer s.ctx.dataLength.toNat) }

/-- `RuntimeInfoI.getAgentType(aid)`. -/
def getAgentType (s : RuntimeMngr) (aid : AgentID) : AgentType :=
  match getAgentIdx o s.mem aid with
  | some i => slotType o s.mem i
  | none => NO_TYPE

/-- `RuntimeInfoI.getSuspendState(aid)`. -/
def getSuspendState (s : RuntimeMngr) (aid : AgentID) : Byte :=
  match getAgentIdx o s.mem aid with
  | some i => slotSuspended s.mem i
  | none => 0xFF

/-- `getDataAddr(aid)`. -/
def getDataAddr (s : RuntimeMngr) (aid : AgentID) : BitVec 32 :=
  match getAgentIdx o s.mem aid with
  | some i => BitVec.ofNat 32 (agentOffs i + DATA_OFFS)
  | none => 0xFFFFFFFF

/-- The two failures of `contextChanged` behind the save. -/
def dropContext (s : RuntimeMngr) : RuntimeMngr := s.withCtx { s.ctx with agentID := NO_AGENT }

/-- `AgentContextI.contextChanged(aid)`; the flag is `SUCCESS`. -/
def contextChanged (img : Images) (aid : AgentID) (s : RuntimeMngr) : Bool × RuntimeMngr :=
  if (getAgentIdx o s.mem aid).isNone then (false, s)
  else if s.ctx.agentID = aid then (true, s)
  else
    let s := s.saveContext
    let at' := s.getAgentType o aid
    let s := s.withCtx { s.ctx with agentType := at', suspendState := s.getSuspendState o aid }
    if at' = NO_TYPE then (false, s.dropContext)
    else
      let s := s.withCtx { s.ctx with
        codeLength := img.getCodeSectionSize at'
        dataLength := img.getDataSectionSize at' + img.getBssDataSectionSize at'
        dataAddr := s.getDataAddr o aid }
      if s.ctx.codeLength = 0xFFFF ∨ s.ctx.dataLength = 0xFFFF ∨ s.ctx.dataAddr = 0xFFFF then
        (false, s.dropContext.withCtx { s.dropContext.ctx with agentType := NO_TYPE })
      else if s.ctx.contextSaved ∧ aid = s.ctx.agentID then
        (true, s.withCtx { s.ctx with contextSaved := false })
      else
        (true, s.withCtx { s.ctx with
          agentID := aid
          dataBuffer := loadBuffer s.mem s.ctx.dataAddr.toNat s.ctx.dataLength.toNat s.ctx.dataBuffer })

/-! ### Slots taken and given back -/

/-- The loop over the chunks of the data section; `fuel` is `dataLen`, of which
every turn takes some. -/
def copyDataSection (img : Images) (at' : AgentType) :
    (fuel dataOffs dataLen offs : Nat) → Memory → Bool × Memory
  | 0, _, _, _, mem => (true, mem)
  | fuel + 1, dataOffs, dataLen, offs, mem =>
      if dataLen = 0 then (true, mem)
      else
        let len := if dataLen ≥ 32 then 32 else dataLen
        match img.readDataSection at' dataOffs len with
        | some dataChunk =>
            copyDataSection img at' fuel (dataOffs + len) (dataLen - len) (offs + len) (write mem offs dataChunk)
        | none => (false, mem)

/-- The loop over the bytes that start as 0. -/
def zeroBss : (dataLen offs : Nat) → Memory → Memory
  | 0, _, mem => mem
  | dataLen + 1, offs, mem => zeroBss dataLen (offs + 1) (write mem offs [0])

/-- `createUARuntime(at, aid)` in the slot `i`. -/
def createIn (img : Images) (at' : AgentType) (aid : AgentID) (i : Nat) (mem : Memory) : Bool × Memory :=
  let dataLen := img.getDataSectionSize at'
  let bssLen := img.getBssDataSectionSize at'
  let mem := putLen o (putMask (putType o (putId o mem i aid) i at') i [0, 0, 0]) i (dataLen + bssLen)
  match copyDataSection img at' dataLen.toNat 0 dataLen.toNat (agentOffs i + DATA_OFFS) mem with
  | (false, mem) => (false, putId o mem i NO_AGENT)
  | (true, mem) => (true, putSuspended (zeroBss bssLen.toNat (agentOffs i + DATA_OFFS + dataLen.toNat) mem) i 0)

/-- `createUARuntime(at, aid)`. -/
def createUARuntime (img : Images) (at' : AgentType) (aid : AgentID) (s : RuntimeMngr) : Bool × RuntimeMngr :=
  match firstSlot o s.mem aid with
  | none => (false, s)
  | some i =>
      if slotId o s.mem i = aid then (false, s)
      else
        let (ok, mem) := createIn o img at' aid i s.mem
        (ok, { s with mem := mem })

/-- `createUARuntimeFromSavedState(aid, buffer, blen)` in the slot `i`; how long
the data is is taken from the buffer. -/
def restoreIn (aid : AgentID) (buffer : Memory) (i : Nat) (mem : Memory) : Memory :=
  let dataLen := get o 16 2 buffer 7
  let mem := putLen o (write (write (putId o mem i aid) (agentOffs i + TYPE_OFFS) (bytes buffer 0 4))
    (agentOffs i + MASK_OFFS) (bytes buffer 4 3)) i dataLen
  putSuspended (write mem (agentOffs i + DATA_OFFS) (bytes buffer 9 dataLen.toNat)) i 3

/-- `createUARuntimeFromSavedState(aid, buffer, blen)`, without the timers. -/
def createUARuntimeFromSavedState (aid : AgentID) (buffer : Memory) (s : RuntimeMngr) : Bool × RuntimeMngr :=
  match firstSlot o s.mem aid with
  | none => (false, s)
  | some i =>
      if slotId o s.mem i = aid then (false, s)
      else (true, { s with mem := restoreIn o aid buffer i s.mem })

/-- `removeUARuntime(aid)`: the context stays loaded if it is the agent's. -/
def removeUARuntime (aid : AgentID) (s : RuntimeMngr) : Bool × RuntimeMngr :=
  match getAgentIdx o s.mem aid with
  | some i => (true, { s with mem := putId o s.mem i NO_AGENT })
  | none => (false, s)

/-! ### Suspension -/

/-- A new suspend state in a slot, and in the context if it is the agent's. -/
def putState (i : Nat) (aid : AgentID) (state : Byte) (s : RuntimeMngr) : RuntimeMngr :=
  let s := { s with mem := putSuspended s.mem i state }
  if s.ctx.agentID = aid then s.withCtx { s.ctx with suspendState := state } else s

/-- The `switch` of `suspendAgent`. -/
def suspendStateToSet (busy : Bool) (current : Byte) : Byte :=
  if current = 0 then if busy then 1 else 2
  else if current = 3 then 2
  else current

/-- `suspendAgent(aid)`; `busy` is what `hasEventsForAgent` and `getCurrentAgent`
say of it, `timers` what its timers return. -/
def suspendAgent (aid : AgentID) (busy timers : Bool) (s : RuntimeMngr) : Bool × RuntimeMngr :=
  match getAgentIdx o s.mem aid with
  | some i =>
      let state := suspendStateToSet busy (slotSuspended s.mem i)
      let s := s.putState i aid state
      (timers, if state = 2 then { s with posted := true } else s)
  | none => (false, s)

/-- `resumeAgent(aid)`. -/
def resumeAgent (aid : AgentID) (timers : Bool) (s : RuntimeMngr) : Bool × RuntimeMngr :=
  match getAgentIdx o s.mem aid with
  | some i => if slotSuspended s.mem i = 3 then (timers, s.putState i aid 0) else (false, s)
  | none => (false, s)

/-- One turn of the loop of `suspendDoneTask`, and the agent it is signalled
for. -/
def suspendDoneTurn (i : Nat) (s : RuntimeMngr) : Option AgentID × RuntimeMngr :=
  let aid := slotId o s.mem i
  if aid = NO_AGENT then (none, s)
  else if slotSuspended s.mem i = 2 then (some aid, s.putState i aid 3)
  else (none, s)

/-- `0x0002U`. -/
def EVENT_FINALIZE : BitVec 32 := 2

/-- `AgentContextI.handlerExecutionEnded(endedEventType, aid)`; `hasEvents` is
what `hasEventsForAgent` says.  Here the state in the context is the one that
counts. -/
def handlerExecutionEnded (endedEventType : BitVec 32) (aid : AgentID) (hasEvents : Bool) (s : RuntimeMngr) :
    RuntimeMngr :=
  if aid = NO_AGENT then s
  else if endedEventType = EVENT_FINALIZE then if aid = s.ctx.agentID then s.dropContext else s
  else if s.ctx.suspendState = 1 ∧ hasEvents = false then
    match getAgentIdx o s.mem aid with
    | some i =>
        { s.withCtx { s.ctx with suspendState := 2 } with mem := putSuspended s.mem i 2, posted := true }
    | none => s
  else s

/-- `AgentContextI.agentFailed(aid)`. -/
def agentFailed (aid : AgentID) (s : RuntimeMngr) : RuntimeMngr :=
  if aid = NO_AGENT then s else if aid = s.ctx.agentID then s.dropContext else s

/-- `RuntimeInfoI.setEventsMask(aid, em)`. -/
def setEventsMask (aid : AgentID) (em : Vector Byte 3) (s : RuntimeMngr) : Bool × RuntimeMngr :=
  match getAgentIdx o s.mem aid with
  | some i => (true, { s with mem := putMask s.mem i em.toList })
  | none => (false, s)

/-- `RuntimeInfoI.getEventsMask(aid)`. -/
def getEventsMask (aid : AgentID) (s : RuntimeMngr) : List Byte :=
  match getAgentIdx o s.mem aid with
  | some i => slotMask s.mem i
  | none => List.replicate 3 0xFF

/-- `saveRuntimeState(aid, buffer, blen)`: the bytes in the buffer, without the
timers behind them. -/
def saveRuntimeState (aid : AgentID) (s : RuntimeMngr) : Option (List Byte) × RuntimeMngr :=
  let s := s.saveContext
  match getAgentIdx o s.mem aid with
  | some i =>
      if slotSuspended s.mem i = 3 then
        let dataLen := slotLen o s.mem i
        (some (bytes s.mem (agentOffs i + TYPE_OFFS) 4 ++ slotMask s.mem i ++ o.write 2 dataLen ++
          bytes s.mem (agentOffs i + DATA_OFFS) dataLen.toNat), s)
      else (none, s)
  | none => (none, s)

/-! ## Calls one after another -/

/-- What happens to the module: the calls of its interfaces, a handler of the
loaded agent, what a command does to the registers and the data outside of a
handler, and its task turn by turn, because `suspendDone` can call it again. -/
inductive Call
  | contextChanged (img : Images) (aid : AgentID)
  | saveContext
  | handler (host : Host) (startAddress : AgentMemAddr)
  | command (c : CommandDataCall)
  | createUARuntime (img : Images) (at' : AgentType) (aid : AgentID)
  | createUARuntimeFromSavedState (aid : AgentID) (buffer : Memory)
  | removeUARuntime (aid : AgentID)
  | suspendAgent (aid : AgentID) (busy timers : Bool)
  | resumeAgent (aid : AgentID) (timers : Bool)
  | handlerExecutionEnded (endedEventType : BitVec 32) (aid : AgentID) (hasEvents : Bool)
  | agentFailed (aid : AgentID)
  | setEventsMask (aid : AgentID) (em : Vector Byte 3)
  | saveRuntimeState (aid : AgentID)
  | suspendDoneTask
  | suspendDoneTurn

def step (s : RuntimeMngr) : Call → Option RuntimeMngr
  | .contextChanged img aid => some (s.contextChanged o img aid).2
  | .saveContext => some s.saveContext
  | .handler host startAddress => (run host RUN_FUEL startAddress s.machine).map fun r => { s with machine := r.2 }
  | .command c => some { s with machine := c.exec s.machine }
  | .createUARuntime img at' aid => some (s.createUARuntime o img at' aid).2
  | .createUARuntimeFromSavedState aid buffer => some (s.createUARuntimeFromSavedState o aid buffer).2
  | .removeUARuntime aid => some (s.removeUARuntime o aid).2
  | .suspendAgent aid busy timers => some (s.suspendAgent o aid busy timers).2
  | .resumeAgent aid timers => some (s.resumeAgent o aid timers).2
  | .handlerExecutionEnded endedEventType aid hasEvents =>
      some (s.handlerExecutionEnded o endedEventType aid hasEvents)
  | .agentFailed aid => some (s.agentFailed aid)
  | .setEventsMask aid em => some (s.setEventsMask o aid em).2
  | .saveRuntimeState aid => some (s.saveRuntimeState o aid).2
  | .suspendDoneTask => if s.posted ∧ s.scan = none then some { s with posted := false, scan := some 0 } else none
  | .suspendDoneTurn =>
      match s.scan with
      | some i =>
          some { (s.suspendDoneTurn o i).2 with scan := if i + 1 < SLOTS then some (i + 1) else none }
      | none => none

end RuntimeMngr

end Pobicos.Runtime
