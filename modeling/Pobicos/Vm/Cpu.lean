import Pobicos.Lib.CArray
import Mathlib.Logic.Function.Basic

/-!
# Pobicos.Vm.Cpu

`VMCPUM` and what it uses of `RuntimeMngrM`, in the middleware that the nesC
compiler wrote out: the registers of the interpreter, the code and the data of
the agent whose context is loaded, and the stack.

* Registers are named by five bits, so a register number is never outside
  `regs`; every decoded field is masked to that width by the source.
* Data addresses below 32 are registers, some below 0x60 are special registers,
  and from 0x60 on they are the data buffer of the agent.
* An access that is not allowed stops the interpreter with a status; it does
  not throw.
-/

namespace Pobicos.Vm

open Octets CArray

abbrev Word := BitVec 16
abbrev Reg := BitVec 5
abbrev AgentID := BitVec 32
abbrev AgentType := BitVec 32
abbrev AgentMemAddr := BitVec 16

def NO_AGENT : AgentID := 0xFFFFFFFF

/-- `MAX_AGENT_DATA`: the bytes of `dataBuffer`. -/
def DATA_SIZE : Nat := 1024

/-- `InterpreterStatus_t`. -/
inductive InterpreterStatus
  | ST_OK
  | ST_RUNNING
  | ST_EXIT
  | ST_INSTR
  | ST_PRIMITIVE
  | ST_TIMEOUT
  | ST_STACK
  | ST_CODE_ADDR
  | ST_DATA_ADDR
  | ST_BLOCKED
  deriving DecidableEq, Repr

export InterpreterStatus (ST_OK ST_RUNNING ST_EXIT ST_INSTR ST_PRIMITIVE ST_TIMEOUT ST_STACK
  ST_CODE_ADDR ST_DATA_ADDR ST_BLOCKED)

/-! ## The loaded context -/

/-- The variables of `RuntimeMngrM`: the agent whose data is in `dataBuffer`. -/
structure AgentContext where
  agentID : AgentID
  agentType : AgentType
  suspendState : Byte
  dataAddr : BitVec 32
  dataLength : Word
  codeLength : Word
  dataBuffer : Fin DATA_SIZE → Byte
  contextSaved : Bool

/-- The variables of `VMCPUM`, and the context behind its `Data` and `Code`. -/
structure Machine where
  regs : Reg → Byte
  PC : Word
  SP : Word
  SREG : Byte
  depth : Byte
  instr_count : BitVec 32
  running : Bool
  status : InterpreterStatus
  waiting_for_return_value : Bool
  ctx : AgentContext

namespace Machine

/-- A write to a register. -/
def setReg (m : Machine) (r : Reg) (b : Byte) : Machine := { m with regs := Function.update m.regs r b }

/-- The two bytes of a word in the registers `r` and `r + 1`. -/
def setPair (m : Machine) (r : Reg) (w : Word) : Machine :=
  (m.setReg r (w.setWidth 8)).setReg (r + 1) ((w >>> 8).setWidth 8)

/-- A write of the status register. -/
def judged (m : Machine) (sreg : Byte) : Machine := { m with SREG := sreg }

/-- A result in a register, and the flags with it. -/
def result (m : Machine) (d : Reg) (b sreg : Byte) : Machine := (m.setReg d b).judged sreg

/-- `status = st; running = FALSE`. -/
def stop (m : Machine) (st : InterpreterStatus) : Machine := { m with status := st, running := false }

/-- `_PC++`. -/
def advance (m : Machine) : Machine := { m with PC := m.PC + 1 }

/-- `dataBuffer[i] = b`. -/
def setData (m : Machine) (i : Fin DATA_SIZE) (b : Byte) : Machine :=
  { m with ctx.dataBuffer := Function.update m.ctx.dataBuffer i b }

/-- The register pair `r`, `r + 1`, as the 16-bit pointers and operands use it. -/
def pair (m : Machine) (r : Reg) : Word := (m.regs r).setWidth 16 + (m.regs (r + 1)).setWidth 16 <<< 8

end Machine

/-! ## Data memory -/

namespace Data

/-- `AgentDataI.get8(addr)`. -/
def get8 (m : Machine) (addr : AgentMemAddr) : Byte × Machine :=
  if m.ctx.agentID = NO_AGENT then (0, m)
  else if h : addr.toNat < DATA_SIZE then (m.ctx.dataBuffer ⟨addr.toNat, h⟩, m)
  else (0, m.stop ST_DATA_ADDR)

/-- `AgentDataI.get32(addr)`. -/
def get32 (m : Machine) (addr : AgentMemAddr) : BitVec 32 × Machine :=
  if m.ctx.agentID = NO_AGENT then (0, m)
  else if h : addr.toNat + 3 < DATA_SIZE then
    ((m.ctx.dataBuffer ⟨addr.toNat, by omega⟩).setWidth 32 +
      (m.ctx.dataBuffer ⟨addr.toNat + 1, by omega⟩).setWidth 32 <<< 8 +
      (m.ctx.dataBuffer ⟨addr.toNat + 2, by omega⟩).setWidth 32 <<< 16 +
      (m.ctx.dataBuffer ⟨addr.toNat + 3, h⟩).setWidth 32 <<< 24, m)
  else (0, m.stop ST_DATA_ADDR)

/-- `AgentDataI.put8(addr, data8)`; the flag is `SUCCESS`. -/
def put8 (m : Machine) (addr : AgentMemAddr) (data8 : Byte) : Bool × Machine :=
  if m.ctx.agentID = NO_AGENT then (false, m)
  else if h : addr.toNat < DATA_SIZE then (true, m.setData ⟨addr.toNat, h⟩ data8)
  else (false, m.stop ST_DATA_ADDR)

/-- `AgentDataI.put32(addr, data)`. -/
def put32 (m : Machine) (addr : AgentMemAddr) (data : BitVec 32) : Bool × Machine :=
  if m.ctx.agentID = NO_AGENT then (false, m)
  else if h : addr.toNat + 3 < DATA_SIZE then
    (true, (((m.setData ⟨addr.toNat, by omega⟩ (data.setWidth 8)).setData
      ⟨addr.toNat + 1, by omega⟩ ((data >>> 8).setWidth 8)).setData
      ⟨addr.toNat + 2, by omega⟩ ((data >>> 16).setWidth 8)).setData
      ⟨addr.toNat + 3, h⟩ ((data >>> 24).setWidth 8))
  else (false, m.stop ST_DATA_ADDR)

end Data

/-- What `if (Data$put8(…) != SUCCESS)` does in the callers that report it. -/
def orDataAddr : Bool × Machine → Machine
  | (true, m) => m
  | (false, m) => m.stop ST_DATA_ADDR

/-- `data_ld(address)`. -/
def data_ld (m : Machine) (address : Word) : Byte × Machine :=
  if address < 32 then (m.regs (address.setWidth 5), m)
  else if address < 0x60 then
    if address = 0x5e then ((m.SP >>> 8).setWidth 8, m)
    else if address = 0x5d then (m.SP.setWidth 8, m)
    else if address = 0x5f then (m.SREG, m)
    else (0, m.stop ST_DATA_ADDR)
  else Data.get8 m (address - 0x60)

/-- `data_st(address, value)`. -/
def data_st (m : Machine) (address : Word) (value : Byte) : Machine :=
  if address < 32 then m.setReg (address.setWidth 5) value
  else if address < 0x60 then
    if address = 0x5e then { m with SP := (m.SP &&& 0x00ff) ||| value.setWidth 16 <<< 8 }
    else if address = 0x5d then { m with SP := (m.SP &&& 0xff00) ||| value.setWidth 16 }
    else if address = 0x5f then { m with SREG := value }
    else m.stop ST_DATA_ADDR
  else orDataAddr (Data.put8 m (address - 0x60) value)

/-! ## The stack -/

/-- `1024 + 0x60 - 1`: the stack pointer of an empty stack. -/
def STACK_TOP : Word := 1024 + 0x60 - 1

/-- `stack_push(value)`. -/
def stack_push (m : Machine) (value : Byte) : Machine :=
  if m.SP > 0x60 then
    match Data.put8 m (m.SP - 0x60) value with
    | (true, m') => { m' with SP := m'.SP - 1 }
    | (false, m') => m'.stop ST_DATA_ADDR
  else m.stop ST_DATA_ADDR

/-- `stack_pop()`: the cell that is read is cleared. -/
def stack_pop (m : Machine) : Byte × Machine :=
  if m.SP = STACK_TOP then (0, m.stop ST_DATA_ADDR)
  else
    let m := { m with SP := m.SP + 1 }
    let (value, m) := Data.get8 m (m.SP - 0x60)
    (value, orDataAddr (Data.put8 m (m.SP - 0x60) 0))

/-! ## Code -/

/-- `AgentImageInfoI.readCodeSection`: the byte of the code section of an agent
type at an offset. -/
abbrev CodeSection := AgentType → Word → Byte

namespace Code

/-- `AgentCodeI.get8(addr)`. -/
def get8 (code : CodeSection) (m : Machine) (addr : AgentMemAddr) : Byte × Machine :=
  if m.ctx.agentID = NO_AGENT then (0, m)
  else if addr.toNat ≥ m.ctx.codeLength.toNat then (0, m.stop ST_CODE_ADDR)
  else (code m.ctx.agentType addr, m)

/-- `AgentCodeI.get16(addr)`: the two bytes in the order of the host. -/
def get16 (code : CodeSection) (order : ByteOrder) (m : Machine) (addr : AgentMemAddr) : Word × Machine :=
  if m.ctx.agentID = NO_AGENT then (0, m)
  else if (addr.toNat : Int) ≥ m.ctx.codeLength.toNat - 1 then (0, m.stop ST_CODE_ADDR)
  else (order.read 16 [code m.ctx.agentType addr, code m.ctx.agentType (addr + 1)], m)

end Code

/-- `reset_mcu()`. -/
def reset_mcu (m : Machine) : Machine := { m with regs := fun _ => 0, SP := STACK_TOP, SREG := 0 }

end Pobicos.Vm
