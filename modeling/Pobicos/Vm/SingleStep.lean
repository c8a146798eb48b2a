import Pobicos.Vm.Opcodes

/-!
# Pobicos.Vm.SingleStep

`single_step()` (`avrmcu.c` in `VMCPUM`) and the loop of `CodeExecI.run`.

`single_step` is a chain of tests, and at its end two `switch` statements one
after the other, the first on the whole opcode and the second on its fields.
`dispatch` lists the bodies that they select in turn; that there is never more
than one is `length_dispatch_le`.
-/

namespace Pobicos.Vm

open Octets CArray

/-- The bodies that `single_step` selects among. -/
inductive Op
  | OP_LDS | OP_STS | OP_LDD_Y | OP_LDD_Z | OP_STD_Y | OP_STD_Z | OP_CALL | OP_JMP
  | OP_MUL | OP_MULS | OP_MULSU | OP_FMUL | OP_FMULS | OP_FMULSU
  | OP_NOP | OP_IJMP | OP_ICALL | OP_RET | OP_RETI | OP_SLEEP | OP_WDR | OP_LPM | OP_BSET | OP_BCLR
  | OP_LDI | LD (r : Reg) | LD_ADD (r : Reg) | SUB_LD (r : Reg) | OP_POP
  | ST (r : Reg) | ST_ADD (r : Reg) | SUB_ST (r : Reg) | OP_PUSH
  | OP_INC | OP_COM | OP_NEG | OP_SWAP | OP_DEC | OP_ASR | OP_LSR | OP_ROR
  | OP_ADIW | OP_SBIW | OP_SBIC | OP_CBI | OP_SBIS | OP_SBI | OP_IN | OP_OUT
  | OP_MOVW | OP_ADD | OP_SBC | OP_C_PC | OP_ADC | OP_SUB | OP_CP | OP_CPSE
  | OP_SUBI | OP_SBCI | OP_CPI | OP_AND | OP_OR | OP_EOR | OP_MOV | OP_ANDI | OP_ORI
  | OP_RJMP | OP_RCALL | OP_BRBS | OP_BRBC | OP_BLD | OP_BST | OP_SBRC | OP_SBRS
  deriving DecidableEq, Repr

/-- The body of the name. -/
def Op.exec (host : Host) (opcode : Word) : Op → Machine → Machine
  | OP_LDS => Vm.OP_LDS host opcode
  | OP_STS => Vm.OP_STS host opcode
  | OP_LDD_Y => Vm.OP_LDD_Y opcode
  | OP_LDD_Z => Vm.OP_LDD_Z opcode
  | OP_STD_Y => Vm.OP_STD_Y opcode
  | OP_STD_Z => Vm.OP_STD_Z opcode
  | OP_CALL => Vm.OP_CALL host
  | OP_JMP => Vm.OP_JMP host
  | OP_MUL => Vm.OP_MUL opcode
  | OP_MULS => Vm.OP_MULS opcode
  | OP_MULSU => Vm.OP_MULSU opcode
  | OP_FMUL => Vm.OP_FMUL opcode
  | OP_FMULS => Vm.OP_FMULS opcode
  | OP_FMULSU => Vm.OP_FMULSU opcode
  | OP_NOP => Vm.OP_NOP
  | OP_IJMP => Vm.OP_IJMP
  | OP_ICALL => Vm.OP_ICALL
  | OP_RET => Vm.OP_RET
  | OP_RETI => Vm.OP_RETI
  | OP_SLEEP => Vm.OP_SLEEP
  | OP_WDR => Vm.OP_WDR
  | OP_LPM => Vm.OP_LPM host.code opcode
  | OP_BSET => Vm.OP_BSET opcode
  | OP_BCLR => Vm.OP_BCLR opcode
  | OP_LDI => Vm.OP_LDI opcode
  | LD r => Vm.LD r opcode
  | LD_ADD r => Vm.LD_ADD r opcode
  | SUB_LD r => Vm.SUB_LD r opcode
  | OP_POP => Vm.OP_POP opcode
  | ST r => Vm.ST r opcode
  | ST_ADD r => Vm.ST_ADD r opcode
  | SUB_ST r => Vm.SUB_ST r opcode
  | OP_PUSH => Vm.OP_PUSH opcode
  | OP_INC => Vm.OP_INC opcode
  | OP_COM => Vm.OP_COM opcode
  | OP_NEG => Vm.OP_NEG opcode
  | OP_SWAP => Vm.OP_SWAP opcode
  | OP_DEC => Vm.OP_DEC opcode
  | OP_ASR => Vm.OP_ASR opcode
  | OP_LSR => Vm.OP_LSR opcode
  | OP_ROR => Vm.OP_ROR opcode
  | OP_ADIW => Vm.OP_ADIW opcode
  | OP_SBIW => Vm.OP_SBIW opcode
  | OP_SBIC => Vm.OP_SBIC opcode
  | OP_CBI => Vm.OP_CBI
  | OP_SBIS => Vm.OP_SBIS
  | OP_SBI => Vm.OP_SBI
  | OP_IN => Vm.OP_IN opcode
  | OP_OUT => Vm.OP_OUT opcode
  | OP_MOVW => Vm.OP_MOVW opcode
  | OP_ADD => Vm.OP_ADD opcode
  | OP_SBC => Vm.OP_SBC opcode
  | OP_C_PC => Vm.OP_C_PC opcode
  | OP_ADC => Vm.OP_ADC opcode
  | OP_SUB => Vm.OP_SUB opcode
  | OP_CP => Vm.OP_CP opcode
  | OP_CPSE => Vm.OP_CPSE opcode
  | OP_SUBI => Vm.OP_SUBI opcode
  | OP_SBCI => Vm.OP_SBCI opcode
  | OP_CPI => Vm.OP_CPI opcode
  | OP_AND => Vm.OP_AND opcode
  | OP_OR => Vm.OP_OR opcode
  | OP_EOR => Vm.OP_EOR opcode
  | OP_MOV => Vm.OP_MOV opcode
  | OP_ANDI => Vm.OP_ANDI opcode
  | OP_ORI => Vm.OP_ORI opcode
  | OP_RJMP => Vm.OP_RJMP opcode
  | OP_RCALL => Vm.OP_RCALL opcode
  | OP_BRBS => Vm.OP_BRBS opcode
  | OP_BRBC => Vm.OP_BRBC opcode
  | OP_BLD => Vm.OP_BLD opcode
  | OP_BST => Vm.OP_BST opcode
  | OP_SBRC => Vm.OP_SBRC opcode
  | OP_SBRS => Vm.OP_SBRS opcode

/-! ## Selection -/

/-- `switch (opcode)`. -/
def switchOpcode (opcode : Word) : List Op :=
  if opcode = 0x0000 then [.OP_NOP]
  else if opcode = 0x9409 then [.OP_IJMP]
  else if opcode = 0x9509 then [.OP_ICALL]
  else if opcode = 0x9508 then [.OP_RET]
  else if opcode = 0x9518 then [.OP_RETI]
  else if opcode = 0x9588 then [.OP_SLEEP]
  else if opcode = 0x95a8 then [.OP_WDR]
  else if opcode = 0x95c8 then [.OP_LPM]
  else if opcode ∈ [0x9408, 0x9418, 0x9428, 0x9438, 0x9448, 0x9458, 0x9468, 0x9478] then [.OP_BSET]
  else if opcode ∈ [0x9488, 0x9498, 0x94a8, 0x94b8, 0x94c8, 0x94d8, 0x94e8, 0x94f8] then [.OP_BCLR]
  else []

/-- `case 9` of the second `switch`. -/
def switchNine (opcode : Word) : List Op :=
  match ((opcode &&& 0x0e00) >>> 9).toNat with
  | 0 =>
      match (opcode &&& 0x0f).toNat with
      | 0x4 | 0x5 => [.OP_LPM]
      | 0x0c => [.LD 26]
      | 0x0d => [.LD_ADD 26]
      | 0x0e => [.SUB_LD 26]
      | 0x9 => [.LD_ADD 28]
      | 0x0a => [.SUB_LD 28]
      | 1 => [.LD_ADD 30]
      | 2 => [.SUB_LD 30]
      | 0x0f => [.OP_POP]
      | _ => []
  | 1 =>
      match (opcode &&& 0x0f).toNat with
      | 0x0c => [.ST 26]
      | 0x0d => [.ST_ADD 26]
      | 0x0e => [.SUB_ST 26]
      | 9 => [.ST_ADD 28]
      | 0x0a => [.SUB_ST 28]
      | 1 => [.ST_ADD 30]
      | 2 => [.SUB_ST 30]
      | 0x0f => [.OP_PUSH]
      | _ => []
  | 2 =>
      match (opcode &&& 0x0f).toNat with
      | 3 => [.OP_INC]
      | 0 => [.OP_COM]
      | 1 => [.OP_NEG]
      | 2 => [.OP_SWAP]
      | 0x0a => [.OP_DEC]
      | 5 => [.OP_ASR]
      | 6 => [.OP_LSR]
      | 7 => [.OP_ROR]
      | _ => []
  | 3 =>
      match ((opcode &&& 0x0f00) >>> 8).toNat with
      | 6 => [.OP_ADIW]
      | 7 => [.OP_SBIW]
      | _ => []
  | 4 =>
      match ((opcode &&& 0x0f00) >>> 8).toNat with
      | 9 => [.OP_SBIC]
      | 8 => [.OP_CBI]
      | _ => []
  | 5 =>
      match ((opcode &&& 0x0f00) >>> 8).toNat with
      | 0x0b => [.OP_SBIS]
      | 0x0a => [.OP_SBI]
      | _ => []
  | _ => []

/-- `switch (op)` where `op = opcode >> 12`. -/
def switchHigh (opcode : Word) : List Op :=
  match (opcode >>> 12).toNat with
  | 0x0e => [.OP_LDI]
  | 9 => switchNine opcode
  | 8 =>
      match ((opcode &&& 0x0e00) >>> 9).toNat with
      | 0 =>
          match (opcode &&& 0x0f).toNat with
          | 0 => [.LD 30]
          | 8 => [.LD 28]
          | _ => []
      | 1 =>
          match (opcode &&& 0x0f).toNat with
          | 0 => [.ST 30]
          | 8 => [.ST 28]
          | _ => []
      | _ => []
  | 0x0b => if (opcode &&& 0x800) >>> 11 = 0 then [.OP_IN] else [.OP_OUT]
  | 0 =>
      if opcode &&& 0x0f00 = 0x100 then [.OP_MOVW]
      else
        match ((opcode &&& 0x0c00) >>> 10).toNat with
        | 3 => [.OP_ADD]
        | 2 => [.OP_SBC]
        | 1 => [.OP_C_PC]
        | _ => []
  | 1 =>
      match ((opcode &&& 0x0c00) >>> 10).toNat with
      | 3 => [.OP_ADC]
      | 2 => [.OP_SUB]
      | 1 => [.OP_CP]
      | _ => [.OP_CPSE]
  | 5 => [.OP_SUBI]
  | 4 => [.OP_SBCI]
  | 3 => [.OP_CPI]
  | 2 =>
      match ((opcode &&& 0x0c00) >>> 10).toNat with
      | 0 => [.OP_AND]
      | 2 => [.OP_OR]
      | 1 => [.OP_EOR]
      | _ => [.OP_MOV]
  | 7 => [.OP_ANDI]
  | 6 => [.OP_ORI]
  | 0x0c => [.OP_RJMP]
  | 0x0d => [.OP_RCALL]
  | 0x0f =>
      match ((opcode &&& 0x0c00) >>> 10).toNat with
      | 0 => [.OP_BRBS]
      | 1 => [.OP_BRBC]
      | 2 => if (opcode &&& 0x200) >>> 9 = 0 then [.OP_BLD] else [.OP_BST]
      | _ => if (opcode &&& 0x200) >>> 9 = 0 then [.OP_SBRC] else [.OP_SBRS]
  | _ => []

/-- The bodies that `single_step` calls for an opcode, in their order. -/
def dispatch (opcode : Word) : List Op :=
  if opcode &&& 0x0f = 0 ∧ (opcode &&& 0xf000) >>> 12 = 9 ∧ (opcode &&& 0x0e00) >>> 9 = 0 then [.OP_LDS]
  else if opcode &&& 0x0f = 0 ∧ (opcode &&& 0xf000) >>> 12 = 9 ∧ (opcode &&& 0x0e00) >>> 9 = 1 then
    [.OP_STS]
  else if opcode >>> 14 = 2 ∧ (opcode &&& 0x1000) >>> 12 = 0 then
    if (opcode &&& 0x0200) >>> 9 = 0 then if (opcode &&& 8) >>> 3 = 1 then [.OP_LDD_Y] else [.OP_LDD_Z]
    else if (opcode &&& 8) >>> 3 = 1 then [.OP_STD_Y] else [.OP_STD_Z]
  else if opcode &&& 0xfe0e = 0x940e then [.OP_CALL]
  else if opcode &&& 0xfe0c = 0x940c then [.OP_JMP]
  else if (opcode &&& 0xfc00) >>> 10 = 0x0027 then [.OP_MUL]
  else if opcode &&& 0xfe00 = 0x0200 then
    if opcode &&& 0x0100 = 0 then [.OP_MULS]
    else
      match (opcode &&& 0x88).toNat with
      | 0x0 => [.OP_MULSU]
      | 0x8 => [.OP_FMUL]
      | 0x80 => [.OP_FMULS]
      | _ => [.OP_FMULSU]
  else switchOpcode opcode ++ switchHigh opcode

/-- `single_step()`, which always returns 0. -/
def single_step (host : Host) (opcode : Word) (m : Machine) : Machine :=
  (dispatch opcode).foldl (fun m op => op.exec host opcode m) m

/-! ## The loop -/

def INSTR_LIMIT : BitVec 32 := 131072

/-- `if (++instr_count == 131072)` and what is under it. -/
def countInstr (m : Machine) : Machine :=
  let m := { m with instr_count := m.instr_count + 1 }
  if m.instr_count = INSTR_LIMIT then m.stop ST_TIMEOUT else m

/-- One pass of `while (running)`. -/
def loopBody (host : Host) (m : Machine) : Machine :=
  let (opcode, m) := Code.get16 host.code host.order m (m.PC <<< 1)
  countInstr (single_step host opcode m)

/-- `while (running)`, for as many passes as there is fuel. -/
def whileRunning (host : Host) : Nat → Machine → Option Machine
  | 0, m => if m.running then none else some m
  | fuel + 1, m => if m.running then whileRunning host fuel (loopBody host m) else some m

/-- What `run` does before the loop: a blocked run goes on, any other starts. -/
def beginRun (startAddress : AgentMemAddr) (m : Machine) : Machine :=
  if m.status = ST_BLOCKED then { m with running := true, status := ST_OK }
  else
    { reset_mcu m with
      depth := 0, running := true, status := ST_OK, PC := startAddress >>> 1, instr_count := 0 }

/-- What it does after the loop. -/
def endRun (m : Machine) : Machine :=
  if m.status = ST_OK ∧ m.SP ≠ STACK_TOP then { m with status := ST_STACK } else m

/-- `CodeExecI.run(startAddress)`. -/
def run (host : Host) (fuel : Nat) (startAddress : AgentMemAddr) (m : Machine) :
    Option (InterpreterStatus × Machine) :=
  if m.running then some (ST_RUNNING, m)
  else (whileRunning host fuel (beginRun startAddress m)).map fun m => ((endRun m).status, endRun m)

/-! ## At most one body -/

/-- The opcodes of the first `switch`. -/
def switchOpcodes : List Word :=
  [0x0000, 0x9409, 0x9509, 0x9508, 0x9518, 0x9588, 0x95a8, 0x95c8,
    0x9408, 0x9418, 0x9428, 0x9438, 0x9448, 0x9458, 0x9468, 0x9478,
    0x9488, 0x9498, 0x94a8, 0x94b8, 0x94c8, 0x94d8, 0x94e8, 0x94f8]

/-- The first `switch` has no default case. -/
theorem switchOpcode_of_not_mem {opcode : Word} (h : opcode ∉ switchOpcodes) :
    switchOpcode opcode = [] := by
  simp [switchOpcodes] at h
  simp [switchOpcode, h]

/-- A choice is as short as what is chosen from. -/
theorem length_ite_le {α : Type} {p : Prop} [Decidable p] {xs ys : List α} {n : Nat}
    (hxs : xs.length ≤ n) (hys : ys.length ≤ n) : (if p then xs else ys).length ≤ n := by
  split
  · exact hxs
  · exact hys

/-- The first `switch` takes one case at most. -/
theorem length_switchOpcode_le (opcode : Word) : (switchOpcode opcode).length ≤ 1 := by
  unfold switchOpcode
  repeat' apply length_ite_le
  all_goals simp

/-- So does the `switch` under `0x9`. -/
theorem length_switchNine_le (opcode : Word) : (switchNine opcode).length ≤ 1 := by
  unfold switchNine
  split <;> (try split) <;> simp

/-- So does the second one, on the highest bits. -/
theorem length_switchHigh_le (opcode : Word) : (switchHigh opcode).length ≤ 1 := by
  unfold switchHigh
  split
  case h_2 => exact length_switchNine_le opcode
  all_goals (repeat' split) <;> simp

/-- What the first of the two `switch` statements knows, the second does not. -/
theorem length_switch_le (opcode : Word) : (switchOpcode opcode ++ switchHigh opcode).length ≤ 1 := by
  have hmap : switchOpcodes.map switchHigh = switchOpcodes.map fun _ => [] := rfl
  rw [List.length_append]
  by_cases hmem : opcode ∈ switchOpcodes
  · rw [List.map_inj_left.mp hmap opcode hmem]
    exact length_switchOpcode_le opcode
  · rw [switchOpcode_of_not_mem hmem]
    simpa using length_switchHigh_le opcode

/-- **No opcode runs two bodies.** -/
theorem length_dispatch_le (opcode : Word) : (dispatch opcode).length ≤ 1 := by
  unfold dispatch
  repeat' apply length_ite_le
  case hys.hys.hys.hys.hys.hys.hys => exact length_switch_le opcode
  all_goals (try split) <;> simp

end Pobicos.Vm
