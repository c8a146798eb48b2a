import Pobicos.Vm.Cpu

/-!
# Pobicos.Vm.Opcodes

The bodies of the instructions (`opcodes_generic.c` in `VMCPUM`), each under the
name that it has there.  The word that is executed is an argument; no body
changes it.

* The flags are judged one after another on what is in the registers then, so
  the judgement of the overflow in `OP_ADC`, `OP_SBC` and `OP_C_PC` sees the
  carry that has just been judged, not the one that came in.
* A command of the host has no other access to the machine than `CommandDataI`;
  `callCommand` says what it does there and whether it reports `SUCCESS`.
-/

namespace Pobicos.Vm

open Octets CArray

/-! ## Fields of an opcode -/

/-- `(opcode & 0x01f0) >> 4`. -/
def rd (opcode : Word) : Reg := ((opcode &&& 0x01f0) >>> 4).setWidth 5

/-- `(opcode & 0x0f) + ((opcode & 0x0200) >> 5)`. -/
def rr (opcode : Word) : Reg := ((opcode &&& 0x0f) + ((opcode &&& 0x0200) >>> 5)).setWidth 5

/-- `((opcode & 0xf0) >> 4) + 16`. -/
def rdHigh (opcode : Word) : Reg := (((opcode &&& 0xf0) >>> 4) + 16).setWidth 5

/-- `(opcode & 0x0f) + ((opcode & 0x0f00) >> 4)`. -/
def immediate (opcode : Word) : Byte := ((opcode &&& 0x0f) + ((opcode &&& 0x0f00) >>> 4)).setWidth 8

/-- `2 * d + 24` where `d = (opcode & 0x30) >> 4`. -/
def rdWord (opcode : Word) : Reg := (2 * ((opcode &&& 0x30) >>> 4) + 24).setWidth 5

/-- `(opcode & 0x0f) + ((opcode & 0xc0) >> 2)`. -/
def immediateWord (opcode : Word) : Word := (opcode &&& 0x0f) + ((opcode &&& 0xc0) >>> 2)

/-- `opcode & 0x07`: the number of a bit. -/
def bitNo (opcode : Word) : Nat := (opcode &&& 0x07).toNat

/-! ## Flags -/

def FLAG_C : Nat := 0
def FLAG_Z : Nat := 1
def FLAG_N : Nat := 2
def FLAG_V : Nat := 3
def FLAG_S : Nat := 4
def FLAG_H : Nat := 5
def FLAG_T : Nat := 6
def FLAG_I : Nat := 7

/-- Whether a flag is set in the status register. -/
def flag (sreg : Byte) (i : Nat) : Bool := sreg.getLsbD i

/-- `_SREG |= 1 << i` or `_SREG &= ~(1 << i)`. -/
def setFlag (sreg : Byte) (i : Nat) (b : Bool) : Byte :=
  if b then sreg ||| (1 : Byte) <<< i else sreg &&& ~~~((1 : Byte) <<< i)

/-- `_SREG & 0x01`. -/
def carry (sreg : Byte) : Byte := sreg &&& 0x01

def OP_JUDGE_C_H_ADD (sreg : Byte) (p q : Word) (c : Byte) (s : Nat) : Byte :=
  if s = 8 then
    setFlag (setFlag sreg FLAG_C (p.toNat + q.toNat + c.toNat > 255)) FLAG_H
      ((p &&& 0x0f).toNat + (q &&& 0x0f).toNat + c.toNat > 15)
  else if s = 16 then setFlag sreg FLAG_C (p.toNat + q.toNat + c.toNat > 0xffff)
  else sreg

def OP_JUDGE_C_H_SUB (sreg : Byte) (p q : Word) (c : Byte) (s : Nat) : Byte :=
  let sreg := setFlag sreg FLAG_C (p.toNat < q.toNat + c.toNat)
  if s = 8 then setFlag sreg FLAG_H ((p &&& 0x0f).toNat < (q &&& 0x0f).toNat + c.toNat) else sreg

def OP_JUDGE_V_ADD (sreg : Byte) (p q : Word) (c : Byte) (s : Nat) : Byte :=
  if s = 8 then
    let result8 : Byte := p.setWidth 8 + q.setWidth 8 + c
    setFlag sreg FLAG_V
      ((p.setWidth 8 &&& q.setWidth 8 &&& ~~~result8) |||
        (~~~p.setWidth 8 &&& ~~~q.setWidth 8 &&& result8)).msb
  else if s = 16 then
    let result16 : Word := p + q + c.setWidth 16
    setFlag sreg FLAG_V (~~~p &&& result16).msb
  else sreg

/-- With `s == 16` the operands have been cut to a byte, so that bit 15 of `p`
is clear. -/
def OP_JUDGE_V_SUB (sreg : Byte) (p q c : Byte) (s : Nat) : Byte :=
  if s = 8 then
    let result8 : Byte := p - q - c
    setFlag sreg FLAG_V ((p &&& ~~~q &&& ~~~result8) ||| (~~~p &&& q &&& result8)).msb
  else if s = 16 then
    let result16 : Word := p.setWidth 16 - q.setWidth 16 - c.setWidth 16
    setFlag sreg FLAG_V (p.setWidth 16 &&& ~~~result16).msb
  else sreg

def OP_JUDGE_N (sreg : Byte) (p : Word) (s : Nat) : Byte := setFlag sreg FLAG_N (p.getLsbD (s - 1))

def OP_JUDGE_Z (sreg : Byte) (p : Byte) : Byte := setFlag sreg FLAG_Z (p = 0)

def OP_JUDGE_Z_SBCI (sreg : Byte) (p : Byte) : Byte := if p ≠ 0 then setFlag sreg FLAG_Z false else sreg

def OP_JUDGE_S (sreg : Byte) : Byte := setFlag sreg FLAG_S (flag sreg FLAG_N ^^ flag sreg FLAG_V)

/-- `OP_JUDGE_N`, `OP_JUDGE_Z` and `OP_JUDGE_S` of a byte, as most bodies end. -/
def judgeByte (sreg : Byte) (b : Byte) : Byte := OP_JUDGE_S (OP_JUDGE_Z (OP_JUDGE_N sreg (b.setWidth 16) 8) b)

/-! ## Arithmetic -/

/-- What `OP_ADD` and `OP_ADC` have in common: `c` is the carry that is added,
and the overflow is judged with the carry `judged` of the flags then. -/
def addWith (m : Machine) (d : Reg) (q c : Byte) (judged : Byte → Byte) : Machine :=
  let p := m.regs d
  let sreg := OP_JUDGE_C_H_ADD m.SREG (p.setWidth 16) (q.setWidth 16) c 8
  let sreg := OP_JUDGE_V_ADD sreg (p.setWidth 16) (q.setWidth 16) (judged sreg) 8
  let r := p + (q + c)
  (m.result d r (judgeByte sreg r)).advance

def OP_ADD (opcode : Word) (m : Machine) : Machine :=
  addWith m (rd opcode) (m.regs (rr opcode)) 0 fun _ => 0

def OP_ADC (opcode : Word) (m : Machine) : Machine :=
  addWith m (rd opcode) (m.regs (rr opcode)) (carry m.SREG) carry

/-- The flags that the subtractions and comparisons judge first. -/
def judgeSub (sreg p q c : Byte) (judged : Byte → Byte) : Byte :=
  let sreg := OP_JUDGE_C_H_SUB sreg (p.setWidth 16) (q.setWidth 16) c 8
  OP_JUDGE_V_SUB sreg p q (judged sreg) 8

/-- What `OP_SUB`, `OP_SBC` and `OP_SUBI` have in common. -/
def subWith (m : Machine) (d : Reg) (q c : Byte) (judged : Byte → Byte) : Machine :=
  let p := m.regs d
  let r := p - q - c
  (m.result d r (judgeByte (judgeSub m.SREG p q c judged) r)).advance

def OP_SUB (opcode : Word) (m : Machine) : Machine :=
  subWith m (rd opcode) (m.regs (rr opcode)) 0 fun _ => 0

def OP_SBC (opcode : Word) (m : Machine) : Machine :=
  subWith m (rd opcode) (m.regs (rr opcode)) (carry m.SREG) carry

def OP_SUBI (opcode : Word) (m : Machine) : Machine :=
  subWith m (rdHigh opcode) (immediate opcode) 0 fun _ => 0

/-- The zero flag is cleared or left as it is. -/
def OP_SBCI (opcode : Word) (m : Machine) : Machine :=
  let p := m.regs (rdHigh opcode)
  let q := immediate opcode
  let r := p - q - carry m.SREG
  let sreg := judgeSub m.SREG p q (carry m.SREG) carry
  (m.result (rdHigh opcode) r
    (OP_JUDGE_S (OP_JUDGE_Z_SBCI (OP_JUDGE_N sreg (r.setWidth 16) 8) r))).advance

/-- `OP_CP` and `OP_CPI`: the flags of a difference. -/
def compare (m : Machine) (p q : Byte) : Machine :=
  let sreg := judgeSub m.SREG p q 0 fun _ => 0
  let t : Word := p.setWidth 16 - q.setWidth 16
  (m.judged (OP_JUDGE_S (OP_JUDGE_Z (OP_JUDGE_N sreg t 8) (t.setWidth 8)))).advance

def OP_CP (opcode : Word) (m : Machine) : Machine := compare m (m.regs (rd opcode)) (m.regs (rr opcode))

def OP_CPI (opcode : Word) (m : Machine) : Machine := compare m (m.regs (rdHigh opcode)) (immediate opcode)

/-- `t` is computed with the carry that has just been judged, and the zero flag
stays only where all 16 bits of it are clear. -/
def OP_C_PC (opcode : Word) (m : Machine) : Machine :=
  let p := m.regs (rd opcode)
  let q := m.regs (rr opcode)
  let sreg := judgeSub m.SREG p q (carry m.SREG) carry
  let t : Word := p.setWidth 16 - q.setWidth 16 - (carry sreg).setWidth 16
  let sreg := OP_JUDGE_S (OP_JUDGE_N sreg t 8)
  (m.judged (setFlag sreg FLAG_Z (flag sreg FLAG_Z && t == 0))).advance

def OP_INC (opcode : Word) (m : Machine) : Machine :=
  let p := m.regs (rd opcode)
  (m.result (rd opcode) (p + 1) (judgeByte (OP_JUDGE_V_ADD m.SREG (p.setWidth 16) 1 0 8) (p + 1))).advance

def OP_DEC (opcode : Word) (m : Machine) : Machine :=
  let p := m.regs (rd opcode)
  (m.result (rd opcode) (p - 1) (judgeByte (OP_JUDGE_V_SUB m.SREG p 1 0 8) (p - 1))).advance

def OP_NEG (opcode : Word) (m : Machine) : Machine :=
  let q := m.regs (rd opcode)
  (m.result (rd opcode) (0 - q) (judgeByte (judgeSub m.SREG 0 q 0 fun _ => 0) (0 - q))).advance

def OP_COM (opcode : Word) (m : Machine) : Machine :=
  let r := 0xff - m.regs (rd opcode)
  (m.result (rd opcode) r (judgeByte (setFlag (setFlag m.SREG FLAG_V false) FLAG_C true) r)).advance

def OP_ADIW (opcode : Word) (m : Machine) : Machine :=
  let d := rdWord opcode
  let w := m.pair d
  let k := immediateWord opcode
  let sreg := OP_JUDGE_V_ADD (OP_JUDGE_C_H_ADD m.SREG w k 0 16) w k 0 16
  ((m.setPair d (w + k)).judged (OP_JUDGE_S (OP_JUDGE_N sreg (w + k) 16))).advance

def OP_SBIW (opcode : Word) (m : Machine) : Machine :=
  let d := rdWord opcode
  let w := m.pair d
  let k := immediateWord opcode
  let sreg := OP_JUDGE_V_SUB (OP_JUDGE_C_H_SUB m.SREG w k 0 16) (w.setWidth 8) (k.setWidth 8) 0 16
  ((m.setPair d (w - k)).judged
    (OP_JUDGE_S (OP_JUDGE_Z (OP_JUDGE_N sreg (w - k) 16) ((w - k).setWidth 8)))).advance

/-! ## Products -/

/-- The product in the registers 0 and 1, with its zero and carry flags. -/
def product (m : Machine) (result : Word) : Machine :=
  ((m.setPair 0 result).judged
    (setFlag (setFlag m.SREG FLAG_Z (result = 0)) FLAG_C result.msb)).advance

/-- The same for a fractional product: the carry is that of the shift. -/
def fractional (m : Machine) (result : Word) : Machine :=
  let shifted := result <<< 1
  ((m.setPair 0 shifted).judged
    (setFlag (setFlag m.SREG FLAG_C result.msb) FLAG_Z (shifted = 0))).advance

/-- `((opcode & 0x70) >> 4) + 16` and `(opcode & 0x7) + 16`. -/
def mulD (opcode : Word) : Reg := (((opcode &&& 0x70) >>> 4) + 16).setWidth 5

def mulR (opcode : Word) : Reg := ((opcode &&& 0x7) + 16).setWidth 5

def OP_MUL (opcode : Word) (m : Machine) : Machine :=
  product m ((m.regs (rd opcode)).setWidth 16 * (m.regs (rr opcode)).setWidth 16)

def OP_MULS (opcode : Word) (m : Machine) : Machine :=
  product m ((m.regs (rdHigh opcode)).signExtend 16 *
    (m.regs (((opcode &&& 0x0f) + 16).setWidth 5)).signExtend 16)

def OP_MULSU (opcode : Word) (m : Machine) : Machine :=
  product m ((m.regs (mulD opcode)).signExtend 16 * (m.regs (mulR opcode)).setWidth 16)

def OP_FMUL (opcode : Word) (m : Machine) : Machine :=
  fractional m ((m.regs (mulD opcode)).setWidth 16 * (m.regs (mulR opcode)).setWidth 16)

def OP_FMULS (opcode : Word) (m : Machine) : Machine :=
  fractional m ((m.regs (mulD opcode)).signExtend 16 * (m.regs (mulR opcode)).signExtend 16)

def OP_FMULSU (opcode : Word) (m : Machine) : Machine :=
  fractional m ((m.regs (mulD opcode)).signExtend 16 * (m.regs (mulR opcode)).setWidth 16)

/-! ## Logic, moves, bits -/

/-- The logical instructions: the overflow flag is cleared. -/
def logical (m : Machine) (d : Reg) (b : Byte) : Machine :=
  (m.result d b (judgeByte (setFlag m.SREG FLAG_V false) b)).advance

def OP_AND (opcode : Word) (m : Machine) : Machine :=
  logical m (rd opcode) (m.regs (rd opcode) &&& m.regs (rr opcode))

def OP_OR (opcode : Word) (m : Machine) : Machine :=
  logical m (rd opcode) (m.regs (rd opcode) ||| m.regs (rr opcode))

def OP_EOR (opcode : Word) (m : Machine) : Machine :=
  logical m (rd opcode) (m.regs (rd opcode) ^^^ m.regs (rr opcode))

def OP_ANDI (opcode : Word) (m : Machine) : Machine :=
  logical m (rdHigh opcode) (m.regs (rdHigh opcode) &&& immediate opcode)

def OP_ORI (opcode : Word) (m : Machine) : Machine :=
  logical m (rdHigh opcode) (m.regs (rdHigh opcode) ||| immediate opcode)

def OP_MOV (opcode : Word) (m : Machine) : Machine :=
  (m.setReg (rd opcode) (m.regs (rr opcode))).advance

def OP_MOVW (opcode : Word) (m : Machine) : Machine :=
  let d : Reg := ((opcode &&& 0xf0) >>> 3).setWidth 5
  let r : Reg := ((opcode &&& 0x0f) <<< 1).setWidth 5
  let m := m.setReg d (m.regs r)
  (m.setReg (d + 1) (m.regs (r + 1))).advance

def OP_LDI (opcode : Word) (m : Machine) : Machine :=
  (m.setReg (rdHigh opcode) (immediate opcode)).advance

def OP_SWAP (opcode : Word) (m : Machine) : Machine :=
  let r := m.regs (rd opcode)
  (m.setReg (rd opcode) (((r >>> 4) &&& 0x0f) ||| ((r <<< 4) &&& 0xf0))).advance

/-- The shifts to the right: the lowest bit goes to the carry. -/
def shiftRight (m : Machine) (d : Reg) (top : Byte) : Machine :=
  let r := m.regs d
  (m.result d ((r >>> 1) ||| top) (setFlag m.SREG FLAG_C (r.getLsbD 0))).advance

def OP_LSR (opcode : Word) (m : Machine) : Machine := shiftRight m (rd opcode) 0

def OP_ROR (opcode : Word) (m : Machine) : Machine :=
  shiftRight m (rd opcode) (if carry m.SREG = 0 then 0 else 0x80)

def OP_ASR (opcode : Word) (m : Machine) : Machine :=
  shiftRight m (rd opcode) (if m.regs (rd opcode) &&& 0x80 ≠ 0 then 0x80 else 0)

def OP_BST (opcode : Word) (m : Machine) : Machine :=
  (m.judged (setFlag m.SREG FLAG_T ((m.regs (rd opcode)).getLsbD (bitNo opcode)))).advance

def OP_BLD (opcode : Word) (m : Machine) : Machine :=
  let r := m.regs (rd opcode)
  (m.setReg (rd opcode)
    (if flag m.SREG FLAG_T then r ||| (1 : Byte) <<< bitNo opcode
      else r &&& ~~~((1 : Byte) <<< bitNo opcode))).advance

def OP_BSET (opcode : Word) (m : Machine) : Machine :=
  (m.judged (setFlag m.SREG ((opcode &&& 0x70) >>> 4).toNat true)).advance

def OP_BCLR (opcode : Word) (m : Machine) : Machine :=
  (m.judged (setFlag m.SREG ((opcode &&& 0x70) >>> 4).toNat false)).advance

/-- What is only stepped over: there is no I/O space, no watchdog, no sleep. -/
def OP_NOP (m : Machine) : Machine := m.advance
def OP_SLEEP (m : Machine) : Machine := m.advance
def OP_WDR (m : Machine) : Machine := m.advance
def OP_SBI (m : Machine) : Machine := m.advance
def OP_CBI (m : Machine) : Machine := m.advance
def OP_SBIS (m : Machine) : Machine := m.advance

/-! ## Loads and stores -/

/-- The result of a load in a register. -/
def toReg (d : Reg) (r : Byte × Machine) : Machine := r.2.setReg d r.1

def OP_IN (opcode : Word) (m : Machine) : Machine :=
  let io_addr := (opcode &&& 0x0f) ||| ((opcode >>> 5) &&& 0x30)
  (toReg (rd opcode) (data_ld m (io_addr + 0x20))).advance

def OP_OUT (opcode : Word) (m : Machine) : Machine :=
  let io_addr := (opcode &&& 0x0f) ||| ((opcode >>> 5) &&& 0x30)
  (data_st m (io_addr + 0x20) (m.regs (rd opcode))).advance

def LD (r : Reg) (opcode : Word) (m : Machine) : Machine :=
  (toReg (rd opcode) (data_ld m (m.pair r))).advance

def ST (r : Reg) (opcode : Word) (m : Machine) : Machine :=
  (data_st m (m.pair r) (m.regs (rd opcode))).advance

/-- The pointer in `r` and `r + 1` one higher. -/
def incPair (r : Reg) (m : Machine) : Machine :=
  if m.regs r = 0xff then
    let m := m.setReg r 0
    m.setReg (r + 1) (m.regs (r + 1) + 1)
  else m.setReg r (m.regs r + 1)

/-- The pointer one lower. -/
def decPair (r : Reg) (m : Machine) : Machine :=
  if m.regs r = 0 then
    let m := m.setReg (r + 1) (m.regs (r + 1) - 1)
    m.setReg r 0xff
  else m.setReg r (m.regs r - 1)

def LD_ADD (r : Reg) (opcode : Word) (m : Machine) : Machine := incPair r (LD r opcode m)
def SUB_LD (r : Reg) (opcode : Word) (m : Machine) : Machine := LD r opcode (decPair r m)
def ST_ADD (r : Reg) (opcode : Word) (m : Machine) : Machine := incPair r (ST r opcode m)
def SUB_ST (r : Reg) (opcode : Word) (m : Machine) : Machine := ST r opcode (decPair r m)

/-- The displacement of `OP_LDD_Y` and its kind. -/
def displacement (opcode : Word) : Word :=
  (opcode &&& 0x07) + ((opcode >>> 7) &&& 0x018) + ((opcode >>> 8) &&& 0x020)

/-- A load from a displacement behind the pointer in `r`. -/
def LDD (r : Reg) (opcode : Word) (m : Machine) : Machine :=
  (toReg (rd opcode) (data_ld m (m.pair r + displacement opcode))).advance

def STD (r : Reg) (opcode : Word) (m : Machine) : Machine :=
  (data_st m (m.pair r + displacement opcode) (m.regs (rd opcode))).advance

def OP_LDD_Y : Word → Machine → Machine := LDD 28
def OP_LDD_Z : Word → Machine → Machine := LDD 30
def OP_STD_Y : Word → Machine → Machine := STD 28
def OP_STD_Z : Word → Machine → Machine := STD 30

def OP_PUSH (opcode : Word) (m : Machine) : Machine := (stack_push m (m.regs (rd opcode))).advance

def OP_POP (opcode : Word) (m : Machine) : Machine := (toReg (rd opcode) (stack_pop m)).advance

/-- `OP_LPM` in its three forms: the pointer is not a word but a byte address. -/
def OP_LPM (code : CodeSection) (opcode : Word) (m : Machine) : Machine :=
  let m := toReg (if opcode = 0x95c8 then 0 else rd opcode) (Code.get8 code m (m.pair 30))
  (if opcode &&& 0x0f = 0x05 then incPair 30 m else m).advance

/-! ## Branches -/

/-- `(uint16_t)((int32_t)_PC + k + 1)`. -/
def relative (m : Machine) (k : Word) : Machine := { m with PC := m.PC + k + 1 }

/-- The seven bits of a branch distance, with their sign. -/
def branchDistance (opcode : Word) : Word :=
  (((opcode &&& 0x03f8) >>> 3).setWidth 7 : BitVec 7).signExtend 16

def OP_BRBS (opcode : Word) (m : Machine) : Machine :=
  if flag m.SREG (bitNo opcode) then relative m (branchDistance opcode) else m.advance

def OP_BRBC (opcode : Word) (m : Machine) : Machine :=
  if flag m.SREG (bitNo opcode) then m.advance else relative m (branchDistance opcode)

/-- The twelve bits of a jump distance, with their sign. -/
def jumpDistance (opcode : Word) : Word := ((opcode &&& 0x0fff).setWidth 12 : BitVec 12).signExtend 16

def OP_RJMP (opcode : Word) (m : Machine) : Machine := relative m (jumpDistance opcode)

/-- `SKIP_CONT()`: it looks at the word that is executed, not at the next. -/
def SKIP_CONT (opcode : Word) (m : Machine) : Machine :=
  if opcode &&& 0xfe0e = 0x940e ∨ opcode &&& 0xfe0e = 0x940c ∨ opcode &&& 0xfe0f = 0x9000 ∨
      opcode &&& 0xfe0f = 0x9200 then { m with PC := m.PC + 2 }
  else m.advance

/-- A skip under a condition. -/
def skipIf (b : Bool) (opcode : Word) (m : Machine) : Machine :=
  (if b then SKIP_CONT opcode m else m).advance

def OP_SBRS (opcode : Word) (m : Machine) : Machine :=
  skipIf ((m.regs (rd opcode)).getLsbD (bitNo opcode)) opcode m

def OP_SBRC (opcode : Word) (m : Machine) : Machine :=
  skipIf (!(m.regs (rd opcode)).getLsbD (bitNo opcode)) opcode m

def OP_CPSE (opcode : Word) (m : Machine) : Machine :=
  skipIf (m.regs (rd opcode) == m.regs (rr opcode)) opcode m

def OP_SBIC (opcode : Word) (m : Machine) : Machine := skipIf true opcode m

def OP_IJMP (m : Machine) : Machine := { m with PC := m.pair 30 }

/-! ## Calls -/

/-- The two pushes of a return address. -/
def pushAddress (m : Machine) (addr : Word) : Machine :=
  stack_push (stack_push m ((addr >>> 8).setWidth 8)) (addr.setWidth 8)

/-- `depth++` and the jump. -/
def enter (m : Machine) (target : Word) : Machine := { m with PC := target, depth := m.depth + 1 }

def OP_RCALL (opcode : Word) (m : Machine) : Machine :=
  let m := pushAddress m (m.PC + 1)
  enter m (m.PC + jumpDistance opcode + 1)

def OP_ICALL (m : Machine) : Machine :=
  let m := pushAddress m (m.PC + 1)
  enter m (m.pair 30)

/-- The two pops of a return address. -/
def popAddress (m : Machine) : Machine :=
  let (lo, m) := stack_pop m
  let (hi, m) := stack_pop m
  { m with PC := hi.setWidth 16 <<< 8 ||| lo.setWidth 16 }

/-- At depth 0 a return ends the run. -/
def OP_RET (m : Machine) : Machine :=
  if m.depth = 0 then { m with running := false } else popAddress { m with depth := m.depth - 1 }

def OP_RETI (m : Machine) : Machine :=
  if m.depth = 0 then { m with running := false }
  else
    let m := popAddress { m with depth := m.depth - 1 }
    m.judged (setFlag m.SREG FLAG_I true)

/-! ## Commands of the host -/

/-- A call that a command makes through `CommandDataI`, or the event that it
has been called.  The calls that only read the arguments are not among them. -/
inductive CommandDataCall
  | genericCommandCalled
  | returnValue (size : Byte) (value : BitVec 32)
  | returnValueReady (size : Byte) (value : BitVec 32)
  | getAtPointer (addr : AgentMemAddr)
  | get32AtPointer (addr : AgentMemAddr)
  | setAtPointer (addr : AgentMemAddr) (data : Byte)
  | set32AtPointer (addr : AgentMemAddr) (data : BitVec 32)
  deriving DecidableEq, Repr

/-- `CommandDataI.returnValue(size, value)`, `size` in bits. -/
def returnValue (m : Machine) (size : Byte) (value : BitVec 32) : Machine :=
  if size = 0 then m
  else if size = 8 then (m.setReg 25 0).setReg 24 (value.setWidth 8)
  else if size = 16 then (m.setReg 24 (value.setWidth 8)).setReg 25 ((value >>> 8).setWidth 8)
  else if size = 32 then
    (((m.setReg 22 (value.setWidth 8)).setReg 23 ((value >>> 8).setWidth 8)).setReg 24
      ((value >>> 16).setWidth 8)).setReg 25 ((value >>> 24).setWidth 8)
  else m.stop ST_PRIMITIVE

/-- `CommandDataI.returnValueReady(size, value)`, `size` in bytes; whether it
calls `readyForReasume`. -/
def returnValueReady (m : Machine) (size : Byte) (value : BitVec 32) : Machine × Bool :=
  let m := returnValue { m with waiting_for_return_value := false } (size * 8) value
  (m, m.status = ST_BLOCKED)

def CommandDataCall.exec (m : Machine) : CommandDataCall → Machine
  | genericCommandCalled => { m with waiting_for_return_value := false }
  | returnValue size value => Vm.returnValue m size value
  | returnValueReady size value => (Vm.returnValueReady m size value).1
  | getAtPointer addr => (Data.get8 m (addr - 0x60)).2
  | get32AtPointer addr => (Data.get32 m (addr - 0x60)).2
  | setAtPointer addr data => orDataAddr (Data.put8 m (addr - 0x60) data)
  | set32AtPointer addr data => orDataAddr (Data.put32 m (addr - 0x60) data)

/-- What the interpreter is run with: the code sections, the byte order, and
what a command does and whether it ends with `SUCCESS`. -/
structure Host where
  code : CodeSection
  order : ByteOrder
  callCommand : Word → Machine → List CommandDataCall × Bool

/-- `execute_primitive(idx)`. -/
def execute_primitive (host : Host) (idx : Word) (m : Machine) : Machine :=
  let m := { m with waiting_for_return_value := true }
  let (calls, ok) := host.callCommand idx m
  let m := calls.foldl CommandDataCall.exec m
  let m := if ok then m else m.stop ST_PRIMITIVE
  if m.waiting_for_return_value then m.stop ST_BLOCKED else m

/-! ## Two-word instructions -/

/-- `code_get_opcode_extension()`. -/
def code_get_opcode_extension (host : Host) (m : Machine) : Word × Machine :=
  Code.get16 host.code host.order m (m.PC <<< 1)

def OP_LDS (host : Host) (opcode : Word) (m : Machine) : Machine :=
  let (address, m) := code_get_opcode_extension host m.advance
  (toReg (rd opcode) (data_ld m address)).advance

def OP_STS (host : Host) (opcode : Word) (m : Machine) : Machine :=
  let (address, m) := code_get_opcode_extension host m.advance
  (data_st m address (m.regs (rd opcode))).advance

def OP_JMP (host : Host) (m : Machine) : Machine :=
  let (address, m) := code_get_opcode_extension host m.advance
  { m with PC := address }

/-- A call of an address with the highest bit set is a command of the host. -/
def OP_CALL (host : Host) (m : Machine) : Machine :=
  let (address, m) := code_get_opcode_extension host m.advance
  if address &&& 0x8000 ≠ 0 then (execute_primitive host (address &&& 0x01ff) m).advance
  else enter (pushAddress m (m.PC + 1)) address

end Pobicos.Vm
