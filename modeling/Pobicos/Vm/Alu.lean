import Pobicos.Vm.SingleStep
import Pobicos.Lib.Ripple

/-!
# Pobicos.Vm.Alu

What the additions, subtractions and comparisons leave in the registers and in
the carry, zero and sign flags.

The bodies judge the overflow with a carry that they have just overwritten.
For a comparison that is harmless: the sign flag is the order of the operands
and the borrow as integers with a sign (`signFlag_iff`, `lt_borrow_iff`), and
the zero flag of a comparison that goes on after equal bytes is right
(`difference_eq_zero_iff`).
-/

namespace Pobicos.Vm

open Octets CArray

/-! ## Flags -/

theorem flag_setFlag (sreg : Byte) {i : Nat} (hi : i < 8) (b : Bool) (j : Nat) :
    flag (setFlag sreg i b) j = if i = j then b else flag sreg j := by
  unfold setFlag flag
  cases b with
  | true =>
      simp only [if_true, BitVec.getLsbD_or, BitVec.getLsbD_shiftLeft]
      by_cases h : i = j
      · simp [h]
        omega
      · simp [h]
        omega
  | false =>
      simp only [Bool.false_eq_true, if_false, BitVec.getLsbD_and, BitVec.getLsbD_not,
        BitVec.getLsbD_shiftLeft]
      by_cases h : i = j
      · simp [h]
      · by_cases hj : j < 8
        · simp [h, hj]
          intro _
          omega
        · simp [h, hj, BitVec.getLsbD_of_ge sreg j (by omega)]

/-- `_SREG & 0x01` as a number. -/
theorem toNat_carry (sreg : Byte) : (carry sreg).toNat = (flag sreg FLAG_C).toNat := by
  unfold carry flag FLAG_C
  rw [BitVec.toNat_and]
  simp [Nat.and_one_is_mod, BitVec.getLsbD, Nat.testBit_zero]
  rcases Nat.mod_two_eq_zero_or_one sreg.toNat with h | h <;> simp [h]

/-- A carry as the byte that is added or subtracted. -/
def carryByte (c : Bool) : Byte := if c then 1 else 0

/-- It has the value of the flag. -/
theorem toNat_carryByte (c : Bool) : (carryByte c).toNat = c.toNat := by
  cases c <;> rfl

/-- `_SREG & 0x01` is the byte of the carry flag. -/
theorem carry_eq (sreg : Byte) : carry sreg = carryByte (flag sreg FLAG_C) := by
  apply BitVec.eq_of_toNat_eq
  rw [toNat_carry, toNat_carryByte]

/-! ## Differences of bytes -/

/-- Subtraction of a byte with a borrow. -/
theorem toNat_sub_byte (p q : Byte) (c : Bool) :
    (p - q - carryByte c).toNat + q.toNat + c.toNat =
      p.toNat + 256 * (decide (p.toNat < q.toNat + c.toNat)).toNat := by
  have hp := p.isLt
  have hq := q.isLt
  have hc := c.toNat_le
  rw [BitVec.toNat_sub, BitVec.toNat_sub, toNat_carryByte]
  by_cases h : p.toNat < q.toNat + c.toNat
  · simp only [h, decide_true, Bool.toNat_true]
    omega
  · simp only [h, decide_false, Bool.toNat_false]
    omega

/-- Addition of bytes with a carry. -/
theorem toNat_add_byte (p q : Byte) (c : Bool) :
    (p + (q + carryByte c)).toNat + 256 * (decide (p.toNat + q.toNat + c.toNat > 255)).toNat =
      p.toNat + q.toNat + c.toNat := by
  have hp := p.isLt
  have hq := q.isLt
  have hc := c.toNat_le
  rw [BitVec.toNat_add, BitVec.toNat_add, toNat_carryByte]
  by_cases h : p.toNat + q.toNat + c.toNat > 255
  · simp only [h, decide_true, Bool.toNat_true]
    omega
  · simp only [h, decide_false, Bool.toNat_false]
    omega

/-- The overflow that `OP_JUDGE_V_SUB` finds. -/
def overflowSub (p q t : Byte) : Bool := ((p &&& ~~~q &&& ~~~t) ||| (~~~p &&& q &&& t)).msb

/-- **The sign of a difference**: the result is negative, or it overflowed and is
not, when the exact difference is negative. -/
theorem signFlag_iff (p q : Byte) (c : Bool) :
    ((p - q - carryByte c).msb ^^ overflowSub p q (p - q - carryByte c)) =
      decide (p.toInt < q.toInt + c.toNat) := by
  have hp := p.isLt
  have hq := q.isLt
  have hc := c.toNat_le
  have ht := toNat_sub_byte p q c
  have hd := (decide (p.toNat < q.toNat + c.toNat)).toNat_le
  generalize (decide (p.toNat < q.toNat + c.toNat)).toNat = borrow at ht hd
  have ht' := (p - q - carryByte c).isLt
  generalize p - q - carryByte c = t at ht ht' ⊢
  rw [overflowSub, BitVec.msb_or, BitVec.msb_and, BitVec.msb_and, BitVec.msb_and, BitVec.msb_and,
    BitVec.msb_not, BitVec.msb_not, BitVec.msb_not]
  rw [BitVec.toInt_eq_msb_cond, BitVec.toInt_eq_msb_cond]
  simp only [BitVec.msb_eq_decide, Nat.add_one_sub_one, Nat.reducePow]
  -- eight cases of the three highest bits
  by_cases hp' : 128 ≤ p.toNat <;> by_cases hq' : 128 ≤ q.toNat <;>
    by_cases ht'' : 128 ≤ t.toNat <;> simp [hp', hq', ht''] <;> omega

/-- **The carry that has just been judged does as well** as the one that came in:
where they differ the operands do, by more than the carry. -/
theorem lt_borrow_iff (p q : Byte) (c : Bool) :
    p.toInt < q.toInt + (decide (p.toNat < q.toNat + c.toNat)).toNat ↔ p.toInt < q.toInt + c.toNat := by
  have hp := p.isLt
  have hq := q.isLt
  have hc := c.toNat_le
  rw [BitVec.toInt_eq_toNat_cond, BitVec.toInt_eq_toNat_cond]
  by_cases h : p.toNat < q.toNat + c.toNat
  · simp only [h, decide_true, Bool.toNat_true]
    split <;> split <;> omega
  · simp only [h, decide_false, Bool.toNat_false]
    split <;> split <;> omega

/-- The low byte of the 16-bit difference is the difference of the bytes. -/
theorem setWidth_difference (p q c : Byte) :
    (p.setWidth 16 - q.setWidth 16 - c.setWidth 16 : Word).setWidth 8 = p - q - c := by
  have hp := p.isLt
  have hq := q.isLt
  have hc := c.isLt
  apply BitVec.eq_of_toNat_eq
  simp only [BitVec.toNat_setWidth, BitVec.toNat_sub]
  omega

/-- After equal bytes nothing is borrowed, and the 16 bits of `t` are clear when
the bytes are equal. -/
theorem difference_eq_zero_iff (p q : Byte) :
    p.setWidth 16 - q.setWidth 16 - (carryByte (decide (p.toNat < q.toNat))).setWidth 16 = (0 : Word) ↔
      p = q := by
  have hp := p.isLt
  have hq := q.isLt
  constructor
  · intro h
    apply BitVec.eq_of_toNat_eq
    have hnat := congrArg BitVec.toNat h
    rw [BitVec.toNat_sub, BitVec.toNat_sub, BitVec.toNat_setWidth, BitVec.toNat_setWidth,
      BitVec.toNat_setWidth, toNat_carryByte] at hnat
    by_cases hlt : p.toNat < q.toNat
    · simp only [hlt, decide_true, Bool.toNat_true] at hnat
      simp at hnat
      omega
    · simp only [hlt, decide_false, Bool.toNat_false] at hnat
      simp at hnat
      omega
  · rintro rfl
    simp [carryByte]

/-! ## Judgements -/

/-- The byte that `OP_JUDGE_N` sees of a word. -/
theorem flag_S_judged (sreg : Byte) {p q : Byte} {c : Bool} {t : Word}
    (ht : t.setWidth 8 = p - q - carryByte c)
    (hV : flag sreg FLAG_V = overflowSub p q (p - q - carryByte c)) :
    flag (OP_JUDGE_S (OP_JUDGE_N sreg t 8)) FLAG_S = decide (p.toInt < q.toInt + c.toNat) := by
  have hmsb : t.getLsbD 7 = (p - q - carryByte c).msb := by
    rw [← ht, BitVec.msb_eq_getLsbD_last]
    simp
  rw [← signFlag_iff p q c, ← hmsb, ← hV]
  simp [OP_JUDGE_S, OP_JUDGE_N, flag_setFlag, FLAG_S, FLAG_N, FLAG_V]

/-- The flags below the sign are not touched by the judgements that end a body. -/
theorem flag_C_judgeByte (sreg b : Byte) : flag (judgeByte sreg b) FLAG_C = flag sreg FLAG_C := by
  simp [judgeByte, OP_JUDGE_S, OP_JUDGE_Z, OP_JUDGE_N, flag_setFlag, FLAG_C, FLAG_Z, FLAG_N, FLAG_S]

/-- **The carry of an addition** is set where the sum is no byte. -/
theorem flag_C_add (sreg p q : Byte) (c : Bool) :
    flag (OP_JUDGE_C_H_ADD sreg (p.setWidth 16) (q.setWidth 16) (carryByte c) 8) FLAG_C =
      decide (p.toNat + q.toNat + c.toNat > 255) := by
  have hp := p.isLt
  have hq := q.isLt
  simp [OP_JUDGE_C_H_ADD, flag_setFlag, FLAG_C, FLAG_H, toNat_carryByte]
  omega

/-- **The borrow of a subtraction** is set where the first byte is less. -/
theorem flag_C_sub (sreg p q : Byte) (c : Bool) :
    flag (OP_JUDGE_C_H_SUB sreg (p.setWidth 16) (q.setWidth 16) (carryByte c) 8) FLAG_C =
      decide (p.toNat < q.toNat + c.toNat) := by
  have hp := p.isLt
  have hq := q.isLt
  simp [OP_JUDGE_C_H_SUB, flag_setFlag, FLAG_C, FLAG_H, toNat_carryByte]
  omega

section judgeSub

variable (sreg p q : Byte) (c : Bool) (judged : Byte → Byte)

/-- The judgements that follow keep the borrow. -/
theorem flag_C_judgeSub :
    flag (judgeSub sreg p q (carryByte c) judged) FLAG_C = decide (p.toNat < q.toNat + c.toNat) := by
  rw [← flag_C_sub sreg p q c]
  simp [judgeSub, OP_JUDGE_V_SUB, flag_setFlag, FLAG_C, FLAG_V]

/-- None of them is about the zero flag. -/
theorem flag_Z_judgeSub : flag (judgeSub sreg p q (carryByte c) judged) FLAG_Z = flag sreg FLAG_Z := by
  simp [judgeSub, OP_JUDGE_V_SUB, OP_JUDGE_C_H_SUB, flag_setFlag, FLAG_C, FLAG_H, FLAG_Z, FLAG_V]

/-- The overflow is judged from the operands and the digit. -/
theorem flag_V_judgeSub :
    flag (judgeSub sreg p q (carryByte c) judged) FLAG_V =
      overflowSub p q (p - q -
        judged (OP_JUDGE_C_H_SUB sreg (p.setWidth 16) (q.setWidth 16) (carryByte c) 8)) := by
  simp [judgeSub, OP_JUDGE_V_SUB, flag_setFlag, FLAG_V, overflowSub]

end judgeSub

/-! ## The bodies -/

/-- Nothing but registers and flags has changed, and the next word is next. -/
structure Computes (m m' : Machine) : Prop where
  PC : m'.PC = m.PC + 1
  SP : m'.SP = m.SP
  depth : m'.depth = m.depth
  instr_count : m'.instr_count = m.instr_count
  running : m'.running = m.running
  status : m'.status = m.status
  ctx : m'.ctx = m.ctx

/-- Addition of `q` and the carry `c` to a register. -/
theorem addWith_spec (m : Machine) (d : Reg) (q : Byte) (c : Bool) (judged : Byte → Byte) :
    Computes m (addWith m d q (carryByte c) judged) ∧
      (addWith m d q (carryByte c) judged).regs =
        Function.update m.regs d (m.regs d + (q + carryByte c)) ∧
      flag (addWith m d q (carryByte c) judged).SREG FLAG_C =
        decide ((m.regs d).toNat + q.toNat + c.toNat > 255) := by
  refine ⟨⟨rfl, rfl, rfl, rfl, rfl, rfl, rfl⟩, rfl, ?_⟩
  rw [← flag_C_add m.SREG (m.regs d) q c]
  show flag (judgeByte _ _) FLAG_C = _
  rw [flag_C_judgeByte]
  simp [OP_JUDGE_V_ADD, flag_setFlag, FLAG_C, FLAG_V]

/-- Subtraction of `q` and the borrow `c` from a register. -/
theorem subWith_spec (m : Machine) (d : Reg) (q : Byte) (c : Bool) (judged : Byte → Byte) :
    Computes m (subWith m d q (carryByte c) judged) ∧
      (subWith m d q (carryByte c) judged).regs =
        Function.update m.regs d (m.regs d - q - carryByte c) ∧
      flag (subWith m d q (carryByte c) judged).SREG FLAG_C =
        decide ((m.regs d).toNat < q.toNat + c.toNat) := by
  refine ⟨⟨rfl, rfl, rfl, rfl, rfl, rfl, rfl⟩, rfl, ?_⟩
  show flag (judgeByte _ _) FLAG_C = _
  rw [flag_C_judgeByte, flag_C_judgeSub]

/-- A comparison from the start. -/
theorem compare_spec (m : Machine) (p q : Byte) :
    Computes m (compare m p q) ∧ (compare m p q).regs = m.regs ∧
      flag (compare m p q).SREG FLAG_C = decide (p.toNat < q.toNat) ∧
      flag (compare m p q).SREG FLAG_Z = decide (p = q) ∧
      flag (compare m p q).SREG FLAG_S = decide (p.toInt < q.toInt) := by
  have hlow : (p.setWidth 16 - q.setWidth 16 : Word).setWidth 8 = p - q - carryByte false := by
    have h := setWidth_difference p q (carryByte false)
    simpa [carryByte] using h
  refine ⟨⟨rfl, rfl, rfl, rfl, rfl, rfl, rfl⟩, rfl, ?_, ?_, ?_⟩
  · have hC := flag_C_judgeSub m.SREG p q false fun _ => 0
    simp only [Bool.toNat_false, Nat.add_zero] at hC
    rw [← hC]
    simp [compare, Machine.judged, Machine.advance, OP_JUDGE_S, OP_JUDGE_Z, OP_JUDGE_N, flag_setFlag,
      FLAG_C, FLAG_Z, FLAG_N, FLAG_S, carryByte]
  · have hzero : p - q = 0#8 ↔ p = q := by
      constructor
      · intro h
        exact BitVec.sub_eq_iff_eq_add.mp h |>.trans (BitVec.zero_add q)
      · rintro rfl
        exact BitVec.sub_self p
    simp [compare, Machine.judged, Machine.advance, OP_JUDGE_S, OP_JUDGE_Z, OP_JUDGE_N, flag_setFlag,
      FLAG_Z, FLAG_N, FLAG_S, hlow, carryByte, hzero]
  · have hV := flag_V_judgeSub m.SREG p q false fun _ => 0
    have hS := flag_S_judged _ hlow hV
    simp only [Bool.toNat_false, Int.natCast_zero, Int.add_zero] at hS
    rw [← hS]
    simp [compare, Machine.judged, Machine.advance, OP_JUDGE_S, OP_JUDGE_Z, OP_JUDGE_N, flag_setFlag,
      FLAG_Z, FLAG_N, FLAG_V, FLAG_S, carryByte]

/-- A comparison that goes on after lower bytes, if nothing is borrowed where
the zero flag says that they were equal. -/
theorem OP_C_PC_spec (opcode : Word) (m : Machine)
    (hz : flag m.SREG FLAG_Z = true → flag m.SREG FLAG_C = false) :
    Computes m (OP_C_PC opcode m) ∧ (OP_C_PC opcode m).regs = m.regs ∧
      flag (OP_C_PC opcode m).SREG FLAG_C =
        decide ((m.regs (rd opcode)).toNat < (m.regs (rr opcode)).toNat + (flag m.SREG FLAG_C).toNat) ∧
      flag (OP_C_PC opcode m).SREG FLAG_Z =
        (flag m.SREG FLAG_Z && decide (m.regs (rd opcode) = m.regs (rr opcode))) ∧
      flag (OP_C_PC opcode m).SREG FLAG_S =
        decide ((m.regs (rd opcode)).toInt <
          (m.regs (rr opcode)).toInt + (flag m.SREG FLAG_C).toNat) := by
  unfold OP_C_PC
  dsimp only
  rw [carry_eq m.SREG]
  generalize m.regs (rd opcode) = p
  generalize m.regs (rr opcode) = q
  have hC := flag_C_judgeSub m.SREG p q (flag m.SREG FLAG_C) carry
  have hZ := flag_Z_judgeSub m.SREG p q (flag m.SREG FLAG_C) carry
  have hV := flag_V_judgeSub m.SREG p q (flag m.SREG FLAG_C) carry
  rw [carry_eq, flag_C_sub, ← hC] at hV
  generalize hsreg : judgeSub m.SREG p q (carryByte (flag m.SREG FLAG_C)) carry = sreg at hC hZ hV ⊢
  rw [carry_eq sreg]
  have hlow := setWidth_difference p q (carryByte (flag sreg FLAG_C))
  refine ⟨⟨rfl, rfl, rfl, rfl, rfl, rfl, rfl⟩, rfl, ?_, ?_, ?_⟩
  · rw [← hC]
    simp [Machine.judged, Machine.advance, OP_JUDGE_S, OP_JUDGE_N, flag_setFlag, FLAG_C, FLAG_Z,
      FLAG_N, FLAG_S]
  · have hflags : flag (OP_JUDGE_S (OP_JUDGE_N sreg
        (p.setWidth 16 - q.setWidth 16 - (carryByte (flag sreg FLAG_C)).setWidth 16) 8)) FLAG_Z =
          flag m.SREG FLAG_Z := by
      rw [← hZ]
      simp [OP_JUDGE_S, OP_JUDGE_N, flag_setFlag, FLAG_Z, FLAG_N, FLAG_S]
    show flag (setFlag _ FLAG_Z _) FLAG_Z = _
    rw [flag_setFlag _ (by decide), if_pos rfl, hflags]
    cases hz' : flag m.SREG FLAG_Z with
    | false => rfl
    | true =>
        -- the source judges zero from the difference of the words, borrow
        -- included; equal so far means that none came
        have hnone : flag sreg FLAG_C = decide (p.toNat < q.toNat) := by
          rw [hC, hz hz']
          rfl
        have hdiff := difference_eq_zero_iff p q
        rw [← hnone] at hdiff
        simp only [Bool.true_and]
        rw [Bool.eq_iff_iff, beq_iff_eq, decide_eq_true_iff]
        exact hdiff
  · have hS := flag_S_judged sreg hlow hV
    have hlt := lt_borrow_iff p q (flag m.SREG FLAG_C)
    rw [← hC] at hlt
    rw [← decide_eq_decide.mpr hlt, ← hS]
    simp [Machine.judged, Machine.advance, flag_setFlag, FLAG_Z, FLAG_S]

end Pobicos.Vm
