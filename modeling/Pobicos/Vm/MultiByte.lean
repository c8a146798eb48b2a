import Pobicos.Vm.Alu
import Pobicos.Vm.Session

/-!
# Pobicos.Vm.MultiByte

Numbers of several bytes in registers, lowest byte first, as compiled agents
compute with them: an `ADD` and then `ADC`s, a `SUB` and then `SBC`s, a `CP` and
then `CPC`s with a branch after them.

The words are whatever `single_step` dispatches to these bodies; which registers
they name is read off them (`rd`, `rr`).  An instruction of a chain may not
write what a later one reads or writes (`Apart`).
-/

namespace Pobicos.Vm

open Octets CArray Ripple

variable {host : Host} {m m₁ m' : Machine} {w : Word} {ws : List Word}

/-! ## Chains -/

/-- The bytes in the registers that the words name. -/
def operands (m : Machine) (f : Word → Reg) (ws : List Word) : List Byte := ws.map fun w => m.regs (f w)

/-- Both operands of every word. -/
def pairs (m : Machine) (ws : List Word) : List (Byte × Byte) :=
  ws.map fun w => (m.regs (rd w), m.regs (rr w))

/-- No instruction writes what a later one reads or writes. -/
def Apart (ws : List Word) : Prop := ws.Pairwise fun w v => rd v ≠ rd w ∧ rr v ≠ rd w

instance : Decidable (Apart ws) := inferInstanceAs (Decidable (List.Pairwise _ _))

/-- `n` instructions in a row that compute on registers and flags. -/
structure Straight (n : Nat) (m m' : Machine) : Prop where
  PC : m'.PC = m.PC + BitVec.ofNat 16 n
  SP : m'.SP = m.SP
  depth : m'.depth = m.depth
  instr_count : m'.instr_count = m.instr_count + BitVec.ofNat 32 n
  running : m'.running = m.running
  status : m'.status = m.status
  ctx : m'.ctx = m.ctx

/-- No instruction. -/
theorem Straight.refl (m : Machine) : Straight 0 m m :=
  ⟨by simp, rfl, rfl, by simp, rfl, rfl, rfl⟩

/-- **One instruction and the rest**: the counters add up, and nothing else
changes. -/
theorem Straight.cons {n : Nat} (h : Computes m m₁) (h' : Straight n (counted m₁) m') :
    Straight (n + 1) m m' where
  PC := by
    rw [h'.PC, Nat.add_comm n 1, BitVec.ofNat_add]
    show m₁.PC + _ = _
    rw [h.PC, BitVec.add_assoc]
    rfl
  SP := h'.SP.trans h.SP
  depth := h'.depth.trans h.depth
  instr_count := by
    rw [h'.instr_count, Nat.add_comm n 1, BitVec.ofNat_add]
    show m₁.instr_count + 1 + _ = _
    rw [h.instr_count, BitVec.add_assoc]
    rfl
  running := h'.running.trans h.running
  status := h'.status.trans h.status
  ctx := h'.ctx.trans h.ctx

/-- After an instruction of a chain the budget is one less and the code is that
of the rest. -/
theorem Computes.rest {n : Nat} (h : Computes m m₁) (hbudget : Budget (n + 1) m)
    (hcode : CodeAt host m.ctx (m.PC + 1) ws) :
    Budget n (counted m₁) ∧ CodeAt host (counted m₁).ctx (counted m₁).PC ws := by
  obtain ⟨hrun, hcount⟩ := hbudget
  refine ⟨⟨?_, ?_⟩, ?_⟩
  · exact h.running.trans hrun
  · show (m₁.instr_count + 1).toNat + n < _
    rw [h.instr_count]
    unfold INSTR_LIMIT at hcount ⊢
    bv_omega
  · show CodeAt host m₁.ctx m₁.PC ws
    rw [h.ctx, h.PC]
    exact hcode

/-- Who has room for more has room for one. -/
theorem Budget.one {n : Nat} (h : Budget (n + 1) m) : Budget 1 m := by
  obtain ⟨hrun, hcount⟩ := h
  exact ⟨hrun, by omega⟩

section ripple

variable {res : Byte → Byte → Bool → Byte} {out : Byte → Byte → Bool → Bool} {c : Bool}

/-- One instruction: the digit and the carry that it makes from its operands and
the carry `c`. -/
structure MakesDigit (res : Byte → Byte → Bool → Byte) (out : Byte → Byte → Bool → Bool) (w : Word)
    (c : Bool) (m m₁ : Machine) : Prop where
  computes : Computes m m₁
  regs : m₁.regs = Function.update m.regs (rd w) (res (m.regs (rd w)) (m.regs (rr w)) c)
  carry : flag m₁.SREG FLAG_C = out (m.regs (rd w)) (m.regs (rr w)) c

/-- A chain: the digits and the carry of `ripple`. -/
structure MakesDigits (host : Host) (res : Byte → Byte → Bool → Byte) (out : Byte → Byte → Bool → Bool)
    (ws : List Word) (c : Bool) (m m' : Machine) : Prop where
  runs : Runs host ws.length m m'
  straight : Straight ws.length m m'
  digits : operands m' rd ws = (ripple res out c (pairs m ws)).1
  carry : flag m'.SREG FLAG_C = (ripple res out c (pairs m ws)).2
  others : ∀ r, (∀ w ∈ ws, rd w ≠ r) → m'.regs r = m.regs r

/-- One instruction and then the rest of the chain. -/
theorem MakesDigits.cons (hone : Runs host 1 m (counted m₁)) (h : MakesDigit res out w c m m₁)
    (hapart : Apart (w :: ws)) (hrest : MakesDigits host res out ws (flag m₁.SREG FLAG_C) (counted m₁) m') :
    MakesDigits host res out (w :: ws) c m m' := by
  obtain ⟨hlater, -⟩ := List.pairwise_cons.mp hapart
  have hpairs : pairs (counted m₁) ws = pairs m ws := by
    apply List.map_congr_left
    intro v hv
    show (m₁.regs (rd v), m₁.regs (rr v)) = _
    rw [h.regs, Function.update_of_ne (hlater v hv).1, Function.update_of_ne (hlater v hv).2]
  have hfirst : m'.regs (rd w) = res (m.regs (rd w)) (m.regs (rr w)) c := by
    rw [hrest.others (rd w) fun v hv => (hlater v hv).1]
    show m₁.regs (rd w) = _
    rw [h.regs, Function.update_self]
  have hdigits := hrest.digits
  have hcarry := hrest.carry
  rw [hpairs, h.carry] at hdigits hcarry
  refine ⟨?_, ?_, ?_, hcarry, ?_⟩
  · rw [List.length_cons, Nat.add_comm]
    exact hone.trans hrest.runs
  · exact Straight.cons h.computes hrest.straight
  · show m'.regs (rd w) :: operands m' rd ws = _
    rw [hfirst, hdigits]
    rfl
  · intro r hr
    rw [hrest.others r fun v hv => hr v (List.mem_cons_of_mem w hv)]
    show m₁.regs r = m.regs r
    rw [h.regs, Function.update_of_ne (hr w List.mem_cons_self).symm]

/-- A chain of one instruction that goes on with the carry. -/
theorem makesDigits_chain {op : Op}
    (hop : ∀ w m, MakesDigit res out w (flag m.SREG FLAG_C) m (op.exec host w m))
    (hbudget : Budget ws.length m) (hcode : CodeAt host m.ctx m.PC ws)
    (hws : ∀ w ∈ ws, dispatch w = [op]) (hapart : Apart ws) :
    ∃ m', MakesDigits host res out ws (flag m.SREG FLAG_C) m m' := by
  induction ws generalizing m with
  | nil => exact ⟨m, Runs.refl m, Straight.refl m, rfl, rfl, fun r _ => rfl⟩
  | cons w ws ih =>
      have hone := runs_op hbudget.one hcode.1 (hws w List.mem_cons_self)
      have hmakes := hop w m
      obtain ⟨hbudget', hcode'⟩ := hmakes.computes.rest hbudget hcode.2
      obtain ⟨m', hm'⟩ := ih hbudget' hcode' (fun v hv => hws v (List.mem_cons_of_mem w hv)) hapart.of_cons
      exact ⟨m', MakesDigits.cons hone hmakes hapart hm'⟩

/-- A first instruction without carry, and then the chain. -/
theorem makesDigits_first {op₀ op : Op}
    (hop₀ : ∀ w m, MakesDigit res out w false m (op₀.exec host w m))
    (hop : ∀ w m, MakesDigit res out w (flag m.SREG FLAG_C) m (op.exec host w m))
    (hbudget : Budget (ws.length + 1) m) (hcode : CodeAt host m.ctx m.PC (w :: ws))
    (hw : dispatch w = [op₀]) (hws : ∀ w ∈ ws, dispatch w = [op]) (hapart : Apart (w :: ws)) :
    ∃ m', MakesDigits host res out (w :: ws) false m m' := by
  have hone := runs_op hbudget.one hcode.1 hw
  have hmakes := hop₀ w m
  obtain ⟨hbudget', hcode'⟩ := hmakes.computes.rest hbudget hcode.2
  obtain ⟨m', hm'⟩ := makesDigits_chain hop hbudget' hcode' hws hapart.of_cons
  exact ⟨m', MakesDigits.cons hone hmakes hapart hm'⟩

end ripple

/-- The first operands. -/
theorem map_fst_pairs (m : Machine) (ws : List Word) : (pairs m ws).map Prod.fst = operands m rd ws := by
  simp [pairs, operands]

/-- The second operands. -/
theorem map_snd_pairs (m : Machine) (ws : List Word) : (pairs m ws).map Prod.snd = operands m rr ws := by
  simp [pairs, operands]

/-! ## Addition and subtraction -/

/-- The digit and the carry of an addition. -/
def addDigit (p q : Byte) (c : Bool) : Byte := p + (q + carryByte c)

def addCarry (p q : Byte) (c : Bool) : Bool := decide (p.toNat + q.toNat + c.toNat > 255)

/-- The digit and the borrow of a subtraction. -/
def subDigit (p q : Byte) (c : Bool) : Byte := p - q - carryByte c

def subBorrow (p q : Byte) (c : Bool) : Bool := decide (p.toNat < q.toNat + c.toNat)

/-- An addition makes the digit and the carry. -/
theorem makesDigit_addWith (w : Word) (m : Machine) (c : Bool) (judged : Byte → Byte) :
    MakesDigit addDigit addCarry w c m (addWith m (rd w) (m.regs (rr w)) (carryByte c) judged) := by
  obtain ⟨hcomputes, hregs, hflag⟩ := addWith_spec m (rd w) (m.regs (rr w)) c judged
  exact ⟨hcomputes, hregs, hflag⟩

/-- A subtraction makes the digit and the borrow. -/
theorem makesDigit_subWith (w : Word) (m : Machine) (c : Bool) (judged : Byte → Byte) :
    MakesDigit subDigit subBorrow w c m (subWith m (rd w) (m.regs (rr w)) (carryByte c) judged) := by
  obtain ⟨hcomputes, hregs, hflag⟩ := subWith_spec m (rd w) (m.regs (rr w)) c judged
  exact ⟨hcomputes, hregs, hflag⟩

/-- `ADC` takes the carry of the byte before. -/
theorem makesDigit_ADC (host : Host) (w : Word) (m : Machine) :
    MakesDigit addDigit addCarry w (flag m.SREG FLAG_C) m (Op.OP_ADC.exec host w m) := by
  show MakesDigit _ _ _ _ _ (OP_ADC w m)
  rw [OP_ADC, carry_eq m.SREG]
  exact makesDigit_addWith w m (flag m.SREG FLAG_C) carry

/-- `SBC` takes the borrow of the byte before. -/
theorem makesDigit_SBC (host : Host) (w : Word) (m : Machine) :
    MakesDigit subDigit subBorrow w (flag m.SREG FLAG_C) m (Op.OP_SBC.exec host w m) := by
  show MakesDigit _ _ _ _ _ (OP_SBC w m)
  rw [OP_SBC, carry_eq m.SREG]
  exact makesDigit_subWith w m (flag m.SREG FLAG_C) carry

/-- **Addition of numbers of any length**: the sum is in the registers of the
first, and its last carry in the carry flag. -/
theorem add_chain (host : Host) (m : Machine) (w : Word) (ws : List Word) (hbudget : Budget (ws.length + 1) m)
    (hcode : CodeAt host m.ctx m.PC (w :: ws)) (hw : dispatch w = [.OP_ADD])
    (hws : ∀ v ∈ ws, dispatch v = [.OP_ADC]) (hapart : Apart (w :: ws)) :
    ∃ m', Runs host (ws.length + 1) m m' ∧ Straight (ws.length + 1) m m' ∧
      value (operands m' rd (w :: ws)) + 2 ^ (8 * (ws.length + 1)) * (flag m'.SREG FLAG_C).toNat =
        value (operands m rd (w :: ws)) + value (operands m rr (w :: ws)) ∧
      ∀ r, (∀ v ∈ w :: ws, rd v ≠ r) → m'.regs r = m.regs r := by
  obtain ⟨m', hm'⟩ := makesDigits_first (fun w m => makesDigit_addWith w m false fun _ => 0)
    (makesDigit_ADC host) hbudget hcode hw hws hapart
  refine ⟨m', hm'.runs, hm'.straight, ?_, hm'.others⟩
  have hsum := value_ripple_add toNat_add_byte false (pairs m (w :: ws))
  rw [map_fst_pairs, map_snd_pairs, pairs, List.length_map] at hsum
  rw [hm'.digits, hm'.carry]
  exact hsum

/-- `ADD r24, r22` and `ADC r25, r23`. -/
def addHost : Host := Host.ofBytes [0x86, 0x0f, 0x97, 0x1f]

/-- A machine that runs, with 511 and 1 in its registers. -/
def started : Machine :=
  { booted with
    running := true
    regs := fun r => if r = 24 then 255 else if r = 25 then 1 else if r = 22 then 1 else 0 }

/-- 511 + 1 in two bytes: the first one carries. -/
theorem add_chain_word :
    ∃ m', Runs addHost 2 started m' ∧ Straight 2 started m' ∧
      value (operands m' rd [0x0f86, 0x1f97]) + 2 ^ 16 * (flag m'.SREG FLAG_C).toNat = 511 + 1 ∧
      ∀ r, (∀ v ∈ [0x0f86, 0x1f97], rd v ≠ r) → m'.regs r = started.regs r :=
  add_chain addHost started 0x0f86 [0x1f97] ⟨rfl, by decide⟩ (by decide) rfl
    (List.forall_mem_singleton.mpr rfl) (by decide)

/-- **Subtraction of numbers of any length**, with the last borrow in the carry
flag: it is set where the first number is less than the second. -/
theorem sub_chain (host : Host) (m : Machine) (w : Word) (ws : List Word) (hbudget : Budget (ws.length + 1) m)
    (hcode : CodeAt host m.ctx m.PC (w :: ws)) (hw : dispatch w = [.OP_SUB])
    (hws : ∀ v ∈ ws, dispatch v = [.OP_SBC]) (hapart : Apart (w :: ws)) :
    ∃ m', Runs host (ws.length + 1) m m' ∧ Straight (ws.length + 1) m m' ∧
      value (operands m' rd (w :: ws)) + value (operands m rr (w :: ws)) =
        value (operands m rd (w :: ws)) + 2 ^ (8 * (ws.length + 1)) * (flag m'.SREG FLAG_C).toNat ∧
      flag m'.SREG FLAG_C =
        decide (value (operands m rd (w :: ws)) < value (operands m rr (w :: ws))) ∧
      ∀ r, (∀ v ∈ w :: ws, rd v ≠ r) → m'.regs r = m.regs r := by
  obtain ⟨m', hm'⟩ := makesDigits_first (fun w m => makesDigit_subWith w m false fun _ => 0)
    (makesDigit_SBC host) hbudget hcode hw hws hapart
  have hdiff := value_ripple_sub toNat_sub_byte false (pairs m (w :: ws))
  rw [map_fst_pairs, map_snd_pairs, pairs, List.length_map, ← pairs] at hdiff
  have hvalue : value (operands m' rd (w :: ws)) + value (operands m rr (w :: ws)) =
      value (operands m rd (w :: ws)) + 2 ^ (8 * (ws.length + 1)) * (flag m'.SREG FLAG_C).toNat := by
    rw [hm'.digits, hm'.carry]
    exact hdiff
  refine ⟨m', hm'.runs, hm'.straight, hvalue, ?_, hm'.others⟩
  -- the result and both operands are below the power, so the borrow is the comparison
  have hlt := value_lt_pow (operands m' rd (w :: ws))
  have hlt' := value_lt_pow (operands m rr (w :: ws))
  simp only [operands, List.length_map, List.length_cons] at hlt hlt' hvalue ⊢
  cases hborrow : flag m'.SREG FLAG_C with
  | true =>
      rw [hborrow, Bool.toNat_true, Nat.mul_one] at hvalue
      exact (decide_eq_true (by omega)).symm
  | false =>
      rw [hborrow, Bool.toNat_false, Nat.mul_zero] at hvalue
      exact (decide_eq_false (by omega)).symm

/-- `SUB r24, r22` and `SBC r25, r23`. -/
def subHost : Host := Host.ofBytes [0x86, 0x1b, 0x97, 0x0b]

/-- 511 - 1 in two bytes: nothing is borrowed at the end. -/
theorem sub_chain_word :
    ∃ m', Runs subHost 2 started m' ∧ Straight 2 started m' ∧
      value (operands m' rd [0x1b86, 0x0b97]) + 1 = 511 + 2 ^ 16 * (flag m'.SREG FLAG_C).toNat ∧
      flag m'.SREG FLAG_C = false ∧
      ∀ r, (∀ v ∈ [0x1b86, 0x0b97], rd v ≠ r) → m'.regs r = started.regs r :=
  sub_chain subHost started 0x1b86 [0x0b97] ⟨rfl, by decide⟩ (by decide) rfl
    (List.forall_mem_singleton.mpr rfl) (by decide)

/-! ## Comparison -/

/-- The flags of a comparison of `as` with `bs` that starts with the borrow `c`
and the zero flag `z`. -/
structure Compared (c z : Bool) (as bs : List Byte) (sreg : Byte) : Prop where
  carry : flag sreg FLAG_C = decide (value as < value bs + c.toNat)
  zero : flag sreg FLAG_Z = (z && decide (value as = value bs))
  sign : flag sreg FLAG_S = decide (signed as < signed bs + c.toNat)

/-- One byte. -/
theorem Compared.one {c z : Bool} {p q sreg : Byte}
    (hC : flag sreg FLAG_C = decide (p.toNat < q.toNat + c.toNat))
    (hZ : flag sreg FLAG_Z = (z && decide (p = q)))
    (hS : flag sreg FLAG_S = decide (p.toInt < q.toInt + c.toNat)) : Compared c z [p] [q] sreg := by
  refine ⟨?_, ?_, ?_⟩
  · simpa [value] using hC
  · rw [hZ]
    congr 1
    rw [decide_eq_decide, value_eq]
    simp
  · exact hS

/-- The bytes that follow, compared with what the first ones left. -/
theorem Compared.cons {c z : Bool} {p q sreg sreg₁ : Byte} {as bs : List Byte} (has : as ≠ [])
    (hbs : bs ≠ []) (hC : flag sreg₁ FLAG_C = decide (p.toNat < q.toNat + c.toNat))
    (hZ : flag sreg₁ FLAG_Z = (z && decide (p = q)))
    (h : Compared (flag sreg₁ FLAG_C) (flag sreg₁ FLAG_Z) as bs sreg) :
    Compared c z (p :: as) (q :: bs) sreg := by
  refine ⟨?_, ?_, ?_⟩
  · rw [h.carry, hC, decide_eq_decide]
    exact (value_lt p q c).symm
  · rw [h.zero, hZ, Bool.and_assoc]
    congr 1
    rw [← Bool.decide_and, decide_eq_decide]
    exact (value_eq p q).symm
  · rw [h.sign, hC, decide_eq_decide]
    exact (signed_lt p q c has hbs).symm

/-- What a chain of comparisons leaves. -/
structure Compares (host : Host) (ws : List Word) (c z : Bool) (m m' : Machine) : Prop where
  runs : Runs host ws.length m m'
  straight : Straight ws.length m m'
  regs : m'.regs = m.regs
  compared : Compared c z (operands m rd ws) (operands m rr ws) m'.SREG

/-- One comparison and then the rest of the chain. -/
theorem Compares.cons {c z : Bool} (hws : ws ≠ []) (hone : Runs host 1 m (counted m₁))
    (hcomputes : Computes m m₁) (hregs : m₁.regs = m.regs)
    (hC : flag m₁.SREG FLAG_C = decide ((m.regs (rd w)).toNat < (m.regs (rr w)).toNat + c.toNat))
    (hZ : flag m₁.SREG FLAG_Z = (z && decide (m.regs (rd w) = m.regs (rr w))))
    (hrest : Compares host ws (flag m₁.SREG FLAG_C) (flag m₁.SREG FLAG_Z) (counted m₁) m') :
    Compares host (w :: ws) c z m m' := by
  have hsame : ∀ f, operands (counted m₁) f ws = operands m f ws := by
    intro f
    show ws.map (fun v => m₁.regs (f v)) = _
    rw [hregs]
    rfl
  have hcompared := hrest.compared
  rw [hsame, hsame] at hcompared
  refine ⟨?_, ?_, hrest.regs.trans hregs, ?_⟩
  · rw [List.length_cons, Nat.add_comm]
    exact hone.trans hrest.runs
  · exact Straight.cons hcomputes hrest.straight
  · exact Compared.cons (by simpa [operands] using hws) (by simpa [operands] using hws) hC hZ hcompared

/-- The last comparison of a chain. -/
theorem Compares.one {c z : Bool} (hone : Runs host 1 m (counted m₁)) (hcomputes : Computes m m₁)
    (hregs : m₁.regs = m.regs)
    (hC : flag m₁.SREG FLAG_C = decide ((m.regs (rd w)).toNat < (m.regs (rr w)).toNat + c.toNat))
    (hZ : flag m₁.SREG FLAG_Z = (z && decide (m.regs (rd w) = m.regs (rr w))))
    (hS : flag m₁.SREG FLAG_S = decide ((m.regs (rd w)).toInt < (m.regs (rr w)).toInt + c.toNat)) :
    Compares host [w] c z m (counted m₁) :=
  ⟨hone, Straight.cons hcomputes (Straight.refl _), hregs, Compared.one hC hZ hS⟩

/-- A chain of `CPC`s. -/
theorem compares_chain (hbudget : Budget ws.length m) (hcode : CodeAt host m.ctx m.PC ws)
    (hws : ∀ w ∈ ws, dispatch w = [.OP_C_PC]) (hne : ws ≠ [])
    (hz : flag m.SREG FLAG_Z = true → flag m.SREG FLAG_C = false) :
    ∃ m', Compares host ws (flag m.SREG FLAG_C) (flag m.SREG FLAG_Z) m m' := by
  induction ws generalizing m with
  | nil => exact absurd rfl hne
  | cons w ws ih =>
      have hone := runs_op hbudget.one hcode.1 (hws w List.mem_cons_self)
      obtain ⟨hcomputes, hregs, hC, hZ, hS⟩ := OP_C_PC_spec w m hz
      by_cases hlast : ws = []
      · subst hlast
        exact ⟨_, Compares.one hone hcomputes hregs hC hZ hS⟩
      · obtain ⟨hbudget', hcode'⟩ := hcomputes.rest hbudget hcode.2
        -- equal bytes after equal bytes: nothing is borrowed
        have hz' : flag (OP_C_PC w m).SREG FLAG_Z = true → flag (OP_C_PC w m).SREG FLAG_C = false := by
          intro hset
          rw [hZ, Bool.and_eq_true, decide_eq_true_iff] at hset
          rw [hC, hz hset.1, hset.2]
          simp
        obtain ⟨m', hm'⟩ :=
          ih hbudget' hcode' (fun v hv => hws v (List.mem_cons_of_mem w hv)) hlast hz'
        exact ⟨m', Compares.cons hlast hone hcomputes hregs hC hZ hm'⟩

/-- **What `CP` does**: it starts with no borrow, and takes the bytes before it
to be equal. -/
theorem OP_CP_spec (opcode : Word) (m : Machine) :
    Computes m (OP_CP opcode m) ∧ (OP_CP opcode m).regs = m.regs ∧
      flag (OP_CP opcode m).SREG FLAG_C =
        decide ((m.regs (rd opcode)).toNat < (m.regs (rr opcode)).toNat + false.toNat) ∧
      flag (OP_CP opcode m).SREG FLAG_Z = (true && decide (m.regs (rd opcode) = m.regs (rr opcode))) ∧
      flag (OP_CP opcode m).SREG FLAG_S =
        decide ((m.regs (rd opcode)).toInt < (m.regs (rr opcode)).toInt + false.toNat) := by
  obtain ⟨hcomputes, hregs, hC, hZ, hS⟩ := compare_spec m (m.regs (rd opcode)) (m.regs (rr opcode))
  refine ⟨hcomputes, hregs, hC, hZ, hS.trans ?_⟩
  rw [decide_eq_decide]
  simp

/-- A `CP` and a chain of `CPC`s. -/
theorem compares_first (hbudget : Budget (ws.length + 1) m) (hcode : CodeAt host m.ctx m.PC (w :: ws))
    (hw : dispatch w = [.OP_CP]) (hws : ∀ v ∈ ws, dispatch v = [.OP_C_PC]) :
    ∃ m', Compares host (w :: ws) false true m m' := by
  have hone := runs_op hbudget.one hcode.1 hw
  obtain ⟨hcomputes, hregs, hC, hZ, hS⟩ := OP_CP_spec w m
  by_cases hlast : ws = []
  · subst hlast
    exact ⟨_, Compares.one hone hcomputes hregs hC hZ hS⟩
  · obtain ⟨hbudget', hcode'⟩ := hcomputes.rest hbudget hcode.2
    have hz : flag (OP_CP w m).SREG FLAG_Z = true → flag (OP_CP w m).SREG FLAG_C = false := by
      intro hset
      rw [hZ, Bool.and_eq_true, decide_eq_true_iff] at hset
      rw [hC, hset.2]
      simp
    obtain ⟨m', hm'⟩ := compares_chain hbudget' hcode' hws hlast hz
    exact ⟨m', Compares.cons hlast hone hcomputes hregs hC hZ hm'⟩

/-- Where a branch under a condition goes from the word `wb` at `pc`. -/
def branchTarget (pc wb : Word) (b : Bool) : Word := if b then pc + branchDistance wb + 1 else pc + 1

/-- **Comparison of numbers of any length, and a branch**: on the carry flag it
is taken where the first is less without sign, on the zero flag where they are
equal, on the sign flag where the first is less in two's complement. -/
theorem compare_branch (host : Host) (m : Machine) (w : Word) (ws : List Word) (wb : Word)
    (hbudget : Budget (ws.length + 2) m) (hcode : CodeAt host m.ctx m.PC (w :: ws))
    (hbranch : Fetches host m.ctx (m.PC + BitVec.ofNat 16 (ws.length + 1)) wb)
    (hw : dispatch w = [.OP_CP]) (hws : ∀ v ∈ ws, dispatch v = [.OP_C_PC])
    (hwb : dispatch wb = [.OP_BRBS]) :
    ∃ m', Runs host (ws.length + 2) m m' ∧ m'.regs = m.regs ∧ m'.ctx = m.ctx ∧ m'.SP = m.SP ∧
      (bitNo wb = FLAG_C → m'.PC = branchTarget (m.PC + BitVec.ofNat 16 (ws.length + 1)) wb
        (value (operands m rd (w :: ws)) < value (operands m rr (w :: ws)))) ∧
      (bitNo wb = FLAG_Z → m'.PC = branchTarget (m.PC + BitVec.ofNat 16 (ws.length + 1)) wb
        (value (operands m rd (w :: ws)) = value (operands m rr (w :: ws)))) ∧
      (bitNo wb = FLAG_S → m'.PC = branchTarget (m.PC + BitVec.ofNat 16 (ws.length + 1)) wb
        (signed (operands m rd (w :: ws)) < signed (operands m rr (w :: ws)))) := by
  have hone : Budget (ws.length + 1) m := ⟨hbudget.1, by have := hbudget.2; omega⟩
  obtain ⟨u, hu⟩ := compares_first hone hcode hw hws
  have hPC := hu.straight.PC
  rw [List.length_cons] at hPC
  have hbudget' : Budget 1 u := by
    refine ⟨hu.straight.running.trans hbudget.1, ?_⟩
    have hcount := hbudget.2
    rw [hu.straight.instr_count, List.length_cons]
    unfold INSTR_LIMIT at hcount ⊢
    bv_omega
  have hrun : Runs host 1 u (counted (Op.OP_BRBS.exec host wb u)) :=
    runs_op hbudget' (by rw [hu.straight.ctx, hPC]; exact hbranch) hwb
  -- where the branch goes depends on the flag that it tests
  have hgoes : ∀ b : Bool, flag u.SREG (bitNo wb) = b →
      (counted (OP_BRBS wb u)).PC = branchTarget (m.PC + BitVec.ofNat 16 (ws.length + 1)) wb b := by
    rintro b rfl
    rw [← hPC]
    unfold OP_BRBS branchTarget
    split_ifs <;> rfl
  obtain ⟨hregs, hctx, hSP⟩ : (OP_BRBS wb u).regs = u.regs ∧ (OP_BRBS wb u).ctx = u.ctx ∧
      (OP_BRBS wb u).SP = u.SP := by
    unfold OP_BRBS
    split_ifs <;> exact ⟨rfl, rfl, rfl⟩
  have hsign : decide (signed (operands m rd (w :: ws)) < signed (operands m rr (w :: ws)) + false.toNat) =
      decide (signed (operands m rd (w :: ws)) < signed (operands m rr (w :: ws))) := by
    rw [decide_eq_decide]
    simp
  refine ⟨counted (OP_BRBS wb u), hu.runs.trans hrun, hregs.trans hu.regs, hctx.trans hu.straight.ctx,
    hSP.trans hu.straight.SP, ?_, ?_, ?_⟩
  · intro hbit
    apply hgoes
    rw [hbit]
    exact hu.compared.carry
  · intro hbit
    apply hgoes
    rw [hbit]
    exact hu.compared.zero
  · intro hbit
    apply hgoes
    rw [hbit]
    exact hu.compared.sign.trans hsign

/-- `CP r24, r22`, `CPC r25, r23` and `BRLT` two words on. -/
def compareHost : Host := Host.ofBytes [0x86, 0x17, 0x97, 0x07, 0x14, 0xf0]

/-- 511 is not less than 1: `BRLT` is not taken. -/
theorem compare_branch_word :
    ∃ m', Runs compareHost 3 started m' ∧ m'.regs = started.regs ∧ m'.ctx = started.ctx ∧
      m'.SP = started.SP ∧
      (bitNo 0xf014 = FLAG_C → m'.PC = branchTarget 2 0xf014 (511 < 1)) ∧
      (bitNo 0xf014 = FLAG_Z → m'.PC = branchTarget 2 0xf014 (511 = 1)) ∧
      (bitNo 0xf014 = FLAG_S → m'.PC = branchTarget 2 0xf014 ((511 : Int) < 1)) :=
  compare_branch compareHost started 0x1786 [0x0797] 0xf014 ⟨rfl, by decide⟩ (by decide) (by decide) rfl
    (List.forall_mem_singleton.mpr rfl) rfl

end Pobicos.Vm
