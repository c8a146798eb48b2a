import Pobicos.Vm.MultiByte

/-!
# Pobicos.Vm.Stack

The stack of an agent as a list.

The stack grows down from `STACK_TOP` in the data of the agent; `Holds m bs` says
that its first bytes are `bs`, the last one pushed first.  On it rest the two
uses that compiled code makes of it: registers that are saved and restored
around a body (`saved_registers`), and calls that return (`call_returns`).
-/

namespace Pobicos.Vm

open Octets CArray

variable {host : Host} {m m₁ m₂ m' : Machine} {w : Word} {ws vs : List Word} {b : Byte} {bs xs : List Byte}

/-! ## The stack as a list -/

/-- `dataBuffer[i]`, and 0 outside. -/
def dataAt (m : Machine) (i : Nat) : Byte := if h : i < DATA_SIZE then m.ctx.dataBuffer ⟨i, h⟩ else 0

/-- A write is seen at its own place. -/
theorem dataAt_setData (m : Machine) (i : Fin DATA_SIZE) (b : Byte) (j : Nat) :
    dataAt (m.setData i b) j = if j = i.val then b else dataAt m j := by
  unfold dataAt Machine.setData
  by_cases hj : j < DATA_SIZE
  · by_cases hji : j = i.val
    · subst hji
      simp
    · have hne : (⟨j, hj⟩ : Fin DATA_SIZE) ≠ i := fun h => hji (congrArg Fin.val h)
      simp [hj, hji, Function.update_of_ne hne]
  · have hne : j ≠ i.val := by
      rintro rfl
      exact hj i.isLt
    simp [hj, hne]

/-- The bytes `bs` are on the stack. -/
structure Holds (m : Machine) (bs : List Byte) : Prop where
  agent : m.ctx.agentID ≠ NO_AGENT
  low : 0x60 ≤ m.SP.toNat
  high : m.SP.toNat + bs.length ≤ STACK_TOP.toNat
  cells : ∀ i (hi : i < bs.length), dataAt m (m.SP.toNat + 1 + i - 0x60) = bs[i]

/-- The data above the address `sp` is the same. -/
def SameAbove (sp : Nat) (m m' : Machine) : Prop := ∀ i, sp < i + 0x60 → dataAt m' i = dataAt m i

/-- A step that starts further down leaves what is above the first one. -/
theorem SameAbove.trans {sp sp' : Nat} (h : SameAbove sp m m₁) (h' : SameAbove sp' m₁ m') (hle : sp' ≤ sp) :
    SameAbove sp m m' := by
  intro i hi
  rw [h' i (by omega), h i hi]

/-- The list depends on the data and the stack pointer only. -/
theorem Holds.same (h : Holds m bs) (hctx : m'.ctx = m.ctx) (hSP : m'.SP = m.SP) : Holds m' bs := by
  refine ⟨?_, ?_, ?_, ?_⟩
  · rw [hctx]
    exact h.agent
  · rw [hSP]
    exact h.low
  · rw [hSP]
    exact h.high
  · intro i hi
    have hcell := h.cells i hi
    rw [← hSP] at hcell
    rw [← hcell]
    simp only [dataAt, hctx]

/-- What a push or a pop leaves as it is. -/
structure OnlyStack (m m' : Machine) : Prop where
  regs : m'.regs = m.regs
  PC : m'.PC = m.PC
  depth : m'.depth = m.depth
  instr_count : m'.instr_count = m.instr_count
  running : m'.running = m.running
  status : m'.status = m.status
  agent : { m'.ctx with dataBuffer := m.ctx.dataBuffer } = m.ctx

/-- One stack operation after another. -/
theorem OnlyStack.trans (h : OnlyStack m m₁) (h' : OnlyStack m₁ m') : OnlyStack m m' where
  regs := h'.regs.trans h.regs
  PC := h'.PC.trans h.PC
  depth := h'.depth.trans h.depth
  instr_count := h'.instr_count.trans h.instr_count
  running := h'.running.trans h.running
  status := h'.status.trans h.status
  agent := by
    have hagent := congrArg (fun c : AgentContext => { c with dataBuffer := m.ctx.dataBuffer }) h'.agent
    exact hagent.trans h.agent

/-- **A push** puts its byte on the list. -/
theorem Holds.push (h : Holds m bs) (hroom : 0x60 < m.SP.toNat) (b : Byte) :
    Holds (stack_push m b) (b :: bs) ∧ OnlyStack m (stack_push m b) ∧
      (stack_push m b).SP.toNat + 1 = m.SP.toNat ∧ SameAbove m.SP.toNat m (stack_push m b) := by
  have hhigh : m.SP.toNat + bs.length ≤ 1119 := h.high
  have hgt : m.SP > 0x60 := BitVec.lt_def.mpr hroom
  -- the stack is in the data buffer, 0x60 below its addresses
  have hindex : (m.SP - 0x60).toNat = m.SP.toNat - 0x60 := by bv_omega
  have hlt : (m.SP - 0x60).toNat < DATA_SIZE := by
    rw [hindex]
    unfold DATA_SIZE
    omega
  have hSP : (m.SP - 1).toNat + 1 = m.SP.toNat := by bv_omega
  have hpush : stack_push m b = { m.setData ⟨(m.SP - 0x60).toNat, hlt⟩ b with SP := m.SP - 1 } := by
    rw [stack_push, if_pos hgt, Data.put8, if_neg h.agent, dif_pos hlt]
    rfl
  have hdata : ∀ i, dataAt (stack_push m b) i = if i = m.SP.toNat - 0x60 then b else dataAt m i := by
    intro i
    rw [hpush, ← hindex]
    exact dataAt_setData m _ b i
  have hcells : ∀ i (hi : i < (b :: bs).length),
      dataAt (stack_push m b) ((m.SP - 1).toNat + 1 + i - 0x60) = (b :: bs)[i] := by
    intro i hi
    rw [hdata, hSP]
    cases i with
    | zero => simp
    | succ i =>
        rw [if_neg (by omega), List.getElem_cons_succ, ← h.cells i (by simpa using hi)]
        congr 1
        omega
  have hsame : SameAbove m.SP.toNat m (stack_push m b) := by
    intro i hi
    rw [hdata, if_neg (by omega)]
  rw [hpush] at hcells hsame ⊢
  refine ⟨⟨h.agent, ?_, ?_, hcells⟩, ⟨rfl, rfl, rfl, rfl, rfl, rfl, rfl⟩, hSP, hsame⟩
  · show 0x60 ≤ (m.SP - 1).toNat
    omega
  · show (m.SP - 1).toNat + (b :: bs).length ≤ 1119
    rw [List.length_cons]
    omega

/-- **A pop** takes the first byte off it. -/
theorem Holds.pop (h : Holds m (b :: bs)) :
    (stack_pop m).1 = b ∧ Holds (stack_pop m).2 bs ∧ OnlyStack m (stack_pop m).2 ∧
      (stack_pop m).2.SP.toNat = m.SP.toNat + 1 ∧ SameAbove (m.SP.toNat + 1) m (stack_pop m).2 := by
  have hhigh : m.SP.toNat + (bs.length + 1) ≤ 1119 := h.high
  have hlow := h.low
  have hne : m.SP ≠ STACK_TOP := by
    unfold STACK_TOP
    bv_omega
  have hSP : (m.SP + 1).toNat = m.SP.toNat + 1 := by bv_omega
  have hindex : (m.SP + 1 - 0x60).toNat = m.SP.toNat + 1 - 0x60 := by bv_omega
  have hlt : (m.SP + 1 - 0x60).toNat < DATA_SIZE := by
    rw [hindex]
    unfold DATA_SIZE
    omega
  have hfirst : m.ctx.dataBuffer ⟨(m.SP + 1 - 0x60).toNat, hlt⟩ = b := by
    have hcell := h.cells 0 (by simp)
    rw [Nat.add_zero, ← hindex, dataAt, dif_pos hlt] at hcell
    exact hcell
  -- the cell that is read is cleared
  have hpop : stack_pop m =
      (b, { m.setData ⟨(m.SP + 1 - 0x60).toNat, hlt⟩ 0 with SP := m.SP + 1 }) := by
    rw [stack_pop, if_neg hne]
    simp only [Data.get8, Data.put8, if_neg h.agent, dif_pos hlt, orDataAddr, hfirst]
    rfl
  have hdata : ∀ i, dataAt (stack_pop m).2 i = if i = m.SP.toNat + 1 - 0x60 then 0 else dataAt m i := by
    intro i
    rw [hpop, ← hindex]
    exact dataAt_setData m _ 0 i
  have hcells : ∀ i (hi : i < bs.length), dataAt (stack_pop m).2 ((m.SP + 1).toNat + 1 + i - 0x60) = bs[i] := by
    intro i hi
    have hcell := h.cells (i + 1) (by simpa using hi)
    rw [List.getElem_cons_succ] at hcell
    rw [hdata, hSP, if_neg (by omega), ← hcell]
    congr 1
    omega
  have hsame : SameAbove (m.SP.toNat + 1) m (stack_pop m).2 := by
    intro i hi
    rw [hdata, if_neg (by omega)]
  rw [hpop] at hcells hsame ⊢
  refine ⟨rfl, ⟨h.agent, ?_, ?_, hcells⟩, ⟨rfl, rfl, rfl, rfl, rfl, rfl, rfl⟩, hSP, hsame⟩
  · show 0x60 ≤ (m.SP + 1).toNat
    omega
  · show (m.SP + 1).toNat + bs.length ≤ 1119
    omega

/-! ## Pushes and pops in a row -/

/-- `n` instructions in a row that work on registers, flags and the stack. -/
structure Moves (n : Nat) (m m' : Machine) : Prop where
  PC : m'.PC = m.PC + BitVec.ofNat 16 n
  depth : m'.depth = m.depth
  instr_count : m'.instr_count = m.instr_count + BitVec.ofNat 32 n
  running : m'.running = m.running
  status : m'.status = m.status
  agent : { m'.ctx with dataBuffer := m.ctx.dataBuffer } = m.ctx

theorem Moves.refl (m : Machine) : Moves 0 m m := ⟨by simp, rfl, by simp, rfl, rfl, rfl⟩

/-- One push or pop, with its program counter and its count. -/
theorem Moves.one (h : OnlyStack m m₁) : Moves 1 m (counted m₁.advance) where
  PC := by
    show m₁.PC + 1 = _
    rw [h.PC]
    rfl
  depth := h.depth
  instr_count := by
    show m₁.instr_count + 1 = _
    rw [h.instr_count]
    rfl
  running := h.running
  status := h.status
  agent := h.agent

/-- Some instructions after others. -/
theorem Moves.trans {k n : Nat} (h : Moves k m m₁) (h' : Moves n m₁ m') : Moves (k + n) m m' where
  PC := by rw [h'.PC, h.PC, BitVec.ofNat_add, BitVec.add_assoc]
  depth := h'.depth.trans h.depth
  instr_count := by rw [h'.instr_count, h.instr_count, BitVec.ofNat_add, BitVec.add_assoc]
  running := h'.running.trans h.running
  status := h'.status.trans h.status
  agent := by
    have hagent := congrArg (fun c : AgentContext => { c with dataBuffer := m.ctx.dataBuffer }) h'.agent
    exact hagent.trans h.agent

/-- The code is found by the agent, whatever is in its data. -/
theorem codeAt_agent {ctx ctx' : AgentContext} (h : { ctx' with dataBuffer := ctx.dataBuffer } = ctx)
    {pc : Word} (hcode : CodeAt host ctx pc ws) : CodeAt host ctx' pc ws := by
  induction ws generalizing pc with
  | nil => trivial
  | cons w ws ih =>
      obtain ⟨hfetch, hrest⟩ := hcode
      refine ⟨?_, ih hrest⟩
      rw [← h] at hfetch
      exact hfetch

/-- After one of them the budget is one less and the code is that of the rest. -/
theorem Moves.rest {n : Nat} (h : Moves 1 m m₁) (hbudget : Budget (n + 1) m)
    (hcode : CodeAt host m.ctx (m.PC + 1) ws) : Budget n m₁ ∧ CodeAt host m₁.ctx m₁.PC ws := by
  obtain ⟨hrun, hcount⟩ := hbudget
  refine ⟨⟨h.running.trans hrun, ?_⟩, ?_⟩
  · rw [h.instr_count]
    unfold INSTR_LIMIT at hcount ⊢
    bv_omega
  · rw [h.PC]
    exact codeAt_agent h.agent hcode

/-- What `PUSH`es in a row do. -/
structure Pushes (host : Host) (ws : List Word) (bs : List Byte) (m m' : Machine) : Prop where
  runs : Runs host ws.length m m'
  moves : Moves ws.length m m'
  regs : m'.regs = m.regs
  holds : Holds m' ((operands m rd ws).reverse ++ bs)
  SP : m'.SP.toNat + ws.length = m.SP.toNat
  same : SameAbove m.SP.toNat m m'

/-- **`PUSH`es in a row** put their registers on the list, the last one first, if
there is room. -/
theorem pushes (hbudget : Budget ws.length m) (hcode : CodeAt host m.ctx m.PC ws)
    (hws : ∀ w ∈ ws, dispatch w = [.OP_PUSH]) (h : Holds m bs) (hroom : 0x60 + ws.length ≤ m.SP.toNat) :
    ∃ m', Pushes host ws bs m m' := by
  induction ws generalizing m bs with
  | nil => exact ⟨m, Runs.refl m, Moves.refl m, rfl, h, by simp, fun _ _ => rfl⟩
  | cons w ws ih =>
      rw [List.length_cons] at hroom
      have hone := runs_op hbudget.one hcode.1 (hws w List.mem_cons_self)
      obtain ⟨hholds, honly, hSP, hsame⟩ := h.push (by omega) (m.regs (rd w))
      have hmoves := Moves.one honly
      obtain ⟨hbudget', hcode'⟩ := hmoves.rest hbudget hcode.2
      obtain ⟨m', hm'⟩ := ih hbudget' hcode' (fun v hv => hws v (List.mem_cons_of_mem w hv))
        (hholds.same rfl rfl) (by show _ ≤ (stack_push m _).SP.toNat; omega)
      refine ⟨m', ?_, ?_, hm'.regs.trans honly.regs, ?_, ?_, ?_⟩
      · rw [List.length_cons, Nat.add_comm]
        exact hone.trans hm'.runs
      · rw [List.length_cons, Nat.add_comm]
        exact hmoves.trans hm'.moves
      · have hsaved : operands (counted (stack_push m (m.regs (rd w))).advance) rd ws = operands m rd ws := by
          show ws.map (fun w => (stack_push m _).regs (rd w)) = _
          rw [honly.regs]
          rfl
        have hlist := hm'.holds
        rw [hsaved] at hlist
        simpa [operands] using hlist
      · have hrest : m'.SP.toNat + ws.length = (stack_push m (m.regs (rd w))).SP.toNat := hm'.SP
        rw [List.length_cons]
        omega
      · have hafter : SameAbove (stack_push m (m.regs (rd w))).SP.toNat (stack_push m (m.regs (rd w))) m' :=
          hm'.same
        exact hsame.trans hafter (by omega)

/-- What `POP`s in a row do to registers that were saved from `saved`. -/
structure Pops (host : Host) (vs : List Word) (saved : Reg → Byte) (bs : List Byte) (m m' : Machine) : Prop where
  runs : Runs host vs.length m m'
  moves : Moves vs.length m m'
  regs : ∀ r, m'.regs r = if r ∈ vs.map rd then saved r else m.regs r
  holds : Holds m' bs
  SP : m'.SP.toNat = m.SP.toNat + vs.length
  same : SameAbove m'.SP.toNat m m'

/-- **`POP`s in a row** take a list of saved registers off the stack. -/
theorem pops {saved : Reg → Byte} (hbudget : Budget vs.length m) (hcode : CodeAt host m.ctx m.PC vs)
    (hvs : ∀ v ∈ vs, dispatch v = [.OP_POP]) (h : Holds m ((vs.map fun v => saved (rd v)) ++ bs)) :
    ∃ m', Pops host vs saved bs m m' := by
  induction vs generalizing m with
  | nil => exact ⟨m, Runs.refl m, Moves.refl m, by simp, h, by simp, fun _ _ => rfl⟩
  | cons v vs ih =>
      have hone := runs_op hbudget.one hcode.1 (hvs v List.mem_cons_self)
      obtain ⟨hfirst, hholds, honly, hSP, hsame⟩ := Holds.pop h
      have honly' : OnlyStack m { (stack_pop m).2 with regs := m.regs } := { honly with regs := rfl }
      have hmoves : Moves 1 m (counted (toReg (rd v) (stack_pop m)).advance) :=
        ⟨(Moves.one honly').PC, honly.depth, (Moves.one honly').instr_count, honly.running, honly.status,
          honly.agent⟩
      obtain ⟨hbudget', hcode'⟩ := hmoves.rest hbudget hcode.2
      obtain ⟨m', hm'⟩ := ih hbudget' hcode' (fun u hu => hvs u (List.mem_cons_of_mem v hu))
        (hholds.same rfl rfl)
      refine ⟨m', ?_, ?_, ?_, hm'.holds, ?_, ?_⟩
      · rw [List.length_cons, Nat.add_comm]
        exact hone.trans hm'.runs
      · rw [List.length_cons, Nat.add_comm]
        exact hmoves.trans hm'.moves
      · intro r
        have hafter : (counted (toReg (rd v) (stack_pop m)).advance).regs =
            Function.update m.regs (rd v) (saved (rd v)) := by
          show Function.update (stack_pop m).2.regs (rd v) (stack_pop m).1 = _
          rw [honly.regs, hfirst]
        rw [hm'.regs r, hafter]
        by_cases hr : r = rd v
        · subst hr
          simp
        · simp [hr]
      · have hrest : m'.SP.toNat = (stack_pop m).2.SP.toNat + vs.length := hm'.SP
        rw [List.length_cons]
        omega
      · have hrest : m'.SP.toNat = (stack_pop m).2.SP.toNat + vs.length := hm'.SP
        have hafter : SameAbove m'.SP.toNat (stack_pop m).2 m' := hm'.same
        intro i hi
        rw [hafter i hi, hsame i (by omega)]

/-- What a body may do between a push and the pop that belongs to it. -/
structure KeepsStack (m m' : Machine) : Prop where
  SP : m'.SP = m.SP
  depth : m'.depth = m.depth
  agent : { m'.ctx with dataBuffer := m.ctx.dataBuffer } = m.ctx
  same : SameAbove m.SP.toNat m m'

/-- The agent stays the same one. -/
theorem agentID_eq (h : { m'.ctx with dataBuffer := m.ctx.dataBuffer } = m.ctx) :
    m'.ctx.agentID = m.ctx.agentID := by
  rw [← h]

/-- A body that keeps the stack keeps the list. -/
theorem KeepsStack.holds (h : KeepsStack m m') (hm : Holds m bs) : Holds m' bs := by
  refine ⟨?_, ?_, ?_, ?_⟩
  · rw [agentID_eq h.agent]
    exact hm.agent
  · rw [h.SP]
    exact hm.low
  · rw [h.SP]
    exact hm.high
  · intro i hi
    have hlow := hm.low
    rw [h.SP, h.same _ (by omega), hm.cells i hi]

/-- From before the pushes to after the pops. -/
theorem KeepsStack.around {n : Nat} (hpush : SameAbove m.SP.toNat m m₁) (hSP₁ : m₁.SP.toNat + n = m.SP.toNat)
    (hagent₁ : { m₁.ctx with dataBuffer := m.ctx.dataBuffer } = m.ctx) (hbody : KeepsStack m₁ m₂)
    (hpop : SameAbove m'.SP.toNat m₂ m') (hSP' : m'.SP.toNat = m₂.SP.toNat + n)
    (hagent' : { m'.ctx with dataBuffer := m₂.ctx.dataBuffer } = m₂.ctx) (hdepth : m'.depth = m.depth) :
    KeepsStack m m' := by
  have hSP : m'.SP = m.SP := by
    apply BitVec.eq_of_toNat_eq
    rw [hSP', hbody.SP, hSP₁]
  refine ⟨hSP, hdepth, ?_, ?_⟩
  · have h₂ := congrArg (fun c : AgentContext => { c with dataBuffer := m.ctx.dataBuffer }) hbody.agent
    have h' := congrArg (fun c : AgentContext => { c with dataBuffer := m.ctx.dataBuffer }) hagent'
    exact (h'.trans h₂).trans hagent₁
  · have hmid : SameAbove m.SP.toNat m m₂ := hpush.trans hbody.same (by omega)
    rw [hSP] at hpop
    exact hmid.trans hpop (Nat.le_refl _)

/-- **Registers around a body**: what `PUSH`es save and `POP`s in the opposite
order restore is as it was, whatever the body between them made of it; the
other registers are what the body left. -/
theorem saved_registers (host : Host) (m : Machine) (ws vs : List Word) (hbudget : Budget ws.length m)
    (hcode : CodeAt host m.ctx m.PC ws) (hws : ∀ w ∈ ws, dispatch w = [.OP_PUSH])
    (hvs : ∀ v ∈ vs, dispatch v = [.OP_POP]) (horder : vs.map rd = (ws.map rd).reverse)
    (hagent : m.ctx.agentID ≠ NO_AGENT) (hroom : 0x60 + ws.length ≤ m.SP.toNat)
    (htop : m.SP.toNat ≤ STACK_TOP.toNat) :
    ∃ m₁, Runs host ws.length m m₁ ∧ Moves ws.length m m₁ ∧ m₁.regs = m.regs ∧
      ∀ k m₂, Runs host k m₁ m₂ → KeepsStack m₁ m₂ → Budget vs.length m₂ →
        CodeAt host m₂.ctx m₂.PC vs →
        ∃ m', Runs host (ws.length + k + vs.length) m m' ∧ m'.PC = m₂.PC + BitVec.ofNat 16 vs.length ∧
          KeepsStack m m' ∧ ∀ r, m'.regs r = if r ∈ ws.map rd then m.regs r else m₂.regs r := by
  have hempty : Holds m [] := ⟨hagent, by omega, htop, fun i hi => absurd hi (Nat.not_lt_zero i)⟩
  obtain ⟨m₁, hm₁⟩ := pushes hbudget hcode hws hempty hroom
  refine ⟨m₁, hm₁.runs, hm₁.moves, hm₁.regs, ?_⟩
  intro k m₂ hruns hbody hbudget₂ hcode₂
  have hsaved : (operands m rd ws).reverse = vs.map fun v => m.regs (rd v) := by
    have hregs := congrArg (List.map m.regs) horder
    rw [List.map_map, List.map_reverse, List.map_map] at hregs
    exact hregs.symm
  have hholds := hbody.holds hm₁.holds
  rw [hsaved] at hholds
  obtain ⟨m', hm'⟩ := pops hbudget₂ hcode₂ hvs hholds
  have hlength : vs.length = ws.length := by simpa using congrArg List.length horder
  refine ⟨m', (hm₁.runs.trans hruns).trans hm'.runs, hm'.moves.PC, ?_, ?_⟩
  · refine KeepsStack.around hm₁.same hm₁.SP hm₁.moves.agent hbody hm'.same ?_ hm'.moves.agent ?_
    · rw [hm'.SP, hlength]
    · rw [hm'.moves.depth, hbody.depth, hm₁.moves.depth]
  · intro r
    rw [hm'.regs r, horder]
    simp only [List.mem_reverse]

/-- `LDI` sets one register and keeps the stack. -/
theorem keepsStack_LDI (host : Host) (w : Word) (m : Machine) : KeepsStack m (counted (Op.OP_LDI.exec host w m)) :=
  ⟨rfl, rfl, rfl, fun _ _ => rfl⟩

/-- `PUSH r28`, `PUSH r29`, `LDI r28, 7`, `POP r29` and `POP r28`. -/
def saveHost : Host := Host.ofBytes [0xcf, 0x93, 0xdf, 0x93, 0xc7, 0xe0, 0xdf, 0x91, 0xcf, 0x91]

/-- The body sets `r28` to 7, and it is 0 again. -/
theorem saved_registers_r28 :
    ∃ m₂ m', Runs saveHost 3 started m₂ ∧ m₂.regs 28 = 7 ∧ Runs saveHost 5 started m' ∧ KeepsStack started m' ∧
      m'.regs 28 = 0 := by
  obtain ⟨m₁, hruns, hmoves, hregs, hbody⟩ := saved_registers saveHost started [0x93cf, 0x93df] [0x91df, 0x91cf]
    ⟨rfl, by decide⟩ (by decide) (by simp only [List.forall_mem_cons]; exact ⟨rfl, rfl, nofun⟩)
    (by simp only [List.forall_mem_cons]; exact ⟨rfl, rfl, nofun⟩) (by decide) (by decide) (by decide) (by decide)
  have hcode : CodeAt saveHost m₁.ctx m₁.PC [0xe0c7, 0x91df, 0x91cf] := by
    rw [hmoves.PC]
    exact codeAt_agent hmoves.agent (by decide)
  have hrunning : m₁.running = true := hmoves.running
  have hcount : m₁.instr_count = 2 := hmoves.instr_count
  have hldi : Runs saveHost 1 m₁ (counted (Op.OP_LDI.exec saveHost 0xe0c7 m₁)) :=
    runs_op ⟨hrunning, by rw [hcount]; decide⟩ hcode.1 rfl
  have hbudget : Budget 2 (counted (Op.OP_LDI.exec saveHost 0xe0c7 m₁)) := by
    refine ⟨hrunning, ?_⟩
    show (m₁.instr_count + 1).toNat + 2 < _
    rw [hcount]
    decide
  obtain ⟨m', hruns', -, hkeeps, hrestored⟩ := hbody 1 _ hldi (keepsStack_LDI ..) hbudget hcode.2
  refine ⟨_, m', hruns.trans hldi, rfl, hruns', hkeeps, ?_⟩
  rw [hrestored 28, if_pos (by decide)]
  rfl

/-! ## Calls -/

/-- The word `w` calls `target` and the instruction after it is at `ret`. -/
inductive Calls (host : Host) (w : Word) (m : Machine) : Op → Word → Word → Prop
  | rcall : Calls host w m .OP_RCALL (m.PC + jumpDistance w + 1) (m.PC + 1)
  | icall : Calls host w m .OP_ICALL (m.pair 30) (m.PC + 1)
  | call {target : Word} (hfetch : Fetches host m.ctx (m.PC + 1) target) (hlow : target &&& 0x8000 = 0) :
      Calls host w m .OP_CALL target (m.PC + 1 + 1)

/-- The two pushes of a return address. -/
theorem Holds.pushAddress (h : Holds m bs) (hroom : 0x62 ≤ m.SP.toNat) (addr : Word) :
    Holds (pushAddress m addr) (addr.setWidth 8 :: (addr >>> 8).setWidth 8 :: bs) ∧
      OnlyStack m (pushAddress m addr) ∧ (pushAddress m addr).SP.toNat + 2 = m.SP.toNat ∧
      SameAbove m.SP.toNat m (pushAddress m addr) := by
  obtain ⟨hhi, honly, hSP, hsame⟩ := h.push (by omega) ((addr >>> 8).setWidth 8)
  obtain ⟨hlo, honly', hSP', hsame'⟩ := hhi.push (by omega) (addr.setWidth 8)
  refine ⟨hlo, honly.trans honly', ?_, hsame.trans hsame' (by omega)⟩
  show (stack_push (stack_push m _) _).SP.toNat + 2 = _
  omega

/-- The two bytes of an address, put together again. -/
theorem address_of_bytes (addr : Word) :
    ((addr >>> 8).setWidth 8 : Byte).setWidth 16 <<< 8 ||| (addr.setWidth 8 : Byte).setWidth 16 = addr := by
  ext i hi
  simp
  grind

/-- The two pops of it. -/
theorem Holds.popAddress {addr : Word} (h : Holds m (addr.setWidth 8 :: (addr >>> 8).setWidth 8 :: bs)) :
    (popAddress m).PC = addr ∧ OnlyStack m { popAddress m with PC := m.PC } ∧ Holds (popAddress m) bs ∧
      (popAddress m).SP.toNat = m.SP.toNat + 2 ∧ SameAbove (m.SP.toNat + 2) m (popAddress m) := by
  obtain ⟨hfirst, hlo, honly, hSP, hsame⟩ := h.pop
  obtain ⟨hsecond, hhi, honly', hSP', hsame'⟩ := hlo.pop
  refine ⟨?_, ?_, hhi.same rfl rfl, ?_, ?_⟩
  · show (stack_pop (stack_pop m).2).1.setWidth 16 <<< 8 ||| (stack_pop m).1.setWidth 16 = addr
    rw [hfirst, hsecond]
    exact address_of_bytes addr
  · exact { honly.trans honly' with PC := rfl }
  · show (stack_pop (stack_pop m).2).2.SP.toNat = _
    omega
  · intro i hi
    have hafter : dataAt (stack_pop (stack_pop m).2).2 i = dataAt (stack_pop m).2 i := hsame' i (by omega)
    exact hafter.trans (hsame i (by omega))

/-- The machine that has entered what it calls. -/
structure Enters (target ret : Word) (m m₁ : Machine) : Prop where
  PC : m₁.PC = target
  depth : m₁.depth = m.depth + 1
  regs : m₁.regs = m.regs
  holds : Holds m₁ [ret.setWidth 8, (ret >>> 8).setWidth 8]
  SP : m₁.SP.toNat + 2 = m.SP.toNat
  instr_count : m₁.instr_count = m.instr_count + 1
  running : m₁.running = m.running
  agent : { m₁.ctx with dataBuffer := m.ctx.dataBuffer } = m.ctx
  same : SameAbove m.SP.toNat m m₁

/-- The three calls differ in where they go and in what they leave behind, not
in what they push. -/
theorem Calls.enters {op : Op} {target ret : Word} (h : Calls host w m op target ret) (hm : Holds m [])
    (hroom : 0x62 ≤ m.SP.toNat) : Enters target ret m (counted (op.exec host w m)) := by
  have henters : ∀ pc, Enters target ret m (counted (enter (Vm.pushAddress { m with PC := pc } ret) target)) := by
    intro pc
    have hm' : Holds { m with PC := pc } [] := hm.same rfl rfl
    obtain ⟨hholds, honly, hSP, hsame⟩ := hm'.pushAddress hroom ret
    refine ⟨rfl, ?_, honly.regs, hholds.same rfl rfl, hSP, ?_, honly.running, honly.agent, hsame⟩
    · show (Vm.pushAddress { m with PC := pc } ret).depth + 1 = _
      rw [honly.depth]
    · show (Vm.pushAddress { m with PC := pc } ret).instr_count + 1 = _
      rw [honly.instr_count]
  obtain ⟨-, honly, -, -⟩ := hm.pushAddress hroom ret
  cases h with
  | rcall =>
      have hexec : Op.OP_RCALL.exec host w m =
          enter (Vm.pushAddress m (m.PC + 1)) (m.PC + jumpDistance w + 1) := by
        show enter _ ((Vm.pushAddress m (m.PC + 1)).PC + jumpDistance w + 1) = _
        rw [honly.PC]
      rw [hexec]
      exact henters m.PC
  | icall =>
      have hexec : Op.OP_ICALL.exec host w m = enter (Vm.pushAddress m (m.PC + 1)) (m.pair 30) := by
        show enter _ ((Vm.pushAddress m (m.PC + 1)).pair 30) = _
        unfold Machine.pair
        rw [honly.regs]
      rw [hexec]
      exact henters m.PC
  | call hfetch hlow =>
      have hexec : Op.OP_CALL.exec host w m =
          enter (Vm.pushAddress { m with PC := m.PC + 1 } (m.PC + 1 + 1)) target := by
        have hextension : code_get_opcode_extension host m.advance = (target, m.advance) :=
          get16_of_fetches (m := m.advance) hfetch
        show OP_CALL host m = _
        simp only [OP_CALL, hextension, hlow, ne_eq, not_true_eq_false, if_false]
        rfl
      rw [hexec]
      exact henters (m.PC + 1)

/-- **A call returns**: a body that leaves the stack as it found it and ends with
`RET` goes on behind the call, with the stack and the depth from before it.  The
depth is a byte: from 255 it becomes 0, and then the `RET` ends the run. -/
theorem call_returns (host : Host) (m : Machine) (w : Word) (op : Op) (target ret : Word)
    (hcalls : Calls host w m op target ret) (hbudget : Budget 1 m) (hfetch : Fetches host m.ctx m.PC w)
    (hop : dispatch w = [op]) (hagent : m.ctx.agentID ≠ NO_AGENT) (hroom : 0x62 ≤ m.SP.toNat)
    (htop : m.SP.toNat ≤ STACK_TOP.toNat) :
    ∃ m₁, Runs host 1 m m₁ ∧ Enters target ret m m₁ ∧
      ∀ k m₂, Runs host k m₁ m₂ → KeepsStack m₁ m₂ → Budget 1 m₂ → Fetches host m₂.ctx m₂.PC 0x9508 →
        ∃ m', Runs host (1 + k + 1) m m' ∧ m'.regs = m₂.regs ∧ m'.status = m₂.status ∧
          if m.depth = 255 then m'.running = false
          else m'.running = true ∧ m'.PC = ret ∧ KeepsStack m m' := by
  have hempty : Holds m [] := ⟨hagent, by omega, htop, fun i hi => absurd hi (Nat.not_lt_zero i)⟩
  have hcall := runs_op hbudget hfetch hop
  have henters := hcalls.enters hempty hroom
  refine ⟨_, hcall, henters, ?_⟩
  intro k m₂ hruns hbody hbudget₂ hfetch₂
  have hret : Runs host 1 m₂ (counted (Op.OP_RET.exec host 0x9508 m₂)) := runs_op hbudget₂ hfetch₂ rfl
  have hdepth : m₂.depth = m.depth + 1 := hbody.depth.trans henters.depth
  have hall := (hcall.trans hruns).trans hret
  -- the depth that the `RET` sees is one more, which is 0 after 255
  by_cases hlast : m.depth = 255
  · have hexec : Op.OP_RET.exec host 0x9508 m₂ = { m₂ with running := false } := by
      show OP_RET m₂ = _
      rw [OP_RET, hdepth, hlast]
      rfl
    rw [hexec] at hall
    refine ⟨_, hall, rfl, rfl, ?_⟩
    rw [if_pos hlast]
    rfl
  · have hne : m₂.depth ≠ 0 := by
      rw [hdepth]
      bv_omega
    have hexec : Op.OP_RET.exec host 0x9508 m₂ = popAddress { m₂ with depth := m₂.depth - 1 } := by
      show OP_RET m₂ = _
      rw [OP_RET, if_neg hne]
    rw [hexec] at hall
    have hholds : Holds { m₂ with depth := m₂.depth - 1 } _ := (hbody.holds henters.holds).same rfl rfl
    obtain ⟨hPC, honly, -, hSP, hsame⟩ := hholds.popAddress
    refine ⟨_, hall, honly.regs, honly.status, ?_⟩
    rw [if_neg hlast]
    refine ⟨honly.running.trans hbudget₂.1, hPC, ?_⟩
    refine KeepsStack.around henters.same henters.SP henters.agent hbody ?_ hSP honly.agent ?_
    · intro i hi
      have habove : m₂.SP.toNat + 2 < i + 0x60 := by
        have hSP' : (counted (popAddress { m₂ with depth := m₂.depth - 1 })).SP.toNat = m₂.SP.toNat + 2 := hSP
        omega
      exact hsame i habove
    · show (popAddress _).depth = _
      rw [honly.depth]
      show m₂.depth - 1 = m.depth
      rw [hdepth]
      bv_omega

/-- An `RCALL` of the word after the next, where there are `LDI r28, 7` and
`RET`. -/
def callHost : Host := Host.ofBytes [0x01, 0xd0, 0x00, 0x00, 0xc7, 0xe0, 0x08, 0x95]

/-- The call leaves 7 in `r28` and goes on behind it. -/
theorem call_returns_rcall :
    ∃ m', Runs callHost 3 started m' ∧ m'.regs 28 = 7 ∧ m'.running = true ∧ m'.PC = 1 ∧ KeepsStack started m' := by
  obtain ⟨m₁, -, henters, hbody⟩ := call_returns callHost started 0xd001 .OP_RCALL 2 1 .rcall
    ⟨rfl, by decide⟩ (by decide) rfl (by decide) (by decide) (by decide)
  have hcode : CodeAt callHost m₁.ctx m₁.PC [0xe0c7, 0x9508] := by
    rw [henters.PC]
    exact codeAt_agent henters.agent (by decide)
  have hrunning : m₁.running = true := henters.running
  have hcount : m₁.instr_count = 1 := henters.instr_count
  have hldi : Runs callHost 1 m₁ (counted (Op.OP_LDI.exec callHost 0xe0c7 m₁)) :=
    runs_op ⟨hrunning, by rw [hcount]; decide⟩ hcode.1 rfl
  have hbudget : Budget 1 (counted (Op.OP_LDI.exec callHost 0xe0c7 m₁)) := by
    refine ⟨hrunning, ?_⟩
    show (m₁.instr_count + 1).toNat + 1 < _
    rw [hcount]
    decide
  obtain ⟨m', hruns, hregs, -, hafter⟩ := hbody 1 _ hldi (keepsStack_LDI ..) hbudget hcode.2.1
  rw [if_neg (by decide)] at hafter
  refine ⟨m', hruns, ?_, hafter⟩
  rw [hregs]
  rfl

end Pobicos.Vm
