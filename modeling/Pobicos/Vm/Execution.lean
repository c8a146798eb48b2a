import Pobicos.Vm.SingleStep

/-!
# Pobicos.Vm.Execution

What no instruction can do, and the rule for running one.

`Frame m m'` is what every body keeps to: it does not touch the instruction
counter, nor of the context anything but the data, and it starts nothing: a
machine that still runs has the status it had.  `Runs host n m m'` says that `n`
passes of the loop lead from `m` to `m'`; `runs_op` is the rule for one
instruction, and instructions one after another are put together with
`Runs.trans`.
-/

namespace Pobicos.Vm

open Octets CArray

variable {host : Host} {m m' m'' : Machine}

/-! ## Frames -/

/-- The statuses that a body can stop with. -/
def faults : List InterpreterStatus := [ST_PRIMITIVE, ST_CODE_ADDR, ST_DATA_ADDR, ST_BLOCKED]

/-- What every body leaves as it is. -/
structure Frame (m m' : Machine) : Prop where
  instr_count : m'.instr_count = m.instr_count
  agent : { m'.ctx with dataBuffer := m.ctx.dataBuffer } = m.ctx
  running : m'.running = true → m.running = true ∧ m'.status = m.status
  status : m'.status = m.status ∨ m'.status ∈ faults

namespace Frame

/-- Nothing at all is done. -/
theorem refl (m : Machine) : Frame m m := ⟨rfl, rfl, fun h => ⟨h, rfl⟩, .inl rfl⟩

/-- **One after the other**: what the second body is handed is what the first one
leaves, and a machine that runs at the end has run in between. -/
theorem trans (h : Frame m m') (h' : Frame m' m'') : Frame m m'' where
  instr_count := h'.instr_count.trans h.instr_count
  agent := by
    have hagent := congrArg (fun c : AgentContext => { c with dataBuffer := m.ctx.dataBuffer }) h'.agent
    exact hagent.trans h.agent
  running hr :=
    have hmid := h'.running hr
    have hfirst := h.running hmid.1
    ⟨hfirst.1, hmid.2.trans hfirst.2⟩
  status := by
    obtain heq | hfault := h'.status
    · rw [heq]
      exact h.status
    · exact .inr hfault

/-- What changes neither the control nor the context. -/
theorem of_eq (hcount : m'.instr_count = m.instr_count) (hctx : m'.ctx = m.ctx)
    (hrun : m'.running = m.running) (hstatus : m'.status = m.status) : Frame m m' := by
  refine ⟨hcount, ?_, ?_, .inl hstatus⟩
  · rw [hctx]
  · intro h
    exact ⟨hrun ▸ h, hstatus⟩

/-- A body that fails stops the machine. -/
theorem stop (m : Machine) {st : InterpreterStatus} (h : st ∈ faults) : Frame m (m.stop st) :=
  ⟨rfl, rfl, fun h => (nomatch h), .inr h⟩

/-- A register is no part of the control. -/
theorem setReg (m : Machine) (r : Reg) (b : Byte) : Frame m (m.setReg r b) := of_eq rfl rfl rfl rfl

/-- Nor is a byte of the data. -/
theorem setData (m : Machine) (i : Fin DATA_SIZE) (b : Byte) : Frame m (m.setData i b) :=
  ⟨rfl, rfl, fun h => ⟨h, rfl⟩, .inl rfl⟩

theorem advance (m : Machine) : Frame m m.advance := of_eq rfl rfl rfl rfl

/-- A body that branches keeps to it if both branches do. -/
theorem ite {p : Prop} [Decidable p] (h : Frame m m') (h' : Frame m m'') :
    Frame m (if p then m' else m'') := by
  split
  · exact h
  · exact h'

/-! ### Memory -/

/-- A read of the data buffer stops the machine or changes nothing. -/
theorem get8 (m : Machine) (addr : AgentMemAddr) : Frame m (Data.get8 m addr).2 := by
  unfold Data.get8
  split_ifs
  · exact refl m
  · exact refl m
  · exact stop m (by decide)

theorem get32 (m : Machine) (addr : AgentMemAddr) : Frame m (Data.get32 m addr).2 := by
  unfold Data.get32
  split_ifs
  · exact refl m
  · exact refl m
  · exact stop m (by decide)

/-- A write to the data buffer stops the machine or changes the data. -/
theorem put8 (m : Machine) (addr : AgentMemAddr) (b : Byte) : Frame m (Data.put8 m addr b).2 := by
  unfold Data.put8
  split_ifs
  · exact refl m
  · exact setData m _ b
  · exact stop m (by decide)

theorem put32 (m : Machine) (addr : AgentMemAddr) (w : BitVec 32) : Frame m (Data.put32 m addr w).2 := by
  unfold Data.put32
  split_ifs
  · exact refl m
  · exact (((setData m _ _).trans (setData _ _ _)).trans (setData _ _ _)).trans (setData _ _ _)
  · exact stop m (by decide)

/-- A failed write is one more way to stop. -/
theorem orDataAddr {r : Bool × Machine} (h : Frame m r.2) : Frame m (Vm.orDataAddr r) := by
  obtain ⟨ok, m'⟩ := r
  cases ok with
  | true => exact h
  | false => exact h.trans (stop m' (by decide))

/-- **Loads**: registers, the stack pointer and the flags are read at their
addresses, the data behind them. -/
theorem data_ld (m : Machine) (address : Word) : Frame m (Vm.data_ld m address).2 := by
  unfold Vm.data_ld
  split_ifs
  · exact refl m
  · exact refl m
  · exact refl m
  · exact refl m
  · exact stop m (by decide)
  · exact get8 m _

/-- **Stores** to the same addresses. -/
theorem data_st (m : Machine) (address : Word) (b : Byte) : Frame m (Vm.data_st m address b) := by
  unfold Vm.data_st
  split_ifs
  · exact setReg m _ b
  · exact of_eq rfl rfl rfl rfl
  · exact of_eq rfl rfl rfl rfl
  · exact of_eq rfl rfl rfl rfl
  · exact stop m (by decide)
  · exact orDataAddr (put8 m _ b)

/-- A push writes one byte and moves the stack pointer. -/
theorem stack_push (m : Machine) (b : Byte) : Frame m (Vm.stack_push m b) := by
  have hput := put8 m (m.SP - 0x60) b
  unfold Vm.stack_push
  split_ifs
  · split
    case h_1 m' heq =>
      rw [heq] at hput
      exact hput.trans (of_eq rfl rfl rfl rfl)
    case h_2 m' heq =>
      rw [heq] at hput
      exact hput.trans (stop m' (by decide))
  · exact stop m (by decide)

/-- A pop clears the byte that it reads, so it writes as well. -/
theorem stack_pop (m : Machine) : Frame m (Vm.stack_pop m).2 := by
  unfold Vm.stack_pop
  split_ifs
  · exact stop m (by decide)
  · have hraise : Frame m { m with SP := m.SP + 1 } := of_eq rfl rfl rfl rfl
    exact (hraise.trans (get8 _ _)).trans (orDataAddr (put8 _ _ 0))

/-- Code is read and never written; outside of it the machine stops. -/
theorem codeGet8 (host : Host) (m : Machine) (addr : AgentMemAddr) : Frame m (Code.get8 host.code m addr).2 := by
  unfold Code.get8
  split_ifs
  · exact refl m
  · exact stop m (by decide)
  · exact refl m

theorem codeGet16 (host : Host) (m : Machine) (addr : AgentMemAddr) :
    Frame m (Code.get16 host.code host.order m addr).2 := by
  unfold Code.get16
  split_ifs
  · exact refl m
  · exact stop m (by decide)
  · exact refl m

/-! ### Bodies -/

theorem toReg (d : Reg) {r : Byte × Machine} (h : Frame m r.2) : Frame m (Vm.toReg d r) :=
  h.trans (setReg r.2 d r.1)

/-- The program counter is no part of the frame. -/
theorem next (h : Frame m m') : Frame m m'.advance := h.trans (advance m')

/-- Nor are the flags. -/
theorem judged (m : Machine) (sreg : Byte) : Frame m (m.judged sreg) := of_eq rfl rfl rfl rfl

theorem result (m : Machine) (d : Reg) (b sreg : Byte) : Frame m (m.result d b sreg) :=
  (setReg m d b).trans (judged _ sreg)

theorem pairResult (m : Machine) (r : Reg) (w : Word) (sreg : Byte) :
    Frame m ((m.setPair r w).judged sreg) := of_eq rfl rfl rfl rfl

theorem incPair (r : Reg) (m : Machine) : Frame m (Vm.incPair r m) := by
  unfold Vm.incPair
  exact ite (of_eq rfl rfl rfl rfl) (of_eq rfl rfl rfl rfl)

theorem decPair (r : Reg) (m : Machine) : Frame m (Vm.decPair r m) := by
  unfold Vm.decPair
  exact ite (of_eq rfl rfl rfl rfl) (of_eq rfl rfl rfl rfl)

theorem LD (r : Reg) (opcode : Word) (m : Machine) : Frame m (Vm.LD r opcode m) :=
  (toReg _ (data_ld m _)).next

theorem ST (r : Reg) (opcode : Word) (m : Machine) : Frame m (Vm.ST r opcode m) :=
  (data_st m _ _).next

theorem jump (m : Machine) (target : Word) : Frame m { m with PC := target } := of_eq rfl rfl rfl rfl

theorem enter (m : Machine) (target : Word) : Frame m (Vm.enter m target) := of_eq rfl rfl rfl rfl

theorem pushAddress (m : Machine) (addr : Word) : Frame m (Vm.pushAddress m addr) :=
  (stack_push m _).trans (stack_push _ _)

theorem popAddress (m : Machine) : Frame m (Vm.popAddress m) :=
  ((stack_pop m).trans (stack_pop _)).trans (jump _ _)

/-- A skip moves the program counter by one or two words. -/
theorem skipIf (b : Bool) (opcode : Word) (m : Machine) : Frame m (Vm.skipIf b opcode m) := by
  refine (ite ?_ (refl m)).next
  exact ite (of_eq rfl rfl rfl rfl) (advance m)

/-- A command returns its value in registers, or stops for a size it does not
know. -/
theorem returnValue (m : Machine) (size : Byte) (value : BitVec 32) :
    Frame m (Vm.returnValue m size value) := by
  unfold Vm.returnValue
  refine ite (refl m) (ite ?_ (ite ?_ (ite ?_ (stop m (by decide)))))
  all_goals exact of_eq rfl rfl rfl rfl

/-- **One call of a command** through `CommandDataI`. -/
theorem command (m : Machine) (c : CommandDataCall) : Frame m (c.exec m) := by
  cases c with
  | genericCommandCalled => exact of_eq rfl rfl rfl rfl
  | returnValue size value => exact returnValue m size value
  | returnValueReady size value =>
      have hclear : Frame m { m with waiting_for_return_value := false } := of_eq rfl rfl rfl rfl
      exact hclear.trans (returnValue _ _ _)
  | getAtPointer addr => exact get8 m _
  | get32AtPointer addr => exact get32 m _
  | setAtPointer addr data => exact orDataAddr (put8 m _ _)
  | set32AtPointer addr data => exact orDataAddr (put32 m _ _)

/-- Any number of calls. -/
theorem commands (m : Machine) (cs : List CommandDataCall) :
    Frame m (cs.foldl CommandDataCall.exec m) := by
  induction cs generalizing m with
  | nil => exact refl m
  | cons c cs ih => exact (command m c).trans (ih _)

/-- **A command**: whatever it calls, it ends the body, or stops it blocked or
failed. -/
theorem execute_primitive (idx : Word) (m : Machine) : Frame m (Vm.execute_primitive host idx m) := by
  have hwait : Frame m { m with waiting_for_return_value := true } := of_eq rfl rfl rfl rfl
  have hcalls := hwait.trans (commands { m with waiting_for_return_value := true }
    (host.callCommand idx { m with waiting_for_return_value := true }).1)
  have hok : ∀ (ok : Bool) (x : Machine), Frame x (if ok then x else x.stop ST_PRIMITIVE) := by
    intro ok x
    exact ite (refl x) (stop x (by decide))
  have hblock : ∀ x : Machine, Frame x (if x.waiting_for_return_value then x.stop ST_BLOCKED else x) := by
    intro x
    exact ite (stop x (by decide)) (refl x)
  exact (hcalls.trans (hok _ _)).trans (hblock _)

/-- **Frame of the instructions**: the body of every instruction keeps to it. -/
theorem exec (host : Host) (opcode : Word) (op : Op) (m : Machine) : Frame m (op.exec host opcode m) := by
  cases op
  case OP_LDS =>
    exact (toReg _ (((advance m).trans (codeGet16 host _ _)).trans (data_ld _ _))).next
  case OP_STS => exact (((advance m).trans (codeGet16 host _ _)).trans (data_st _ _ _)).next
  case OP_JMP => exact ((advance m).trans (codeGet16 host _ _)).trans (jump _ _)
  case OP_CALL =>
    have hfetch : Frame m (code_get_opcode_extension host m.advance).2 :=
      (advance m).trans (codeGet16 host _ _)
    refine hfetch.trans (ite ?_ ?_)
    · exact (execute_primitive _ _).next
    · exact (pushAddress _ _).trans (enter _ _)
  case OP_LDD_Y => exact (toReg _ (data_ld m _)).next
  case OP_LDD_Z => exact (toReg _ (data_ld m _)).next
  case OP_STD_Y => exact (data_st m _ _).next
  case OP_STD_Z => exact (data_st m _ _).next
  case LD r => exact LD r opcode m
  case LD_ADD r => exact (LD r opcode m).trans (incPair r _)
  case SUB_LD r => exact (decPair r m).trans (LD r opcode _)
  case ST r => exact ST r opcode m
  case ST_ADD r => exact (ST r opcode m).trans (incPair r _)
  case SUB_ST r => exact (decPair r m).trans (ST r opcode _)
  case OP_LPM =>
    have hload := toReg (if opcode = 0x95c8 then 0 else rd opcode) (codeGet8 host m (m.pair 30))
    exact (hload.trans (ite (incPair _ _) (refl _))).next
  case OP_POP => exact (toReg _ (stack_pop m)).next
  case OP_PUSH => exact (stack_push m _).next
  case OP_IN => exact (toReg _ (data_ld m _)).next
  case OP_OUT => exact (data_st m _ _).next
  case OP_RCALL => exact (pushAddress m _).trans (enter _ _)
  case OP_ICALL => exact (pushAddress m _).trans (enter _ _)
  case OP_RET =>
    have hdepth : Frame m { m with depth := m.depth - 1 } := of_eq rfl rfl rfl rfl
    exact ite ⟨rfl, rfl, fun h => (nomatch h), .inl rfl⟩ (hdepth.trans (popAddress _))
  case OP_RETI =>
    have hdepth : Frame m { m with depth := m.depth - 1 } := of_eq rfl rfl rfl rfl
    exact ite ⟨rfl, rfl, fun h => (nomatch h), .inl rfl⟩
      ((hdepth.trans (popAddress _)).trans (judged _ _))
  case OP_CPSE => exact skipIf _ opcode m
  case OP_SBIC => exact skipIf _ opcode m
  case OP_SBRC => exact skipIf _ opcode m
  case OP_SBRS => exact skipIf _ opcode m
  case OP_BRBS => exact ite (jump m _) (advance m)
  case OP_BRBC => exact ite (advance m) (jump m _)
  -- what is left computes on registers and flags only
  case OP_CP | OP_CPI | OP_C_PC | OP_BST | OP_BSET | OP_BCLR => exact (judged m _).next
  case OP_ADIW | OP_SBIW | OP_MUL | OP_MULS | OP_MULSU | OP_FMUL | OP_FMULS | OP_FMULSU =>
    exact (pairResult m _ _ _).next
  case OP_NOP | OP_SLEEP | OP_WDR | OP_SBI | OP_CBI | OP_SBIS => exact advance m
  case OP_LDI | OP_MOV | OP_SWAP | OP_BLD => exact (setReg m _ _).next
  case OP_MOVW => exact ((setReg m _ _).trans (setReg _ _ _)).next
  case OP_IJMP | OP_RJMP => exact jump m _
  all_goals exact (result m _ _ _).next

/-- **No instruction** does more than the frame says. -/
theorem single_step (host : Host) (opcode : Word) (m : Machine) : Frame m (Vm.single_step host opcode m) := by
  unfold Vm.single_step
  generalize dispatch opcode = ops
  induction ops generalizing m with
  | nil => exact refl m
  | cons op ops ih => exact (exec host opcode op m).trans (ih _)

end Frame

/-! ## Passes of the loop -/

/-- The pass without the counter. -/
def fetchAndStep (host : Host) (m : Machine) : Machine :=
  let (opcode, m) := Code.get16 host.code host.order m (m.PC <<< 1)
  single_step host opcode m

/-- A pass is an instruction and the counter. -/
theorem loopBody_eq (m : Machine) : loopBody host m = countInstr (fetchAndStep host m) := rfl

/-- The opcode is fetched within the frame as well. -/
theorem frame_fetchAndStep (host : Host) (m : Machine) : Frame m (fetchAndStep host m) :=
  (Frame.codeGet16 host m _).trans (Frame.single_step host _ _)

/-- The passes that are left before the counter is at its limit, and one less. -/
def passesLeft (m : Machine) : Nat := (INSTR_LIMIT - 1 - m.instr_count).toNat

/-- **Every pass is counted**, and by one, as no body touches the counter. -/
theorem instr_count_loopBody (host : Host) (m : Machine) : (loopBody host m).instr_count = m.instr_count + 1 := by
  rw [loopBody_eq, ← (frame_fetchAndStep host m).instr_count]
  unfold countInstr
  dsimp only
  split_ifs <;> rfl

/-- The last pass that is left stops the run. -/
theorem running_loopBody {m : Machine} (h : (loopBody host m).running = true) :
    passesLeft m = passesLeft (loopBody host m) + 1 := by
  have hcount := instr_count_loopBody host m
  have hne : m.instr_count + 1 ≠ INSTR_LIMIT := by
    intro hlimit
    have hfetch := (frame_fetchAndStep host m).instr_count
    rw [loopBody_eq] at h
    unfold countInstr at h
    simp only [hfetch, hlimit, if_true] at h
    exact nomatch h
  have hlt := m.instr_count.isLt
  rw [passesLeft, passesLeft, hcount]
  unfold INSTR_LIMIT at hne ⊢
  bv_omega

/-- **The loop ends**, at the latest when the counter is at its limit. -/
theorem whileRunning_ends (host : Host) {m : Machine} :
    ∃ m', whileRunning host (passesLeft m + 1) m = some m' ∧ m'.running = false := by
  generalize hk : passesLeft m = k
  induction k generalizing m with
  | zero =>
      cases hrun : m.running with
      | false => exact ⟨m, by simp [whileRunning, hrun], hrun⟩
      | true =>
          have hstop : (loopBody host m).running = false := by
            cases hbody : (loopBody host m).running with
            | false => rfl
            | true =>
                have := running_loopBody hbody
                omega
          exact ⟨loopBody host m, by simp [whileRunning, hrun, hstop], hstop⟩
  | succ k ih =>
      cases hrun : m.running with
      | false => exact ⟨m, by simp [whileRunning, hrun], hrun⟩
      | true =>
          cases hbody : (loopBody host m).running with
          | false => exact ⟨loopBody host m, by simp [whileRunning, hrun, hbody], hbody⟩
          | true =>
              have hleft := running_loopBody hbody
              obtain ⟨m', hm', hstop⟩ := ih (m := loopBody host m) (by omega)
              exact ⟨m', by rw [whileRunning, if_pos hrun, hm'], hstop⟩

/-- More fuel changes nothing. -/
theorem whileRunning_mono {fuel : Nat} (h : whileRunning host fuel m = some m') (more : Nat) :
    whileRunning host (fuel + more) m = some m' := by
  induction fuel generalizing m with
  | zero =>
      rw [whileRunning] at h
      split_ifs at h with hrun
      cases h
      cases more with
      | zero => simp [whileRunning, hrun]
      | succ more => simp [whileRunning, hrun]
  | succ fuel ih =>
      rw [Nat.succ_add, whileRunning]
      rw [whileRunning] at h
      split_ifs at h ⊢ with hrun
      · exact ih h
      · exact h

/-- **Loop rule**: what every pass of a machine that runs preserves holds at the
end. -/
theorem whileRunning_induct {P : Machine → Prop}
    (hpass : ∀ m, m.running = true → P m → P (loopBody host m)) {fuel : Nat} (hm : P m)
    (h : whileRunning host fuel m = some m') : P m' := by
  induction fuel generalizing m with
  | zero =>
      rw [whileRunning] at h
      split_ifs at h
      cases h
      exact hm
  | succ fuel ih =>
      rw [whileRunning] at h
      split_ifs at h with hrun
      · exact ih (hpass m hrun hm) h
      · cases h
        exact hm

/-- The passes that the loop makes. -/
def passes (host : Host) : Nat → Machine → Nat
  | 0, _ => 0
  | fuel + 1, m => if m.running then passes host fuel (loopBody host m) + 1 else 0

/-- The counter counts them. -/
theorem instr_count_whileRunning {fuel : Nat} (h : whileRunning host fuel m = some m') :
    m'.instr_count = m.instr_count + BitVec.ofNat 32 (passes host fuel m) := by
  induction fuel generalizing m with
  | zero =>
      rw [whileRunning] at h
      split_ifs at h
      cases h
      simp [passes]
  | succ fuel ih =>
      rw [whileRunning] at h
      rw [passes]
      split_ifs at h ⊢
      · rw [ih h, instr_count_loopBody]
        bv_omega
      · cases h
        simp

/-- **The limit**: there are at most as many passes as the counter has left, and
the one that stops. -/
theorem passes_le (host : Host) (fuel : Nat) (m : Machine) : passes host fuel m ≤ passesLeft m + 1 := by
  induction fuel generalizing m with
  | zero => exact Nat.zero_le _
  | succ fuel ih =>
      rw [passes]
      split_ifs
      · cases hbody : (loopBody host m).running with
        | true =>
            have hleft := running_loopBody hbody
            have hrest := ih (loopBody host m)
            omega
        | false =>
            have hnone : passes host fuel (loopBody host m) = 0 := by
              cases fuel with
              | zero => rfl
              | succ fuel => simp [passes, hbody]
            omega
      · omega

/-! ## One instruction after another -/

/-- The word `w` is in the code where the program counter is `pc`. -/
def Fetches (host : Host) (ctx : AgentContext) (pc w : Word) : Prop :=
  ctx.agentID ≠ NO_AGENT ∧ ((pc <<< 1).toNat : Int) < ctx.codeLength.toNat - 1 ∧
    host.order.read 16 [host.code ctx.agentType (pc <<< 1), host.code ctx.agentType (pc <<< 1 + 1)] = w

instance {ctx : AgentContext} {pc w : Word} : Decidable (Fetches host ctx pc w) :=
  inferInstanceAs (Decidable (_ ∧ _ ∧ _))

/-- The words `ws` are in the code from `pc` on. -/
def CodeAt (host : Host) (ctx : AgentContext) : Word → List Word → Prop
  | _, [] => True
  | pc, w :: ws => Fetches host ctx pc w ∧ CodeAt host ctx (pc + 1) ws

instance decidableCodeAt (host : Host) (ctx : AgentContext) :
    (pc : Word) → (ws : List Word) → Decidable (CodeAt host ctx pc ws)
  | _, [] => isTrue trivial
  | pc, w :: ws =>
      haveI := decidableCodeAt host ctx (pc + 1) ws
      inferInstanceAs (Decidable (Fetches host ctx pc w ∧ CodeAt host ctx (pc + 1) ws))

/-- A word of the code is fetched as it is, without a change of the machine. -/
theorem get16_of_fetches {pc w : Word} (h : Fetches host m.ctx pc w) :
    Code.get16 host.code host.order m (pc <<< 1) = (w, m) := by
  obtain ⟨hagent, hlen, hw⟩ := h
  rw [Code.get16, if_neg hagent, if_neg (by omega), hw]

/-- `n` passes lead from `m` to `m'`. -/
def Runs (host : Host) (n : Nat) (m m' : Machine) : Prop :=
  ∀ fuel, whileRunning host (fuel + n) m = whileRunning host fuel m'

/-- No pass. -/
theorem Runs.refl (m : Machine) : Runs host 0 m m := fun _ => rfl

/-- Passes after passes. -/
theorem Runs.trans {k n : Nat} (h : Runs host k m m') (h' : Runs host n m' m'') :
    Runs host (k + n) m m'' := by
  intro fuel
  rw [Nat.add_comm k n, ← Nat.add_assoc, h (fuel + n), h' fuel]

/-- The machine after the body of one instruction. -/
def counted (m : Machine) : Machine := { m with instr_count := m.instr_count + 1 }

/-- There is room for `n` more instructions. -/
def Budget (n : Nat) (m : Machine) : Prop := m.running = true ∧ m.instr_count.toNat + n < INSTR_LIMIT.toNat

/-- **Rule for one instruction.** -/
theorem runs_op {w : Word} {op : Op} (hbudget : Budget 1 m) (hfetch : Fetches host m.ctx m.PC w)
    (hop : dispatch w = [op]) : Runs host 1 m (counted (op.exec host w m)) := by
  obtain ⟨hrun, hcount⟩ := hbudget
  have hframe := Frame.exec host w op m
  have hbody : loopBody host m = counted (op.exec host w m) := by
    have hne : (op.exec host w m).instr_count + 1 ≠ INSTR_LIMIT := by
      rw [hframe.instr_count]
      unfold INSTR_LIMIT at hcount ⊢
      bv_omega
    unfold loopBody
    rw [get16_of_fetches hfetch]
    simp only [single_step, hop, List.foldl_cons, List.foldl_nil, countInstr, counted]
    rw [if_neg hne]
  intro fuel
  rw [whileRunning, if_pos hrun, hbody]

end Pobicos.Vm
