import Pobicos.Vm.Execution
import Pobicos.Lib.Lts

/-!
# Pobicos.Vm.Session

Runs of event handlers.

A handler that calls a command which answers later is blocked, and the next
call of `run` goes on with it; between the calls the answer arrives through
`CommandDataI`, and when no handler is blocked the context may be exchanged.
However it is split up, a handler executes at most 131072 instructions
(`handler_bounded`), and every call of `run` comes back (`run_returns`).
-/

namespace Pobicos.Vm

open Octets CArray

variable {host : Host} {m m' : Machine}

/-! ## One call of `run` -/

/-- The fuel that is always enough. -/
def RUN_FUEL : Nat := 131072

/-- The statuses that `run` reports when it has run. -/
def outcomes : List InterpreterStatus :=
  [ST_OK, ST_PRIMITIVE, ST_TIMEOUT, ST_STACK, ST_CODE_ADDR, ST_DATA_ADDR, ST_BLOCKED]

theorem ok_mem_outcomes : ST_OK ∈ outcomes := by decide

theorem timeout_mem_outcomes : ST_TIMEOUT ∈ outcomes := by decide

theorem stack_mem_outcomes : ST_STACK ∈ outcomes := by decide

/-- What a body stops with is reported. -/
theorem outcomes_of_faults {st : InterpreterStatus} (h : st ∈ faults) : st ∈ outcomes := by
  revert st
  decide

/-- What holds throughout the loop. -/
structure InLoop (m₀ m : Machine) : Prop where
  status : m.running = true → m.status = ST_OK
  stopped : m.status ∈ outcomes
  agent : { m.ctx with dataBuffer := m₀.ctx.dataBuffer } = m₀.ctx
  limit : m.instr_count = INSTR_LIMIT → m.status = ST_TIMEOUT

/-- **One pass** keeps it: the body stops with a fault or goes on with `ST_OK`,
and the limit stops with `ST_TIMEOUT`. -/
theorem InLoop.pass {m₀ m : Machine} (h : InLoop m₀ m) (hrun : m.running = true) :
    InLoop m₀ (loopBody host m) := by
  have hframe := frame_fetchAndStep host m
  have hok := h.status hrun
  have hagent : { (fetchAndStep host m).ctx with dataBuffer := m₀.ctx.dataBuffer } = m₀.ctx := by
    have hmid := congrArg (fun c : AgentContext => { c with dataBuffer := m₀.ctx.dataBuffer }) hframe.agent
    exact hmid.trans h.agent
  have hstopped : (fetchAndStep host m).status ∈ outcomes := by
    obtain heq | hfault := hframe.status
    · rw [heq]
      exact h.stopped
    · exact outcomes_of_faults hfault
  rw [loopBody_eq]
  unfold countInstr
  dsimp only
  split_ifs with hlimit
  · exact ⟨fun hr => (nomatch hr), timeout_mem_outcomes, hagent, fun _ => rfl⟩
  · refine ⟨fun hr => ?_, hstopped, hagent, fun heq => absurd heq hlimit⟩
    exact (hframe.running hr).2.trans hok

/-- It holds at the start, of a new handler and of one that goes on after a
command. -/
theorem inLoop_begin (startAddress : AgentMemAddr) (hcount : m.status = ST_BLOCKED → m.instr_count ≠ INSTR_LIMIT) :
    InLoop m (beginRun startAddress m) := by
  unfold beginRun
  split_ifs with hblocked
  · exact ⟨fun _ => rfl, ok_mem_outcomes, rfl, fun heq => absurd heq (hcount hblocked)⟩
  · have hzero : (0 : BitVec 32) ≠ INSTR_LIMIT := by decide
    exact ⟨fun _ => rfl, ok_mem_outcomes, rfl, fun heq => absurd heq hzero⟩

/-- The loop of `run` ends. -/
theorem loop_returns (host : Host) (startAddress : AgentMemAddr) (m : Machine)
    (hcount : m.status = ST_BLOCKED → m.instr_count.toNat < INSTR_LIMIT.toNat) :
    ∃ u, whileRunning host RUN_FUEL (beginRun startAddress m) = some u ∧ u.running = false ∧
      InLoop m u := by
  have hleft : passesLeft (beginRun startAddress m) + 1 ≤ RUN_FUEL := by
    unfold beginRun passesLeft RUN_FUEL INSTR_LIMIT
    split_ifs with hblocked
    · have hlt := hcount hblocked
      unfold INSTR_LIMIT at hlt
      simp only
      bv_omega
    · simp only
      decide
  obtain ⟨u, hu, hstop⟩ := whileRunning_ends host (m := beginRun startAddress m)
  have hfuel := whileRunning_mono hu (RUN_FUEL - (passesLeft (beginRun startAddress m) + 1))
  rw [Nat.add_sub_cancel' hleft] at hfuel
  refine ⟨u, hfuel, hstop, ?_⟩
  refine whileRunning_induct (fun x hrun hx => hx.pass hrun) (inLoop_begin startAddress ?_) hu
  intro hblocked heq
  have hlt := hcount hblocked
  rw [heq] at hlt
  exact Nat.lt_irrefl _ hlt

/-- **The end of `run`**: `ST_OK` with a stack that is not empty is reported as
`ST_STACK`. -/
theorem endRun_cases (m : Machine) :
    endRun m = m ∧ (m.status = ST_OK → m.SP = STACK_TOP) ∨ endRun m = { m with status := ST_STACK } := by
  unfold endRun
  split_ifs with hstack
  · exact .inr rfl
  · refine .inl ⟨rfl, fun hok => ?_⟩
    by_contra hne
    exact hstack ⟨hok, hne⟩

/-- **`run` comes back**, with one of seven statuses, and has touched nothing of
the context but the data; `ST_OK` only with an empty stack. -/
theorem run_returns (host : Host) (startAddress : AgentMemAddr) (m : Machine) (hidle : m.running = false)
    (hcount : m.status = ST_BLOCKED → m.instr_count.toNat < INSTR_LIMIT.toNat) :
    ∃ st m', run host RUN_FUEL startAddress m = some (st, m') ∧ m'.running = false ∧ m'.status = st ∧
      st ∈ outcomes ∧ (st = ST_OK → m'.SP = STACK_TOP) ∧
      { m'.ctx with dataBuffer := m.ctx.dataBuffer } = m.ctx := by
  obtain ⟨u, hu, hstop, hloop⟩ := loop_returns host startAddress m hcount
  refine ⟨(endRun u).status, endRun u, ?_, ?_⟩
  · rw [run, hidle, hu]
    rfl
  · obtain ⟨hsame, hstack⟩ | hstack := endRun_cases u
    · rw [hsame]
      exact ⟨hstop, rfl, hloop.stopped, hstack, hloop.agent⟩
    · rw [hstack]
      exact ⟨hstop, rfl, stack_mem_outcomes, fun h => (nomatch h), hloop.agent⟩

/-- The code sections are the given bytes, and commands do nothing. -/
def Host.ofBytes (bs : List Byte) : Host where
  code := fun _ addr => bs.getD addr.toNat 0
  order := .little
  callCommand := fun _ _ => ([], true)

/-- A handler that ends at once. -/
def returnAtOnce : Host := Host.ofBytes [0x08, 0x95]

/-- After `Init.init()`, with the context of an agent. -/
def booted : Machine where
  regs := fun _ => 0
  PC := 0
  SP := STACK_TOP
  SREG := 0
  depth := 0
  instr_count := 0
  running := false
  status := ST_OK
  waiting_for_return_value := false
  ctx := {
    agentID := 1
    agentType := 1
    suspendState := 0
    dataAddr := 14
    dataLength := 512
    codeLength := 64
    dataBuffer := fun _ => 0
    contextSaved := false }

/-- A handler that is a single `RET`. -/
theorem run_returns_atOnce :
    ∃ st m', run returnAtOnce RUN_FUEL 0 booted = some (st, m') ∧ m'.running = false ∧ m'.status = st ∧
      st ∈ outcomes ∧ (st = ST_OK → m'.SP = STACK_TOP) ∧
      { m'.ctx with dataBuffer := booted.ctx.dataBuffer } = booted.ctx :=
  run_returns returnAtOnce 0 booted rfl fun h => nomatch h

/-! ## Calls one after another -/

/-- What happens to the interpreter from outside: a call of `run`, an answer or
another call through `CommandDataI`, and another context. -/
inductive SessionCall
  | run (startAddress : AgentMemAddr)
  | command (c : CommandDataCall)
  | context (ctx : AgentContext)

/-- The machine, and how many instructions the handler that was started last has
executed. -/
structure Session where
  machine : Machine
  executed : Nat

/-- One call. -/
def Session.step (host : Host) (s : Session) : SessionCall → Option Session
  | .run startAddress =>
      let m := beginRun startAddress s.machine
      (Vm.run host RUN_FUEL startAddress s.machine).map fun r =>
        ⟨r.2, (if s.machine.status = ST_BLOCKED then s.executed else 0) + passes host RUN_FUEL m⟩
  | .command c => some ⟨c.exec s.machine, s.executed⟩
  | .context ctx => some ⟨{ s.machine with ctx }, s.executed⟩

/-- A machine between two calls. -/
structure Idle (s : Session) : Prop where
  running : s.machine.running = false
  executed : s.executed ≤ 131072
  blocked : s.machine.status = ST_BLOCKED →
    s.machine.instr_count.toNat = s.executed ∧ s.executed < INSTR_LIMIT.toNat

/-- A call through `CommandDataI` does not block the interpreter. -/
theorem status_command (m : Machine) (c : CommandDataCall) :
    (c.exec m).status ∈ [m.status, ST_PRIMITIVE, ST_DATA_ADDR] := by
  have hput : ∀ r : Bool × Machine, r.2.status ∈ [m.status, ST_PRIMITIVE, ST_DATA_ADDR] →
      (orDataAddr r).status ∈ [m.status, ST_PRIMITIVE, ST_DATA_ADDR] := by
    rintro ⟨_ | _, x⟩ h
    · simp [orDataAddr, Machine.stop]
    · exact h
  have hreturn : ∀ (x : Machine) (size : Byte) (value : BitVec 32),
      (returnValue x size value).status ∈ [x.status, ST_PRIMITIVE, ST_DATA_ADDR] := by
    intro x size value
    unfold returnValue
    split_ifs <;> simp [Machine.setReg, Machine.stop]
  cases c with
  | genericCommandCalled => simp [CommandDataCall.exec]
  | returnValue size value => exact hreturn m size value
  | returnValueReady size value => exact hreturn _ (size * 8) value
  | getAtPointer addr =>
      show (Data.get8 m (addr - 0x60)).2.status ∈ _
      generalize addr - 0x60 = a
      unfold Data.get8
      split_ifs <;> simp [Machine.stop]
  | get32AtPointer addr =>
      show (Data.get32 m (addr - 0x60)).2.status ∈ _
      generalize addr - 0x60 = a
      unfold Data.get32
      split_ifs <;> simp [Machine.stop]
  | setAtPointer addr data =>
      apply hput
      generalize addr - 0x60 = a
      unfold Data.put8
      split_ifs <;> simp [Machine.stop, Machine.setData]
  | set32AtPointer addr data =>
      apply hput
      generalize addr - 0x60 = a
      unfold Data.put32
      split_ifs <;> simp [Machine.stop, Machine.setData]

/-- A value that comes for a command, between two calls, neither starts the
machine nor counts. -/
theorem Idle.command {s : Session} (h : Idle s) (c : CommandDataCall) :
    Idle ⟨c.exec s.machine, s.executed⟩ := by
  have hframe := Frame.command s.machine c
  have hstatus := status_command s.machine c
  refine ⟨?_, h.executed, ?_⟩
  · cases hrun : (c.exec s.machine).running with
    | false => rfl
    | true => exact absurd ((hframe.running hrun).1.symm.trans h.running) (by decide)
  · intro hblocked
    rw [hframe.instr_count]
    apply h.blocked
    have hst : (c.exec s.machine).status = ST_BLOCKED := hblocked
    rw [hst] at hstatus
    simp only [List.mem_cons, reduceCtorEq, List.not_mem_nil, or_false] at hstatus
    exact hstatus.symm

/-- The counter at the start of the loop. -/
theorem Idle.begin {s : Session} (h : Idle s) (startAddress : AgentMemAddr) :
    (beginRun startAddress s.machine).instr_count.toNat =
        (if s.machine.status = ST_BLOCKED then s.executed else 0) ∧
      (if s.machine.status = ST_BLOCKED then s.executed else 0) < INSTR_LIMIT.toNat := by
  unfold beginRun
  split_ifs with hblocked
  · exact h.blocked hblocked
  · exact ⟨rfl, by decide⟩

/-- One call of `run`: it comes back, and the instructions add up. -/
theorem Idle.run {s : Session} (h : Idle s) (startAddress : AgentMemAddr) :
    ∃ t, s.step host (.run startAddress) = some t ∧ Idle t := by
  obtain ⟨hbegin, hlt⟩ := h.begin startAddress
  obtain ⟨u, hu, hstop, hloop⟩ := loop_returns host startAddress s.machine fun hb => by
    rw [(h.blocked hb).1]
    exact (h.blocked hb).2
  have hcount := instr_count_whileRunning hu
  have hle := passes_le host RUN_FUEL (beginRun startAddress s.machine)
  have hstep : s.step host (.run startAddress) = some ⟨endRun u,
      (if s.machine.status = ST_BLOCKED then s.executed else 0) +
        passes host RUN_FUEL (beginRun startAddress s.machine)⟩ := by
    rw [Session.step, Vm.run, h.running, hu]
    rfl
  refine ⟨_, hstep, ?_⟩
  generalize (if s.machine.status = ST_BLOCKED then s.executed else 0) = base at hbegin hlt ⊢
  generalize passes host RUN_FUEL (beginRun startAddress s.machine) = n at hcount hle ⊢
  unfold passesLeft at hle
  -- the counter is the number of all passes, as it is kept over a block
  have hsum : u.instr_count.toNat = base + n ∧ base + n ≤ 131072 := by
    unfold INSTR_LIMIT at hle hlt
    bv_omega
  have hblocked : u.status = ST_BLOCKED → base + n < INSTR_LIMIT.toNat := by
    intro hst
    have hne : u.instr_count ≠ INSTR_LIMIT := fun heq => by
      rw [hloop.limit heq] at hst
      exact nomatch hst
    unfold INSTR_LIMIT at hne ⊢
    bv_omega
  obtain ⟨hsame, -⟩ | hstack := endRun_cases u
  · rw [hsame]
    exact ⟨hstop, hsum.2, fun hst => ⟨hsum.1, hblocked hst⟩⟩
  · rw [hstack]
    exact ⟨hstop, hsum.2, fun hst => nomatch hst⟩

/-- Before the first call. -/
theorem idle_start {m : Machine} (hidle : m.running = false) (hst : m.status ≠ ST_BLOCKED) :
    Idle ⟨m, 0⟩ := ⟨hidle, Nat.zero_le _, fun hb => absurd hb hst⟩

/-- **Step lemma**: every call comes back to an idle machine. -/
theorem Idle.step {s : Session} (h : Idle s) (c : SessionCall) : ∃ t, s.step host c = some t ∧ Idle t := by
  cases c with
  | run startAddress => exact h.run startAddress
  | command c => exact ⟨_, rfl, h.command c⟩
  | context ctx => exact ⟨_, rfl, h.running, h.executed, h.blocked⟩

/-- **A handler executes at most 131072 instructions**, however often it blocks
and whatever happens in between, and every call of `run` comes back. -/
theorem handler_bounded (host : Host) (m : Machine) (hidle : m.running = false)
    (hst : m.status ≠ ST_BLOCKED) (calls : List SessionCall) :
    ∃ t, Lts.run (Session.step host) ⟨m, 0⟩ calls = some t ∧ t.machine.running = false ∧
      t.executed ≤ 131072 := by
  have hrun : ∀ s, Idle s → ∃ t, Lts.run (Session.step host) s calls = some t ∧ Idle t := by
    induction calls with
    | nil => exact fun s hs => ⟨s, rfl, hs⟩
    | cons c calls ih =>
        intro s hs
        obtain ⟨t, ht, hidle'⟩ := hs.step c
        obtain ⟨u, hu, hidle''⟩ := ih t hidle'
        exact ⟨u, Lts.run_cons_eq_some.mpr ⟨t, ht, hu⟩, hidle''⟩
  obtain ⟨t, ht, hidle'⟩ := hrun ⟨m, 0⟩ (idle_start hidle hst)
  exact ⟨t, ht, hidle'.running, hidle'.executed⟩

/-- A command that answers later, and the end of the handler. -/
def commandAndReturn : Host := Host.ofBytes [0x0e, 0x94, 0x00, 0x80, 0x08, 0x95]

/-- The command blocks the handler, which goes on when it has answered. -/
theorem handler_bounded_resumed :
    (∃ s, Lts.run (Session.step commandAndReturn) ⟨booted, 0⟩ [.run 0] = some s ∧ s.machine.status = ST_BLOCKED) ∧
      ∃ t, Lts.run (Session.step commandAndReturn) ⟨booted, 0⟩ [.run 0, .command (.returnValueReady 1 7), .run 0] =
          some t ∧ t.machine.running = false ∧ t.executed ≤ 131072 ∧ t.machine.status = ST_OK := by
  have hblocked : (Lts.run (Session.step commandAndReturn) ⟨booted, 0⟩ [.run 0]).map (fun s => s.machine.status) =
      some ST_BLOCKED := by decide +kernel
  have hended : (Lts.run (Session.step commandAndReturn) ⟨booted, 0⟩
      [.run 0, .command (.returnValueReady 1 7), .run 0]).map (fun t => t.machine.status) = some ST_OK := by
    decide +kernel
  obtain ⟨s, hs, hstatus⟩ := Option.map_eq_some_iff.mp hblocked
  obtain ⟨t, ht, hstop, hle⟩ := handler_bounded commandAndReturn booted rfl (by decide)
    [.run 0, .command (.returnValueReady 1 7), .run 0]
  rw [ht] at hended
  exact ⟨⟨s, hs, hstatus⟩, t, ht, hstop, hle, Option.some.inj hended⟩

/-! ## Words that no case selects -/

/-- One pass over such a word only counts. -/
theorem loopBody_of_unknown {w : Word} (hnone : dispatch w = []) {m : Machine}
    (hfetch : Fetches host m.ctx m.PC w) : loopBody host m = countInstr m := by
  unfold loopBody
  rw [get16_of_fetches hfetch]
  simp [single_step, hnone]

/-- **A word that is no instruction is executed over and over**: the run ends
with `ST_TIMEOUT`, and nothing else has changed. -/
theorem unknown_opcode_times_out (host : Host) {w : Word} (hnone : dispatch w = []) (m : Machine)
    (hrun : m.running = true) (hcount : m.instr_count.toNat < INSTR_LIMIT.toNat)
    (hfetch : Fetches host m.ctx m.PC w) :
    whileRunning host RUN_FUEL m =
      some { m with instr_count := INSTR_LIMIT, running := false, status := ST_TIMEOUT } := by
  -- `k` is how many passes are left before the last one
  have hends : ∀ k, ∀ x : Machine, x.running = true → x.instr_count.toNat + k + 1 = INSTR_LIMIT.toNat →
      Fetches host x.ctx x.PC w → whileRunning host (k + 1) x =
        some { x with instr_count := INSTR_LIMIT, running := false, status := ST_TIMEOUT } := by
    intro k
    induction k with
    | zero =>
        intro x hx hk hf
        have hlimit : x.instr_count + 1 = INSTR_LIMIT := by
          unfold INSTR_LIMIT at hk ⊢
          bv_omega
        rw [whileRunning, if_pos hx, loopBody_of_unknown hnone hf]
        simp only [countInstr, if_pos hlimit]
        rw [hlimit]
        rfl
    | succ k ih =>
        intro x hx hk hf
        have hlimit : x.instr_count + 1 ≠ INSTR_LIMIT := by
          unfold INSTR_LIMIT at hk ⊢
          bv_omega
        have hnext : (x.instr_count + 1).toNat + k + 1 = INSTR_LIMIT.toNat := by
          unfold INSTR_LIMIT at hk ⊢
          bv_omega
        rw [whileRunning, if_pos hx, loopBody_of_unknown hnone hf]
        simp only [countInstr, if_neg hlimit]
        exact ih { x with instr_count := x.instr_count + 1 } hx hnext hf
  have hfuel := hends (131071 - m.instr_count.toNat) m hrun
    (by unfold INSTR_LIMIT at hcount ⊢; bv_omega) hfetch
  have hmore := whileRunning_mono hfuel (RUN_FUEL - (131071 - m.instr_count.toNat + 1))
  rwa [Nat.add_sub_cancel' (by unfold RUN_FUEL; omega)] at hmore

/-- `0x9494`, for one. -/
theorem unknown_opcode_times_out_9494 :
    whileRunning (Host.ofBytes [0x94, 0x94]) RUN_FUEL { booted with running := true } =
      some { booted with instr_count := INSTR_LIMIT, running := false, status := ST_TIMEOUT } :=
  unknown_opcode_times_out (Host.ofBytes [0x94, 0x94]) (w := 0x9494) rfl { booted with running := true }
    rfl (by decide) (by decide)

end Pobicos.Vm
