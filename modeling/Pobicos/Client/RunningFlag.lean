import Pobicos.Client.ConnectionManager
import Pobicos.Client.ReadLoop
import Pobicos.Client.WriteTask

/-!
# Pobicos.Client.RunningFlag

The field `Running` of the read and write threads, from one statement of `run`
that can leave the loop to the next.

`cleanup()` clears the field, and `run` returns after it; but a thread that
finds itself interrupted at its loop condition, and a reader that throws what it
does not catch, leave without it.  `always_honest_iff` says that nothing else
does.
-/

namespace Pobicos.Client

open Nio Octets Framing NetworkMsg Serialization

/-! ## What a reader can handle -/

/-- The frame can be handled with the payload at hand, its own or, if that is
empty, the one before. -/
def Handleable (t : ReadTask) (f : Frame) : Prop :=
  (f.tag = REG_REPLY_WELCOME → ∃ b ∈ (t.took f).payload, 6 ≤ b.array.length) ∧
    (f.tag = POBICOS_MSG → (t.took f).payload ≠ none)

instance decidableHandleable (t : ReadTask) (f : Frame) : Decidable (Handleable t f) :=
  inferInstanceAs (Decidable (_ ∧ _))

namespace ReadTask

variable {t : ReadTask} {f : Frame}

/-- A WELCOME is handled, or throws no `IOException`. -/
theorem handle_welcome_spec (htag : f.tag = REG_REPLY_WELCOME) :
    (∃ effects, (∃ b ∈ (t.took f).payload, 6 ≤ b.array.length) ∧ (t.took f).handle f.body.length = .ok effects) ∨
      ∃ x, (¬ ∃ b ∈ (t.took f).payload, 6 ≤ b.array.length) ∧ x.isIOException = false ∧
        (t.took f).handle f.body.length = .error x := by
  cases hpayload : (t.took f).payload with
  | none =>
      refine Or.inr ⟨.nullPointer, by simp, rfl, ?_⟩
      rw [handle_took, hpayload, if_pos htag]
      rfl
  | some b =>
      by_cases hlen : 6 ≤ b.array.length
      · obtain ⟨a, s, -, -, hok⟩ := handle_welcome_buffer hpayload htag hlen
        exact Or.inl ⟨_, ⟨b, rfl, hlen⟩, hok⟩
      · refine Or.inr ⟨_, by simpa using hlen, rfl, handle_welcome_buffer_short hpayload htag ?_⟩
        exact Nat.lt_of_not_le hlen

/-- So is a message. -/
theorem handle_message_spec (htag : f.tag = POBICOS_MSG) :
    (∃ effects, (t.took f).payload ≠ none ∧ (t.took f).handle f.body.length = .ok effects) ∨
      ∃ x, ¬ (t.took f).payload ≠ none ∧ x.isIOException = false ∧ (t.took f).handle f.body.length = .error x := by
  rw [handle_took, htag]
  cases (t.took f).payload with
  | none => exact Or.inr ⟨.nullPointer, by simp, rfl, rfl⟩
  | some b => exact Or.inl ⟨_, by simp, rfl⟩

/-- **A frame** is handled exactly if it is handleable, and else throws no
`IOException`. -/
theorem handle_spec (t : ReadTask) (f : Frame) :
    (∃ effects, Handleable t f ∧ (t.took f).handle f.body.length = .ok effects) ∨
      ∃ x, ¬ Handleable t f ∧ x.isIOException = false ∧ (t.took f).handle f.body.length = .error x := by
  by_cases hwelcome : f.tag = REG_REPLY_WELCOME
  · have hmessage : f.tag ≠ POBICOS_MSG := by
      rw [hwelcome]
      decide
    have hhandleable : Handleable t f ↔ ∃ b ∈ (t.took f).payload, 6 ≤ b.array.length :=
      ⟨fun h => h.1 hwelcome, fun h => ⟨fun _ => h, fun htag => absurd htag hmessage⟩⟩
    rw [hhandleable]
    exact handle_welcome_spec hwelcome
  · by_cases hmessage : f.tag = POBICOS_MSG
    · have hhandleable : Handleable t f ↔ (t.took f).payload ≠ none :=
        ⟨fun h => h.2 hmessage, fun h => ⟨fun htag => absurd htag hwelcome, fun _ => h⟩⟩
      rw [hhandleable]
      exact handle_message_spec hmessage
    · have hhandleable : Handleable t f :=
        ⟨fun htag => absurd htag hwelcome, fun htag => absurd htag hmessage⟩
      by_cases hfail : f.tag = REG_REPLY_FAIL
      · refine Or.inl ⟨[.fail], hhandleable, ?_⟩
        rw [handle_took, if_neg hwelcome, if_pos hfail]
      · obtain hok | hok := handle_other t hmessage hwelcome hfail
        · exact Or.inl ⟨_, hhandleable, hok⟩
        · exact Or.inl ⟨_, hhandleable, hok⟩

end ReadTask

/-! ## The threads -/

/-- What the body of a loop throws, apart from what it throws at a frame that
it has read: an `IOException` (a closed channel, the end of the stream) or a
`NotYetConnectedException`, an `InterruptedException`, or another
`RuntimeException`. -/
inductive Thrown
  | io
  | interrupted
  | runtime
  deriving DecidableEq, Repr

/-- A thread, the buffers of a reader, and whether it is in the body of its
loop. -/
structure TaskRun where
  comm : CommThread
  task : ReadTask
  inBody : Bool
  deriving DecidableEq, Repr

/-- What happens to a thread.  Anybody can interrupt it, at any time; `head` is
its loop condition; a turn of a reader finds nothing or takes a frame, one of a
writer writes a message, and both may throw. -/
inductive TaskEvent
  | start
  | begin
  | interrupt
  | head
  | nothing
  | frame (f : Frame)
  | written
  | thrown (x : Thrown)

namespace TaskRun

/-- `new PoConnMgrReadTask(sel, sock)` and `new PoCommMgrWriteTask(s)`. -/
def new (reads : Bool) (sockch : Option Nat) : TaskRun := ⟨.new reads sockch, .new, false⟩

/-- In the body of the loop of a reader, or of a writer. -/
def inBodyOf (s : TaskRun) (reads : Bool) : Bool := s.comm.inRun && s.inBody && (s.comm.reads == reads)

/-- The `catch` clauses: a writer catches every `Exception`. -/
def catches (s : TaskRun) : Thrown → Bool
  | .io => true
  | .interrupted => true
  | .runtime => !s.comm.reads

/-- An exception in the body. -/
def throwing (s : TaskRun) (x : Thrown) : TaskRun :=
  { s with comm := if s.catches x then s.comm.cleanup else s.comm.leave }

/-- What a reader does to a frame; a REG_REPLY_FAIL makes it cancel itself. -/
def react (s : TaskRun) (f : Frame) : TaskRun :=
  match (s.task.took f).handle f.body.length with
  | .error _ => s.throwing .runtime
  | .ok effects =>
      { s with
        comm := if .fail ∈ effects then s.comm.cancel else s.comm
        task := (s.task.took f).clear
        inBody := false }

def step (s : TaskRun) : TaskEvent → Option TaskRun
  | .start => if s.comm.thread.started then none else some { s with comm := s.comm.start }
  | .begin =>
      if s.comm.thread.started && !s.comm.thread.begun then some { s with comm := s.comm.begin } else none
  | .interrupt => some { s with comm := s.comm.cancel }
  | .head =>
      if s.comm.inRun && !s.inBody then
        some (if s.comm.thread.interrupted then { s with comm := s.comm.leave } else { s with inBody := true })
      else none
  | .nothing => if s.inBodyOf true then some { s with inBody := false } else none
  | .frame f => if s.inBodyOf true then some (s.react f) else none
  | .written => if s.inBodyOf false then some { s with inBody := false } else none
  | .thrown x =>
      if s.comm.inRun && s.inBody && (x != .interrupted || !s.comm.reads) then some (s.throwing x) else none

/-! ## The flag -/

/-- A thread that has ended is not running. -/
def Honest (s : TaskRun) : Prop := s.comm.thread.ended = true → s.comm.running = false

instance decidableHonest (s : TaskRun) : Decidable s.Honest :=
  inferInstanceAs (Decidable (s.comm.thread.ended = true → s.comm.running = false))

/-- The loop condition finds no interrupt; a reader takes a frame that it can
handle, and throws no other `RuntimeException`. -/
def Clean (s : TaskRun) : TaskEvent → Prop
  | .head => s.comm.thread.interrupted = false
  | .frame f => Handleable s.task f
  | .thrown x => s.comm.reads = true → x ≠ .runtime
  | _ => True

instance decidableClean (s : TaskRun) : (e : TaskEvent) → Decidable (s.Clean e)
  | .start => inferInstanceAs (Decidable True)
  | .begin => inferInstanceAs (Decidable True)
  | .interrupt => inferInstanceAs (Decidable True)
  | .head => inferInstanceAs (Decidable (s.comm.thread.interrupted = false))
  | .nothing => inferInstanceAs (Decidable True)
  | .frame f => inferInstanceAs (Decidable (Handleable s.task f))
  | .written => inferInstanceAs (Decidable True)
  | .thrown x => inferInstanceAs (Decidable (s.comm.reads = true → x ≠ .runtime))

/-- In `run()` the flag is set, and behind it it is not. -/
structure Truthful (s : TaskRun) : Prop where
  begun : s.comm.thread.ended = true → s.comm.thread.begun = true
  running : s.comm.inRun = true → s.comm.running = true
  honest : s.Honest

section
variable {s t : TaskRun}

theorem truthful_new (reads : Bool) (sockch : Option Nat) : Truthful (new reads sockch) :=
  ⟨fun hended => Bool.noConfusion hended, fun hin => Bool.noConfusion hin, fun _ => rfl⟩

/-- The thread is in `run()`. -/
theorem inRun_iff {c : CommThread} : c.inRun = true ↔ c.thread.begun = true ∧ c.thread.ended = false := by
  simp [CommThread.inRun]

/-- A step that leaves `run()` where it is. -/
theorem Truthful.keep (h : Truthful s) (hrunning : t.comm.running = s.comm.running)
    (hbegun : t.comm.thread.begun = s.comm.thread.begun) (hended : t.comm.thread.ended = s.comm.thread.ended) :
    Truthful t := by
  refine ⟨?_, ?_, ?_⟩
  · rw [hended, hbegun]
    exact h.begun
  · rw [CommThread.inRun, hbegun, hended, hrunning]
    exact h.running
  · rw [Honest, hended, hrunning]
    exact h.honest

/-- `run()` begins. -/
theorem Truthful.begins (h : Truthful s) (hbegun : s.comm.thread.begun = false) :
    Truthful { s with comm := s.comm.begin } := by
  refine ⟨fun _ => rfl, fun _ => rfl, fun hended => ?_⟩
  exact absurd (h.begun hended) (by simp [hbegun])

/-- `cleanup()`. -/
theorem truthful_cleanup (hin : s.comm.inRun = true) (hcomm : t.comm = s.comm.cleanup) : Truthful t := by
  refine ⟨fun _ => ?_, fun hin' => ?_, fun _ => ?_⟩
  · rw [hcomm]
    exact (inRun_iff.mp hin).1
  · rw [hcomm] at hin'
    exact Bool.noConfusion (inRun_iff.mp hin').2
  · rw [hcomm]
    rfl

/-- `leave()` in `run()` leaves the flag. -/
theorem not_honest_leave (h : Truthful s) (hin : s.comm.inRun = true) (hcomm : t.comm = s.comm.leave) :
    ¬ t.Honest := by
  intro hhonest
  rw [Honest, hcomm] at hhonest
  exact absurd (h.running hin) (by simpa [CommThread.leave] using hhonest)

/-- **An exception** clears the flag exactly if it is caught. -/
theorem truthful_throwing (hin : s.comm.inRun = true) {x : Thrown} (hcatches : s.catches x = true) :
    Truthful (s.throwing x) :=
  truthful_cleanup hin (by rw [throwing, if_pos hcatches])

theorem not_honest_throwing (h : Truthful s) (hin : s.comm.inRun = true) {x : Thrown} (hcatches : s.catches x = false) :
    ¬ (s.throwing x).Honest := by
  refine not_honest_leave h hin ?_
  rw [throwing, if_neg (by simp [hcatches])]

theorem inBodyOf_iff {reads : Bool} :
    s.inBodyOf reads = true ↔ (s.comm.inRun = true ∧ s.inBody = true) ∧ s.comm.reads = reads := by
  simp [inBodyOf]

/-- **A frame** leaves the flag true exactly if it can be handled. -/
theorem truthful_react (h : Truthful s) {f : Frame} (hhandleable : Handleable s.task f) : Truthful (s.react f) := by
  obtain ⟨effects, -, hok⟩ | ⟨x, hno, -, -⟩ := s.task.handle_spec f
  case inr => exact absurd hhandleable hno
  have hreact : s.react f = { s with
      comm := if .fail ∈ effects then s.comm.cancel else s.comm
      task := (s.task.took f).clear
      inBody := false } := by rw [react, hok]
  rw [hreact]
  by_cases hfail : Effect.fail ∈ effects
  · refine h.keep ?_ ?_ ?_
    all_goals rw [if_pos hfail]; rfl
  · refine h.keep ?_ ?_ ?_
    all_goals rw [if_neg hfail]

theorem not_honest_react (h : Truthful s) (hbody : s.inBodyOf true = true) {f : Frame}
    (hno : ¬ Handleable s.task f) : ¬ (s.react f).Honest := by
  obtain ⟨⟨hin, -⟩, hreads⟩ := inBodyOf_iff.mp hbody
  obtain ⟨effects, hyes, -⟩ | ⟨x, -, -, herror⟩ := s.task.handle_spec f
  · exact absurd hyes hno
  rw [react, herror]
  exact not_honest_throwing h hin (by rw [catches, hreads]; rfl)

/-- **Step lemma**: what is clean keeps the flag true, and nothing else. -/
theorem Truthful.step (h : Truthful s) {e : TaskEvent} (hstep : s.step e = some t) :
    (s.Clean e → Truthful t) ∧ (t.Honest → s.Clean e) := by
  cases e with
  | start =>
      rw [TaskRun.step] at hstep
      split at hstep
      · cases hstep
      · cases hstep
        exact ⟨fun _ => h.keep rfl rfl rfl, fun _ => trivial⟩
  | begin =>
      obtain ⟨hbegun, ⟨⟩⟩ := Option.ite_none_right_eq_some.mp hstep
      rw [Bool.and_eq_true, Bool.not_eq_true'] at hbegun
      exact ⟨fun _ => h.begins hbegun.2, fun _ => trivial⟩
  | interrupt =>
      cases hstep
      exact ⟨fun _ => h.keep rfl rfl rfl, fun _ => trivial⟩
  | head =>
      obtain ⟨hhead, ht⟩ := Option.ite_none_right_eq_some.mp hstep
      rw [Bool.and_eq_true] at hhead
      cases ht
      cases hinterrupted : s.comm.thread.interrupted with
      | false => exact ⟨fun _ => h.keep rfl rfl rfl, fun _ => hinterrupted⟩
      | true =>
          have hno := not_honest_leave (t := { s with comm := s.comm.leave }) h hhead.1 rfl
          exact ⟨fun hclean => Bool.noConfusion (hinterrupted.symm.trans hclean), fun hhonest => absurd hhonest hno⟩
  | nothing =>
      obtain ⟨-, ⟨⟩⟩ := Option.ite_none_right_eq_some.mp hstep
      exact ⟨fun _ => h.keep rfl rfl rfl, fun _ => trivial⟩
  | frame f =>
      obtain ⟨hbody, ⟨⟩⟩ := Option.ite_none_right_eq_some.mp hstep
      exact ⟨fun hclean => truthful_react h hclean, fun hhonest => by_contra fun hno => not_honest_react h hbody hno hhonest⟩
  | written =>
      obtain ⟨-, ⟨⟩⟩ := Option.ite_none_right_eq_some.mp hstep
      exact ⟨fun _ => h.keep rfl rfl rfl, fun _ => trivial⟩
  | thrown x =>
      obtain ⟨hthrown, ⟨⟩⟩ := Option.ite_none_right_eq_some.mp hstep
      simp only [Bool.and_eq_true] at hthrown
      have hin := hthrown.1.1
      have hcatches : s.catches x = true ↔ s.Clean (.thrown x) := by
        cases x <;> simp [catches, Clean]
      refine ⟨fun hclean => truthful_throwing hin (hcatches.mpr hclean), fun hhonest => hcatches.mp ?_⟩
      by_contra hno
      exact not_honest_throwing h hin (Bool.eq_false_iff.mpr hno) hhonest

/-! ## What the events stand for -/

/-- The end of a turn that has ended so, left the buffers `task`, and had these
effects. -/
def ended (s : TaskRun) (task : ReadTask) (effects : List Effect) : Outcome → Option TaskRun
  | .ret =>
      some { s with
        comm := if .fail ∈ effects then s.comm.cancel else s.comm
        task := task
        inBody := false }
  | .throws x => some (s.throwing (if x.isIOException then .io else .runtime))
  | .spins => none

/-- **A turn of a reader** that ends is one of its events. -/
theorem exists_step_turn (hbody : s.inBodyOf true = true) (ht : s.task.Ready) (c : Channel) (es : List ReadEvt)
    (h : s.ended (s.task.turn c es).2.task (s.task.turn c es).2.effects (s.task.turn c es).1 = some t) :
    ∃ e, s.step e = some t := by
  obtain hnone | ⟨f, rest, -, htook⟩ | ⟨u, hthrow, -⟩ | ⟨u, hspin, -⟩ := ReadTask.turn_cases ht c es
  · rw [hnone] at h
    cases h
    refine ⟨.nothing, ?_⟩
    rw [TaskRun.step, if_pos hbody]
    simp
  · refine ⟨.frame f, ?_⟩
    rw [TaskRun.step, if_pos hbody, ← h, htook, ReadTask.finish, react]
    obtain ⟨effects, -, hok⟩ | ⟨x, -, hx, herror⟩ := s.task.handle_spec f
    · rw [hok]
      rfl
    · rw [herror, ended, hx]
      rfl
  · rw [hthrow] at h
    cases h
    obtain ⟨⟨hin, hinBody⟩, -⟩ := inBodyOf_iff.mp hbody
    refine ⟨.thrown .io, ?_⟩
    rw [TaskRun.step, hin, hinBody]
    rfl
  · rw [hspin] at h
    cases h

/-- **A turn of a writer** that ends is one of its events. -/
theorem exists_step_writeTurn (hbody : s.inBodyOf false = true) (app : AppLocation) (hostsRootAgent : Bool)
    (msg : NetworkMsg) (c : Channel) (es : List WriteEvt)
    (h : s.ended s.task [] (writeTurn app hostsRootAgent msg c es).1 = some t) : ∃ e, s.step e = some t := by
  obtain ⟨⟨hin, hinBody⟩, -⟩ := inBodyOf_iff.mp hbody
  cases houtcome : (writeTurn app hostsRootAgent msg c es).1 with
  | ret =>
      rw [houtcome] at h
      cases h
      refine ⟨.written, ?_⟩
      rw [TaskRun.step, if_pos hbody]
      simp
  | throws x =>
      rw [houtcome] at h
      cases h
      refine ⟨.thrown (if x.isIOException then .io else .runtime), ?_⟩
      rw [TaskRun.step, hin, hinBody]
      cases x.isIOException <;> rfl
  | spins =>
      rw [houtcome] at h
      cases h

/-- A step of a thread of a connection manager. -/
theorem exists_threadStep {m : ConnectionManager} {i : Nat} {c : CommThread} (hc : m.threads[i]? = some c)
    (enabled : CommThread → Bool) (henabled : enabled c = true) (f : CommThread → CommThread) :
    ∃ m', m.threadStep i enabled f = some m' ∧ m'.threads[i]? = some (f c) := by
  refine ⟨{ m with threads := m.threads.modify i f }, ?_, ?_⟩
  · rw [ConnectionManager.threadStep, hc, Option.any_some, if_pos henabled]
  · rw [List.getElem?_modify, hc]
    simp

theorem exists_threadStep_throwing {m : ConnectionManager} {i : Nat} (hm : m.threads[i]? = some s.comm)
    (hin : s.comm.inRun = true) (x : Thrown) :
    ∃ a m', m.step a = some m' ∧ m'.threads[i]? = some (s.throwing x).comm := by
  rw [throwing]
  cases hcatches : s.catches x with
  | true => exact ⟨.ioException i, exists_threadStep hm _ hin .cleanup⟩
  | false =>
      have hreads : s.comm.reads = true := by
        cases x with
        | io => cases hcatches
        | interrupted => cases hcatches
        | runtime => simpa [catches] using hcatches
      have henabled : (s.comm.inRun && s.comm.reads) = true := by rw [hin, hreads]; rfl
      exact ⟨.uncaught i, exists_threadStep hm (fun t => t.inRun && t.reads) henabled .leave⟩

/-- **The threads of the connection manager** do what these steps do, but for an
interrupt from outside and the start, which are statements of its methods. -/
theorem exists_manager_step {m : ConnectionManager} {i : Nat} (hm : m.threads[i]? = some s.comm) {e : TaskEvent}
    (hstep : s.step e = some t) (hstart : e ≠ .start) (hinterrupt : e ≠ .interrupt) :
    t.comm = s.comm ∨ ∃ a m', m.step a = some m' ∧ m'.threads[i]? = some t.comm := by
  cases e with
  | start => exact absurd rfl hstart
  | begin =>
      obtain ⟨hbegun, ⟨⟩⟩ := Option.ite_none_right_eq_some.mp hstep
      exact Or.inr ⟨.begin i, exists_threadStep hm (fun t => t.thread.started && !t.thread.begun)
        hbegun .begin⟩
  | interrupt => exact absurd rfl hinterrupt
  | head =>
      obtain ⟨hhead, ⟨⟩⟩ := Option.ite_none_right_eq_some.mp hstep
      rw [Bool.and_eq_true] at hhead
      cases hinterrupted : s.comm.thread.interrupted with
      | false => exact Or.inl rfl
      | true =>
          have henabled : (s.comm.inRun && s.comm.thread.interrupted) = true := by
            rw [hhead.1, hinterrupted]
            rfl
          exact Or.inr ⟨.loopEnds i, exists_threadStep hm (fun t => t.inRun && t.thread.interrupted)
            henabled .leave⟩
  | nothing =>
      obtain ⟨-, ⟨⟩⟩ := Option.ite_none_right_eq_some.mp hstep
      exact Or.inl rfl
  | frame f =>
      obtain ⟨hbody, ⟨⟩⟩ := Option.ite_none_right_eq_some.mp hstep
      obtain ⟨⟨hin, -⟩, hreads⟩ := inBodyOf_iff.mp hbody
      obtain ⟨effects, -, hok⟩ | ⟨x, -, -, herror⟩ := s.task.handle_spec f
      · rw [react, hok]
        by_cases hfail : Effect.fail ∈ effects
        · have henabled : (s.comm.inRun && s.comm.reads) = true := by rw [hin, hreads]; rfl
          simp only [if_pos hfail]
          exact Or.inr ⟨.registrationFailed i, exists_threadStep hm (fun t => t.inRun && t.reads)
            henabled .cancel⟩
        · exact Or.inl (if_neg hfail)
      · rw [react, herror]
        exact Or.inr (exists_threadStep_throwing hm hin .runtime)
  | written =>
      obtain ⟨-, ⟨⟩⟩ := Option.ite_none_right_eq_some.mp hstep
      exact Or.inl rfl
  | thrown x =>
      obtain ⟨hthrown, ⟨⟩⟩ := Option.ite_none_right_eq_some.mp hstep
      simp only [Bool.and_eq_true] at hthrown
      exact Or.inr (exists_threadStep_throwing hm hthrown.1.1 x)

end

end TaskRun

/-- **The flag** of a read or a write thread, in every state of a run: it is
not set behind `run()` exactly if the thread never finds itself interrupted at
its loop condition and, as a reader, handles every frame that it takes and
throws no other `RuntimeException`. -/
theorem always_honest_iff (reads : Bool) (sockch : Option Nat) {es : List TaskEvent} {s : TaskRun}
    (hrun : Lts.run TaskRun.step (.new reads sockch) es = some s) :
    Lts.Always TaskRun.step TaskRun.Honest (.new reads sockch) es ↔
      Lts.Along TaskRun.step TaskRun.Clean (.new reads sockch) es := by
  have hhonest : ∀ s : TaskRun, s.Truthful → s.Honest := fun s h => h.honest
  refine Lts.always_iff_along hhonest ?_ ?_ (TaskRun.truthful_new reads sockch) hrun
  · exact fun s e t h hclean hstep => (h.step hstep).1 hclean
  · exact fun s e t h hhonest hstep => (h.step hstep).2 hhonest

/-- A reader takes a WELCOME, and is interrupted while it waits for the next
frame: the channel is closed by that. -/
def welcomedAndClosed : List TaskEvent :=
  [.start, .begin, .head, .frame ⟨REG_REPLY_WELCOME, [0, 1, 0, 0, 0, 7], by decide⟩, .head, .interrupt,
    .thrown .io, .interrupt]

theorem always_honest_iff_welcomedAndClosed :
    Lts.Always TaskRun.step TaskRun.Honest (.new true none) welcomedAndClosed :=
  (always_honest_iff true none (Option.some_get (by decide :
    (Lts.run TaskRun.step (.new true none) welcomedAndClosed).isSome = true)).symm).mpr (by decide)

/-- A reader takes a REG_REPLY_FAIL. -/
def refused : List TaskEvent :=
  [.start, .begin, .head, .frame (.empty REG_REPLY_FAIL), .head]

/-- A writer is interrupted between two messages. -/
def interruptedWriting : List TaskEvent := [.start, .begin, .head, .written, .interrupt, .head]

theorem ended_but_running :
    ∃ s t, Lts.run TaskRun.step (.new true none) refused = some s ∧ ¬ s.Honest ∧
      Lts.run TaskRun.step (.new false none) interruptedWriting = some t ∧ ¬ t.Honest :=
  ⟨_, _, rfl, by decide, rfl, by decide⟩

end Pobicos.Client
