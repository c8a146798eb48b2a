import Pobicos.AppLoader.Sessions

/-!
# Pobicos.AppLoader.UartLoop

The loop of `PoUART.run`: which bytes of the node one thread survives.

A label is the next byte that the thread takes, with all that follows up to the
next one, or a call of somebody else.  The length byte of a packet is signed, and
nothing looks at it before the packet is copied; `reads_on_iff` says which
packets are passed on without an exception, and which of them cancel the thread.
-/

namespace Pobicos.AppLoader

open Nio Octets Threads

/-! ## The reader -/

namespace UartReader

/-- The bytes of the packet that have been taken. -/
structure Holds (r : UartReader) (done : List Byte) : Prop where
  taken : r.taken = done.length
  buffer : ∃ left, r.buffer = done ++ left ∧ done.length + left.length = MAX_MESSAGE_LEN

/-- The packet is not complete. -/
def Incomplete : List Byte → Prop
  | _ :: len :: payload => (payload.length : Int) < len.toInt
  | _ => True

section
variable {r : UartReader} {done : List Byte}

theorem holds_init : init.Holds [] := ⟨rfl, _, rfl, rfl⟩

/-- What the packet begins with is in front of the buffer. -/
theorem Holds.take (h : r.Holds done) : r.buffer.take r.taken = done := by
  obtain ⟨htaken, left, hbuffer, -⟩ := h
  rw [hbuffer, htaken, List.take_left]

/-- The next byte is stored. -/
theorem Holds.set (h : r.Holds done) (hlt : done.length < MAX_MESSAGE_LEN) (b : Byte) :
    ∃ left, arraySet r.buffer r.taken b = .ok (done ++ [b] ++ left) ∧
      (done ++ [b]).length + left.length = MAX_MESSAGE_LEN := by
  obtain ⟨htaken, left, hbuffer, hlen⟩ := h
  cases left with
  | nil => exact absurd hlen (Nat.ne_of_lt hlt)
  | cons x left =>
      refine ⟨left, ?_, ?_⟩
      · rw [hbuffer, htaken, arraySet_append, List.append_assoc, List.singleton_append]
      · rw [List.length_append, List.length_singleton]
        rw [List.length_cons] at hlen
        omega

/-- The buffer is full. -/
theorem accept_full (h : r.Holds done) (hfull : MAX_MESSAGE_LEN ≤ done.length) (b : Byte) :
    ∃ e, r.accept b = .error e := by
  obtain ⟨htaken, left, hbuffer, hlen⟩ := h
  have hset : arraySet r.buffer r.taken b = .error .indexOutOfBounds := by
    rw [arraySet, if_neg]
    rw [hbuffer, htaken, List.length_append]
    omega
  rw [accept, hset]
  exact ⟨_, rfl⟩

/-- The channel. -/
theorem accept_channel (h : r.Holds []) (b : Byte) : ∃ r', r.accept b = .ok (r', none) ∧ r'.Holds [b] := by
  obtain ⟨left, hset, hlen⟩ := h.set (by decide) b
  have htaken : r.taken = 0 := h.taken
  cases left with
  | nil => exact absurd hlen (Nat.ne_of_lt (by simp [MAX_MESSAGE_LEN]))
  | cons x left =>
      refine ⟨⟨_, r.taken + 1⟩, accept_middle hset rfl (Or.inl ?_), ⟨?_, _, rfl, hlen⟩⟩
      · omega
      · rw [htaken]
        rfl

variable {channel len b : Byte} {payload : List Byte}

/-- The bytes of a packet that fits, with what is behind them. -/
theorem Holds.packet (h : r.Holds done) (hdone : done ++ [b] = channel :: len :: payload)
    (hroom : payload.length ≤ MAX_PAYLOAD_LEN) :
    ∃ left, arraySet r.buffer r.taken b = .ok (channel :: len :: (payload ++ left)) ∧
      r.taken + 1 = payload.length + 2 ∧ payload.length + left.length = MAX_PAYLOAD_LEN := by
  have hlength : done.length + 1 = payload.length + 2 := by
    have hcongr := congrArg List.length hdone
    simpa using hcongr
  have hlt : done.length < MAX_MESSAGE_LEN := by
    rw [MAX_MESSAGE_LEN]
    omega
  obtain ⟨left, hset, hlen⟩ := h.set hlt b
  rw [hdone] at hset hlen
  refine ⟨left, hset, ?_, ?_⟩
  · rw [h.taken, hlength]
  · rw [MAX_MESSAGE_LEN, List.length_cons, List.length_cons] at hlen
    omega

/-- A byte of a packet that is longer. -/
theorem accept_more (h : r.Holds done) (hdone : done ++ [b] = channel :: len :: payload)
    (hroom : payload.length ≤ MAX_PAYLOAD_LEN) (hmore : (payload.length : Int) < len.toInt) :
    ∃ r', r.accept b = .ok (r', none) ∧ r'.Holds (done ++ [b]) := by
  obtain ⟨left, hset, htaken, hleft⟩ := h.packet hdone hroom
  refine ⟨_, accept_middle hset rfl (Or.inr ?_), ⟨?_, left, ?_, ?_⟩⟩
  · omega
  · rw [htaken, hdone]
    rfl
  · rw [hdone]
    rfl
  · rw [hdone, MAX_MESSAGE_LEN, List.length_cons, List.length_cons]
    omega

/-- The last byte of a packet. -/
theorem accept_complete (h : r.Holds done) (hdone : done ++ [b] = channel :: len :: payload)
    (hroom : payload.length ≤ MAX_PAYLOAD_LEN) (hlen : len.toInt = payload.length) :
    ∃ r', r.accept b = .ok (r', some (channel, payload)) ∧ r'.Holds [] := by
  have heq : len = BitVec.ofNat 8 payload.length :=
    BitVec.eq_of_toInt_eq (hlen.trans (PobicosPacket.toInt_length hroom).symm)
  subst heq
  obtain ⟨left, hset, htaken, hleft⟩ := h.packet hdone hroom
  refine ⟨_, accept_last channel payload hset htaken hleft, ⟨rfl, _, rfl, ?_⟩⟩
  rw [MAX_MESSAGE_LEN, ← hleft]
  simp

/-- A length that is negative. -/
theorem accept_negative (h : r.Holds done) (hdone : done ++ [b] = channel :: len :: payload)
    (hroom : payload.length ≤ MAX_PAYLOAD_LEN) (hneg : len.toInt < 0) : ∃ e, r.accept b = .error e := by
  obtain ⟨left, hset, htaken, hleft⟩ := h.packet hdone hroom
  have hfull : (channel :: len :: (payload ++ left)).length = MAX_MESSAGE_LEN := by
    rw [MAX_MESSAGE_LEN, ← hleft]
    simp
  have hget : arrayGet (channel :: len :: (payload ++ left)) 1 = .ok len := rfl
  have hchannel : (PobicosPacket.mk len (channel :: len :: (payload ++ left))).getChannel = .ok channel := rfl
  have hnew : newByteArray len.toInt = .error .negativeArraySize := if_neg (Int.not_le.mpr hneg)
  have hdone : ¬ (r.taken + 1 < 2 ∨ ((r.taken + 1 : Nat) : Int) - 2 < len.toInt) := by omega
  rw [accept, hset]
  simp only [bind, Except.bind, hget, if_neg hdone, PobicosPacket.ofArray_eq hfull rfl, hchannel,
    PobicosPacket.getContents, hnew]
  exact ⟨_, rfl⟩

end

end UartReader

/-! ## The loop -/

inductive Status
  | waiting
  | ended
  | thrown
  deriving DecidableEq, Repr

/-- The thread, and the fields that it shares with the others. -/
structure Loop where
  reader : UartReader
  loader : PoAppPillLoader
  status : Status
  deriving DecidableEq, Repr

/-- The thread takes a byte, or another one makes a call. -/
inductive Turn
  | byte (b : Byte)
  | call (a : Act)
  deriving DecidableEq, Repr

namespace Loop

/-- The thread `i` waits for the next byte; if it has been interrupted, the head
of the loop or `take()` ends it. -/
def await (i : Nat) (r : UartReader) (f : PoAppPillLoader) : Loop :=
  ⟨r, f, if f.Live i then .waiting else .ended⟩

/-- `run()` from one `take()` to the next one.  What it catches is the
`InterruptedException` only. -/
def take (i : Nat) (s : Loop) (b : Byte) : Loop :=
  match s.reader.accept b with
  | .error _ => { s with status := .thrown }
  | .ok (r, none) => await i r s.loader
  | .ok (r, some (channel, payload)) =>
      match Session.step s.loader (.packetReceived channel payload) with
      | some g => await i r g
      | none => { s with reader := r, status := .thrown }

/-- A thread that has ended takes no bytes; the calls of the others go on. -/
def step (i : Nat) (s : Loop) : Turn → Option Loop
  | .byte b => some (if s.status = .waiting then s.take i b else s)
  | .call a => (Session.step s.loader a).map fun g =>
      if s.status = .waiting then await i s.reader g else { s with loader := g }

/-- `run()` begins. -/
def start (f : PoAppPillLoader) : Loop := ⟨.init, f, .waiting⟩

end Loop

/-! ## Interrupts -/

namespace PoAppPillLoader

variable {f : PoAppPillLoader} {i j : Nat}

theorem live_interrupt : (f.interrupt j).Live i ↔ f.Live i ∧ i ≠ j := by
  rw [Live, Live, interrupt, List.getElem?_modify]
  by_cases hij : i = j
  · simp [hij]
  · simp [hij, Ne.symm hij]

end PoAppPillLoader

/-! ## What it survives -/

/-- The packets that are answered by `con.cancel()`. -/
def Notification.cancels : Notification → Bool
  | .uploadFinished => false
  | .readyForData => false
  | .uploadError => false
  | .started => true
  | .rootAgentStarted _ => true
  | .startError => false
  | .killed => true
  | .killError => false

/-- The call interrupts the thread `i`. -/
def Cancels (i : Nat) (f : PoAppPillLoader) : Act → Prop
  | .loadAndStartApp => False
  | .killRunningApp => False
  | .startButton => False
  | .killButton => False
  | .packetReceived channel payload =>
      f.con = some i ∧ ∃ n ∈ notification channel payload, n.cancels = true

instance decidableCancels (i : Nat) (f : PoAppPillLoader) : (a : Act) → Decidable (Cancels i f a)
  | .loadAndStartApp => inferInstanceAs (Decidable False)
  | .killRunningApp => inferInstanceAs (Decidable False)
  | .startButton => inferInstanceAs (Decidable False)
  | .killButton => inferInstanceAs (Decidable False)
  | .packetReceived channel payload =>
      inferInstanceAs (Decidable (f.con = some i ∧ ∃ n ∈ notification channel payload, n.cancels = true))

/-- A packet, as far as it has been taken: it fits the buffer, and if it is
complete it is not empty, and when it reports that the node is ready, the data
can be read. -/
def Readable (f : PoAppPillLoader) : List Byte → Prop
  | channel :: len :: payload =>
      payload.length ≤ MAX_PAYLOAD_LEN ∧ (len.toInt ≤ payload.length → payload ≠ [] ∧
        (notification channel payload = some .readyForData → Within f 0 MAX_PAYLOAD_LEN))
  | _ => True

instance decidableReadable (f : PoAppPillLoader) : (bs : List Byte) → Decidable (Readable f bs)
  | [] => inferInstanceAs (Decidable True)
  | [_] => inferInstanceAs (Decidable True)
  | channel :: len :: payload =>
      inferInstanceAs (Decidable (payload.length ≤ MAX_PAYLOAD_LEN ∧ (len.toInt ≤ payload.length → payload ≠ [] ∧
        (notification channel payload = some .readyForData → Within f 0 MAX_PAYLOAD_LEN))))

/-- If it is complete, it does not cancel the thread. -/
def Continues (i : Nat) (f : PoAppPillLoader) : List Byte → Prop
  | channel :: len :: payload => len.toInt ≤ payload.length → ¬ Cancels i f (.packetReceived channel payload)
  | _ => True

instance decidableContinues (i : Nat) (f : PoAppPillLoader) : (bs : List Byte) → Decidable (Continues i f bs)
  | [] => inferInstanceAs (Decidable True)
  | [_] => inferInstanceAs (Decidable True)
  | channel :: len :: payload =>
      inferInstanceAs (Decidable (len.toInt ≤ payload.length → ¬ Cancels i f (.packetReceived channel payload)))

namespace Loop

/-- The bytes of the packet when `b` has been taken. -/
def packet (s : Loop) (b : Byte) : List Byte := s.reader.buffer.take s.reader.taken ++ [b]

/-- What can be read. -/
def Accepts (s : Loop) : Turn → Prop
  | .byte b => Readable s.loader (s.packet b)
  | .call _ => True

/-- What does not interrupt the thread. -/
def Undisturbed (i : Nat) (s : Loop) : Turn → Prop
  | .byte b => Continues i s.loader (s.packet b)
  | .call a => ¬ Cancels i s.loader a

instance decidableAccepts (s : Loop) : (t : Turn) → Decidable (Accepts s t)
  | .byte b => inferInstanceAs (Decidable (Readable s.loader (s.packet b)))
  | .call _ => inferInstanceAs (Decidable True)

instance decidableUndisturbed (i : Nat) (s : Loop) : (t : Turn) → Decidable (Undisturbed i s t)
  | .byte b => inferInstanceAs (Decidable (Continues i s.loader (s.packet b)))
  | .call a => inferInstanceAs (Decidable (¬ Cancels i s.loader a))

/-- The thread waits, between two packets or in the middle of one. -/
structure Waiting (i : Nat) (s : Loop) : Prop where
  status : s.status = .waiting
  con : s.loader.con ≠ none
  live : s.loader.Live i
  reader : ∃ done, s.reader.Holds done ∧ UartReader.Incomplete done

end Loop

section
variable {i : Nat} {f g : PoAppPillLoader} {a : Act}

theorem live_handled_iff {n : Option Notification} {out : List (List Byte)} (hlive : f.Live i)
    (hn : Handled f n g out) : g.Live i ↔ ¬ (f.con = some i ∧ ∃ m ∈ n, m.cancels = true) := by
  have hkept (hg : g.threads = f.threads) (hno : ¬ ∃ m ∈ n, m.cancels = true) :
      g.Live i ↔ ¬ (f.con = some i ∧ ∃ m ∈ n, m.cancels = true) := by
    rw [PoAppPillLoader.Live, hg]
    exact iff_of_true hlive fun h => hno h.2
  have hcancelled {con : Nat} {f' : PoAppPillLoader} (hcon : f.con = some con) (hg : g = f'.interrupt con)
      (hthreads : f'.threads = f.threads) (hyes : ∃ m ∈ n, m.cancels = true) :
      g.Live i ↔ ¬ (f.con = some i ∧ ∃ m ∈ n, m.cancels = true) := by
    have hlive' : f'.Live i := by rwa [PoAppPillLoader.Live, hthreads]
    rw [hg, PoAppPillLoader.live_interrupt, and_iff_right hlive', and_iff_left hyes, hcon, Option.some.injEq, Ne,
      eq_comm]
  cases n with
  | none =>
      obtain ⟨rfl, -⟩ := hn
      exact hkept rfl (by simp)
  | some n =>
      cases n with
      | uploadFinished =>
          obtain ⟨-, rfl, -⟩ := hn
          exact hkept rfl (by simp [Notification.cancels])
      | readyForData =>
          obtain ⟨-, data, j, -, rfl, -⟩ := hn
          exact hkept rfl (by simp [Notification.cancels])
      | uploadError =>
          obtain ⟨rfl, -⟩ := hn
          exact hkept rfl (by simp [Notification.cancels])
      | started =>
          obtain ⟨con, hcon, hg, -⟩ := hn
          exact hcancelled hcon hg rfl ⟨_, rfl, rfl⟩
      | rootAgentStarted id =>
          obtain ⟨con, hcon, hg, -⟩ := hn
          exact hcancelled hcon hg rfl ⟨_, rfl, rfl⟩
      | startError =>
          obtain ⟨rfl, -⟩ := hn
          exact hkept rfl (by simp [Notification.cancels])
      | killed =>
          obtain ⟨con, hcon, hg, -⟩ := hn
          exact hcancelled hcon hg rfl ⟨_, rfl, rfl⟩
      | killError =>
          obtain ⟨rfl, -⟩ := hn
          exact hkept rfl (by simp [Notification.cancels])

/-- **A call** leaves a thread alive unless it cancels it. -/
theorem live_step_iff (hlive : f.Live i) (h : Session.step f a = some g) : g.Live i ↔ ¬ Cancels i f a := by
  obtain ⟨channel, payload, rfl, hn⟩ | ⟨hreceived, g', status, rfl, hmoves⟩ := Session.step_cases h
  · exact live_handled_iff hlive hn
  · have hno : ¬ Cancels i f a := by
      cases a with
      | packetReceived channel payload => exact absurd hreceived (List.cons_ne_nil _ _)
      | _ => exact id
    refine iff_of_true ?_ hno
    obtain ⟨rfl, -⟩ | ⟨-, rfl, -⟩ | ⟨-, rfl, -⟩ := hmoves
    · exact hlive
    · exact PoAppPillLoader.live_newPoUART.mpr (Or.inl hlive)
    · exact PoAppPillLoader.live_newPoUART.mpr (Or.inl hlive)

theorem con_step (hcon : f.con ≠ none) (h : Session.step f a = some g) : g.con ≠ none := by
  obtain ⟨channel, payload, rfl, hn⟩ | ⟨-, g', status, rfl, hmoves⟩ := Session.step_cases h
  · rwa [hn.con]
  · obtain ⟨rfl, -⟩ | ⟨-, rfl, -⟩ | ⟨-, rfl, -⟩ := hmoves
    · exact hcon
    · exact Option.some_ne_none _
    · exact Option.some_ne_none _

/-- **A packet** is handled without an exception. -/
theorem exists_received_iff (hcon : f.con ≠ none) {channel : Byte} {payload : List Byte} :
    (∃ g, Session.step f (.packetReceived channel payload) = some g) ↔
      payload ≠ [] ∧ (notification channel payload = some .readyForData → Within f 0 MAX_PAYLOAD_LEN) := by
  rw [← exists_nextData_iff, ← exists_handled_iff hcon]
  constructor
  · rintro ⟨g, hstep⟩
    obtain ⟨hne, hn⟩ := Session.step_eq_some.mp hstep
    exact ⟨hne, g, _, hn⟩
  · rintro ⟨hne, g, out, hn⟩
    exact ⟨g, (Session.step_of_does (a := .packetReceived channel payload) ⟨hne, hn⟩).1⟩

end

namespace Loop

section
variable {i : Nat} {s t : Loop}

/-- The thread waits again, unless it has been interrupted. -/
theorem waiting_await {r : UartReader} {f : PoAppPillLoader} {done : List Byte} (hcon : f.con ≠ none)
    (hr : r.Holds done) (hdone : UartReader.Incomplete done) :
    (f.Live i → Waiting i (await i r f)) ∧ (¬ f.Live i → (await i r f).status = .ended) := by
  refine ⟨fun hlive => ⟨?_, hcon, hlive, done, hr, hdone⟩, fun hlive => ?_⟩
  · rw [await, if_pos hlive]
  · rw [await, if_neg hlive]

/-- What a turn leads to. -/
structure Result (i : Nat) (accepted undisturbed : Prop) (t : Loop) : Prop where
  thrown : ¬ accepted → t.status = .thrown
  ended : accepted → ¬ undisturbed → t.status = .ended
  waiting : accepted → undisturbed → Waiting i t

/-- In the middle of a packet. -/
theorem result_of_more {r : UartReader} {done : List Byte} (h : Waiting i s) (hr : r.Holds done)
    (hdone : UartReader.Incomplete done) {b : Byte} (haccept : s.reader.accept b = .ok (r, none))
    {p q : Prop} (hp : p) (hq : q) : Result i p q (s.take i b) := by
  have htake : s.take i b = await i r s.loader := by rw [take, haccept]
  have hwaiting : Waiting i (s.take i b) := by
    rw [htake]
    exact (waiting_await h.con hr hdone).1 h.live
  exact ⟨fun hno => absurd hp hno, fun _ hno => absurd hq hno, fun _ _ => hwaiting⟩

/-- A packet that cannot be taken. -/
theorem result_of_error {b : Byte} {e : Throwable} (haccept : s.reader.accept b = .error e) {p q : Prop}
    (hp : ¬ p) : Result i p q (s.take i b) := by
  have htake : s.take i b = { s with status := .thrown } := by rw [take, haccept]
  rw [htake]
  exact ⟨fun _ => rfl, fun hyes => absurd hyes hp, fun hyes => absurd hyes hp⟩

/-- The last byte of a packet. -/
theorem result_of_complete {r : UartReader} {b channel : Byte} {payload : List Byte} (h : Waiting i s)
    (hr : r.Holds []) (haccept : s.reader.accept b = .ok (r, some (channel, payload))) :
    Result i (payload ≠ [] ∧ (notification channel payload = some .readyForData → Within s.loader 0 MAX_PAYLOAD_LEN))
      (¬ Cancels i s.loader (.packetReceived channel payload)) (s.take i b) := by
  rw [← exists_received_iff h.con]
  cases hstep : Session.step s.loader (.packetReceived channel payload) with
  | none =>
      have htake : s.take i b = { s with reader := r, status := .thrown } := by
        rw [take, haccept]
        simp only [hstep]
      rw [htake]
      exact ⟨fun _ => rfl, fun hyes => absurd hyes (by simp), fun hyes => absurd hyes (by simp)⟩
  | some g =>
      have htake : s.take i b = await i r g := by
        rw [take, haccept]
        simp only [hstep]
      obtain ⟨hlive, hdead⟩ := waiting_await (i := i) (con_step h.con hstep) hr trivial
      rw [htake, ← live_step_iff h.live hstep]
      exact ⟨fun hno => absurd ⟨g, rfl⟩ hno, fun _ => hdead, fun _ => hlive⟩

/-- The length byte, or one behind it. -/
theorem result_of_packet (h : Waiting i s) {done payload : List Byte} {b channel len : Byte}
    (hdone : s.reader.Holds done) (heq : done ++ [b] = channel :: len :: payload)
    (hlast : payload ≠ [] → payload.length ≤ len.toInt) :
    Result i (Readable s.loader (channel :: len :: payload)) (Continues i s.loader (channel :: len :: payload))
      (s.take i b) := by
  by_cases hroom : payload.length ≤ MAX_PAYLOAD_LEN
  · obtain hlt | hlen | hmore := Int.lt_trichotomy len.toInt payload.length
    · have hnil : payload = [] := by
        by_contra hne
        exact absurd (hlast hne) (Int.not_le.mpr hlt)
      have hneg : len.toInt < 0 := by simpa [hnil] using hlt
      obtain ⟨e, haccept⟩ := UartReader.accept_negative hdone heq hroom hneg
      exact result_of_error haccept fun hread => (hread.2 (Int.le_of_lt hlt)).1 hnil
    · obtain ⟨r, haccept, hr⟩ := UartReader.accept_complete hdone heq hroom hlen
      have hle : len.toInt ≤ payload.length := Int.le_of_eq hlen
      have hread : Readable s.loader (channel :: len :: payload) ↔ payload ≠ [] ∧
          (notification channel payload = some .readyForData → Within s.loader 0 MAX_PAYLOAD_LEN) :=
        ⟨fun hread => hread.2 hle, fun hread => ⟨hroom, fun _ => hread⟩⟩
      have hcontinue : Continues i s.loader (channel :: len :: payload) ↔
          ¬ Cancels i s.loader (.packetReceived channel payload) :=
        ⟨fun hcontinue => hcontinue hle, fun hno _ => hno⟩
      rw [hread, hcontinue]
      exact result_of_complete h hr haccept
    · obtain ⟨r, haccept, hr⟩ := UartReader.accept_more hdone heq hroom hmore
      rw [heq] at hr
      have hnot : ¬ len.toInt ≤ payload.length := Int.not_le.mpr hmore
      exact result_of_more h hr hmore haccept ⟨hroom, fun hle => absurd hle hnot⟩ fun hle => absurd hle hnot
  · have hfull : MAX_MESSAGE_LEN ≤ done.length := by
      have hcongr := congrArg List.length heq
      rw [List.length_append, List.length_singleton, List.length_cons, List.length_cons] at hcongr
      rw [MAX_MESSAGE_LEN]
      omega
    obtain ⟨e, haccept⟩ := UartReader.accept_full hdone hfull b
    exact result_of_error haccept fun hread => hroom hread.1

/-- **Step lemma**: the next byte of a packet. -/
theorem take_result (h : Waiting i s) (b : Byte) :
    Result i (Readable s.loader (s.packet b)) (Continues i s.loader (s.packet b)) (s.take i b) := by
  obtain ⟨done, hdone, hincomplete⟩ := h.reader
  rw [packet, hdone.take]
  match done, hdone, hincomplete with
  | [], hdone, _ =>
      obtain ⟨r, haccept, hr⟩ := UartReader.accept_channel hdone b
      exact result_of_more h hr trivial haccept trivial trivial
  | [channel], hdone, _ => exact result_of_packet h hdone rfl fun hne => absurd rfl hne
  | channel :: len :: payload, hdone, hincomplete =>
      refine result_of_packet h hdone rfl fun _ => ?_
      have hlen : (payload ++ [b]).length = payload.length + 1 := List.length_append
      change ((payload ++ [b]).length : Int) ≤ len.toInt
      rw [hlen]
      exact hincomplete

/-- **Step lemma**: any turn. -/
theorem step_result (h : Waiting i s) {a : Turn} (hstep : step i s a = some t) :
    Result i (Accepts s a) (Undisturbed i s a) t := by
  cases a with
  | byte b =>
      rw [step, if_pos h.status] at hstep
      cases hstep
      exact take_result h b
  | call a =>
      rw [step] at hstep
      obtain ⟨g, hg, rfl⟩ := Option.map_eq_some_iff.mp hstep
      obtain ⟨done, hdone, hincomplete⟩ := h.reader
      obtain ⟨hlive, hdead⟩ := waiting_await (i := i) (con_step h.con hg) hdone hincomplete
      rw [if_pos h.status, Undisturbed, ← live_step_iff h.live hg]
      exact ⟨fun hno => absurd trivial hno, fun _ => hdead, fun _ => hlive⟩

/-- A thread that has ended stays so. -/
theorem step_of_ended (h : s.status = .ended) {a : Turn} (hstep : step i s a = some t) : t.status = .ended := by
  have hne : s.status ≠ .waiting := by simp [h]
  cases a with
  | byte b =>
      rw [step, if_neg hne] at hstep
      cases hstep
      exact h
  | call a =>
      rw [step] at hstep
      obtain ⟨g, -, rfl⟩ := Option.map_eq_some_iff.mp hstep
      rw [if_neg hne]
      exact h

theorem waiting_start {f : PoAppPillLoader} (hcon : f.con ≠ none) (hlive : f.Live i) : Waiting i (start f) :=
  ⟨rfl, hcon, hlive, [], UartReader.holds_init, trivial⟩

end

/-- **The reader**: whatever the others call, a thread passes on every packet of
the node without an exception exactly if all that it takes while it waits can be
read, and it is waiting for the next byte after each exactly if, besides, nothing
interrupts it. -/
theorem reads_on_iff {i : Nat} {f : PoAppPillLoader} (hcon : f.con ≠ none) (hlive : f.Live i) {ts : List Turn}
    {s : Loop} (hrun : Lts.run (step i) (start f) ts = some s) :
    (Lts.Always (step i) (fun s => s.status ≠ .thrown) (start f) ts ↔
        Lts.Along (step i) (fun s t => s.status = .waiting → Accepts s t) (start f) ts) ∧
      (Lts.Always (step i) (fun s => s.status = .waiting) (start f) ts ↔
        Lts.Along (step i) (fun s t => Accepts s t ∧ Undisturbed i s t) (start f) ts) := by
  have hstart := waiting_start hcon hlive
  constructor
  · have hsafe (s : Loop) (h : Waiting i s ∨ s.status = .ended) : s.status ≠ .thrown := by
      obtain h | h := h
      · simp [h.status]
      · simp [h]
    refine Lts.always_iff_along hsafe ?_ ?_ (Or.inl hstart) hrun
    · rintro s a t (h | h) hok hstep
      · have hresult := step_result h hstep
        by_cases hundisturbed : Undisturbed i s a
        · exact Or.inl (hresult.waiting (hok h.status) hundisturbed)
        · exact Or.inr (hresult.ended (hok h.status) hundisturbed)
      · exact Or.inr (step_of_ended h hstep)
    · rintro s a t (h | h) ht hstep hwaiting
      · by_contra hno
        exact ht ((step_result h hstep).thrown hno)
      · exact absurd hwaiting (by simp [h])
  · refine Lts.always_iff_along (fun s h => h.status) ?_ ?_ hstart hrun
    · rintro s a t h ⟨haccepts, hundisturbed⟩ hstep
      exact (step_result h hstep).waiting haccepts hundisturbed
    · intro s a t h ht hstep
      have hresult := step_result h hstep
      have haccepts : Accepts s a := by
        by_contra hno
        exact absurd (ht.symm.trans (hresult.thrown hno)) (by decide)
      refine ⟨haccepts, ?_⟩
      by_contra hno
      exact absurd (ht.symm.trans (hresult.ended haccepts hno)) (by decide)

/-- A client that has asked for an upload of eight bytes. -/
def asked : PoAppPillLoader :=
  { (PoAppPillLoader.init [8, 0, 0, 0, 1, 2, 3, 4]).newPoUART with bundleSize := 8, app_status := true }

/-- The notifications of an upload, with a button in between; the last one, the
id of the application, ends the thread. -/
def oneUpload : List Turn :=
  [0x01, 0x01, 0x03].map .byte ++ .call .killButton ::
    [0x01, 0x01, 0x02, 0x01, 0x05, 0x07, 1, 2, 3, 4].map .byte

theorem reads_on_iff_oneUpload :
    Lts.Always (step 0) (fun s => s.status ≠ .thrown) (start asked) oneUpload ∧
      ¬ Lts.Always (step 0) (fun s => s.status = .waiting) (start asked) oneUpload := by
  have hrun := (Option.some_get (by decide +kernel : (Lts.run (step 0) (start asked) oneUpload).isSome = true)).symm
  obtain ⟨hthrown, hwaiting⟩ := reads_on_iff (i := 0) (f := asked) (by decide) (by decide) hrun
  exact ⟨hthrown.mpr (by decide +kernel), mt hwaiting.mp (by decide +kernel)⟩

/-- A packet without a payload. -/
theorem empty_packet_throws :
    ¬ ∀ (i : Nat) (f : PoAppPillLoader) (bs : List Byte) (s : Loop), f.con ≠ none → f.Live i →
      Lts.run (step i) (start f) (bs.map .byte) = some s →
        Lts.Always (step i) (fun s => s.status = .waiting) (start f) (bs.map .byte) := by
  intro h
  have hrun := (Option.some_get (by decide +kernel :
    (Lts.run (step 0) (start asked) ([0x01, 0x00].map .byte)).isSome = true)).symm
  have hwaiting := h 0 asked [0x01, 0x00] _ (by decide) (by decide) hrun _ (List.prefix_refl _) _ hrun
  exact absurd hwaiting (by decide +kernel)

end Loop

end Pobicos.AppLoader
