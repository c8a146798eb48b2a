import Pobicos.AppLoader.PobicosPacket

/-!
# Pobicos.AppLoader.PoUART

`PoUART.java`: packets as bytes on the queues of the UART.

A sender offers the bytes of a packet one by one; the thread of the receiver
takes them one by one into a buffer that it never clears, and makes a packet of
the whole buffer when it has taken as many bytes as the packet says.
`readAll_sendAll` says that this loses nothing.
-/

namespace Pobicos.AppLoader

open Nio Octets

/-! ## Sending -/

/-- `sendPacket(channel, payload)`: the bytes that are offered, one by one. -/
def sendPacket (channel : Byte) (payload : List Byte) : Except Throwable (List Byte) := do
  let pkt ← (PobicosPacket.ofChannel channel).appendAll payload
  pkt.getBuffer

/-- The bytes of a packet on the wire. -/
def packetBytes (p : Byte × List Byte) : List Byte := p.1 :: BitVec.ofNat 8 p.2.length :: p.2

/-- **A packet** whose payload fits. -/
theorem sendPacket_eq (channel : Byte) {payload : List Byte} (h : payload.length ≤ MAX_PAYLOAD_LEN) :
    sendPacket channel payload = .ok (packetBytes (channel, payload)) := by
  have happend : (PobicosPacket.filled channel []).appendAll payload =
      .ok (PobicosPacket.filled channel ([] ++ payload)) :=
    PobicosPacket.appendAll_filled channel (by simpa using h)
  rw [List.nil_append] at happend
  rw [sendPacket, PobicosPacket.ofChannel_eq, happend]
  exact PobicosPacket.getBuffer_filled channel h

/-- The bytes of one packet. -/
def IsPacket (bytes : List Byte) : Prop :=
  ∃ p : Byte × List Byte, p.2.length ≤ MAX_PAYLOAD_LEN ∧ bytes = packetBytes p

theorem IsPacket.one_lt_length {bytes : List Byte} (h : IsPacket bytes) : 1 < bytes.length := by
  obtain ⟨p, -, rfl⟩ := h
  exact Nat.succ_lt_succ (Nat.succ_pos _)

/-- What is offered is always a packet: a payload that does not fit throws. -/
theorem isPacket_of_sendPacket {channel : Byte} {payload bytes : List Byte}
    (h : sendPacket channel payload = .ok bytes) : IsPacket bytes := by
  by_cases hlen : payload.length ≤ MAX_PAYLOAD_LEN
  · rw [sendPacket_eq channel hlen] at h
    exact ⟨(channel, payload), hlen, (Except.ok.inj h).symm⟩
  · have hfull : (PobicosPacket.filled channel []).appendAll payload = .error .indexOutOfBounds :=
      PobicosPacket.appendAll_of_lt channel (Nat.zero_le _) (by simpa using hlen)
    rw [sendPacket, PobicosPacket.ofChannel_eq, hfull] at h
    cases h

/-- Packets one after the other. -/
def sendAll : List (Byte × List Byte) → Except Throwable (List Byte)
  | [] => .ok []
  | (channel, payload) :: ps => do
      let bs ← sendPacket channel payload
      let rest ← sendAll ps
      .ok (bs ++ rest)

/-! ## Receiving -/

/-- The thread in `run()`: its buffer, and how many bytes of the packet it has
taken. -/
structure UartReader where
  buffer : List Byte
  taken : Nat
  deriving DecidableEq, Repr

namespace UartReader

/-- `run()` when it has started. -/
def init : UartReader := ⟨List.replicate MAX_MESSAGE_LEN 0, 0⟩

/-- `RxQ.take()` and what follows up to the next one: the arguments of
`packetReceived`, if the packet is complete. -/
def accept (r : UartReader) (b : Byte) : Except Throwable (UartReader × Option (Byte × List Byte)) := do
  let buffer ← arraySet r.buffer r.taken b
  let count ← arrayGet buffer 1
  if r.taken + 1 < 2 ∨ ((r.taken + 1 : Nat) : Int) - 2 < count.toInt then
    .ok (⟨buffer, r.taken + 1⟩, none)
  else do
    let pkt ← PobicosPacket.ofArray buffer
    let channel ← pkt.getChannel
    let contents ← pkt.getContents
    .ok (⟨buffer, 0⟩, some (channel, contents))

/-- The packets in a stream of bytes, and the thread after it. -/
def readAll : UartReader → List Byte → Except Throwable (UartReader × List (Byte × List Byte))
  | r, [] => .ok (r, [])
  | r, b :: bs => do
      let (r', p) ← r.accept b
      let (r'', ps) ← readAll r' bs
      .ok (r'', p.toList ++ ps)

/-- A byte that does not complete a packet. -/
theorem readAll_cons_none {r r' : UartReader} {b : Byte} (h : r.accept b = .ok (r', none)) (bs : List Byte) :
    r.readAll (b :: bs) = r'.readAll bs := by
  rw [readAll, h]
  simp only [bind, Except.bind]
  cases r'.readAll bs <;> rfl

/-- A byte that completes one. -/
theorem readAll_cons_some {r r' : UartReader} {b : Byte} {p : Byte × List Byte}
    (h : r.accept b = .ok (r', some p)) (bs : List Byte) :
    r.readAll (b :: bs) = (r'.readAll bs).map fun q => (q.1, p :: q.2) := by
  rw [readAll, h]
  simp only [bind, Except.bind]
  cases r'.readAll bs <;> rfl

/-! ## One packet -/

/-- A byte in the middle of a packet. -/
theorem accept_middle {r : UartReader} {b count : Byte} {buffer : List Byte}
    (hset : arraySet r.buffer r.taken b = .ok buffer) (hcount : arrayGet buffer 1 = .ok count)
    (hmore : r.taken + 1 < 2 ∨ ((r.taken + 1 : Nat) : Int) - 2 < count.toInt) :
    r.accept b = .ok (⟨buffer, r.taken + 1⟩, none) := by
  rw [accept, hset]
  simp only [bind, Except.bind, hcount, if_pos hmore]

/-- The last byte of a packet. -/
theorem accept_last (channel : Byte) (bs : List Byte) {r : UartReader} {b : Byte} {left : List Byte}
    (hset : arraySet r.buffer r.taken b = .ok (channel :: BitVec.ofNat 8 bs.length :: (bs ++ left)))
    (htaken : r.taken + 1 = bs.length + 2) (hfit : bs.length + left.length = MAX_PAYLOAD_LEN) :
    r.accept b = .ok (⟨channel :: BitVec.ofNat 8 bs.length :: (bs ++ left), 0⟩, some (channel, bs)) := by
  obtain ⟨p, hp, hchannel, hcontents⟩ := PobicosPacket.getContents_ofArray channel hfit
  have hcount : (BitVec.ofNat 8 bs.length).toInt = bs.length := PobicosPacket.toInt_length (by omega)
  have hdone : ¬ (r.taken + 1 < 2 ∨ ((r.taken + 1 : Nat) : Int) - 2 < (BitVec.ofNat 8 bs.length).toInt) := by
    rw [hcount]
    omega
  have hget : arrayGet (channel :: BitVec.ofNat 8 bs.length :: (bs ++ left)) 1 =
      .ok (BitVec.ofNat 8 bs.length) := rfl
  rw [accept, hset]
  simp only [bind, Except.bind, hget, if_neg hdone, hp, hchannel, hcontents]

/-- The rest of a payload: `done` has been taken, `left` is what is behind it in
the buffer. -/
theorem readAll_payload (channel : Byte) (done : List Byte) {todo left rest : List Byte} (htodo : todo ≠ [])
    (hfit : done.length + left.length = MAX_PAYLOAD_LEN) (hroom : todo.length ≤ left.length) :
    readAll ⟨channel :: BitVec.ofNat 8 (done ++ todo).length :: (done ++ left), done.length + 2⟩ (todo ++ rest) =
      (readAll ⟨channel :: BitVec.ofNat 8 (done ++ todo).length :: (done ++ todo ++ left.drop todo.length), 0⟩
        rest).map fun q => (q.1, (channel, done ++ todo) :: q.2) := by
  induction todo generalizing done left with
  | nil => exact absurd rfl htodo
  | cons b todo ih =>
      cases left with
      | nil => simp at hroom
      | cons x left =>
          have hset : ∀ len : Byte,
              arraySet (channel :: len :: (done ++ x :: left)) (done.length + 2) b =
                .ok (channel :: len :: (done ++ b :: left)) := by
            intro len
            exact arraySet_append (channel :: len :: done) left x b
          simp only [List.length_cons] at hfit hroom
          rw [List.cons_append]
          cases todo with
          | nil =>
              have hlast := accept_last channel (done ++ [b]) (r := ⟨channel ::
                BitVec.ofNat 8 (done ++ [b]).length :: (done ++ x :: left), done.length + 2⟩) (b := b)
                (by rw [hset, List.append_assoc, List.singleton_append]) (by simp) (by simp; omega)
              rw [readAll_cons_some hlast]
              simp
          | cons c todo =>
              have hcount : (BitVec.ofNat 8 (done ++ b :: c :: todo).length).toInt =
                  ((done ++ b :: c :: todo).length : Nat) :=
                PobicosPacket.toInt_length (by simp at hroom ⊢; omega)
              have hmiddle := accept_middle (r := ⟨channel :: BitVec.ofNat 8 (done ++ b :: c :: todo).length ::
                (done ++ x :: left), done.length + 2⟩) (b := b) (hset _) rfl
                (Or.inr (by rw [hcount]; simp; omega))
              have hfit' : (done ++ [b]).length + left.length = MAX_PAYLOAD_LEN := by
                simp
                omega
              have hnext := ih (done ++ [b]) (List.cons_ne_nil _ _) hfit' (Nat.le_of_succ_le_succ hroom)
              rw [readAll_cons_none hmiddle]
              simpa using hnext

/-- **One packet** is read, and the next one can be. -/
theorem readAll_packet {buffer : List Byte} (hbuffer : buffer.length = MAX_MESSAGE_LEN) (channel : Byte)
    {payload : List Byte} (h : payload.length ≤ MAX_PAYLOAD_LEN) (rest : List Byte) :
    ∃ buffer' : List Byte, buffer'.length = MAX_MESSAGE_LEN ∧
      readAll ⟨buffer, 0⟩ (channel :: BitVec.ofNat 8 payload.length :: payload ++ rest) =
        (readAll ⟨buffer', 0⟩ rest).map fun q => (q.1, (channel, payload) :: q.2) := by
  obtain ⟨x, y, left, rfl⟩ : ∃ x y left, buffer = x :: y :: left := by
    match buffer, hbuffer with
    | x :: y :: left, _ => exact ⟨x, y, left, rfl⟩
  have hleft : left.length = MAX_PAYLOAD_LEN := by
    simp only [List.length_cons, MAX_MESSAGE_LEN] at hbuffer
    omega
  have hfirst : accept ⟨x :: y :: left, 0⟩ channel = .ok (⟨channel :: y :: left, 1⟩, none) :=
    accept_middle (by rw [arraySet_of_lt (by simp)]; rfl) rfl (Or.inl Nat.one_lt_two)
  have hset : arraySet (channel :: y :: left) 1 (BitVec.ofNat 8 payload.length) =
      .ok (channel :: BitVec.ofNat 8 payload.length :: left) := by
    rw [arraySet_of_lt (by simp)]
    rfl
  rw [List.cons_append, List.cons_append, readAll_cons_none hfirst]
  cases payload with
  | nil =>
      have hlast := accept_last channel [] (r := ⟨channel :: y :: left, 1⟩) hset rfl (by simpa using hleft)
      refine ⟨channel :: BitVec.ofNat 8 0 :: left, ?_, readAll_cons_some hlast rest⟩
      simp [MAX_MESSAGE_LEN, hleft]
  | cons b payload =>
      have hcount : (BitVec.ofNat 8 (b :: payload).length).toInt = ((b :: payload).length : Nat) :=
        PobicosPacket.toInt_length h
      have hsecond := accept_middle (r := ⟨channel :: y :: left, 1⟩) hset rfl
        (Or.inr (by rw [hcount]; simp))
      refine ⟨channel :: BitVec.ofNat 8 (b :: payload).length ::
        (b :: payload ++ left.drop (b :: payload).length), ?_, ?_⟩
      · rw [MAX_MESSAGE_LEN, ← hleft]
        rw [← hleft] at h
        simp only [List.length_cons, List.length_append, List.length_drop] at h ⊢
        omega
      · rw [readAll_cons_none hsecond]
        exact readAll_payload channel [] (List.cons_ne_nil _ _) (by simpa using hleft)
          (by rwa [hleft])

/-! ## Any packets -/

theorem sendAll_eq (ps : List (Byte × List Byte)) (h : ∀ p ∈ ps, p.2.length ≤ MAX_PAYLOAD_LEN) :
    sendAll ps = .ok (ps.flatMap packetBytes) := by
  induction ps with
  | nil => rfl
  | cons p ps ih =>
      have hrest := ih fun p hp => h p (List.mem_cons_of_mem _ hp)
      rw [sendAll, sendPacket_eq p.1 (h p List.mem_cons_self), hrest]
      rfl

theorem readAll_flatMap (ps : List (Byte × List Byte)) (h : ∀ p ∈ ps, p.2.length ≤ MAX_PAYLOAD_LEN)
    {buffer : List Byte} (hbuffer : buffer.length = MAX_MESSAGE_LEN) :
    ∃ buffer', readAll ⟨buffer, 0⟩ (ps.flatMap packetBytes) = .ok (⟨buffer', 0⟩, ps) := by
  induction ps generalizing buffer with
  | nil => exact ⟨buffer, rfl⟩
  | cons p ps ih =>
      obtain ⟨channel, payload⟩ := p
      obtain ⟨next, hnext, hpacket⟩ := readAll_packet hbuffer channel (h _ List.mem_cons_self)
        (ps.flatMap packetBytes)
      obtain ⟨buffer', hread⟩ := ih (fun p hp => h p (List.mem_cons_of_mem _ hp)) hnext
      refine ⟨buffer', ?_⟩
      rw [List.flatMap_cons, packetBytes, hpacket, hread]
      rfl

/-- **The round trip**: packets whose payloads fit, written one after the other,
are read as they were written, whatever is in the buffer of the reader. -/
theorem readAll_sendAll (ps : List (Byte × List Byte)) (h : ∀ p ∈ ps, p.2.length ≤ MAX_PAYLOAD_LEN)
    {buffer : List Byte} (hbuffer : buffer.length = MAX_MESSAGE_LEN) :
    ∃ stream buffer', sendAll ps = .ok stream ∧ readAll ⟨buffer, 0⟩ stream = .ok (⟨buffer', 0⟩, ps) := by
  obtain ⟨buffer', hread⟩ := readAll_flatMap ps h hbuffer
  exact ⟨_, buffer', sendAll_eq ps h, hread⟩

/-- An empty packet, a full one and a short one, on a buffer that is not
clear. -/
theorem readAll_sendAll_three :
    let ps : List (Byte × List Byte) := [(1, []), (2, List.replicate 27 0xAB), (0xFF, [7, 9])]
    ∃ stream buffer', sendAll ps = .ok stream ∧
      readAll ⟨List.replicate 29 0x5A, 0⟩ stream = .ok (⟨buffer', 0⟩, ps) := by
  intro ps
  exact readAll_sendAll ps (by decide) (by decide)

end UartReader

end Pobicos.AppLoader
