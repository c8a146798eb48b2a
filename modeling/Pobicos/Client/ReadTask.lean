import Pobicos.Lib.Channel
import Pobicos.NetworkMsg
import Pobicos.Serialization

/-!
# Pobicos.Client.ReadTask

`PoConnMgrReadTask.java`: the thread that reads frames from the client's
socket.

`turn` is one turn of its loop, from `selector.select()` to the buffers being
cleared.  `turn_cases` is its inversion: a turn finds nothing, takes one frame
off the stream and handles it, throws an `IOException`, or is still reading;
`turn_frame` says that a whole frame is taken, whatever the segmentation.
-/

namespace Pobicos.Client

open Nio Octets Framing NetworkMsg Serialization

/-- The buffers a turn leaves to the next. -/
structure ReadTask where
  networkMsgHeader : ByteBuffer
  payload : Option ByteBuffer
  deriving DecidableEq, Repr

/-- What a frame makes the thread do: store an identity and announce the
registration, announce that it was refused and stop, announce that it was
confirmed, or hand a message to the event queue. -/
inductive Effect
  | welcome (addr : JChar) (seed : JInt)
  | fail
  | pong
  | packetRx (msg : NetworkMsg)
  deriving DecidableEq, Repr

namespace ReadTask

/-- The buffers `run` starts with. -/
def new : ReadTask where
  networkMsgHeader := .allocate HEADER_LEN
  payload := none

/-- `clear()` on both buffers. -/
def clear (t : ReadTask) : ReadTask where
  networkMsgHeader := t.networkMsgHeader.rewind
  payload := t.payload.map ByteBuffer.rewind

/-- The reactions to the flag of a frame with a payload of `len` bytes.  The
payload of an empty frame is that of an earlier one, or null. -/
def handle (t : ReadTask) (len : Nat) : Except Throwable (List Effect) := do
  let flag ← arrayGet t.networkMsgHeader.array 0
  if flag = REG_REPLY_WELCOME then do
    let payload ← deref t.payload
    let addr ← arrayGetRange payload.array 0 2
    let seed ← arrayGetRange payload.array 2 4
    let a ← byteArrayToChar addr
    let s ← byteArrayToInt seed
    .ok [.welcome a s]
  else if flag = REG_REPLY_FAIL then .ok [.fail]
  else if flag = REG_REPLY_PONG then .ok [.pong]
  else if flag = POBICOS_MSG then do
    let payload ← deref t.payload
    .ok [.packetRx ⟨flag, BitVec.ofNat 8 len, payload.array⟩]
  else .ok []

/-- How far a turn has come. -/
structure Turn where
  task : ReadTask
  chan : Channel
  effects : List Effect

/-- The end of a turn, from the complete frame on. -/
def finish (t : ReadTask) (len : Nat) (c : Channel) : Outcome × Turn :=
  match t.handle len with
  | .error x => (.throws x, ⟨t, c, []⟩)
  | .ok effects => (.ret, ⟨t.clear, c, effects⟩)

/-- The second part of a turn, from the complete header on.  The first read of
the payload is the first turn of its loop. -/
def turnPayload (t : ReadTask) (c : Channel) (es : List ReadEvt) : Outcome × Turn :=
  match arrayGet t.networkMsgHeader.array 1 with
  | .error x => (.throws x, ⟨t, c, []⟩)
  | .ok b =>
      let len := uint8ToInt b
      if len ≠ 0 then
        match readLoop len 0 (.allocate len) c es with
        | (.ret, st) => finish { t with payload := some st.buf } len st.chan
        | (o, st) => (o, ⟨{ t with payload := some st.buf }, st.chan, []⟩)
      else finish t len c

/-- One turn of the loop of `run`; an `IOException` ends the thread. -/
def turn (t : ReadTask) (c : Channel) : List ReadEvt → Outcome × Turn
  | [] => (.spins, ⟨t, c, []⟩)
  | e :: es =>
      match c.read t.networkMsgHeader e with
      | .error x => (.throws x, ⟨t, c, []⟩)
      | .ok (none, _, c) => (.throws .ioException, ⟨t, c, []⟩)
      | .ok (some 0, _, c) => (.ret, ⟨t, c, []⟩)
      | .ok (some (n + 1), header, c) =>
          match readLoop HEADER_LEN (n + 1) header c es with
          | (.ret, st) => turnPayload { t with networkMsgHeader := st.buf } st.chan st.evts
          | (o, st) => (o, ⟨{ t with networkMsgHeader := st.buf }, st.chan, []⟩)

/-! ## One frame -/

variable {t : ReadTask} {c : Channel} {es : List ReadEvt}

/-- Between two turns the header buffer is at its beginning. -/
def Ready (t : ReadTask) : Prop := AwaitsHeader t.networkMsgHeader

/-- The buffers once the frame `f` has been read; an empty one leaves the
payload alone. -/
def took (t : ReadTask) (f : Frame) : ReadTask where
  networkMsgHeader := .full [f.tag, f.lengthByte]
  payload := if f.body = [] then t.payload else some (.full f.body)

theorem Ready.new : Ready .new := AwaitsHeader.allocate

theorem Ready.took (t : ReadTask) (f : Frame) : Ready (t.took f).clear := ⟨rfl, rfl⟩

/-- A first call that finds bytes is the first turn of the header loop. -/
theorem turn_ready (ht : Ready t) (ho : c.isOpen = true) (k : Nat) (es : List ReadEvt)
    (hgot : 0 < (c.inp.take (min k HEADER_LEN)).length) :
    turn t c (.ready k :: es) =
      match readLoop t.networkMsgHeader.capacity t.networkMsgHeader.position t.networkMsgHeader c
        (.ready k :: es) with
      | (.ret, st) => turnPayload { t with networkMsgHeader := st.buf } st.chan st.evts
      | (o, st) => (o, ⟨{ t with networkMsgHeader := st.buf }, st.chan, []⟩) := by
  rw [readLoop_ready ht.position_lt ho, ht.remaining, ht.position, ht.capacity]
  simp only [turn, Channel.read, ho, if_true, ht.remaining, Nat.zero_add]
  cases hn : (c.inp.take (min k HEADER_LEN)).length with
  | zero => omega
  | succ n => rfl

/-- A first call that finds no byte ends the turn. -/
theorem turn_nothing (ht : Ready t) (ho : c.isOpen = true) (k : Nat) (es : List ReadEvt)
    (hgot : c.inp.take (min k HEADER_LEN) = []) : turn t c (.ready k :: es) = (.ret, ⟨t, c, []⟩) := by
  rw [← ht.remaining] at hgot
  rw [turn, Channel.read_nothing ho hgot]

/-- An empty frame has no payload to read. -/
theorem turnPayload_zero {tag len : Byte} (hh : t.networkMsgHeader = .full [tag, len])
    (hlen : len.toNat = 0) : turnPayload t c es = finish t 0 c := by
  have hget : arrayGet t.networkMsgHeader.array 1 = .ok len := by
    rw [hh]
    rfl
  simp [turnPayload, hget, uint8ToInt, hlen]

/-- Any other frame has its payload read by a loop. -/
theorem turnPayload_ne_zero {tag len : Byte} (hh : t.networkMsgHeader = .full [tag, len])
    (hlen : len.toNat ≠ 0) :
    turnPayload t c es =
      match readLoop (ByteBuffer.allocate len.toNat).capacity (ByteBuffer.allocate len.toNat).position
        (.allocate len.toNat) c es with
      | (.ret, st) => finish { t with payload := some st.buf } len.toNat st.chan
      | (o, st) => (o, ⟨{ t with payload := some st.buf }, st.chan, []⟩) := by
  have hget : arrayGet t.networkMsgHeader.array 1 = .ok len := by
    rw [hh]
    rfl
  rw [ByteBuffer.capacity_allocate, ByteBuffer.position_allocate]
  simp [turnPayload, hget, uint8ToInt, hlen]

/-- The payload that follows a header is read whole, or the turn ends without
effects. -/
theorem turnPayload_cases {tag len : Byte} (hh : t.networkMsgHeader = .full [tag, len]) (c : Channel)
    (es : List ReadEvt) :
    (∃ body rest, c.inp = body ++ rest ∧ body.length = len.toNat ∧
      turnPayload t c es =
        finish { t with payload := if body = [] then t.payload else some (.full body) } body.length
          { c with inp := rest }) ∨
    (∃ u, turnPayload t c es = (.throws .ioException, u) ∧ u.effects = []) ∨
    ∃ u, turnPayload t c es = (.spins, u) ∧ u.effects = [] := by
  by_cases hlen : len.toNat = 0
  · exact Or.inl ⟨[], c.inp, rfl, hlen.symm, turnPayload_zero hh hlen⟩
  · rw [turnPayload_ne_zero hh hlen]
    match hl : readLoop (ByteBuffer.allocate len.toNat).capacity
        (ByteBuffer.allocate len.toNat).position (.allocate len.toNat) c es with
    | (.ret, st) =>
        obtain ⟨got, hinp, hgot, hbuf, hchan⟩ := readLoop_ret hl
        rw [ByteBuffer.remaining_allocate] at hgot
        rw [ByteBuffer.filled_allocate, List.nil_append] at hbuf
        have hne : got ≠ [] := by
          rintro rfl
          exact hlen hgot.symm
        refine Or.inl ⟨got, st.chan.inp, hinp, hgot, ?_⟩
        simp only [if_neg hne, hbuf, hgot]
        rw [← hchan]
    | (.throws x, st) =>
        cases readLoop_throws (x := x) (by rw [hl])
        exact Or.inr (Or.inl ⟨_, rfl, rfl⟩)
    | (.spins, st) => exact Or.inr (Or.inr ⟨_, rfl, rfl⟩)

/-- **Inversion of a turn.** -/
theorem turn_cases (ht : Ready t) (c : Channel) (es : List ReadEvt) :
    turn t c es = (.ret, ⟨t, c, []⟩) ∨
    (∃ f rest, c.inp = f.bytes ++ rest ∧
      turn t c es = finish (t.took f) f.body.length { c with inp := rest }) ∨
    (∃ u, turn t c es = (.throws .ioException, u) ∧ u.effects = []) ∨
    ∃ u, turn t c es = (.spins, u) ∧ u.effects = [] := by
  cases es with
  | nil => exact Or.inr (Or.inr (Or.inr ⟨_, rfl, rfl⟩))
  | cons e es =>
    by_cases ho : c.isOpen = true
    · cases e with
      | eof => exact Or.inr (Or.inr (Or.inl ⟨⟨t, c, []⟩, by simp [turn, Channel.read, ho], rfl⟩))
      | fail => exact Or.inr (Or.inr (Or.inl ⟨⟨t, c, []⟩, by simp [turn, Channel.read, ho], rfl⟩))
      | ready k =>
        by_cases hgot : 0 < (c.inp.take (min k HEADER_LEN)).length
        · rw [turn_ready ht ho k es hgot]
          rcases hl : readLoop t.networkMsgHeader.capacity t.networkMsgHeader.position
            t.networkMsgHeader c (.ready k :: es) with ⟨o, st⟩
          cases o with
          | ret =>
              obtain ⟨tag, len, hinp, hbuf, hchan⟩ := ht.of_ret hl
              obtain ⟨body, rest, hrest, hblen, heq⟩ | hthrow | hspin :=
                turnPayload_cases (t := { t with networkMsgHeader := st.buf }) hbuf st.chan st.evts
              · obtain ⟨f, rfl, rfl, rfl⟩ := Frame.exists_of_header tag hblen
                refine Or.inr (Or.inl ⟨f, rest, ?_, ?_⟩)
                · rw [hinp, hrest]
                  rfl
                · refine heq.trans ?_
                  simp only [took, hbuf]
                  rw [hchan]
              · exact Or.inr (Or.inr (Or.inl hthrow))
              · exact Or.inr (Or.inr (Or.inr hspin))
          | throws x =>
              cases readLoop_throws (x := x) (by rw [hl])
              exact Or.inr (Or.inr (Or.inl ⟨_, rfl, rfl⟩))
          | spins => exact Or.inr (Or.inr (Or.inr ⟨_, rfl, rfl⟩))
        · have hnil : c.inp.take (min k HEADER_LEN) = [] :=
            List.eq_nil_of_length_eq_zero (by omega)
          exact Or.inl (turn_nothing ht ho k es hnil)
    · have hclosed : c.isOpen = false := by simpa using ho
      exact Or.inr (Or.inr (Or.inl ⟨⟨t, c, []⟩, by simp [turn, Channel.read, hclosed], rfl⟩))

/-- The thread is ready for the next frame after every turn it survives. -/
theorem Ready.turn (ht : Ready t) {u : Turn} (h : t.turn c es = (.ret, u)) : Ready u.task := by
  obtain hnone | ⟨f, rest, -, htook⟩ | ⟨u', hthrow, -⟩ | ⟨u', hspin, -⟩ := turn_cases ht c es
  · rw [hnone] at h
    cases h
    exact ht
  · rw [htook, finish] at h
    split at h
    · cases h
    · cases h
      exact Ready.took t f
  · rw [hthrow] at h
    cases h
  · rw [hspin] at h
    cases h

/-- A payload in the stream is read once every call makes progress. -/
theorem turnPayload_frame {tag len : Byte} {body rest : List Byte}
    (hh : t.networkMsgHeader = .full [tag, len]) (ho : c.isOpen = true)
    (hinp : c.inp = body ++ rest) (hblen : body.length = len.toNat) (hp : Progress es)
    (hes : body.length ≤ es.length) :
    turnPayload t c es =
      finish { t with payload := if body = [] then t.payload else some (.full body) } body.length
        { c with inp := rest } := by
  by_cases hlen : len.toNat = 0
  · rw [hlen] at hblen
    cases List.eq_nil_of_length_eq_zero hblen
    cases hinp
    exact turnPayload_zero hh hlen
  · have hrem : (ByteBuffer.allocate len.toNat).remaining = body.length := by
      rw [ByteBuffer.remaining_allocate, hblen]
    obtain ⟨es', hl, -, -⟩ := readLoop_append ho hinp hrem.symm hp (by omega)
    have hne : body ≠ [] := by
      rintro rfl
      exact hlen hblen.symm
    rw [turnPayload_ne_zero hh hlen, hl, ByteBuffer.filled_allocate, List.nil_append]
    simp only [if_neg hne, hblen]

/-- **A whole frame is taken**, whatever the segmentation, once every call
makes progress. -/
theorem turn_frame (ht : Ready t) {f : Frame} {rest : List Byte} (ho : c.isOpen = true)
    (hinp : c.inp = f.bytes ++ rest) (hp : Progress es) (hes : f.bytes.length ≤ es.length) :
    turn t c es = finish (t.took f) f.body.length { c with inp := rest } := by
  have hlen := Frame.length_bytes f
  match es with
  | [] =>
      rw [List.length_nil] at hes
      omega
  | e :: es =>
    obtain ⟨k, hk, rfl⟩ := hp e List.mem_cons_self
    have hgot : 0 < (c.inp.take (min k HEADER_LEN)).length := by
      rw [List.length_take, hinp, List.length_append, HEADER_LEN]
      omega
    obtain ⟨es', hl, hp', hes'⟩ := ht.of_frame ho hinp hp hes
    rw [turn_ready ht ho k es hgot, hl]
    exact turnPayload_frame (t := { t with networkMsgHeader := .full [f.tag, f.lengthByte] })
      (c := { c with inp := f.body ++ rest }) rfl ho rfl f.toNat_lengthByte.symm hp' hes'

end ReadTask

end Pobicos.Client
