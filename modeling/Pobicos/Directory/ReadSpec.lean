import Pobicos.Directory.RequestHandler

/-!
# Pobicos.Directory.ReadSpec

What `RequestHandler.read` does to the stream.  `read_cases` is its inversion
lemma: a read that comes to an end found nothing, or took exactly one frame
from the front of the stream (`holding`), or threw an `IOException`.  The
other direction says when it ends: `read_frame` on a stream that holds a whole
frame, `read_nothing` on an empty one, and `read_cut` never on one cut inside
its first frame.
-/

namespace Pobicos.Directory.RequestHandler

open Nio Octets Framing NetworkMsg Serialization

/-- The handler once `read` has taken the frame `f`. -/
def holding (h : RequestHandler) (f : Frame) : RequestHandler :=
  (h.setHeader (.full [f.tag, f.lengthByte])).setPayload (.full f.body)

@[simp] theorem holding_header (h : RequestHandler) (f : Frame) :
    (h.holding f).networkMsgHeader = some (.full [f.tag, f.lengthByte]) := rfl

/-- The handler after a `read` that found no byte. -/
def unread (h : RequestHandler) : RequestHandler :=
  h.setHeader (.allocate HEADER_LEN)

/-- `read` writes its two input buffers only. -/
def SameButInput (h h' : RequestHandler) : Prop :=
  h' = { h with networkMsgHeader := h'.networkMsgHeader, payload := h'.payload }

/-! ## The payload -/

variable {h : RequestHandler} {c : Channel} {es : List ReadEvt}

/-- The header names a frame length; the payload loop then runs on a fresh
buffer of that length. -/
theorem readPayload_eq (tag len : Byte) (ho : c.isOpen = true) :
    readPayload h (.full [tag, len]) c es =
      ((readLoop (ByteBuffer.allocate len.toNat).capacity (ByteBuffer.allocate len.toNat).position
          (.allocate len.toNat) c es).1,
        h.setPayload (readLoop (ByteBuffer.allocate len.toNat).capacity
          (ByteBuffer.allocate len.toNat).position (.allocate len.toNat) c es).2.buf,
        (readLoop (ByteBuffer.allocate len.toNat).capacity (ByteBuffer.allocate len.toNat).position
          (.allocate len.toNat) c es).2.chan) := by
  rw [ByteBuffer.capacity_allocate, ByteBuffer.position_allocate]
  simp only [readPayload, ByteBuffer.array_full, uint8ToInt, Channel.readFull, ho, if_true]
  rfl

/-- How `readPayload` can end. -/
theorem readPayload_cases (h : RequestHandler) (tag len : Byte) (c : Channel) (es : List ReadEvt) :
    (∃ body rest, c.inp = body ++ rest ∧ body.length = len.toNat ∧
      readPayload h (.full [tag, len]) c es =
        (.ret, h.setPayload (.full body), { c with inp := rest })) ∨
    (∃ p c', readPayload h (.full [tag, len]) c es =
      (.throws .ioException, h.setPayload p, c') ∧ Consumed c c') ∨
    (readPayload h (.full [tag, len]) c es).1 = .spins := by
  by_cases ho : c.isOpen = true
  · have hcons := readLoop_consumed (ByteBuffer.allocate len.toNat).capacity
      (ByteBuffer.allocate len.toNat).position (.allocate len.toNat) c es
    rw [readPayload_eq tag len ho]
    match hr : readLoop (ByteBuffer.allocate len.toNat).capacity
        (ByteBuffer.allocate len.toNat).position (.allocate len.toNat) c es with
    | (.ret, st) =>
        obtain ⟨got, hinp, hlen, hbuf, hchan⟩ := readLoop_ret hr
        rw [ByteBuffer.remaining_allocate] at hlen
        rw [ByteBuffer.filled_allocate, List.nil_append] at hbuf
        exact Or.inl ⟨got, st.chan.inp, hinp, hlen, by rw [hbuf, ← hchan]⟩
    | (.throws x, st) =>
        have hx : x = .ioException := readLoop_throws (by rw [hr])
        rw [hr] at hcons
        exact Or.inr (Or.inl ⟨st.buf, st.chan, by rw [hx], hcons⟩)
    | (.spins, st) => exact Or.inr (Or.inr rfl)
  · refine Or.inr (Or.inl ⟨.allocate len.toNat, c, ?_, Consumed.refl c⟩)
    simp [readPayload, arrayGet, uint8ToInt, Channel.readFull, ho]

/-- A payload in the stream is read once every call makes progress. -/
theorem readPayload_frame {f : Frame} {rest : List Byte} (ho : c.isOpen = true)
    (hinp : c.inp = f.body ++ rest) (hp : Progress es) (hes : f.body.length ≤ es.length) :
    readPayload h (.full [f.tag, f.lengthByte]) c es =
      (.ret, h.setPayload (.full f.body), { c with inp := rest }) := by
  have hrem : (ByteBuffer.allocate f.lengthByte.toNat).remaining = f.body.length := by
    rw [ByteBuffer.remaining_allocate, Frame.toNat_lengthByte]
  obtain ⟨es', hl, -, -⟩ := readLoop_append ho hinp hrem.symm hp (by omega)
  rw [readPayload_eq _ _ ho, hl, ByteBuffer.filled_allocate, List.nil_append]

/-! ## The header -/

/-- A first call that finds bytes is the first turn of the header loop. -/
private theorem read_ready (k : Nat) (ho : c.isOpen = true)
    (hgot : 0 < (c.inp.take (min k HEADER_LEN)).length) :
    read h c (.ready k :: es) =
      match readLoop (ByteBuffer.allocate HEADER_LEN).capacity
        (ByteBuffer.allocate HEADER_LEN).position (.allocate HEADER_LEN) c (.ready k :: es) with
      | (.ret, st) => readPayload (h.setHeader st.buf) st.buf st.chan st.evts
      | (o, st) => (o, h.setHeader st.buf, st.chan) := by
  rw [readLoop_ready AwaitsHeader.allocate.position_lt ho, ByteBuffer.capacity_allocate,
    ByteBuffer.position_allocate, ByteBuffer.remaining_allocate]
  simp only [read, Channel.read, ho, if_true, ByteBuffer.remaining_allocate, Nat.zero_add]
  cases hn : (c.inp.take (min k HEADER_LEN)).length with
  | zero => exact absurd hn (Nat.ne_of_gt hgot)
  | succ n => rfl

/-- A first call that finds no byte ends `read`. -/
private theorem read_ready_nothing (k : Nat) (ho : c.isOpen = true)
    (hgot : c.inp.take (min k HEADER_LEN) = []) :
    read h c (.ready k :: es) = (.ret, h.unread, c) := by
  rw [← ByteBuffer.remaining_allocate HEADER_LEN] at hgot
  rw [read, Channel.read_nothing ho hgot]
  rfl

/-- A first call that fails or finds the end of the stream ends `read` by an
exception. -/
private theorem read_not_ready (h : RequestHandler) (c : Channel) (e : ReadEvt) (es : List ReadEvt)
    (he : c.isOpen = false ∨ ∀ k, e ≠ .ready k) :
    ∃ c', read h c (e :: es) = (.throws .ioException, h.unread, c') ∧ (c' = c ∨ c' = c.close) := by
  cases ho : c.isOpen with
  | false =>
      refine ⟨c, ?_, Or.inl rfl⟩
      simp [read, Channel.read, ho, unread]
  | true =>
      cases e with
      | ready k =>
          obtain hclosed | hne := he
          · rw [ho] at hclosed
            cases hclosed
          · exact absurd rfl (hne k)
      | eof =>
          refine ⟨c.close, ?_, Or.inr rfl⟩
          simp [read, Channel.read, ho, unread]
      | fail =>
          refine ⟨c, ?_, Or.inl rfl⟩
          simp [read, Channel.read, ho, unread]

/-! ## The frame -/

/-- Once a first byte has arrived, `read` takes a frame, throws, or loops. -/
private theorem read_ready_cases (h : RequestHandler) (es : List ReadEvt) (k : Nat)
    (ho : c.isOpen = true) (hgot : 0 < (c.inp.take (min k HEADER_LEN)).length) :
    (∃ f rest, c.inp = f.bytes ++ rest ∧
      read h c (.ready k :: es) = (.ret, h.holding f, { c with inp := rest })) ∨
    (∃ h' c', read h c (.ready k :: es) = (.throws .ioException, h', c') ∧ SameButInput h h' ∧
      Consumed c c') ∨
    (read h c (.ready k :: es)).1 = .spins := by
  have hcons := readLoop_consumed (ByteBuffer.allocate HEADER_LEN).capacity
    (ByteBuffer.allocate HEADER_LEN).position (.allocate HEADER_LEN) c (.ready k :: es)
  rw [read_ready k ho hgot]
  match hl : readLoop (ByteBuffer.allocate HEADER_LEN).capacity
      (ByteBuffer.allocate HEADER_LEN).position (.allocate HEADER_LEN) c (.ready k :: es) with
  | (.ret, st) =>
      rw [hl] at hcons
      obtain ⟨tag, len, hstream, hbuf, hchan⟩ := AwaitsHeader.allocate.of_ret hl
      simp only [hbuf]
      obtain ⟨body, rest, hin, hblen, heq⟩ | ⟨p, c', heq, hc'⟩ | hspin :=
        readPayload_cases (h.setHeader (.full [tag, len])) tag len st.chan st.evts
      · obtain ⟨f, rfl, rfl, rfl⟩ := Frame.exists_of_header tag hblen
        refine Or.inl ⟨f, rest, by rw [hstream, hin]; rfl, ?_⟩
        rw [heq, hchan]
        rfl
      · exact Or.inr (Or.inl ⟨(h.setHeader (.full [tag, len])).setPayload p, c', heq, rfl,
          hcons.trans hc'⟩)
      · exact Or.inr (Or.inr hspin)
  | (.throws x, st) =>
      rw [hl] at hcons
      have hx : x = .ioException := readLoop_throws (by rw [hl])
      exact Or.inr (Or.inl ⟨h.setHeader st.buf, st.chan, by rw [hx], rfl, hcons⟩)
  | (.spins, st) => exact Or.inr (Or.inr rfl)

/-- **Inversion of `read`.** -/
theorem read_cases (h : RequestHandler) (c : Channel) (es : List ReadEvt) :
    read h c es = (.ret, h.unread, c) ∨
    (∃ f rest, c.inp = f.bytes ++ rest ∧ read h c es = (.ret, h.holding f, { c with inp := rest })) ∨
    (∃ h' c', read h c es = (.throws .ioException, h', c') ∧ SameButInput h h' ∧
      (Consumed c c' ∨ c' = c.close)) ∨
    (read h c es).1 = .spins := by
  match es with
  | [] => exact Or.inr (Or.inr (Or.inr rfl))
  | e :: es =>
    by_cases hr : c.isOpen = true ∧ ∃ k, e = .ready k
    · obtain ⟨ho, k, rfl⟩ := hr
      by_cases hgot : 0 < (c.inp.take (min k HEADER_LEN)).length
      · obtain hframe | ⟨h', c', heq, hsame, hc'⟩ | hspin :=
          read_ready_cases h es k ho hgot
        · exact Or.inr (Or.inl hframe)
        · exact Or.inr (Or.inr (Or.inl ⟨h', c', heq, hsame, Or.inl hc'⟩))
        · exact Or.inr (Or.inr (Or.inr hspin))
      · have hnil : c.inp.take (min k HEADER_LEN) = [] :=
          List.eq_nil_of_length_eq_zero (by omega)
        exact Or.inl (read_ready_nothing k ho hnil)
    · obtain ⟨c', heq, hc'⟩ := read_not_ready h c e es (by grind)
      refine Or.inr (Or.inr (Or.inl ⟨h.unread, c', heq, rfl, ?_⟩))
      obtain rfl | hclose := hc'
      · exact Or.inl (Consumed.refl _)
      · exact Or.inr hclose

/-- A read that ends normally was of an open channel. -/
theorem isOpen_of_read {h' : RequestHandler} {c' : Channel} (hr : read h c es = (.ret, h', c')) :
    c.isOpen = true := by
  cases ho : c.isOpen with
  | true => rfl
  | false =>
      match es with
      | [] => cases hr
      | e :: es =>
        obtain ⟨c₁, hthrow, -⟩ := read_not_ready h c e es (Or.inl ho)
        rw [hthrow] at hr
        cases hr

/-! ## When it ends -/

/-- Nothing to read: one call. -/
theorem read_nothing (ho : c.isOpen = true) (hinp : c.inp = []) (k : Nat) :
    read h c (.ready k :: es) = (.ret, h.unread, c) :=
  read_ready_nothing k ho (by rw [hinp, List.take_nil])

theorem header_pos (hne : c.inp ≠ []) {k : Nat} (hk : 0 < k) : 0 < (c.inp.take (min k HEADER_LEN)).length := by
  have hpos := List.length_pos_of_ne_nil hne
  rw [List.length_take]
  simp only [HEADER_LEN]
  omega

/-- Something to read: it is not missed. -/
theorem read_ne_unread (ho : c.isOpen = true) (hne : c.inp ≠ []) (hp : Progress es) {c' : Channel} :
    read h c es ≠ (.ret, h.unread, c') := by
  match es with
  | [] => simp [read]
  | e :: es =>
    obtain ⟨k, hk, rfl⟩ := hp e List.mem_cons_self
    have hgot := header_pos hne hk
    intro hread
    obtain ⟨f, rest, -, heq⟩ | ⟨h', c₁, heq, -, -⟩ | hspin :=
      read_ready_cases h es k ho hgot
    · have hhead := congrArg (fun x => x.2.1.networkMsgHeader.map ByteBuffer.position) (heq.symm.trans hread)
      cases hhead
    · rw [hread] at heq
      cases heq
    · rw [hread] at hspin
      cases hspin

/-- **A whole frame is read**, whatever the segmentation, once every call
makes progress: as many calls as the frame has bytes are enough. -/
theorem read_frame {f : Frame} {rest : List Byte} (ho : c.isOpen = true)
    (hinp : c.inp = f.bytes ++ rest) (hp : Progress es) (hes : f.bytes.length ≤ es.length) :
    read h c es = (.ret, h.holding f, { c with inp := rest }) := by
  match es with
  | [] =>
      rw [Frame.length_bytes, List.length_nil] at hes
      omega
  | e :: es =>
    obtain ⟨k, hk, rfl⟩ := hp e List.mem_cons_self
    have hlen := Frame.length_bytes f
    have hgot : 0 < (c.inp.take (min k HEADER_LEN)).length := by
      rw [List.length_take, hinp, List.length_append, HEADER_LEN]
      omega
    -- the header loop ends, with calls left for the payload loop
    obtain ⟨es', hl, hp', hes'⟩ := AwaitsHeader.allocate.of_frame ho hinp hp hes
    rw [read_ready k ho hgot, hl]
    exact readPayload_frame (c := { c with inp := f.body ++ rest }) ho rfl hp' hes'

/-- On a healthy connection `read` throws nothing. -/
theorem read_healthy (ho : c.isOpen = true) (hh : Healthy es) (x : Throwable) :
    (read h c es).1 ≠ .throws x := by
  match es with
  | [] => simp [read]
  | e :: es =>
    obtain ⟨k, rfl⟩ := hh e List.mem_cons_self
    by_cases hgot : 0 < (c.inp.take (min k HEADER_LEN)).length
    · obtain ⟨hne, hevts⟩ := readLoop_healthy (ByteBuffer.allocate HEADER_LEN).capacity
        (n := (ByteBuffer.allocate HEADER_LEN).position) (b := .allocate HEADER_LEN) ho hh
      rw [read_ready k ho hgot]
      match hl : readLoop (ByteBuffer.allocate HEADER_LEN).capacity
          (ByteBuffer.allocate HEADER_LEN).position (.allocate HEADER_LEN) c (.ready k :: es) with
      | (.ret, st) =>
          rw [hl] at hevts
          obtain ⟨tag, len, hstream, hbuf, hchan⟩ := AwaitsHeader.allocate.of_ret hl
          have ho' : st.chan.isOpen = true := by
            rw [hchan]
            exact ho
          simp only [hbuf]
          rw [readPayload_eq _ _ ho']
          exact (readLoop_healthy _ ho' hevts).1 x
      | (.throws y, st) => exact absurd (by rw [hl]) (hne y)
      | (.spins, st) => simp
    · have hnil : c.inp.take (min k HEADER_LEN) = [] := List.eq_nil_of_length_eq_zero (by omega)
      rw [read_ready_nothing k ho hnil]
      simp

/-- **A cut frame is never read**: while the stream is not empty and ends
inside its first frame, no number of calls ends `read`. -/
theorem read_cut (ho : c.isOpen = true) (hne : c.inp ≠ []) (hcut : decode c.inp = none)
    (hp : Progress es) : (read h c es).1 = .spins := by
  match es with
  | [] => rfl
  | e :: es =>
    obtain ⟨k, hk, rfl⟩ := hp e List.mem_cons_self
    have hgot := header_pos hne hk
    obtain ⟨f, rest, hinp, -⟩ | ⟨h', c', heq, -, -⟩ | hspin :=
      read_ready_cases h es k ho hgot
    · exact absurd hinp (decode_eq_none_iff.mp hcut f rest)
    · exact absurd (by rw [heq]) (read_healthy (h := h) ho hp.healthy .ioException)
    · exact hspin

/-! ## Reading a stream -/

/-- The type and the payload in the input buffers, once the header is there. -/
def request (h : RequestHandler) : Option (Byte × List Byte) :=
  match h.networkMsgHeader, h.payload with
  | some header, some payload => if header.hasRemaining then none else some (header.array.headD 0, payload.array)
  | _, _ => none

/-- What `read` finds when it is called again and again, and the channel after
that; an exception ends it. -/
def reads (h : RequestHandler) (c : Channel) : List (List ReadEvt) → List (Byte × List Byte) × Channel
  | [] => ([], c)
  | es :: calls =>
      match h.read c es with
      | (.ret, h, c) => (h.request.toList ++ (reads h c calls).1, (reads h c calls).2)
      | (_, _, c) => ([], c)

/-- A frame as it is found. -/
def found (f : Frame) : Byte × List Byte := (f.tag, f.body)

@[simp] theorem request_holding (h : RequestHandler) (f : Frame) :
    (h.holding f).request = some (found f) := rfl

theorem request_unread (h : RequestHandler) : h.unread.request = none := by
  have hroom : (ByteBuffer.allocate HEADER_LEN).hasRemaining = true := rfl
  cases hp : h.payload <;> simp [request, unread, setHeader, hp, hroom]

/-- **Any segmentation**: of a stream of frames, which may be cut off in its
last one, some first ones are found. -/
theorem reads_prefix {fs : List Frame} {cut : List Byte} (hinp : c.inp = encode fs ++ cut)
    (hcut : decode cut = none) (calls : List (List ReadEvt)) :
    (reads h c calls).1 <+: fs.map found := by
  induction calls generalizing h c fs with
  | nil => exact List.nil_prefix
  | cons es calls ih =>
      obtain hnone | ⟨f, rest, htake, hread⟩ | ⟨h', c', hthrow, -, -⟩ | hspin := read_cases h c es
      · rw [reads, hnone]
        simp only [request_unread]
        exact ih hinp
      · cases fs with
        | nil =>
            rw [hinp] at htake
            exact absurd htake (decode_eq_none_iff.mp hcut f rest)
        | cons g fs =>
            rw [hinp, encode_cons, List.append_assoc] at htake
            obtain ⟨rfl, rfl⟩ := bytes_append_inj htake
            rw [reads, hread]
            exact List.cons_prefix_cons.mpr ⟨rfl, ih rfl⟩
      · rw [reads, hthrow]
        exact List.nil_prefix
      · rw [reads]
        rcases hr : h.read c es with ⟨o, h', c'⟩
        rw [hr] at hspin
        cases hspin
        exact List.nil_prefix

/-- **A whole stream** is found frame by frame, with nothing left over. -/
theorem reads_encode {fs : List Frame} (ho : c.isOpen = true) (hinp : c.inp = encode fs)
    {calls : List (List ReadEvt)} (hfeeds : ∀ es ∈ calls, Feeds es) (hlen : fs.length ≤ calls.length) :
    reads h c calls = (fs.map found, { c with inp := [] }) := by
  induction calls generalizing h c fs with
  | nil =>
      obtain rfl : fs = [] := List.eq_nil_of_length_eq_zero (by simpa using hlen)
      rw [reads, ← encode_nil, ← hinp]
      rfl
  | cons es calls ih =>
      obtain ⟨hp, hcalls⟩ := hfeeds es List.mem_cons_self
      have hlater : ∀ es ∈ calls, Feeds es := fun es hes => hfeeds es (List.mem_cons_of_mem _ hes)
      cases fs with
      | nil =>
          have hnone : h.read c es = (.ret, h.unread, c) := by
            match es with
            | [] => simp at hcalls
            | e :: es =>
              obtain ⟨k, -, rfl⟩ := hp e List.mem_cons_self
              exact read_nothing ho hinp k
          rw [reads, hnone]
          simp only [request_unread, ih (h := h.unread) ho hinp hlater (Nat.zero_le _)]
          rfl
      | cons f fs =>
          have hbytes := f.length_bytes_le
          have hread := read_frame (h := h) ho (show c.inp = f.bytes ++ encode fs from hinp) hp (by omega)
          rw [reads, hread]
          simp only [request_holding, ih (h := h.holding f) (c := { c with inp := encode fs }) ho rfl hlater
            (by simpa using hlen)]
          rfl

end Pobicos.Directory.RequestHandler
