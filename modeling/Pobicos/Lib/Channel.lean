import Pobicos.Lib.ByteBuffer
import Mathlib.Tactic.Common
import Mathlib.Tactic.Simps.Basic

/-!
# Channel

Non-blocking socket channels and the loops a reader and a writer run on them.

What the kernel does at one call is an event: a read finds some bytes ready
(possibly none), the end of the stream, or a broken connection; a write has
room for some bytes (possibly none) or fails.  A loop is scripted by the list
of events of its successive calls, so a statement over all event lists is one
over all segmentations of the stream; a loop whose script runs out first is
still looping (`Outcome.spins`).

* `readLoop_ret` — a read loop that ends has moved exactly the bytes its
  buffer had room for, whatever the segmentation;
* `readLoop_append` — it does so once the stream holds those bytes and every
  call makes progress;
* `writeLoop_spec` — a write loop has appended a prefix of what remained, all
  of it if it ended normally.
-/

namespace Nio

open Octets

/-! ## Calls -/

/-- How a block of statements ends: normally, by an exception, or not within
the results scripted for it. -/
inductive Outcome
  | ret
  | throws (e : Throwable)
  | spins
  deriving DecidableEq, Repr

/-- One end of a connection: whether this side has closed it, the bytes the
peer has sent that are not read yet, and the bytes written to the peer so far. -/
structure Channel where
  isOpen : Bool
  inp : List Byte
  outp : List Byte
  deriving DecidableEq, Repr

/-- What one `read` call finds: bytes ready, the end of the stream, or a
broken connection. -/
inductive ReadEvt
  | ready (n : Nat)
  | eof
  | fail
  deriving DecidableEq, Repr

/-- What one `write` call finds: room for some bytes, or a broken connection. -/
inductive WriteEvt
  | accept (n : Nat)
  | fail
  deriving DecidableEq, Repr

namespace Channel

/-- `close()`. -/
def close (c : Channel) : Channel := { c with isOpen := false }

/-- `read(b)`: the number of bytes stored (`none` for the end of the stream),
the buffer and the channel after the call. -/
def read (c : Channel) (b : ByteBuffer) (e : ReadEvt) :
    Except Throwable (Option Nat × ByteBuffer × Channel) :=
  if c.isOpen then
    match e with
    | .ready n =>
        let got := c.inp.take (min n b.remaining)
        .ok (some got.length, b.store got, { c with inp := c.inp.drop (min n b.remaining) })
    | .eof => .ok (none, b, c)
    | .fail => .error .ioException
  else .error .ioException

/-- `read(b)` into a buffer with no room: the kernel is not asked, and the
call returns 0. -/
def readFull (c : Channel) : Except Throwable Nat :=
  if c.isOpen then .ok 0 else .error .ioException

/-- A call that finds no byte leaves the stream as it was. -/
theorem read_nothing {c : Channel} {b : ByteBuffer} {k : Nat} (ho : c.isOpen = true)
    (hgot : c.inp.take (min k b.remaining) = []) :
    c.read b (.ready k) = .ok (some 0, b.store [], c) := by
  have hdrop := List.take_append_drop (min k b.remaining) c.inp
  rw [hgot, List.nil_append] at hdrop
  rw [read, if_pos ho]
  simp only [hgot, hdrop, List.length_nil]

/-- The bytes `bs` have reached the peer's side. -/
@[simps] def emit (c : Channel) (bs : List Byte) : Channel := { c with outp := c.outp ++ bs }

@[simp] theorem emit_nil (c : Channel) : c.emit [] = c := by
  rw [emit, List.append_nil]

theorem emit_emit (c : Channel) (bs bs' : List Byte) : (c.emit bs).emit bs' = c.emit (bs ++ bs') := by
  rw [emit, emit, emit, List.append_assoc]

/-- `write(b)`: the buffer advanced past the bytes taken, and the channel. -/
def write (c : Channel) (b : ByteBuffer) (e : WriteEvt) : Except Throwable (ByteBuffer × Channel) :=
  if c.isOpen then
    match e with
    | .accept n => .ok (b.advance n, c.emit (b.rest.take n))
    | .fail => .error .ioException
  else .error .ioException

end Channel

/-! ## Read loops -/

/-- Where a read loop has come to. -/
structure ReadState where
  buf : ByteBuffer
  chan : Channel
  evts : List ReadEvt

/-- `while (bytesRead < bound) { ret = c.read(b); if (ret == -1) throw new
IOException(); bytesRead += ret; }` -/
def readLoop (bound : Nat) : Nat → ByteBuffer → Channel → List ReadEvt → Outcome × ReadState
  | n, b, c, [] => (if n < bound then .spins else .ret, ⟨b, c, []⟩)
  | n, b, c, e :: es =>
      if n < bound then
        match c.read b e with
        | .ok (some k, b', c') => readLoop bound (n + k) b' c' es
        | .ok (none, b', c') => (.throws .ioException, ⟨b', c', es⟩)
        | .error x => (.throws x, ⟨b, c, es⟩)
      else (.ret, ⟨b, c, e :: es⟩)

theorem readLoop_of_le {bound n : Nat} (h : bound ≤ n) (b : ByteBuffer) (c : Channel)
    (es : List ReadEvt) : readLoop bound n b c es = (.ret, ⟨b, c, es⟩) := by
  cases es with
  | nil => rw [readLoop, if_neg (by omega)]
  | cons e es => rw [readLoop, if_neg (by omega)]

theorem readLoop_ready {bound n : Nat} (h : n < bound) {b : ByteBuffer} {c : Channel}
    (ho : c.isOpen = true) (k : Nat) (es : List ReadEvt) :
    readLoop bound n b c (.ready k :: es) =
      readLoop bound (n + (c.inp.take (min k b.remaining)).length)
        (b.store (c.inp.take (min k b.remaining)))
        { c with inp := c.inp.drop (min k b.remaining) } es := by
  rw [readLoop, if_pos h, Channel.read, if_pos ho]

/-- An unfinished iteration that is not `ready` ends the loop where it stands. -/
theorem readLoop_not_ready {bound n : Nat} (h : n < bound) {b : ByteBuffer} {c : Channel}
    {e : ReadEvt} (he : c.isOpen = false ∨ ∀ k, e ≠ .ready k) (es : List ReadEvt) :
    readLoop bound n b c (e :: es) = (.throws .ioException, ⟨b, c, es⟩) := by
  rw [readLoop, if_pos h, Channel.read.eq_def]
  by_cases ho : c.isOpen = true
  · rw [if_pos ho]
    obtain hclosed | hne := he
    · rw [ho] at hclosed
      cases hclosed
    · cases e with
      | ready k => exact absurd rfl (hne k)
      | eof => rfl
      | fail => rfl
  · rw [if_neg ho]

/-- The channel after a read loop: some prefix of the stream is consumed, and
nothing else has changed. -/
def Consumed (c c' : Channel) : Prop := ∃ got, c.inp = got ++ c'.inp ∧ c' = { c with inp := c'.inp }

theorem Consumed.refl (c : Channel) : Consumed c c := ⟨[], rfl, rfl⟩

theorem Consumed.drop (c : Channel) (n : Nat) : Consumed c { c with inp := c.inp.drop n } :=
  ⟨c.inp.take n, (List.take_append_drop n c.inp).symm, rfl⟩

theorem Consumed.trans {a b c : Channel} (h : Consumed a b) (h' : Consumed b c) : Consumed a c := by
  obtain ⟨g, hg, hb⟩ := h
  obtain ⟨g', hg', hc⟩ := h'
  refine ⟨g ++ g', by rw [hg, hg', List.append_assoc], ?_⟩
  rw [hc, hb]

theorem Consumed.outp {c c' : Channel} (h : Consumed c c') : c'.outp = c.outp := by
  obtain ⟨_, _, hc⟩ := h
  rw [hc]

theorem Consumed.isOpen {c c' : Channel} (h : Consumed c c') : c'.isOpen = c.isOpen := by
  obtain ⟨_, _, hc⟩ := h
  rw [hc]

/-- However a read loop ends, it has only consumed stream. -/
theorem readLoop_consumed (bound n : Nat) (b : ByteBuffer) (c : Channel) (es : List ReadEvt) :
    Consumed c (readLoop bound n b c es).2.chan := by
  induction es generalizing n b c with
  | nil =>
      rw [readLoop]
      exact Consumed.refl c
  | cons e es ih =>
      by_cases h : n < bound
      · by_cases hr : c.isOpen = true ∧ ∃ k, e = .ready k
        · obtain ⟨ho, k, rfl⟩ := hr
          rw [readLoop_ready h ho]
          exact (Consumed.drop c _).trans (ih _ _ _)
        · rw [readLoop_not_ready h (by grind)]
          exact Consumed.refl c
      · rw [readLoop_of_le (by omega)]
        exact Consumed.refl c

/-- A read loop throws nothing but `IOException`. -/
theorem readLoop_throws {bound n : Nat} {b : ByteBuffer} {c : Channel} {es : List ReadEvt}
    {x : Throwable} (h : (readLoop bound n b c es).1 = .throws x) : x = .ioException := by
  induction es generalizing n b c with
  | nil =>
      rw [readLoop] at h
      split at h <;> cases h
  | cons e es ih =>
      by_cases hn : n < bound
      · by_cases hr : c.isOpen = true ∧ ∃ k, e = .ready k
        · obtain ⟨ho, k, rfl⟩ := hr
          rw [readLoop_ready hn ho] at h
          exact ih h
        · rw [readLoop_not_ready hn (by grind)] at h
          cases h
          rfl
      · rw [readLoop_of_le (by omega)] at h
        cases h

/-- What an iteration stores is what it takes from the stream. -/
private theorem filled_store_take (b : ByteBuffer) (inp : List Byte) (k : Nat) :
    (b.store (inp.take (min k b.remaining))).filled = b.filled ++ inp.take (min k b.remaining) := by
  rw [ByteBuffer.filled_store, List.take_take]
  congr 2
  omega

/-- The loop counter stays the buffer position. -/
private theorem position_store_take (b : ByteBuffer) (inp : List Byte) (k : Nat) :
    (b.store (inp.take (min k b.remaining))).position =
      b.position + (inp.take (min k b.remaining)).length := by
  rw [ByteBuffer.position_store, List.length_take]
  omega

/-- A loop whose buffer has no room has nothing to move. -/
private theorem moved_nothing {b : ByteBuffer} (h : b.capacity ≤ b.position) (c : Channel) :
    ∃ got, c.inp = got ++ c.inp ∧ got.length = b.remaining ∧ b = .full (b.filled ++ got) ∧
      c = { c with inp := c.inp } := by
  have hrem : b.remaining = 0 := by
    simp only [ByteBuffer.remaining, ByteBuffer.capacity] at *
    omega
  refine ⟨[], rfl, hrem.symm, ?_, rfl⟩
  rw [List.append_nil]
  exact ByteBuffer.eq_full_of_remaining hrem

/-- **Read loop, partial correctness**: a loop counting from the buffer's
position to its capacity that ends has moved exactly the bytes it had room
for from the stream to the buffer. -/
theorem readLoop_ret {b : ByteBuffer} {c : Channel} {es : List ReadEvt} {s : ReadState}
    (h : readLoop b.capacity b.position b c es = (.ret, s)) :
    ∃ got, c.inp = got ++ s.chan.inp ∧ got.length = b.remaining ∧
      s.buf = .full (b.filled ++ got) ∧ s.chan = { c with inp := s.chan.inp } := by
  induction es generalizing b c with
  | nil =>
      rw [readLoop] at h
      split at h
      · cases h
      · next hn =>
        cases h
        exact moved_nothing (Nat.le_of_not_lt hn) c
  | cons e es ih =>
      by_cases hn : b.position < b.capacity
      · by_cases hr : c.isOpen = true ∧ ∃ k, e = .ready k
        · obtain ⟨ho, k, rfl⟩ := hr
          rw [readLoop_ready hn ho, ← position_store_take] at h
          have hcap := ByteBuffer.capacity_store b (c.inp.take (min k b.remaining))
          rw [← hcap] at h
          obtain ⟨got, hinp, hlen, hbuf, hchan⟩ := ih h
          refine ⟨c.inp.take (min k b.remaining) ++ got, ?_, ?_, ?_, ?_⟩
          · rw [List.append_assoc, ← hinp]
            exact (List.take_append_drop _ _).symm
          · rw [List.length_append, hlen, ByteBuffer.remaining_store, List.length_take]
            omega
          · rw [hbuf, filled_store_take, List.append_assoc]
          · rw [hchan]
        · rw [readLoop_not_ready hn (by grind)] at h
          cases h
      · rw [readLoop_of_le (by omega)] at h
        cases h
        exact moved_nothing (by omega) c

/-- Every scripted call finds the connection healthy. -/
def Healthy (es : List ReadEvt) : Prop := ∀ e ∈ es, ∃ k, e = .ready k

/-- Every scripted call finds at least one byte ready, if the stream has one. -/
def Progress (es : List ReadEvt) : Prop := ∀ e ∈ es, ∃ k, 0 < k ∧ e = .ready k

theorem progress_replicate {k : Nat} (hk : 0 < k) (n : Nat) : Progress (List.replicate n (.ready k)) :=
  fun _ he => ⟨k, hk, List.eq_of_mem_replicate he⟩

theorem Progress.healthy {es : List ReadEvt} (h : Progress es) : Healthy es := fun e he =>
  let ⟨k, _, hk⟩ := h e he
  ⟨k, hk⟩

/-- On a healthy connection a read loop throws nothing. -/
theorem readLoop_healthy (bound : Nat) {n : Nat} {b : ByteBuffer} {c : Channel} {es : List ReadEvt}
    (ho : c.isOpen = true) (hh : Healthy es) :
    (∀ x, (readLoop bound n b c es).1 ≠ .throws x) ∧ Healthy (readLoop bound n b c es).2.evts := by
  induction es generalizing n b c with
  | nil =>
      rw [readLoop]
      refine ⟨fun x => ?_, hh⟩
      split <;> simp
  | cons e es ih =>
      by_cases hn : n < bound
      · obtain ⟨k, rfl⟩ := hh e List.mem_cons_self
        rw [readLoop_ready hn ho]
        exact ih ho fun e he => hh e (List.mem_cons_of_mem _ he)
      · rw [readLoop_of_le (by omega)]
        exact ⟨fun x => by simp, hh⟩

/-- **Read loop, termination**: with the missing bytes in the stream and a
byte of progress at each call, as many calls as bytes are enough; the other
calls are left. -/
theorem readLoop_eq_ret {b : ByteBuffer} {c : Channel} {es : List ReadEvt} (ho : c.isOpen = true)
    (hp : Progress es) (hinp : b.remaining ≤ c.inp.length) (hes : b.remaining ≤ es.length) :
    ∃ st, readLoop b.capacity b.position b c es = (.ret, st) ∧ Progress st.evts ∧
      es.length ≤ st.evts.length + b.remaining := by
  induction es generalizing b c with
  | nil =>
      have hpos := b.position_le
      have hrem : b.remaining = 0 := by
        rw [List.length_nil] at hes
        omega
      refine ⟨⟨b, c, []⟩, readLoop_of_le ?_ b c [], hp, by simp⟩
      simp only [ByteBuffer.remaining, ByteBuffer.capacity] at *
      omega
  | cons e es ih =>
      by_cases hn : b.position < b.capacity
      · obtain ⟨k, hk, rfl⟩ := hp e List.mem_cons_self
        have hrem : 0 < b.remaining := by
          simp only [ByteBuffer.remaining, ByteBuffer.capacity] at *
          omega
        have hgot : 0 < (c.inp.take (min k b.remaining)).length := by
          rw [List.length_take]
          omega
        have hleft := ByteBuffer.remaining_store b (c.inp.take (min k b.remaining))
        have hmoved := List.length_take (i := min k b.remaining) (l := c.inp)
        rw [List.length_cons] at hes
        obtain ⟨st, hst, hpst, hlen⟩ := ih (b := b.store (c.inp.take (min k b.remaining)))
          (c := { c with inp := c.inp.drop (min k b.remaining) }) ho
          (fun e he => hp e (List.mem_cons_of_mem _ he))
          (by rw [hleft, List.length_drop]; omega) (by omega)
        refine ⟨st, ?_, hpst, by rw [List.length_cons]; omega⟩
        rw [readLoop_ready hn ho, ← position_store_take,
          ← ByteBuffer.capacity_store b (c.inp.take (min k b.remaining)), hst]
      · exact ⟨⟨b, c, e :: es⟩, readLoop_of_le (by omega) b c _, hp, by simp⟩

/-- **Read loop, total correctness**: the bytes the buffer has room for, at the
front of the stream, are moved to the buffer. -/
theorem readLoop_append {b : ByteBuffer} {c : Channel} {es : List ReadEvt} {got rest : List Byte}
    (ho : c.isOpen = true) (hinp : c.inp = got ++ rest) (hgot : got.length = b.remaining)
    (hp : Progress es) (hes : b.remaining ≤ es.length) :
    ∃ es', readLoop b.capacity b.position b c es =
        (.ret, ⟨.full (b.filled ++ got), { c with inp := rest }, es'⟩) ∧
      Progress es' ∧ es.length ≤ es'.length + b.remaining := by
  have henough : b.remaining ≤ c.inp.length := by
    rw [hinp, List.length_append]
    omega
  obtain ⟨st, hl, hp', hlen⟩ := readLoop_eq_ret ho hp henough hes
  obtain ⟨got', hinp', hgot', hbuf, hchan⟩ := readLoop_ret hl
  obtain ⟨rfl, hrest⟩ := List.append_inj (hinp.symm.trans hinp') (by omega)
  refine ⟨st.evts, ?_, hp', hlen⟩
  rw [hl, ← hbuf, hrest, ← hchan]

/-! ## Write loops -/

/-- `while (b.hasRemaining()) c.write(b);` -/
def writeLoop : ByteBuffer → Channel → List WriteEvt → Outcome × ByteBuffer × Channel
  | b, c, [] => (if b.hasRemaining then .spins else .ret, b, c)
  | b, c, e :: es =>
      if b.hasRemaining then
        match c.write b e with
        | .ok (b', c') => writeLoop b' c' es
        | .error x => (.throws x, b, c)
      else (.ret, b, c)

theorem writeLoop_of_remaining {b : ByteBuffer} (h : b.remaining = 0) (c : Channel)
    (es : List WriteEvt) : writeLoop b c es = (.ret, b, c) := by
  have hb : b.hasRemaining = false := ByteBuffer.hasRemaining_eq_false_iff.mpr h
  cases es with
  | nil => rw [writeLoop, hb, if_neg (by simp)]
  | cons e es => rw [writeLoop, hb, if_neg (by simp)]

theorem writeLoop_accept {b : ByteBuffer} (h : 0 < b.remaining) {c : Channel}
    (ho : c.isOpen = true) (n : Nat) (es : List WriteEvt) :
    writeLoop b c (.accept n :: es) =
      writeLoop (b.advance n) (c.emit (b.rest.take n)) es := by
  rw [writeLoop, if_pos (ByteBuffer.hasRemaining_iff.mpr h), Channel.write, if_pos ho]

theorem writeLoop_not_accept {b : ByteBuffer} (h : 0 < b.remaining) {c : Channel} {e : WriteEvt}
    (he : c.isOpen = false ∨ e = .fail) (es : List WriteEvt) :
    writeLoop b c (e :: es) = (.throws .ioException, b, c) := by
  rw [writeLoop, if_pos (ByteBuffer.hasRemaining_iff.mpr h), Channel.write.eq_def]
  by_cases ho : c.isOpen = true
  · obtain hclosed | rfl := he
    · rw [ho] at hclosed
      cases hclosed
    · rw [if_pos ho]
  · rw [if_neg ho]

/-- A call that takes nothing. -/
theorem closed_or_fail {c : Channel} {e : WriteEvt} (h : ¬ (c.isOpen = true ∧ ∃ n, e = .accept n)) :
    c.isOpen = false ∨ e = .fail := by
  cases e with
  | fail => exact Or.inr rfl
  | accept n =>
      refine Or.inl (Bool.eq_false_iff.mpr fun ho => ?_)
      exact h ⟨ho, n, rfl⟩

/-- **Write loop**: a prefix of what remained has been appended to the output,
all of it if the loop ended normally. -/
theorem writeLoop_spec (b : ByteBuffer) (c : Channel) (es : List WriteEvt) :
    ∃ n, (writeLoop b c es).2 = (b.advance n, c.emit (b.rest.take n)) ∧
      ((writeLoop b c es).1 = .ret → b.remaining ≤ n) := by
  induction es generalizing b c with
  | nil =>
      refine ⟨0, ?_, ?_⟩
      · rw [writeLoop, ByteBuffer.advance_zero, List.take_zero, Channel.emit_nil]
      · rw [writeLoop]
        intro h
        split at h
        · cases h
        · next hb =>
          rw [Bool.not_eq_true, ByteBuffer.hasRemaining_eq_false_iff] at hb
          omega
  | cons e es ih =>
      by_cases hrem : 0 < b.remaining
      · by_cases ha : c.isOpen = true ∧ ∃ n, e = .accept n
        · obtain ⟨ho, n, rfl⟩ := ha
          obtain ⟨m, hm, hret⟩ := ih (b.advance n) (c.emit (b.rest.take n))
          rw [writeLoop_accept hrem ho]
          refine ⟨n + m, ?_, ?_⟩
          · rw [hm, ByteBuffer.rest_advance, Channel.emit_emit, ← List.take_add]
            rw [Prod.mk.injEq]
            refine ⟨?_, rfl⟩
            rw [ByteBuffer.ext_iff', ByteBuffer.position_advance, ByteBuffer.position_advance,
              ByteBuffer.position_advance, ByteBuffer.remaining_advance]
            exact ⟨rfl, by omega⟩
          · intro h
            have := hret h
            rw [ByteBuffer.remaining_advance] at this
            omega
        · rw [writeLoop_not_accept hrem (closed_or_fail ha)]
          refine ⟨0, ?_, fun h => by cases h⟩
          rw [ByteBuffer.advance_zero, List.take_zero, Channel.emit_nil]
      · have h0 : b.remaining = 0 := by omega
        rw [writeLoop_of_remaining h0]
        refine ⟨0, ?_, fun _ => by omega⟩
        rw [ByteBuffer.advance_zero, List.take_zero, Channel.emit_nil]

/-- A write loop throws nothing but `IOException`. -/
theorem writeLoop_throws {b : ByteBuffer} {c : Channel} {es : List WriteEvt} {x : Throwable}
    (h : (writeLoop b c es).1 = .throws x) : x = .ioException := by
  induction es generalizing b c with
  | nil =>
      rw [writeLoop] at h
      split at h <;> cases h
  | cons e es ih =>
      by_cases hrem : 0 < b.remaining
      · by_cases ha : c.isOpen = true ∧ ∃ n, e = .accept n
        · obtain ⟨ho, n, rfl⟩ := ha
          rw [writeLoop_accept hrem ho] at h
          exact ih h
        · rw [writeLoop_not_accept hrem (closed_or_fail ha)] at h
          cases h
          rfl
      · rw [writeLoop_of_remaining (by omega)] at h
        cases h

/-- A write loop ends normally exactly when nothing remains. -/
theorem writeLoop_ret_iff (b : ByteBuffer) (c : Channel) (es : List WriteEvt) :
    (writeLoop b c es).1 = .ret ↔ (writeLoop b c es).2.1.remaining = 0 := by
  induction es generalizing b c with
  | nil =>
      rw [writeLoop]
      by_cases hrem : 0 < b.remaining
      · simp [ByteBuffer.hasRemaining_iff.mpr hrem, Nat.ne_of_gt hrem]
      · have h0 : b.remaining = 0 := by omega
        simp [ByteBuffer.hasRemaining_eq_false_iff.mpr h0, h0]
  | cons e es ih =>
      by_cases hrem : 0 < b.remaining
      · by_cases ha : c.isOpen = true ∧ ∃ n, e = .accept n
        · obtain ⟨ho, n, rfl⟩ := ha
          rw [writeLoop_accept hrem ho]
          exact ih _ _
        · rw [writeLoop_not_accept hrem (closed_or_fail ha)]
          simp [Nat.ne_of_gt hrem]
      · have h0 : b.remaining = 0 := by omega
        rw [writeLoop_of_remaining h0]
        simp [h0]

/-- Every scripted call takes at least one byte. -/
def Accepts (es : List WriteEvt) : Prop := ∀ e ∈ es, ∃ k, 0 < k ∧ e = .accept k

/-- **Write loop, termination**: with a byte of progress at each call, as many
calls as bytes are enough. -/
theorem writeLoop_accepts {b : ByteBuffer} {c : Channel} {es : List WriteEvt} (ho : c.isOpen = true)
    (ha : Accepts es) (hes : b.remaining ≤ es.length) : (writeLoop b c es).1 = .ret := by
  induction es generalizing b c with
  | nil =>
      have h0 : b.remaining = 0 := by simpa using hes
      rw [writeLoop_of_remaining h0]
  | cons e es ih =>
      by_cases hrem : 0 < b.remaining
      · obtain ⟨k, hk, rfl⟩ := ha e List.mem_cons_self
        rw [List.length_cons] at hes
        rw [writeLoop_accept hrem ho]
        refine ih (by exact ho) (fun e he => ha e (List.mem_cons_of_mem _ he)) ?_
        rw [ByteBuffer.remaining_advance]
        omega
      · rw [writeLoop_of_remaining (by omega)]

/-- One call that takes everything ends a write loop. -/
theorem writeLoop_all {b : ByteBuffer} {c : Channel} (ho : c.isOpen = true) {n : Nat}
    (hn : b.remaining ≤ n) : writeLoop b c [.accept n] = (.ret, b.advance n, c.emit b.rest) := by
  have hrem : (b.advance n).remaining = 0 := by
    rw [ByteBuffer.remaining_advance]
    omega
  have htake : b.rest.take n = b.rest := List.take_of_length_le (by rwa [ByteBuffer.length_rest])
  by_cases h0 : b.remaining = 0
  · have hrest : b.rest = [] := List.eq_nil_of_length_eq_zero (by rw [ByteBuffer.length_rest, h0])
    rw [writeLoop_of_remaining h0, ByteBuffer.advance_of_remaining h0, hrest, Channel.emit_nil]
  · rw [writeLoop_accept (by omega) ho, writeLoop_of_remaining hrem, htake]

/-- Whether no result breaks a loop off that has `n` bytes to write. -/
def completes : Nat → List WriteEvt → Bool
  | 0, _ => true
  | _ + 1, [] => true
  | _ + 1, .fail :: _ => false
  | n + 1, .accept k :: es => completes (n + 1 - k) es

/-- Whether a loop that has `n` bytes to write is broken off, if at all, before
the first of them. -/
def allOrNone (n : Nat) : List WriteEvt → Bool
  | [] => true
  | .fail :: _ => true
  | .accept 0 :: es => allOrNone n es
  | .accept (k + 1) :: es => completes (n - (k + 1)) es

/-- No result breaks a loop off if none is a failure. -/
theorem completes_of_not_mem {es : List WriteEvt} (h : .fail ∉ es) (n : Nat) :
    completes n es = true := by
  induction es generalizing n with
  | nil => cases n <;> rfl
  | cons e es ih =>
      rw [List.mem_cons, not_or] at h
      obtain ⟨hne, hes⟩ := h
      cases n with
      | zero => rfl
      | succ n =>
          cases e with
          | fail => exact absurd rfl hne
          | accept k => exact ih hes _

theorem writeLoop_completes {b : ByteBuffer} {c : Channel} {es : List WriteEvt} (ho : c.isOpen = true)
    (h : completes b.remaining es = true) (x : Throwable) : (writeLoop b c es).1 ≠ .throws x := by
  induction es generalizing b c with
  | nil =>
      rw [writeLoop]
      split <;> simp
  | cons e es ih =>
      cases hrem : b.remaining with
      | zero =>
          rw [writeLoop_of_remaining hrem]
          simp
      | succ n =>
          rw [hrem] at h
          cases e with
          | fail => cases h
          | accept k =>
              rw [completes, ← hrem, ← ByteBuffer.remaining_advance] at h
              rw [writeLoop_accept (by omega) ho]
              exact ih ho h

/-- **Write loop, all or none**: a loop that ends has written what remained, or
nothing. -/
theorem writeLoop_allOrNone {b : ByteBuffer} {c : Channel} {es : List WriteEvt}
    (h : allOrNone b.remaining es = true) (hend : (writeLoop b c es).1 ≠ .spins) :
    (writeLoop b c es).2 = (b, c) ∨
      (writeLoop b c es).2.1.remaining = 0 ∧ (writeLoop b c es).2.2 = c.emit b.rest := by
  induction es with
  | nil => exact Or.inl rfl
  | cons e es ih =>
      by_cases hrem : 0 < b.remaining
      · by_cases ho : c.isOpen = true
        · match e with
          | .fail => exact Or.inl (by rw [writeLoop_not_accept hrem (Or.inr rfl)])
          | .accept 0 =>
              have hsame := writeLoop_accept hrem ho 0 es
              rw [ByteBuffer.advance_zero, List.take_zero, Channel.emit_nil] at hsame
              rw [hsame] at hend ⊢
              exact ih h hend
          | .accept (k + 1) =>
              right
              rw [writeLoop_accept hrem ho] at hend ⊢
              rw [allOrNone, ← ByteBuffer.remaining_advance] at h
              have hne := writeLoop_completes (c := c.emit (b.rest.take (k + 1))) ho h
              obtain ⟨n, hn, hret⟩ :=
                writeLoop_spec (b.advance (k + 1)) (c.emit (b.rest.take (k + 1))) es
              have hall : (b.advance (k + 1)).remaining ≤ n := by
                match ho : (writeLoop (b.advance (k + 1)) (c.emit (b.rest.take (k + 1))) es).1 with
                | .ret => exact hret ho
                | .throws x => exact absurd ho (hne x)
                | .spins => exact absurd ho hend
              have htake : b.rest.take (k + 1 + n) = b.rest := by
                refine List.take_of_length_le ?_
                rw [ByteBuffer.remaining_advance] at hall
                rw [ByteBuffer.length_rest]
                omega
              rw [hn]
              refine ⟨?_, ?_⟩
              · rw [ByteBuffer.remaining_advance]
                omega
              · rw [Channel.emit_emit, ByteBuffer.rest_advance, ← List.take_add, htake]
        · exact Or.inl (by rw [writeLoop_not_accept hrem (Or.inl (by simpa using ho))])
      · exact Or.inl (by rw [writeLoop_of_remaining (by omega)])

/-- Whether the results `es` end a loop that has `n` bytes to write: they take
all of them, or the connection breaks. -/
def drains : Nat → List WriteEvt → Bool
  | 0, _ => true
  | _ + 1, [] => false
  | _ + 1, .fail :: _ => true
  | n + 1, .accept k :: es => drains (n + 1 - k) es

/-- More results do not undo it. -/
theorem drains_append {n : Nat} {es : List WriteEvt} (h : drains n es = true)
    (es' : List WriteEvt) : drains n (es ++ es') = true := by
  induction es generalizing n with
  | nil =>
      cases n with
      | zero => simp [drains]
      | succ n => cases h
  | cons e es ih =>
      cases n with
      | zero => rfl
      | succ n =>
          cases e with
          | fail => rfl
          | accept k =>
              rw [List.cons_append, drains]
              exact ih h

/-- **Write loop, termination** on an open channel: exactly when the results
drain what remains. -/
theorem writeLoop_eq_spins_iff {b : ByteBuffer} {c : Channel} (ho : c.isOpen = true)
    (es : List WriteEvt) :
    (writeLoop b c es).1 = .spins ↔ drains b.remaining es = false := by
  induction es generalizing b c with
  | nil =>
      cases hrem : b.remaining with
      | zero =>
          rw [writeLoop_of_remaining hrem]
          simp [drains]
      | succ n =>
          have hb : b.hasRemaining = true := ByteBuffer.hasRemaining_iff.mpr (by omega)
          simp [writeLoop, hb, drains]
  | cons e es ih =>
      cases hrem : b.remaining with
      | zero =>
          rw [writeLoop_of_remaining hrem]
          simp [drains]
      | succ n =>
          cases e with
          | fail =>
              rw [writeLoop_not_accept (by omega) (Or.inr rfl)]
              simp [drains]
          | accept k =>
              rw [writeLoop_accept (by omega) ho, drains]
              have hadv : n + 1 - k = (b.advance k).remaining := by
                rw [ByteBuffer.remaining_advance, hrem]
              rw [hadv]
              exact ih ho

end Nio
