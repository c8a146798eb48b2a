import Pobicos.Client.NetworkService
import Pobicos.Lib.Frame

/-!
# Pobicos.Client.EventHandlerThread

`EventHandlerThread.java`: the thread that drives the middleware.

It takes one event after the other from the queue and dispatches it; `run`
catches `InterruptedException` only, so whatever else a dispatch throws ends
the thread.  A received packet is dispatched to `JNICall_ReceivedPacket`, which
trusts the lengths inside it: `survives_iff` says for which packets the thread
goes on.
-/

namespace Pobicos.Client

open Nio Octets Framing Serialization

/-- What is in the event queue: a received packet, or an event for one of the
other services. -/
inductive PoEvent (ε : Type)
  | networkPacketRx (msg : NetworkMsg)
  | other (e : ε)

namespace EventHandlerThread

variable {ε : Type} (others : ε → Except Throwable Unit)

/-- `DispatchEvt(evt)`: what is passed to `nativeReceivedPacket`, if anything.
The other services dispatch their events as `others` says; `completeTasks` is
native code and throws nothing. -/
def dispatchEvt : PoEvent ε → Except Throwable (Option NativePacket)
  | .networkPacketRx msg => do
      let p ← jniCallReceivedPacket msg
      .ok (some p)
  | .other e => do
      others e
      .ok none

/-- The loop of `run` over the events of the queue: what the dispatches have
passed to the middleware, and the exception that has ended the thread. -/
def run : List (PoEvent ε) → List (Option NativePacket) × Option Throwable
  | [] => ([], none)
  | evt :: evts =>
      match dispatchEvt others evt with
      | .error x => ([], some x)
      | .ok p => (p :: (run evts).1, (run evts).2)

theorem run_of_ok {evt : PoEvent ε} {p : Option NativePacket} (h : dispatchEvt others evt = .ok p)
    (evts : List (PoEvent ε)) :
    run others (evt :: evts) = (p :: (run others evts).1, (run others evts).2) := by
  rw [run, h]

theorem run_of_error {evt : PoEvent ε} {x : Throwable} (h : dispatchEvt others evt = .error x)
    (evts : List (PoEvent ε)) : run others (evt :: evts) = ([], some x) := by
  rw [run, h]

end EventHandlerThread

/-! ## Received packets -/

/-- The message the read thread makes of a frame. -/
def rxPacket (f : Frame) : NetworkMsg := ⟨f.tag, f.lengthByte, f.body⟩

/-- The length byte inside a datagram. -/
def innerLen (payload : List Byte) : Byte := payload[4]?.getD 0

/-- A datagram with a whole header and as many bytes behind it as it says, as a
signed byte. -/
structure WellFormed (payload : List Byte) : Prop where
  header : DATAGRAM_HEADER_LEN ≤ payload.length
  signed : (innerLen payload).toNat < 128
  fits : DATAGRAM_HEADER_LEN + (innerLen payload).toNat ≤ payload.length

instance (payload : List Byte) : Decidable (WellFormed payload) :=
  decidable_of_iff (DATAGRAM_HEADER_LEN ≤ payload.length ∧ (innerLen payload).toNat < 128 ∧
    DATAGRAM_HEADER_LEN + (innerLen payload).toNat ≤ payload.length)
    ⟨fun h => ⟨h.1, h.2.1, h.2.2⟩, fun h => ⟨h.header, h.signed, h.fits⟩⟩

theorem byteArrayToCharAt_of_lt {b : List Byte} {k : Nat} (h : k + 1 < b.length) :
    ∃ c, byteArrayToCharAt b k = .ok c := by
  rw [byteArrayToCharAt, arrayGet_of_lt (Nat.lt_of_succ_lt h), arrayGet_of_lt h]
  exact ⟨_, rfl⟩

/-- **A well-formed datagram** is passed on, exactly its bytes. -/
theorem jniCallReceivedPacket_wellFormed {payload : List Byte} (h : WellFormed payload)
    (msgType payloadLen : Byte) :
    ∃ src dst, jniCallReceivedPacket ⟨msgType, payloadLen, payload⟩ =
      .ok ⟨(payload.drop 5).take (innerLen payload).toNat, innerLen payload, src, dst⟩ := by
  have hheader := h.header
  have hfits := h.fits
  rw [DATAGRAM_HEADER_LEN] at hheader hfits
  obtain ⟨src, hsrc⟩ := byteArrayToCharAt_of_lt (b := payload) (k := 0) (by omega)
  obtain ⟨dst, hdst⟩ := byteArrayToCharAt_of_lt (b := payload) (k := 2) (by omega)
  have hget : arrayGet payload 4 = .ok (innerLen payload) := by
    rw [arrayGet_of_lt (by omega), innerLen, List.getElem?_eq_getElem (by omega), Option.getD_some]
  have hnew : newByteArray (innerLen payload).toInt =
      .ok (List.replicate (innerLen payload).toNat 0) := by
    rw [toInt_of_lt h.signed, newByteArray_of_nat]
  have hcopy : arrayCopy payload 5 (List.replicate (innerLen payload).toNat 0) 0
      (innerLen payload).toNat = .ok ((payload.drop 5).take (innerLen payload).toNat) :=
    arrayCopy_replicate (by omega)
  refine ⟨src, dst, ?_⟩
  rw [jniCallReceivedPacket]
  simp only [hsrc, hdst, hget, hnew, uint8ToInt, hcopy, bind, Except.bind]

/-- **Any other datagram makes the dispatch throw.** -/
theorem jniCallReceivedPacket_malformed {payload : List Byte} (h : ¬ WellFormed payload)
    (msgType payloadLen : Byte) :
    ∃ x, jniCallReceivedPacket ⟨msgType, payloadLen, payload⟩ = .error x := by
  rw [jniCallReceivedPacket]
  cases hsrc : byteArrayToCharAt payload 0 with
  | error x => exact ⟨x, rfl⟩
  | ok src =>
    cases hdst : byteArrayToCharAt payload 2 with
    | error x => exact ⟨x, rfl⟩
    | ok dst =>
      by_cases hheader : DATAGRAM_HEADER_LEN ≤ payload.length
      · rw [DATAGRAM_HEADER_LEN] at hheader
        have hget : arrayGet payload 4 = .ok (innerLen payload) := by
          rw [arrayGet_of_lt (by omega), innerLen, List.getElem?_eq_getElem (by omega),
            Option.getD_some]
        by_cases hsigned : (innerLen payload).toNat < 128
        · have hlong : payload.length < 5 + (innerLen payload).toNat := by
            by_contra hle
            exact h ⟨hheader, hsigned, by rw [DATAGRAM_HEADER_LEN]; omega⟩
          have hnew : newByteArray (innerLen payload).toInt =
              .ok (List.replicate (innerLen payload).toNat 0) := by
            rw [toInt_of_lt hsigned, newByteArray_of_nat]
          have hcopy : arrayCopy payload 5 (List.replicate (innerLen payload).toNat 0) 0
              (innerLen payload).toNat = .error .indexOutOfBounds :=
            arrayCopy_of_lt (by omega) (by simp) hlong
          exact ⟨.indexOutOfBounds, by simp only [hget, hnew, uint8ToInt, hcopy, bind, Except.bind]⟩
        · -- the signed byte is negative
          have hneg : (innerLen payload).toInt < 0 := by
            rw [BitVec.toInt_eq_toNat_cond, if_neg (by omega)]
            omega
          have hnew : newByteArray (innerLen payload).toInt = .error .negativeArraySize := by
            rw [newByteArray, if_neg (by omega)]
          exact ⟨.negativeArraySize, by simp only [hget, hnew, bind, Except.bind]⟩
      · have hget : arrayGet payload 4 = .error .indexOutOfBounds :=
          arrayGet_of_le (by rw [DATAGRAM_HEADER_LEN] at hheader; omega)
        exact ⟨.indexOutOfBounds, by simp only [hget, bind, Except.bind]⟩

namespace EventHandlerThread

variable {ε : Type} (others : ε → Except Throwable Unit)

/-- The frame `f` is passed on to the middleware exactly as far as it says, or
dropped, and in either case the thread goes on with the next event. -/
structure Survives (f : Frame) : Prop where
  exact : ∀ p, dispatchEvt others (.networkPacketRx (rxPacket f)) = .ok (some p) →
    p.len = innerLen f.body ∧ p.payload = (f.body.drop 5).take p.len.toInt.toNat ∧
      0 ≤ p.len.toInt ∧ p.len.toInt ≤ f.body.length - 5
  goesOn : ∀ later, ∃ p, run others (.networkPacketRx (rxPacket f) :: later) =
    (p :: (run others later).1, (run others later).2)

/-- **Which packets the event thread survives**: those with a whole datagram
header whose length byte, read as signed, is neither negative nor more than
what follows it. -/
theorem survives_iff (f : Frame) : Survives others f ↔
    5 ≤ f.body.length ∧ (innerLen f.body).toNat < 128 ∧
      (innerLen f.body).toNat ≤ f.body.length - 5 := by
  constructor
  · intro h
    by_contra hmal
    have hwell : ¬ WellFormed f.body := by
      rintro ⟨hheader, hsigned, hfits⟩
      rw [DATAGRAM_HEADER_LEN] at hheader hfits
      exact hmal ⟨hheader, hsigned, by omega⟩
    obtain ⟨x, hx⟩ := jniCallReceivedPacket_malformed hwell f.tag f.lengthByte
    have herr : dispatchEvt others (.networkPacketRx (rxPacket f)) = .error x := by
      simp only [dispatchEvt, rxPacket, hx, bind, Except.bind]
    obtain ⟨p, hp⟩ := h.goesOn []
    rw [run_of_error others herr] at hp
    cases hp
  · rintro ⟨hheader, hsigned, hfits⟩
    have hwell : WellFormed f.body := ⟨hheader, hsigned, by rw [DATAGRAM_HEADER_LEN]; omega⟩
    obtain ⟨src, dst, hp⟩ := jniCallReceivedPacket_wellFormed hwell f.tag f.lengthByte
    have hok : dispatchEvt others (.networkPacketRx (rxPacket f)) =
        .ok (some ⟨(f.body.drop 5).take (innerLen f.body).toNat, innerLen f.body, src, dst⟩) := by
      simp only [dispatchEvt, rxPacket, hp, bind, Except.bind]
    refine ⟨fun p heq => ?_, fun later => ⟨_, run_of_ok others hok later⟩⟩
    rw [hok] at heq
    cases heq
    have hint := toInt_of_lt hsigned
    refine ⟨rfl, ?_, ?_, ?_⟩
    · rw [hint, Int.toNat_natCast]
    · rw [hint]
      exact Int.natCast_nonneg _
    · rw [hint]
      omega

/-- A packet of one datagram header whose length byte is `0x80`. -/
def negativePacket : Frame := ⟨NetworkMsg.POBICOS_MSG, [0, 1, 0, 2, 0x80], by decide⟩

/-- It ends the thread, and nothing behind it in the queue is dispatched. -/
theorem negative_packet_ends :
    run (fun _ : Unit => .ok ()) [.other (), .networkPacketRx (rxPacket negativePacket), .other ()] =
      ([none], some .negativeArraySize) ∧
    ¬ Survives (fun _ : Unit => .ok ()) negativePacket := by
  have herr : dispatchEvt (fun _ : Unit => .ok ()) (.networkPacketRx (rxPacket negativePacket)) =
      .error .negativeArraySize := by rfl
  refine ⟨by rfl, fun h => ?_⟩
  obtain ⟨p, hp⟩ := h.goesOn []
  rw [run_of_error _ herr] at hp
  cases hp

end EventHandlerThread

end Pobicos.Client
