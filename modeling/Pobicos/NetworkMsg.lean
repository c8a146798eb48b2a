import Pobicos.Lib.Channel
import Pobicos.Lib.Frame
import Pobicos.Java

/-!
# Pobicos.NetworkMsg

`Network_Msg.java`: the message types and field offsets the directory and the
client agree on.  On the wire a message is a frame: its type, the length of
its payload, its payload.  Both sides read the two bytes of the header first, by
a loop on a buffer of their own (`AwaitsHeader`).
-/

namespace Pobicos

open Nio Octets Framing

/-- A message as the client holds it; its payload may be longer or shorter
than it says. -/
structure NetworkMsg where
  msgType : Byte
  payloadLen : Byte
  payload : List Byte
  deriving DecidableEq, Repr

namespace NetworkMsg

def POBICOS_MSG : Byte := 0x01
def REGISTRY_REQ : Byte := 0x02
def REG_REPLY_FAIL : Byte := 0x03
def REG_REPLY_WELCOME : Byte := 0x04
def REG_REPLY_PONG : Byte := 0x05

/-- The class of device of a client. -/
def CLASS_MOBILE : Byte := 0x01

/-- Message type and payload length. -/
def HEADER_LEN : Nat := 2

/-! Offsets into the payload of a `REGISTRY_REQ` (the class of device is byte 0). -/

def LAT_OFFSET : Nat := 1
def LON_OFFSET : Nat := 1 + 8
def ADDR_OFFSET : Nat := 17

/-! ## Reading a header -/

/-- A buffer with room for a header and nothing else in it. -/
structure AwaitsHeader (b : ByteBuffer) : Prop where
  position : b.position = 0
  capacity : b.capacity = HEADER_LEN

namespace AwaitsHeader

variable {b : ByteBuffer} {c : Channel} {es : List ReadEvt}

theorem allocate : AwaitsHeader (.allocate HEADER_LEN) := ⟨rfl, ByteBuffer.capacity_allocate _⟩

theorem remaining (hb : AwaitsHeader b) : b.remaining = HEADER_LEN := by
  have hcap := hb.capacity
  rw [ByteBuffer.capacity] at hcap
  rw [ByteBuffer.remaining, hb.position, hcap, Nat.sub_zero]

theorem filled (hb : AwaitsHeader b) : b.filled = [] := by
  rw [ByteBuffer.filled, hb.position, List.take_zero]

theorem position_lt (hb : AwaitsHeader b) : b.position < b.capacity := by
  rw [hb.position, hb.capacity]
  decide

/-- A header loop that ends holds the first two bytes of the stream. -/
theorem of_ret (hb : AwaitsHeader b) {st : ReadState}
    (hl : readLoop b.capacity b.position b c es = (.ret, st)) :
    ∃ tag len, c.inp = tag :: len :: st.chan.inp ∧ st.buf = .full [tag, len] ∧
      st.chan = { c with inp := st.chan.inp } := by
  obtain ⟨got, hinp, hlen, hbuf, hchan⟩ := readLoop_ret hl
  rw [hb.remaining] at hlen
  rw [hb.filled, List.nil_append] at hbuf
  obtain ⟨tag, len, rfl⟩ := List.length_eq_two.mp hlen
  exact ⟨tag, len, hinp, hbuf, hchan⟩

/-- The header of a frame is read, with calls left for its body. -/
theorem of_frame (hb : AwaitsHeader b) {f : Frame} {rest : List Byte} (ho : c.isOpen = true)
    (hinp : c.inp = f.bytes ++ rest) (hp : Progress es) (hes : f.bytes.length ≤ es.length) :
    ∃ es', readLoop b.capacity b.position b c es =
        (.ret, ⟨.full [f.tag, f.lengthByte], { c with inp := f.body ++ rest }, es'⟩) ∧
      Progress es' ∧ f.body.length ≤ es'.length := by
  have hsplit : c.inp = [f.tag, f.lengthByte] ++ (f.body ++ rest) := hinp
  have hrem := hb.remaining
  rw [Frame.length_bytes] at hes
  obtain ⟨es', hl, hp', hlen⟩ := readLoop_append (b := b) ho hsplit (by rw [hrem]; rfl) hp
    (by rw [hrem, HEADER_LEN]; omega)
  refine ⟨es', ?_, hp', ?_⟩
  · rw [hl, hb.filled, List.nil_append]
  · rw [hrem, HEADER_LEN] at hlen
    omega

end AwaitsHeader

/-- Enough calls for a whole frame, each of which makes progress. -/
def Feeds (es : List ReadEvt) : Prop := Progress es ∧ 257 ≤ es.length

/-- One byte at a time. -/
theorem feeds_replicate (n : Nat) :
    ∀ es ∈ List.replicate n (List.replicate 257 (ReadEvt.ready 1)), Feeds es := by
  intro es hes
  rw [List.eq_of_mem_replicate hes]
  exact ⟨progress_replicate Nat.one_pos 257, Nat.le_of_eq List.length_replicate.symm⟩

end NetworkMsg

end Pobicos
