import Pobicos.NetworkMsg
import Pobicos.Serialization

/-!
# Pobicos.Client.NetworkService

`NetworkService.java`: the two directions between the middleware and the
message queues of the client.

`JNICallback_SendPacket` packs a datagram as `[source, dest, length, bytes]`
into the payload of a `POBICOS_MSG`; `JNICall_ReceivedPacket` unpacks one and
passes it to the middleware.  The latter reads both addresses with the
unmasked decoder (`jniCallReceivedPacket_packed`).  The lengths are signed
bytes on both sides.
-/

namespace Pobicos.Client

open Nio Octets Serialization

/-- Source, destination and length in front of the bytes of a datagram. -/
def DATAGRAM_HEADER_LEN : Nat := 2 + 2 + 1

/-! ## JNICallback_SendPacket -/

/-- `JNICallback_SendPacket(payload, len, source, dest)`, up to the message it
offers to the queue.  The log is not modelled. -/
def jniCallbackSendPacket (payload : List Byte) (len : Byte) (source dest : JChar) :
    Except Throwable NetworkMsg := do
  let buf ← newByteArray (2 + 2 + 1 + len.toInt)
  let buf ← arraySet buf 0 (((source >>> 8) &&& 0xff#16).setWidth 8)
  let buf ← arraySet buf 1 ((source &&& 0xff#16).setWidth 8)
  let buf ← arraySet buf 2 (((dest >>> 8) &&& 0xff#16).setWidth 8)
  let buf ← arraySet buf 3 ((dest &&& 0xff#16).setWidth 8)
  let buf ← arraySet buf 4 len
  let buf ← arrayCopy payload 0 buf 5 len.toInt.toNat
  .ok ⟨NetworkMsg.POBICOS_MSG, BitVec.ofNat 8 buf.length, buf⟩

/-- A datagram as the payload of a `POBICOS_MSG`. -/
def packed (payload : List Byte) (len : Byte) (source dest : JChar) : List Byte :=
  toBE 2 source ++ (toBE 2 dest ++ (len :: payload))

/-- A length that is not negative is the same number as a signed byte. -/
theorem toInt_of_lt {len : Byte} (h : len.toNat < 128) : len.toInt = len.toNat :=
  BitVec.toInt_eq_toNat_of_lt (by omega)

private theorem arraySet_header (b0 b1 b2 b3 b4 b : Byte) (r : List Byte) :
    arraySet (b0 :: b1 :: b2 :: b3 :: b4 :: r) 0 b = .ok (b :: b1 :: b2 :: b3 :: b4 :: r) ∧
    arraySet (b0 :: b1 :: b2 :: b3 :: b4 :: r) 1 b = .ok (b0 :: b :: b2 :: b3 :: b4 :: r) ∧
    arraySet (b0 :: b1 :: b2 :: b3 :: b4 :: r) 2 b = .ok (b0 :: b1 :: b :: b3 :: b4 :: r) ∧
    arraySet (b0 :: b1 :: b2 :: b3 :: b4 :: r) 3 b = .ok (b0 :: b1 :: b2 :: b :: b4 :: r) ∧
    arraySet (b0 :: b1 :: b2 :: b3 :: b4 :: r) 4 b = .ok (b0 :: b1 :: b2 :: b3 :: b :: r) :=
  ⟨arraySet_append [] _ b0 b, arraySet_append [b0] _ b1 b, arraySet_append [b0, b1] _ b2 b,
    arraySet_append [b0, b1, b2] _ b3 b, arraySet_append [b0, b1, b2, b3] _ b4 b⟩

/-- **Packing**: a datagram of up to 127 bytes is packed whole. -/
theorem jniCallbackSendPacket_eq {payload : List Byte} {len : Byte} (source dest : JChar)
    (hlen : payload.length = len.toNat) (hpos : len.toNat < 128) :
    jniCallbackSendPacket payload len source dest =
      .ok ⟨NetworkMsg.POBICOS_MSG, BitVec.ofNat 8 (DATAGRAM_HEADER_LEN + len.toNat),
        packed payload len source dest⟩ := by
  have hnew : newByteArray (2 + 2 + 1 + len.toInt) =
      .ok (0 :: 0 :: 0 :: 0 :: 0 :: List.replicate len.toNat 0) := by
    have hsize : (2 + 2 + 1 + len.toInt : Int) = ((len.toNat + 5 : Nat) : Int) := by
      rw [toInt_of_lt hpos]
      omega
    rw [hsize, newByteArray_of_nat]
    rfl
  have hcopy : ∀ b0 b1 b2 b3 b4 : Byte,
      arrayCopy payload 0 (b0 :: b1 :: b2 :: b3 :: b4 :: List.replicate len.toNat 0) 5 len.toNat =
        .ok (b0 :: b1 :: b2 :: b3 :: b4 :: payload) := by
    intro b0 b1 b2 b3 b4
    rw [arrayCopy_of_le (by omega) (by simp; omega), List.drop_zero,
      List.take_of_length_le (Nat.le_of_eq hlen), List.drop_eq_nil_of_le (by simp; omega),
      List.append_nil]
    rfl
  have hint : len.toInt.toNat = len.toNat := by
    rw [toInt_of_lt hpos, Int.toNat_natCast]
  rw [jniCallbackSendPacket, hnew, hint]
  simp only [bind, Except.bind, arraySet_header, hcopy]
  have hsum : payload.length + 1 + 1 + 1 + 1 + 1 = DATAGRAM_HEADER_LEN + len.toNat := by
    rw [hlen, DATAGRAM_HEADER_LEN]
    omega
  rw [packed, toBE_two_eq, toBE_two_eq, ← hsum]
  rfl

/-! ## JNICall_ReceivedPacket -/

/-- The arguments of `nativeReceivedPacket`. -/
structure NativePacket where
  payload : List Byte
  len : Byte
  src : JChar
  dst : JChar
  deriving DecidableEq, Repr

/-- `JNICall_ReceivedPacket(msg)`, up to its call of `nativeReceivedPacket`. -/
def jniCallReceivedPacket (msg : NetworkMsg) : Except Throwable NativePacket := do
  let src ← byteArrayToCharAt msg.payload 0
  let dst ← byteArrayToCharAt msg.payload 2
  let len ← arrayGet msg.payload 4
  let pomsg ← newByteArray len.toInt
  let pomsg ← arrayCopy msg.payload 5 pomsg 0 (uint8ToInt len)
  .ok ⟨pomsg, len, src, dst⟩

/-- **Unpacking** a packed datagram, whatever follows it: its bytes, and its
addresses as the unmasked decoder reads them. -/
theorem jniCallReceivedPacket_packed {payload : List Byte} {len : Byte} (source dest : JChar)
    (post : List Byte) (msgType payloadLen : Byte) (hlen : payload.length = len.toNat)
    (hpos : len.toNat < 128) :
    jniCallReceivedPacket ⟨msgType, payloadLen, packed payload len source dest ++ post⟩ =
      .ok ⟨payload, len, charReadAs source, charReadAs dest⟩ := by
  have hsrc : byteArrayToCharAt (packed payload len source dest ++ post) 0 =
      .ok (charReadAs source) := by
    have hread := byteArrayToCharAt_toBE [] (toBE 2 dest ++ (len :: payload) ++ post) source
    rwa [List.nil_append, ← List.append_assoc, List.length_nil] at hread
  have hdst : byteArrayToCharAt (packed payload len source dest ++ post) 2 =
      .ok (charReadAs dest) := by
    have hread := byteArrayToCharAt_toBE (toBE 2 source) ((len :: payload) ++ post) dest
    rwa [length_toBE, ← List.append_assoc (toBE 2 dest), ← List.append_assoc (toBE 2 source)] at hread
  obtain ⟨s0, s1, hs, -⟩ := toBE_two source
  obtain ⟨d0, d1, hd, -⟩ := toBE_two dest
  have hbytes : packed payload len source dest ++ post =
      s0 :: s1 :: d0 :: d1 :: len :: (payload ++ post) := by
    simp [packed, hs, hd]
  have hget : arrayGet (packed payload len source dest ++ post) 4 = .ok len := by
    rw [hbytes]
    rfl
  have hnew : newByteArray len.toInt = .ok (List.replicate len.toNat 0) := by
    rw [toInt_of_lt hpos, newByteArray_of_nat]
  have hcopy : arrayCopy (packed payload len source dest ++ post) 5 (List.replicate len.toNat 0) 0
      len.toNat = .ok payload := by
    have hroom : 5 + len.toNat ≤ (packed payload len source dest ++ post).length := by
      rw [hbytes]
      simp
      omega
    rw [arrayCopy_replicate hroom, hbytes]
    simp only [List.drop_succ_cons, List.drop_zero]
    rw [List.take_left' hlen]
  rw [jniCallReceivedPacket]
  simp only [hsrc, hdst, hget, hnew, uint8ToInt, hcopy, bind, Except.bind]

end Pobicos.Client
