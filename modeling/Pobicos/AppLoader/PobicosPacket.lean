import Pobicos.Lib.ByteBuffer

/-!
# Pobicos.AppLoader.PobicosPacket

`PobicosPacket.java`: a packet on the UART of the node,
`[channel, len, payload]`, in a buffer of 29 bytes.

The length is a Java `byte` in the field `counter` and in the packet.  A packet
whose payload fits the buffer is written whole (`getBuffer_filled`) and read
back from a buffer with anything behind it (`getContents_ofArray`).
-/

namespace Pobicos.AppLoader

open Nio Octets

def MAX_PAYLOAD_LEN : Nat := 27
def MAX_MESSAGE_LEN : Nat := MAX_PAYLOAD_LEN + 2

structure PobicosPacket where
  counter : Byte
  buffer : List Byte
  deriving DecidableEq, Repr

namespace PobicosPacket

/-- `new PobicosPacket(channel)`. -/
def ofChannel (channel : Byte) : PobicosPacket :=
  ⟨0, (List.replicate MAX_MESSAGE_LEN 0).set 0 channel⟩

/-- `new PobicosPacket(packet)`. -/
def ofArray (packet : List Byte) : Except Throwable PobicosPacket := do
  let buffer ← arrayCopy packet 0 (List.replicate MAX_MESSAGE_LEN 0) 0 packet.length
  let counter ← arrayGet buffer 1
  .ok ⟨counter, buffer⟩

/-- `getBuffer()`. -/
def getBuffer (p : PobicosPacket) : Except Throwable (List Byte) := do
  let copy ← newByteArray (2 + p.counter.toInt)
  let copy ← arrayCopy p.buffer 0 copy 0 (2 + p.counter.toInt).toNat
  arraySet copy 1 p.counter

/-- `getChannel()`. -/
def getChannel (p : PobicosPacket) : Except Throwable Byte := arrayGet p.buffer 0

/-- `getContents()`. -/
def getContents (p : PobicosPacket) : Except Throwable (List Byte) := do
  let copy ← newByteArray p.counter.toInt
  arrayCopy p.buffer 2 copy 0 p.counter.toInt.toNat

/-- `append(b)` for a byte. -/
def append (p : PobicosPacket) (b : Byte) : Except Throwable PobicosPacket := do
  let i : Int := 2 + p.counter.toInt
  let buffer ← if 0 ≤ i then arraySet p.buffer i.toNat b else .error .indexOutOfBounds
  .ok ⟨p.counter + 1, buffer⟩

/-- `append(b)` for an array. -/
def appendAll (p : PobicosPacket) (bs : List Byte) : Except Throwable PobicosPacket :=
  bs.foldlM append p

/-! ## Writing -/

/-- A packet after some bytes have been appended. -/
def filled (channel : Byte) (bs : List Byte) : PobicosPacket :=
  ⟨BitVec.ofNat 8 bs.length, channel :: 0 :: (bs ++ List.replicate (MAX_PAYLOAD_LEN - bs.length) 0)⟩

theorem ofChannel_eq (channel : Byte) : ofChannel channel = filled channel [] := rfl

/-- The length of a payload that fits, as a signed byte. -/
theorem toInt_length {n : Nat} (h : n ≤ MAX_PAYLOAD_LEN) : (BitVec.ofNat 8 n).toInt = n := by
  rw [MAX_PAYLOAD_LEN] at h
  rw [BitVec.toInt_eq_toNat_cond, BitVec.toNat_ofNat]
  split <;> omega

theorem append_filled (channel : Byte) {bs : List Byte} (h : bs.length < MAX_PAYLOAD_LEN) (b : Byte) :
    (filled channel bs).append b = .ok (filled channel (bs ++ [b])) := by
  have hidx : (2 + (filled channel bs).counter.toInt).toNat = (channel :: 0 :: bs).length := by
    rw [filled, toInt_length (Nat.le_of_lt h)]
    simp only [List.length_cons]
    omega
  have hroom : List.replicate (MAX_PAYLOAD_LEN - bs.length) (0 : Byte) =
      0 :: List.replicate (MAX_PAYLOAD_LEN - (bs ++ [b]).length) 0 := by
    rw [List.length_append, List.length_singleton,
      show MAX_PAYLOAD_LEN - bs.length = (MAX_PAYLOAD_LEN - (bs.length + 1)) + 1 by omega]
    rfl
  have hset : arraySet (filled channel bs).buffer (2 + (filled channel bs).counter.toInt).toNat b =
      .ok (filled channel (bs ++ [b])).buffer := by
    rw [hidx, filled, hroom]
    have happend := arraySet_append (channel :: 0 :: bs)
      (List.replicate (MAX_PAYLOAD_LEN - (bs ++ [b]).length) 0) 0 b
    rw [filled, List.append_assoc]
    exact happend
  have hpos : 0 ≤ 2 + (filled channel bs).counter.toInt := by
    rw [filled, toInt_length (Nat.le_of_lt h)]
    omega
  rw [append]
  simp only [if_pos hpos, hset, bind, Except.bind]
  have hcount : BitVec.ofNat 8 bs.length + 1 = BitVec.ofNat 8 (bs ++ [b]).length := by
    rw [List.length_append, List.length_singleton, BitVec.ofNat_add]
    rfl
  rw [filled, filled, hcount]

theorem appendAll_filled (channel : Byte) {bs cs : List Byte}
    (h : bs.length + cs.length ≤ MAX_PAYLOAD_LEN) :
    (filled channel bs).appendAll cs = .ok (filled channel (bs ++ cs)) := by
  induction cs generalizing bs with
  | nil =>
      rw [List.append_nil]
      rfl
  | cons c cs ih =>
      rw [List.length_cons] at h
      have hnext : (filled channel (bs ++ [c])).appendAll cs = .ok (filled channel (bs ++ [c] ++ cs)) := by
        apply ih
        rw [List.length_append, List.length_singleton]
        omega
      rw [appendAll] at hnext ⊢
      rw [List.foldlM_cons, append_filled channel (by omega)]
      rw [List.append_assoc, List.singleton_append] at hnext
      exact hnext

/-- A full packet takes no more. -/
theorem append_full (channel : Byte) {bs : List Byte} (h : bs.length = MAX_PAYLOAD_LEN) (b : Byte) :
    (filled channel bs).append b = .error .indexOutOfBounds := by
  have hcount : (filled channel bs).counter.toInt = ((bs.length : Nat) : Int) :=
    toInt_length (Nat.le_of_eq h)
  have hidx : ¬ (2 + (bs.length : Int)).toNat < (filled channel bs).buffer.length := by
    simp only [filled, List.length_cons, List.length_append, List.length_replicate]
    omega
  rw [append, hcount]
  simp only [arraySet, if_neg hidx, if_pos (show (0 : Int) ≤ 2 + (bs.length : Int) by omega), bind, Except.bind]

/-- More than fits. -/
theorem appendAll_of_lt (channel : Byte) {bs cs : List Byte} (hbs : bs.length ≤ MAX_PAYLOAD_LEN)
    (h : MAX_PAYLOAD_LEN < bs.length + cs.length) :
    (filled channel bs).appendAll cs = .error .indexOutOfBounds := by
  induction cs generalizing bs with
  | nil => exact absurd h (Nat.not_lt.mpr hbs)
  | cons c cs ih =>
      rw [List.length_cons] at h
      rw [appendAll, List.foldlM_cons]
      obtain hlt | heq := Nat.lt_or_eq_of_le hbs
      · rw [append_filled channel hlt]
        apply ih
        · rw [List.length_append, List.length_singleton]
          omega
        · rw [List.length_append, List.length_singleton]
          omega
      · rw [append_full channel heq]
        rfl

/-- **The bytes of a packet** whose payload fits. -/
theorem getBuffer_filled (channel : Byte) {bs : List Byte} (h : bs.length ≤ MAX_PAYLOAD_LEN) :
    (filled channel bs).getBuffer = .ok (channel :: BitVec.ofNat 8 bs.length :: bs) := by
  have hcount : 2 + (filled channel bs).counter.toInt = ((bs.length + 2 : Nat) : Int) := by
    rw [filled, toInt_length h]
    omega
  have hcopy : arrayCopy (filled channel bs).buffer 0 (List.replicate (bs.length + 2) 0) 0 (bs.length + 2) =
      .ok (channel :: 0 :: bs) := by
    rw [arrayCopy_replicate (by simp [filled])]
    simp [filled]
  rw [getBuffer, hcount]
  simp only [newByteArray_of_nat, bind, Except.bind, Int.toNat_natCast, hcopy]
  exact arraySet_append [channel] bs 0 _

/-! ## Reading -/

/-- The receive buffer: a whole packet and what earlier ones have left behind
it. -/
theorem ofArray_eq {packet : List Byte} {counter : Byte} (hlen : packet.length = MAX_MESSAGE_LEN)
    (hcounter : packet[1]? = some counter) : ofArray packet = .ok ⟨counter, packet⟩ := by
  have hcopy : arrayCopy packet 0 (List.replicate MAX_MESSAGE_LEN 0) 0 packet.length = .ok packet := by
    rw [← hlen, arrayCopy_replicate (by omega), List.drop_zero, List.take_length]
  rw [ofArray, hcopy]
  simp only [bind, Except.bind, arrayGet, hcounter]

/-- **A packet that has been received** is the one that was sent, whatever is
behind it in the buffer. -/
theorem getContents_ofArray (channel : Byte) {bs left : List Byte}
    (h : bs.length + left.length = MAX_PAYLOAD_LEN) :
    ∃ p, ofArray (channel :: BitVec.ofNat 8 bs.length :: (bs ++ left)) = .ok p ∧
      p.getChannel = .ok channel ∧ p.getContents = .ok bs := by
  have hcount : (BitVec.ofNat 8 bs.length).toInt = ((bs.length : Nat) : Int) := toInt_length (by omega)
  refine ⟨_, ofArray_eq ?_ rfl, rfl, ?_⟩
  · rw [MAX_MESSAGE_LEN, ← h]
    simp
  · rw [getContents, hcount]
    simp only [newByteArray_of_nat, bind, Except.bind, Int.toNat_natCast]
    rw [arrayCopy_replicate (by simp; omega)]
    simp

end PobicosPacket

end Pobicos.AppLoader
