import Pobicos.Java

/-!
# Pobicos.Serialization

The byte decoders of `Serialization.java`; the directory and the client carry
the same text.

The one-argument `byteArrayToChar` masks its bytes before joining them, the
two-argument one does not.  `byteArrayToCharAt_toBE` says what the latter
reads where a `char` was written: the `char` itself while its low byte is
below `0x80`, and otherwise `0xFF` above the low byte (`charReadAs`).
-/

namespace Pobicos

open Nio Octets

namespace Serialization

/-- `uint8ToInt(byte)`. -/
def uint8ToInt (b : Byte) : Nat := b.toNat

/-- `byteArrayToChar(byte[])`. -/
def byteArrayToChar (b : List Byte) : Except Throwable JChar := do
  let b0 ← arrayGet b 0
  let b1 ← arrayGet b 1
  .ok ((((b0.signExtend 32 &&& 0xFF#32) <<< 8) ||| (b1.signExtend 32 &&& 0xFF#32)).setWidth 16)

/-- `byteArrayToChar(byte[], int)`. -/
def byteArrayToCharAt (b : List Byte) (start : Nat) : Except Throwable JChar := do
  let b0 ← arrayGet b start
  let b1 ← arrayGet b (start + 1)
  .ok (((b0.signExtend 32 <<< 8) ||| b1.signExtend 32).setWidth 16)

/-- `byteArrayToInt(byte[])`. -/
def byteArrayToInt (b : List Byte) : Except Throwable JInt := do
  let b0 ← arrayGet b 0
  let b1 ← arrayGet b 1
  let b2 ← arrayGet b 2
  let b3 ← arrayGet b 3
  .ok (((b0.signExtend 32 &&& 0xFF#32) <<< 24) ||| ((b1.signExtend 32 &&& 0xFF#32) <<< 16) |||
    ((b2.signExtend 32 &&& 0xFF#32) <<< 8) ||| (b3.signExtend 32 &&& 0xFF#32))

/-- `uint32ToLong(byte[])`: the operands of `|` are `int`s, widened one by one. -/
def uint32ToLong (b : List Byte) : Except Throwable JLong := do
  let b0 ← arrayGet b 0
  let b1 ← arrayGet b 1
  let b2 ← arrayGet b 2
  let b3 ← arrayGet b 3
  .ok (((b0.signExtend 32 &&& 0xFF#32) <<< 24).signExtend 64 |||
    ((b1.signExtend 32 &&& 0xFF#32) <<< 16).signExtend 64 |||
    ((b2.signExtend 32 &&& 0xFF#32) <<< 8).signExtend 64 ||| (b3.signExtend 32 &&& 0xFF#32).signExtend 64)

/-- `uint32ToLong(int)`. -/
def uint32ToLongOfInt (x : JInt) : JLong := x.signExtend 64 &&& 0x00000000FFFFFFFF#64

/-- `le_uint16ToInt(byte[])`. -/
def le_uint16ToInt (b : List Byte) : Except Throwable JInt := do
  let b0 ← arrayGet b 0
  let b1 ← arrayGet b 1
  .ok (((b0.signExtend 32 &&& 0xFF#32) <<< 8) ||| (b1.signExtend 32 &&& 0xFF#32))

/-! ## What the decoders read -/

theorem byteArrayToChar_pair (hi lo : Byte) : byteArrayToChar [hi, lo] = .ok (hi ++ lo) := by
  change Except.ok _ = Except.ok _
  rw [signExtend_and_mask, signExtend_and_mask, join_setWidth]

/-- The masking decoder reads back what `putChar` wrote. -/
theorem byteArrayToChar_toBE (c : JChar) : byteArrayToChar (toBE 2 c) = .ok c := by
  obtain ⟨hi, lo, hbytes, hc⟩ := toBE_two c
  rw [hbytes, byteArrayToChar_pair, hc]

/-- The four-byte decoder joins unsigned bytes. -/
theorem byteArrayToInt_quad (b0 b1 b2 b3 : Byte) :
    byteArrayToInt [b0, b1, b2, b3] = .ok (ofBE 32 [b0, b1, b2, b3]) := by
  change Except.ok _ = Except.ok _
  simp only [signExtend_and_mask]
  congr 1
  have h0 := b0.isLt
  have h1 := b1.isLt
  have h2 := b2.isLt
  have h3 := b3.isLt
  apply BitVec.eq_of_toNat_eq
  simp only [BitVec.toNat_or, BitVec.toNat_shiftLeft, BitVec.toNat_setWidth, ofBE, beNat,
    BitVec.toNat_ofNat, List.foldl_cons, List.foldl_nil]
  have e0 : (b0.toNat % 2 ^ 32) <<< 24 % 2 ^ 32 = 2 ^ 24 * b0.toNat := by
    rw [Nat.shiftLeft_eq]
    omega
  have e1 : (b1.toNat % 2 ^ 32) <<< 16 % 2 ^ 32 = 2 ^ 16 * b1.toNat := by
    rw [Nat.shiftLeft_eq]
    omega
  have e2 : (b2.toNat % 2 ^ 32) <<< 8 % 2 ^ 32 = 2 ^ 8 * b2.toNat := by
    rw [Nat.shiftLeft_eq]
    omega
  have e3 : b3.toNat % 2 ^ 32 = b3.toNat := by omega
  rw [e0, e1, e2, e3, ← Nat.two_pow_add_eq_or_of_lt (by omega) b0.toNat]
  have j2 : 2 ^ 24 * b0.toNat + 2 ^ 16 * b1.toNat = 2 ^ 16 * (2 ^ 8 * b0.toNat + b1.toNat) := by omega
  rw [j2, ← Nat.two_pow_add_eq_or_of_lt (by omega)]
  have j3 : 2 ^ 16 * (2 ^ 8 * b0.toNat + b1.toNat) + 2 ^ 8 * b2.toNat =
      2 ^ 8 * (2 ^ 16 * b0.toNat + 2 ^ 8 * b1.toNat + b2.toNat) := by omega
  rw [j3, ← Nat.two_pow_add_eq_or_of_lt (by omega)]
  omega

theorem byteArrayToInt_toBE (x : JInt) : byteArrayToInt (toBE 4 x) = .ok x := by
  have hlen : (toBE 4 x).length = 4 := length_toBE 4 x
  have hx := ofBE_toBE (k := 4) (by decide) x
  match hbytes : toBE 4 x, hlen with
  | [b0, b1, b2, b3], _ =>
      rw [byteArrayToInt_quad, ← hbytes, hx]

/-- The low byte of `c` under a high byte of `0xFF`. -/
def flooded (c : JChar) : JChar := BitVec.ofNat 16 (0xFF00 + c.toNat % 256)

/-- What the unmasked decoder makes of the big-endian bytes of `c`. -/
def charReadAs (c : JChar) : JChar := if c.toNat % 256 < 128 then c else flooded c

/-- The unmasked decoder reads a `char` back exactly when its low byte is not
negative or its high byte is already `0xFF`. -/
theorem charReadAs_eq_self_iff (c : JChar) :
    charReadAs c = c ↔ c.toNat % 256 < 128 ∨ c.toNat / 256 = 255 := by
  have hc := c.isLt
  rw [charReadAs]
  split
  · next h => simp [h]
  · next h =>
    rw [flooded, ← BitVec.toNat_inj, BitVec.toNat_ofNat]
    omega

/-- Every other `char` is read with its high byte flooded. -/
theorem charReadAs_of_ne {c : JChar} (h : charReadAs c ≠ c) : charReadAs c = flooded c := by
  rw [charReadAs] at h ⊢
  split
  · next hlt => exact absurd (if_pos hlt) h
  · rfl

theorem byteArrayToCharAt_append (pre post : List Byte) (hi lo : Byte) :
    byteArrayToCharAt (pre ++ hi :: lo :: post) pre.length =
      .ok (((hi.signExtend 32 <<< 8) ||| lo.signExtend 32).setWidth 16) := by
  have h0 : arrayGet (pre ++ hi :: lo :: post) pre.length = .ok hi := by
    rw [arrayGet_of_lt (by simp)]
    simp
  have h1 : arrayGet (pre ++ hi :: lo :: post) (pre.length + 1) = .ok lo := by
    rw [arrayGet_of_lt (by simp)]
    simp
  rw [byteArrayToCharAt, h0, h1]
  rfl

theorem charReadAs_pair (hi lo : Byte) :
    ((hi.signExtend 32 <<< 8) ||| lo.signExtend 32).setWidth 16 = charReadAs (hi ++ lo) := by
  have hh := hi.isLt
  have hl := lo.isLt
  have hnat := toNat_pair hi lo
  have hones : (0xFF#8 ++ lo : BitVec 16).toNat = 0xFF * 256 + lo.toNat := toNat_pair 0xFF#8 lo
  have hmod : (hi ++ lo : BitVec 16).toNat % 256 = lo.toNat := by omega
  have hmsb : lo.msb = decide (128 ≤ lo.toNat) := BitVec.msb_eq_decide lo
  rw [charReadAs, hmod]
  by_cases hlt : lo.toNat < 128
  · rw [if_pos hlt, join_signExtend_of_msb_false]
    rw [hmsb, decide_eq_false_iff_not]
    omega
  · rw [if_neg hlt, flooded, join_signExtend_of_msb_true]
    · apply BitVec.eq_of_toNat_eq
      rw [hones, BitVec.toNat_ofNat]
      omega
    · rw [hmsb, decide_eq_true_eq]
      omega

/-- **Unmasked decoder**: where `putChar` wrote `c`, it reads `charReadAs c`. -/
theorem byteArrayToCharAt_toBE (pre post : List Byte) (c : JChar) :
    byteArrayToCharAt (pre ++ (toBE 2 c ++ post)) pre.length = .ok (charReadAs c) := by
  obtain ⟨hi, lo, hbytes, hc⟩ := toBE_two c
  rw [hbytes]
  change byteArrayToCharAt (pre ++ hi :: lo :: post) pre.length = _
  rw [byteArrayToCharAt_append, charReadAs_pair, hc]

end Serialization

end Pobicos
