import Pobicos.Serialization

/-!
# Pobicos.Decoders

The decoders of `Serialization.java` against one reading of their bytes, the
unsigned big-endian number.

Two of them differ from it.  The two-argument `byteArrayToChar` does not mask
its bytes, and the four-byte `uint32ToLong` widens an `int` whose sign is the
first bit of its bytes.  `agree_iff` says for which bytes all agree.
-/

namespace Pobicos

open Nio Octets

namespace Serialization

/-- Every decoder that `b` and `k` are in range for reads the unsigned big-endian
number, and reads back what `putChar` or `putInt` wrote there. -/
structure Agree (b : List Byte) (k : Nat) : Prop where
  charAt : k + 2 ≤ b.length → byteArrayToCharAt b k = .ok (ofBE 16 ((b.drop k).take 2))
  char : 2 ≤ b.length → byteArrayToChar b = .ok (ofBE 16 (b.take 2))
  uint16 : 2 ≤ b.length → ∃ x, le_uint16ToInt b = .ok x ∧ x.toInt = beNat (b.take 2)
  int : 4 ≤ b.length → byteArrayToInt b = .ok (ofBE 32 (b.take 4))
  long : 4 ≤ b.length → ∃ l, uint32ToLong b = .ok l ∧ l.toInt = beNat (b.take 4)
  longOfInt : 4 ≤ b.length → ∃ x, byteArrayToInt b = .ok x ∧ uint32ToLong b = .ok (uint32ToLongOfInt x)
  putCharAt : ∀ c : JChar, (b.drop k).take 2 = toBE 2 c → byteArrayToCharAt b k = .ok c
  putChar : ∀ c : JChar, b.take 2 = toBE 2 c → byteArrayToChar b = .ok c
  putInt : ∀ x : JInt, b.take 4 = toBE 4 x → byteArrayToInt b = .ok x ∧
    ∃ l, uint32ToLong b = .ok l ∧ l.toInt = x.toNat

/-- The second byte at `k` is not negative, or the first one has all its bits
set; and the first of four bytes is not negative. -/
def Plain (b : List Byte) (k : Nat) : Prop :=
  (∀ hi ∈ b[k]?, ∀ lo ∈ b[k + 1]?, lo.toNat < 128 ∨ hi.toNat = 255) ∧
    (4 ≤ b.length → ∀ b0 ∈ b[0]?, b0.toNat < 128)

instance (b : List Byte) (k : Nat) : Decidable (Plain b k) := inferInstanceAs (Decidable (_ ∧ _))

/-! ## The single decoders -/

section
variable (hi lo b0 b1 b2 b3 : Byte) (pre post : List Byte)

theorem byteArrayToChar_cons : byteArrayToChar (hi :: lo :: post) = .ok (ofBE 16 [hi, lo]) := by
  rw [ofBE_pair]
  exact byteArrayToChar_pair hi lo

theorem byteArrayToInt_cons :
    byteArrayToInt (b0 :: b1 :: b2 :: b3 :: post) = .ok (ofBE 32 [b0, b1, b2, b3]) :=
  byteArrayToInt_quad b0 b1 b2 b3

theorem le_uint16ToInt_cons : le_uint16ToInt (b0 :: b1 :: post) = .ok (ofBE 32 [b0, b1]) := by
  have hquad : Except.ok _ = Except.ok (ofBE 32 [0, 0, b0, b1]) := byteArrayToInt_quad 0 0 b0 b1
  have hzeros : ofBE 32 [0, 0, b0, b1] = ofBE 32 [b0, b1] := by simp [ofBE, beNat]
  have hhigh : ∀ n : Nat, ((0 : Byte).signExtend 32 &&& 0xFF#32) <<< n = 0#32 := by simp
  have hjoin := Except.ok.inj hquad
  rw [hhigh, hhigh, hzeros, BitVec.zero_or, BitVec.zero_or] at hjoin
  rw [← hjoin]
  rfl

/-- The four-byte `long` is the `int` with its sign. -/
theorem uint32ToLong_cons :
    uint32ToLong (b0 :: b1 :: b2 :: b3 :: post) = .ok ((ofBE 32 [b0, b1, b2, b3]).signExtend 64) := by
  have hint : Except.ok _ = Except.ok (ofBE 32 [b0, b1, b2, b3]) := byteArrayToInt_quad b0 b1 b2 b3
  rw [← Except.ok.inj hint, BitVec.signExtend_or, BitVec.signExtend_or, BitVec.signExtend_or]
  rfl

theorem uint32ToLongOfInt_eq (x : JInt) : uint32ToLongOfInt x = x.setWidth 64 := signExtend_and_ones x 64

/-- The unmasked decoder, on the two bytes of a `char`. -/
theorem byteArrayToCharAt_iff :
    byteArrayToCharAt (pre ++ hi :: lo :: post) pre.length = .ok (ofBE 16 [hi, lo]) ↔
      lo.toNat < 128 ∨ hi.toNat = 255 := by
  have hlo := lo.isLt
  have hnat := toNat_pair hi lo
  have hmod : (hi ++ lo : JChar).toNat % 256 = lo.toNat := by omega
  have hdiv : (hi ++ lo : JChar).toNat / 256 = hi.toNat := by omega
  rw [byteArrayToCharAt_append, charReadAs_pair, ofBE_pair, Except.ok.injEq, charReadAs_eq_self_iff, hmod, hdiv]

theorem toInt_pair : (ofBE 32 [hi, lo]).toInt = beNat [hi, lo] := by
  have hlt : beNat [hi, lo] < 256 ^ 2 := beNat_lt _
  have hnat : (ofBE 32 [hi, lo]).toNat = beNat [hi, lo] := by
    rw [ofBE, BitVec.toNat_ofNat]
    omega
  rw [BitVec.toInt_eq_toNat_of_lt (by omega), hnat]

/-- The sign of four bytes is that of the first one. -/
theorem msb_quad : (ofBE 32 [b0, b1, b2, b3]).msb = false ↔ b0.toNat < 128 := by
  have h0 := b0.isLt
  have h1 := b1.isLt
  have h2 := b2.isLt
  have h3 := b3.isLt
  rw [BitVec.msb_eq_decide, decide_eq_false_iff_not, ofBE, BitVec.toNat_ofNat]
  simp only [beNat, List.foldl_cons, List.foldl_nil]
  omega

/-- Four bytes as an `int` are not negative exactly if they are the number. -/
theorem toInt_quad : (ofBE 32 [b0, b1, b2, b3]).toInt = beNat [b0, b1, b2, b3] ↔ b0.toNat < 128 := by
  have hlt : beNat [b0, b1, b2, b3] < 256 ^ 4 := beNat_lt _
  have hnat : (ofBE 32 [b0, b1, b2, b3]).toNat = beNat [b0, b1, b2, b3] := by
    rw [ofBE, BitVec.toNat_ofNat]
    omega
  rw [← msb_quad b0 b1 b2 b3, BitVec.toInt_eq_msb_cond, hnat]
  cases (ofBE 32 [b0, b1, b2, b3]).msb
  · simp
  · simp only [if_true, Bool.true_eq_false, iff_false]
    omega

end

/-! ## All of them -/

/-- The bytes at an offset that is in range. -/
theorem exists_pair {b : List Byte} {k : Nat} (h : k + 2 ≤ b.length) :
    ∃ pre hi lo post, b = pre ++ hi :: lo :: post ∧ pre.length = k := by
  refine ⟨b.take k, b[k], b[k + 1], b.drop (k + 2), ?_, List.length_take_of_le (by omega)⟩
  rw [← List.drop_eq_getElem_cons, ← List.drop_eq_getElem_cons, List.take_append_drop]

theorem exists_quad {b : List Byte} (h : 4 ≤ b.length) : ∃ b0 b1 b2 b3 post, b = b0 :: b1 :: b2 :: b3 :: post := by
  match b, h with
  | b0 :: b1 :: b2 :: b3 :: post, _ => exact ⟨b0, b1, b2, b3, post, rfl⟩

/-- Where a word has been written there is room for it. -/
theorem le_length_of_take {w n : Nat} {b : List Byte} {x : BitVec w} (h : b.take n = toBE n x) : n ≤ b.length := by
  have hlen := congrArg List.length h
  rw [length_toBE, List.length_take] at hlen
  omega

/-- The four-byte `long` is the number exactly if its first byte is not
negative. -/
theorem uint32ToLong_iff {b : List Byte} (h : 4 ≤ b.length) :
    (∃ l, uint32ToLong b = .ok l ∧ l.toInt = beNat (b.take 4)) ↔ ∀ b0 ∈ b[0]?, b0.toNat < 128 := by
  obtain ⟨b0, b1, b2, b3, post, rfl⟩ := exists_quad h
  rw [uint32ToLong_cons]
  simp only [Except.ok.injEq, exists_eq_left']
  rw [BitVec.toInt_signExtend_of_le (by decide)]
  refine (toInt_quad b0 b1 b2 b3).trans ?_
  simp

/-- The two-argument `byteArrayToChar` reads the number exactly if its second
byte is not negative or its first one has all its bits set. -/
theorem byteArrayToCharAt_eq_iff {b : List Byte} {k : Nat} (h : k + 2 ≤ b.length) :
    byteArrayToCharAt b k = .ok (ofBE 16 ((b.drop k).take 2)) ↔
      ∀ hi ∈ b[k]?, ∀ lo ∈ b[k + 1]?, lo.toNat < 128 ∨ hi.toNat = 255 := by
  obtain ⟨pre, hi, lo, post, rfl, rfl⟩ := exists_pair h
  rw [List.drop_left]
  refine (byteArrayToCharAt_iff hi lo pre post).trans ?_
  simp

/-- **The decoders agree** on an array exactly if it is plain. -/
theorem agree_iff (b : List Byte) (k : Nat) : Agree b k ↔ Plain b k := by
  constructor
  · intro h
    refine ⟨fun hi hhi lo hlo => ?_, fun hlen => (uint32ToLong_iff hlen).mp (h.long hlen)⟩
    have hlen : k + 2 ≤ b.length := by
      have hlt := (List.getElem?_eq_some_iff.mp hlo).1
      omega
    exact (byteArrayToCharAt_eq_iff hlen).mp (h.charAt hlen) hi hhi lo hlo
  · rintro ⟨hpair, hquad⟩
    have hcharAt : k + 2 ≤ b.length → byteArrayToCharAt b k = .ok (ofBE 16 ((b.drop k).take 2)) :=
      fun hlen => (byteArrayToCharAt_eq_iff hlen).mpr hpair
    have hlong : 4 ≤ b.length → ∃ l, uint32ToLong b = .ok l ∧ l.toInt = beNat (b.take 4) :=
      fun hlen => (uint32ToLong_iff hlen).mpr (hquad hlen)
    have hchar : 2 ≤ b.length → byteArrayToChar b = .ok (ofBE 16 (b.take 2)) := by
      intro hlen
      match b, hlen with
      | hi :: lo :: post, _ => exact byteArrayToChar_cons hi lo post
    have hint : 4 ≤ b.length → byteArrayToInt b = .ok (ofBE 32 (b.take 4)) := by
      intro hlen
      obtain ⟨b0, b1, b2, b3, post, rfl⟩ := exists_quad hlen
      exact byteArrayToInt_cons b0 b1 b2 b3 post
    refine ⟨hcharAt, hchar, ?_, hint, hlong, ?_, ?_, ?_, ?_⟩
    · intro hlen
      match b, hlen with
      | hi :: lo :: post, _ =>
        exact ⟨_, le_uint16ToInt_cons hi lo post, toInt_pair hi lo⟩
    · intro hlen
      have hfirst := hquad hlen
      obtain ⟨b0, b1, b2, b3, post, rfl⟩ := exists_quad hlen
      have hmsb := (msb_quad b0 b1 b2 b3).mpr (hfirst b0 rfl)
      refine ⟨_, byteArrayToInt_cons b0 b1 b2 b3 post, ?_⟩
      rw [uint32ToLong_cons, uint32ToLongOfInt_eq, BitVec.signExtend_eq_setWidth_of_msb_false hmsb]
    · intro c hc
      have hlen := le_length_of_take hc
      rw [List.length_drop] at hlen
      rw [hcharAt (by omega), hc, ofBE_toBE (by decide)]
    · intro c hc
      rw [hchar (le_length_of_take hc), hc, ofBE_toBE (by decide)]
    · intro x hx
      have hlen := le_length_of_take hx
      obtain ⟨l, hl, hnat⟩ := hlong hlen
      refine ⟨?_, l, hl, ?_⟩
      · rw [hint hlen, hx, ofBE_toBE (by decide)]
      · have hlt : x.toNat < 256 ^ 4 := x.isLt
        rw [hnat, hx, toBE, beNat_beBytes, Nat.mod_eq_of_lt hlt]

/-- Four bytes whose first one is negative are read as a negative `long`, and a
negative second byte floods the first one. -/
theorem decoders_disagree : ¬ Agree [0x80, 0, 0, 0] 0 ∧ ¬ Agree [0, 0x80] 0 := by
  constructor
  · intro h
    obtain ⟨l, hl, hnat⟩ := h.long (by decide)
    cases hl
    exact absurd hnat (by decide)
  · intro h
    have hchar := Except.ok.inj (h.charAt (by decide))
    exact absurd hchar (by decide)

end Serialization

end Pobicos
