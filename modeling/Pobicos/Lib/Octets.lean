import Mathlib.Algebra.Group.Nat.Defs
import Mathlib.Data.List.Basic
import Mathlib.Data.List.Induction

/-!
# Octets

Bytes, unsigned big-endian numbers, and the promotion arithmetic of a language
whose bytes are signed.

* `beNat` / `beBytes` read and write a number most significant byte first;
  `beNat_beBytes` and `beBytes_beNat` say that they are inverse at a width.
* `ofBE` / `toBE` are the same for a machine word, as a fixed-width read or
  write at a buffer position performs it.
* A signed byte promoted to a 32-bit integer is sign extended.  Joining two
  promoted bytes with `<<` and `|` gives the big-endian word only while the
  low byte is not negative (`join_signExtend_of_msb_false`); a negative low
  byte floods the high half (`join_signExtend_of_msb_true`).  Masking with
  `0xFF` first undoes the extension (`signExtend_and_mask`).
-/

namespace Octets

abbrev Byte := BitVec 8

/-! ## Big-endian numbers -/

/-- The unsigned number whose most significant byte comes first. -/
def beNat (bs : List Byte) : Nat := bs.foldl (fun n b => n * 256 + b.toNat) 0

/-- The last `k` base-256 digits of `n`, most significant first. -/
def beBytes : Nat → Nat → List Byte
  | 0, _ => []
  | k + 1, n => beBytes k (n / 256) ++ [BitVec.ofNat 8 n]

@[simp] theorem length_beBytes (k n : Nat) : (beBytes k n).length = k := by
  induction k generalizing n with
  | zero => rfl
  | succ k ih => rw [beBytes, List.length_append, ih, List.length_singleton]

@[simp] theorem beNat_nil : beNat [] = 0 := rfl

theorem beNat_concat (bs : List Byte) (b : Byte) : beNat (bs ++ [b]) = beNat bs * 256 + b.toNat := by
  simp [beNat]

theorem beNat_beBytes (k n : Nat) : beNat (beBytes k n) = n % 256 ^ k := by
  induction k generalizing n with
  | zero => simp [beBytes, Nat.mod_one]
  | succ k ih =>
      have hpow : 256 ^ (k + 1) = 256 * 256 ^ k := by rw [Nat.pow_succ, Nat.mul_comm]
      rw [beBytes, beNat_concat, ih, BitVec.toNat_ofNat, hpow, Nat.mod_mul]
      omega

theorem beNat_lt (bs : List Byte) : beNat bs < 256 ^ bs.length := by
  induction bs using List.reverseRecOn with
  | nil => simp
  | append_singleton bs b ih =>
      have hb := b.isLt
      rw [beNat_concat, List.length_append, List.length_singleton, Nat.pow_succ]
      omega

theorem beBytes_beNat (bs : List Byte) : beBytes bs.length (beNat bs) = bs := by
  induction bs using List.reverseRecOn with
  | nil => rfl
  | append_singleton bs b ih =>
      have hb := b.isLt
      have hdiv : (beNat bs * 256 + b.toNat) / 256 = beNat bs := by omega
      have hlow : BitVec.ofNat 8 (beNat bs * 256 + b.toNat) = b := by
        apply BitVec.eq_of_toNat_eq
        rw [BitVec.toNat_ofNat]
        omega
      rw [List.length_append, List.length_singleton, beBytes, beNat_concat, hdiv, ih, hlow]

/-! ## Machine words -/

/-- The `w`-bit word read from big-endian bytes. -/
def ofBE (w : Nat) (bs : List Byte) : BitVec w := BitVec.ofNat w (beNat bs)

/-- The `k` big-endian bytes of a word. -/
def toBE {w : Nat} (k : Nat) (x : BitVec w) : List Byte := beBytes k x.toNat

@[simp] theorem length_toBE {w : Nat} (k : Nat) (x : BitVec w) : (toBE k x).length = k :=
  length_beBytes k x.toNat

/-- A word that fits its bytes is read back. -/
theorem ofBE_toBE {w k : Nat} (h : w ≤ 8 * k) (x : BitVec w) : ofBE w (toBE k x) = x := by
  have hx : x.toNat < 256 ^ k := by
    calc
      x.toNat < 2 ^ w := x.isLt
      _ ≤ 2 ^ (8 * k) := Nat.pow_le_pow_right (by decide) h
      _ = 256 ^ k := by rw [Nat.pow_mul]
  rw [ofBE, toBE, beNat_beBytes, Nat.mod_eq_of_lt hx, BitVec.ofNat_toNat, BitVec.setWidth_eq]

/-- Bytes that fit the word are written back. -/
theorem toBE_ofBE {w : Nat} {bs : List Byte} (h : 8 * bs.length ≤ w) :
    toBE bs.length (ofBE w bs) = bs := by
  have hlt : beNat bs < 2 ^ w := by
    calc
      beNat bs < 256 ^ bs.length := beNat_lt bs
      _ = 2 ^ (8 * bs.length) := by rw [Nat.pow_mul]
      _ ≤ 2 ^ w := Nat.pow_le_pow_right (by decide) h
  rw [toBE, ofBE, BitVec.toNat_ofNat, Nat.mod_eq_of_lt hlt, beBytes_beNat]

theorem toNat_pair (hi lo : Byte) : (hi ++ lo : BitVec 16).toNat = hi.toNat * 256 + lo.toNat := by
  have happ : (hi ++ lo : BitVec 16).toNat = hi.toNat <<< 8 ||| lo.toNat := BitVec.toNat_append hi lo
  rw [happ, ← Nat.shiftLeft_add_eq_or_of_lt lo.isLt, Nat.shiftLeft_eq]

theorem ofBE_pair (hi lo : Byte) : ofBE 16 [hi, lo] = hi ++ lo := by
  have hh := hi.isLt
  have hl := lo.isLt
  apply BitVec.eq_of_toNat_eq
  rw [toNat_pair, ofBE, BitVec.toNat_ofNat]
  simp only [beNat, List.foldl_cons, List.foldl_nil]
  omega

/-- Shifting and masking write a 16-bit word big-endian. -/
theorem toBE_two_eq (c : BitVec 16) :
    toBE 2 c = [((c >>> 8) &&& 0xff#16).setWidth 8, (c &&& 0xff#16).setWidth 8] := by
  have hbytes : toBE 2 c = [BitVec.ofNat 8 (c.toNat / 256), BitVec.ofNat 8 c.toNat] := rfl
  have hmask : ∀ x : BitVec 16, (x &&& 0xff#16).setWidth 8 = BitVec.ofNat 8 x.toNat := by
    intro x
    apply BitVec.eq_of_toNat_eq
    rw [BitVec.toNat_setWidth, BitVec.toNat_and, BitVec.toNat_ofNat, BitVec.toNat_ofNat]
    have hand : x.toNat &&& 255 = x.toNat % 2 ^ 8 := Nat.and_two_pow_sub_one_eq_mod x.toNat 8
    change (x.toNat &&& 255) % 2 ^ 8 = _
    rw [hand, Nat.mod_mod]
  have hshift : (c >>> 8).toNat = c.toNat / 256 := by
    rw [BitVec.toNat_ushiftRight, Nat.shiftRight_eq_div_pow]
  rw [hbytes, hmask, hmask, hshift]

/-- The two bytes of a 16-bit word. -/
theorem toBE_two (c : BitVec 16) : ∃ hi lo : Byte, toBE 2 c = [hi, lo] ∧ hi ++ lo = c := by
  obtain ⟨hi, lo, hbytes⟩ := List.length_eq_two.mp (length_toBE 2 c)
  have hc := ofBE_toBE (k := 2) (by decide) c
  rw [hbytes, ofBE_pair] at hc
  exact ⟨hi, lo, hbytes, hc⟩

/-! ## Promotion of signed bytes -/

/-- A mask of the bits of the narrower word undoes sign extension. -/
theorem signExtend_and_ones {w : Nat} (x : BitVec w) (v : Nat) :
    x.signExtend v &&& BitVec.ofNat v (2 ^ w - 1) = x.setWidth v := by
  apply BitVec.eq_of_getLsbD_eq
  intro i hi
  rw [BitVec.getLsbD_and, BitVec.getLsbD_signExtend, BitVec.getLsbD_ofNat, Nat.testBit_two_pow_sub_one,
    BitVec.getLsbD_setWidth]
  by_cases hlow : i < w
  · simp [hi, hlow]
  · simp [hlow, BitVec.getLsbD_of_ge x i (Nat.not_lt.mp hlow)]

/-- Masking a promoted byte with `0xFF` gives its unsigned value. -/
theorem signExtend_and_mask (b : Byte) : b.signExtend 32 &&& 0xFF#32 = b.setWidth 32 :=
  signExtend_and_ones b 32

/-- The bits of a 16-bit word made of two bytes. -/
private theorem getLsbD_pair (hi lo : Byte) (i : Nat) :
    (hi ++ lo : BitVec 16).getLsbD i = if i < 8 then lo.getLsbD i else hi.getLsbD (i - 8) :=
  BitVec.getLsbD_append

/-- The bits of `(char)(hi << 8 | lo)` on promoted bytes: above the low byte
the sign of `lo` is or-ed into `hi`. -/
private theorem getLsbD_join_signExtend (hi lo : Byte) {i : Nat} (h : i < 16) :
    (((hi.signExtend 32 <<< 8) ||| lo.signExtend 32).setWidth 16).getLsbD i =
      if i < 8 then lo.getLsbD i else hi.getLsbD (i - 8) || lo.msb := by
  have h32 : i < 32 := by omega
  have h32' : i - 8 < 32 := by omega
  have h8' : i - 8 < 8 := by omega
  simp only [BitVec.getLsbD_setWidth, BitVec.getLsbD_or, BitVec.getLsbD_shiftLeft,
    BitVec.getLsbD_signExtend, h, h32, h32', h8', decide_true, Bool.true_and, if_true]
  by_cases h8 : i < 8 <;> simp [h8]

theorem join_signExtend_of_msb_false (hi : Byte) {lo : Byte} (h : lo.msb = false) :
    ((hi.signExtend 32 <<< 8) ||| lo.signExtend 32).setWidth 16 = hi ++ lo := by
  apply BitVec.eq_of_getLsbD_eq
  intro i hi16
  rw [getLsbD_join_signExtend hi lo hi16, getLsbD_pair, h, Bool.or_false]

theorem join_signExtend_of_msb_true (hi : Byte) {lo : Byte} (h : lo.msb = true) :
    ((hi.signExtend 32 <<< 8) ||| lo.signExtend 32).setWidth 16 = 0xFF#8 ++ lo := by
  apply BitVec.eq_of_getLsbD_eq
  intro i hi16
  have hones : 8 ≤ i → (0xFF#8).getLsbD (i - 8) = true := by
    intro h8
    rw [show (0xFF#8) = BitVec.allOnes 8 from rfl, BitVec.getLsbD_allOnes]
    simp only [decide_eq_true_eq]
    omega
  rw [getLsbD_join_signExtend hi lo hi16, getLsbD_pair, h, Bool.or_true]
  split
  · rfl
  · rw [hones (by omega)]

/-- The same join after masking both bytes is the big-endian word. -/
theorem join_setWidth (hi lo : Byte) :
    ((hi.setWidth 32 <<< 8) ||| lo.setWidth 32).setWidth 16 = hi ++ lo := by
  apply BitVec.eq_of_getLsbD_eq
  intro i h
  have h32 : i < 32 := by omega
  have h32' : i - 8 < 32 := by omega
  rw [getLsbD_pair]
  simp only [BitVec.getLsbD_setWidth, BitVec.getLsbD_or, BitVec.getLsbD_shiftLeft, h, h32, h32',
    decide_true, Bool.true_and]
  by_cases h8 : i < 8
  · simp [h8]
  · have hlo : lo.getLsbD i = false := BitVec.getLsbD_of_ge lo i (by omega)
    simp [h8, hlo]

end Octets
