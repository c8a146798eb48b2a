import Mathlib.Algebra.Group.Nat.Defs
import Mathlib.Algebra.Ring.Int.Defs
import Mathlib.Data.List.Basic

/-!
# Ripple

Numbers of several digits in base `2 ^ w`, least significant digit first, and
the arithmetic that goes through them digit by digit.

* `value` and `signed` are the number that the digits are, without and with a
  sign.
* `value_lt`, `value_eq` and `signed_lt` are the steps of a comparison: each says
  how the first digits and the order of the others make up the order of the whole.
* `ripple` goes through the digits with a carry; `value_ripple_add` and
  `value_ripple_sub` say what comes out if every digit is right.
-/

namespace Ripple

variable {w : Nat} {xs ys : List (BitVec w)}

/-- The unsigned number with the given digits. -/
def value : List (BitVec w) → Nat
  | [] => 0
  | x :: xs => x.toNat + 2 ^ w * value xs

/-- The number with the given digits in two's complement. -/
def signed : List (BitVec w) → Int
  | [] => 0
  | [x] => x.toInt
  | x :: y :: xs => x.toNat + 2 ^ w * signed (y :: xs)

@[simp] theorem value_nil : value ([] : List (BitVec w)) = 0 := rfl

@[simp] theorem value_cons (x : BitVec w) (xs : List (BitVec w)) :
    value (x :: xs) = x.toNat + 2 ^ w * value xs := rfl

theorem value_lt_pow (xs : List (BitVec w)) : value xs < 2 ^ (w * xs.length) := by
  induction xs with
  | nil => simp
  | cons x xs ih =>
      have hx := x.isLt
      have hstep : 2 ^ w * value xs + 2 ^ w ≤ 2 ^ w * 2 ^ (w * xs.length) := by
        rw [← Nat.mul_succ]
        exact Nat.mul_le_mul_left _ ih
      rw [value_cons, List.length_cons, Nat.mul_succ, Nat.add_comm (w * xs.length), Nat.pow_add]
      omega

/-- The first digits and the rest of two numbers are compared one after the
other. -/
theorem digits_lt {a b B : Nat} {A D : Nat} (ha : a < B) (hb : b < B) (c : Bool) :
    a + B * A < b + B * D + c.toNat ↔ A < D + (decide (a < b + c.toNat)).toNat := by
  have hc := c.toNat_le
  by_cases h : a < b + c.toNat
  · simp only [h, decide_true, Bool.toNat_true]
    constructor
    · intro hlt
      by_contra hge
      have : B * (D + 1) ≤ B * A := Nat.mul_le_mul_left B (by omega)
      rw [Nat.mul_succ] at this
      omega
    · intro hlt
      have : B * A ≤ B * D := Nat.mul_le_mul_left B (by omega)
      omega
  · simp only [h, decide_false, Bool.toNat_false, Nat.add_zero]
    constructor
    · intro hlt
      by_contra hge
      have : B * D ≤ B * A := Nat.mul_le_mul_left B (by omega)
      omega
    · intro hlt
      have : B * (A + 1) ≤ B * D := Nat.mul_le_mul_left B (by omega)
      rw [Nat.mul_succ] at this
      omega

/-- The same with signs in the rest. -/
theorem digits_lt_int {a b B : Nat} {A D : Int} (ha : a < B) (hb : b < B) (c : Bool) :
    (a : Int) + B * A < b + B * D + c.toNat ↔ A < D + (decide (a < b + c.toNat)).toNat := by
  have hc := c.toNat_le
  have hB : (0 : Int) ≤ B := Int.natCast_nonneg B
  by_cases h : a < b + c.toNat
  · simp only [h, decide_true, Bool.toNat_true]
    constructor
    · intro hlt
      by_contra hge
      have : (B : Int) * (D + 1) ≤ B * A := Int.mul_le_mul_of_nonneg_left (by omega) hB
      rw [Int.mul_add, Int.mul_one] at this
      omega
    · intro hlt
      have : (B : Int) * A ≤ B * D := Int.mul_le_mul_of_nonneg_left (by omega) hB
      omega
  · simp only [h, decide_false, Bool.toNat_false]
    constructor
    · intro hlt
      by_contra hge
      have : (B : Int) * D ≤ B * A := Int.mul_le_mul_of_nonneg_left (by omega) hB
      omega
    · intro hlt
      have : (B : Int) * (A + 1) ≤ B * D := Int.mul_le_mul_of_nonneg_left (by omega) hB
      rw [Int.mul_add, Int.mul_one] at this
      omega

/-- Comparison, lowest digits first: what is borrowed from the rest. -/
theorem value_lt (x y : BitVec w) (c : Bool) :
    value (x :: xs) < value (y :: ys) + c.toNat ↔
      value xs < value ys + (decide (x.toNat < y.toNat + c.toNat)).toNat :=
  digits_lt x.isLt y.isLt c

theorem signed_lt (x y : BitVec w) (c : Bool) (hxs : xs ≠ []) (hys : ys ≠ []) :
    signed (x :: xs) < signed (y :: ys) + c.toNat ↔
      signed xs < signed ys + (decide (x.toNat < y.toNat + c.toNat)).toNat := by
  obtain ⟨x', xs', rfl⟩ := List.exists_cons_of_ne_nil hxs
  obtain ⟨y', ys', rfl⟩ := List.exists_cons_of_ne_nil hys
  have hlt := digits_lt_int (A := signed (x' :: xs')) (D := signed (y' :: ys')) x.isLt y.isLt c
  rw [signed, signed]
  simpa using hlt

/-- Equality, digit by digit. -/
theorem value_eq (x y : BitVec w) :
    value (x :: xs) = value (y :: ys) ↔ x = y ∧ value xs = value ys := by
  have hx := x.isLt
  have hy := y.isLt
  constructor
  · intro h
    rw [value_cons, value_cons] at h
    have hlow : x.toNat = y.toNat := by
      have hmod := congrArg (· % 2 ^ w) h
      simp only [Nat.add_mul_mod_self_left] at hmod
      rwa [Nat.mod_eq_of_lt hx, Nat.mod_eq_of_lt hy] at hmod
    refine ⟨BitVec.eq_of_toNat_eq hlow, ?_⟩
    have hmul : 2 ^ w * value xs = 2 ^ w * value ys := by omega
    exact Nat.eq_of_mul_eq_mul_left (Nat.two_pow_pos w) hmul
  · rintro ⟨rfl, h⟩
    rw [value_cons, value_cons, h]

/-! ## Digit by digit with a carry -/

/-- The digits `res` and the carries `out` of an operation that goes through the
digits of two numbers, from the carry `c` on; and the last carry. -/
def ripple (res : BitVec w → BitVec w → Bool → BitVec w) (out : BitVec w → BitVec w → Bool → Bool) :
    Bool → List (BitVec w × BitVec w) → List (BitVec w) × Bool
  | c, [] => ([], c)
  | c, p :: ps =>
      let rest := ripple res out (out p.1 p.2 c) ps
      (res p.1 p.2 c :: rest.1, rest.2)

section ripple

variable {res : BitVec w → BitVec w → Bool → BitVec w} {out : BitVec w → BitVec w → Bool → Bool}

@[simp] theorem length_ripple (c : Bool) (ps : List (BitVec w × BitVec w)) :
    (ripple res out c ps).1.length = ps.length := by
  induction ps generalizing c with
  | nil => rfl
  | cons p ps ih => simp [ripple, ih]

/-- One digit of an addition and the rest of it. -/
theorem add_digit {x y z X Y Z c d e B P : Nat} (hfirst : z + B * d = x + y + c)
    (hrest : Z + P * e = X + Y + d) : (z + B * Z) + B * P * e = (x + B * X) + (y + B * Y) + c := by
  have hmul : B * (Z + P * e) = B * (X + Y + d) := by rw [hrest]
  simp only [Nat.mul_add] at hmul
  rw [Nat.mul_assoc]
  omega

/-- **Addition**: if every digit with its carry is the sum of the digits and the
carry before it, the whole with the last carry is the sum of the numbers. -/
theorem value_ripple_add
    (hdigit : ∀ x y c, (res x y c).toNat + 2 ^ w * (out x y c).toNat = x.toNat + y.toNat + c.toNat)
    (c : Bool) (ps : List (BitVec w × BitVec w)) :
    value (ripple res out c ps).1 + 2 ^ (w * ps.length) * (ripple res out c ps).2.toNat =
      value (ps.map Prod.fst) + value (ps.map Prod.snd) + c.toNat := by
  induction ps generalizing c with
  | nil => simp [ripple]
  | cons p ps ih =>
      rw [List.length_cons, Nat.mul_succ, Nat.add_comm (w * ps.length), Nat.pow_add]
      exact add_digit (hdigit p.1 p.2 c) (ih (out p.1 p.2 c))

/-- **Subtraction**, with a borrow for the carry. -/
theorem value_ripple_sub
    (hdigit : ∀ x y c, (res x y c).toNat + y.toNat + c.toNat = x.toNat + 2 ^ w * (out x y c).toNat)
    (c : Bool) (ps : List (BitVec w × BitVec w)) :
    value (ripple res out c ps).1 + value (ps.map Prod.snd) + c.toNat =
      value (ps.map Prod.fst) + 2 ^ (w * ps.length) * (ripple res out c ps).2.toNat := by
  induction ps generalizing c with
  | nil => simp [ripple]
  | cons p ps ih =>
      rw [List.length_cons, Nat.mul_succ, Nat.add_comm (w * ps.length), Nat.pow_add]
      exact (add_digit (hdigit p.1 p.2 c).symm (ih (out p.1 p.2 c)).symm).symm

end ripple

end Ripple
