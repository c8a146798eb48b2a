import Pobicos.Lib.Octets

/-!
# CArray

Arrays of bytes as a program without bounds checks uses them: copying bytes
out of an array and into it, which is `none` when it would touch anything
outside, and the bytes of a machine word in the order of the host.
-/

namespace CArray

open Octets

variable {m bs : List Byte} {i n : Nat}

/-! ## Copying -/

/-- The `n` bytes from the index `i` on. -/
def load (m : List Byte) (i n : Nat) : Option (List Byte) :=
  if i + n ≤ m.length then some ((m.drop i).take n) else none

/-- The array with the bytes `bs` from the index `i` on. -/
def overwrite (m : List Byte) (i : Nat) (bs : List Byte) : List Byte :=
  m.take i ++ bs ++ m.drop (i + bs.length)

theorem load_of_le (h : i + n ≤ m.length) : load m i n = some ((m.drop i).take n) := if_pos h

theorem length_overwrite (h : i + bs.length ≤ m.length) : (overwrite m i bs).length = m.length := by
  rw [overwrite, List.length_append, List.length_append, List.length_take, List.length_drop]
  omega

/-- **What is where**: the bytes written, and everywhere else what was there. -/
theorem getElem?_overwrite (h : i + bs.length ≤ m.length) (j : Nat) :
    (overwrite m i bs)[j]? = if i ≤ j ∧ j < i + bs.length then bs[j - i]? else m[j]? := by
  have htake : (m.take i).length = i := by
    rw [List.length_take]
    omega
  rw [overwrite, List.append_assoc]
  by_cases hlow : j < i
  · rw [List.getElem?_append_left (by omega), List.getElem?_take_of_lt hlow, if_neg (by omega)]
  · rw [List.getElem?_append_right (by omega), htake]
    by_cases hmid : j - i < bs.length
    · rw [List.getElem?_append_left hmid, if_pos (by omega)]
    · rw [List.getElem?_append_right (by omega), List.getElem?_drop, if_neg (by omega)]
      congr 1
      omega

/-- What is loaded, byte for byte. -/
theorem load_eq_map {f : Nat → Byte} (hf : ∀ j, i ≤ j → j < i + n → m[j]? = some (f j))
    (h : i + n ≤ m.length) : load m i n = some ((List.range n).map fun j => f (i + j)) := by
  rw [load_of_le h]
  congr 1
  apply List.ext_getElem?
  intro j
  rw [List.getElem?_take, List.getElem?_drop, List.getElem?_map]
  by_cases hj : j < n
  · rw [if_pos hj, hf (i + j) (by omega) (by omega), List.getElem?_range hj, Option.map_some]
  · rw [if_neg hj, List.getElem?_eq_none (by simpa using hj), Option.map_none]

/-! ## Machine words -/

/-- The order of the bytes of a machine word in the memory of the host. -/
inductive ByteOrder
  | big
  | little
  deriving DecidableEq, Repr

namespace ByteOrder

/-- The word that the bytes are in memory. -/
def read (o : ByteOrder) (w : Nat) (bs : List Byte) : BitVec w :=
  match o with
  | big => ofBE w bs
  | little => ofBE w bs.reverse

/-- The `k` bytes of a word in memory. -/
def write {w : Nat} (o : ByteOrder) (k : Nat) (x : BitVec w) : List Byte :=
  match o with
  | big => toBE k x
  | little => (toBE k x).reverse

@[simp] theorem length_write {w : Nat} (o : ByteOrder) (k : Nat) (x : BitVec w) :
    (o.write k x).length = k := by
  cases o <;> simp [write]

/-- A word that has been read from bytes is these bytes. -/
theorem write_read {w k : Nat} (o : ByteOrder) (hk : bs.length = k) (hw : 8 * k ≤ w) :
    o.write k (o.read w bs) = bs := by
  subst hk
  cases o with
  | big => exact toBE_ofBE hw
  | little =>
      have hback : toBE bs.reverse.length (ofBE w bs.reverse) = bs.reverse := by
        apply toBE_ofBE
        rwa [List.length_reverse]
      rw [List.length_reverse] at hback
      rw [write, read, hback, List.reverse_reverse]

end ByteOrder

end CArray
