import Pobicos.Lib.CArray

/-!
# FlatMemory

Bytes at addresses: reading and writing of blocks and of machine words, and what
a write leaves alone.

`Outside a n m m'` is the frame of everything that writes to the `n` bytes from
`a` on; a block that does not meet them is read as before (`bytes_of_outside`).
-/

namespace FlatMemory

open Octets CArray

abbrev Memory := Nat → Byte

variable {m m' m'' : Memory} {a b n k : Nat} {bs cs : List Byte} {o : ByteOrder} {w : Nat}

/-- The `n` bytes from `a` on. -/
def bytes (m : Memory) (a n : Nat) : List Byte := (List.range n).map fun j => m (a + j)

/-- The bytes `bs` from `a` on. -/
def write (m : Memory) (a : Nat) (bs : List Byte) : Memory :=
  fun i => if a ≤ i ∧ i < a + bs.length then bs.getD (i - a) 0 else m i

/-- A machine word of `k` bytes. -/
def get (o : ByteOrder) (w k : Nat) (m : Memory) (a : Nat) : BitVec w := o.read w (bytes m a k)

/-- A write of a machine word of `k` bytes. -/
def put (o : ByteOrder) (k : Nat) (m : Memory) (a : Nat) (x : BitVec w) : Memory := write m a (o.write k x)

/-- Nothing has changed but the `n` bytes from `a` on. -/
def Outside (a n : Nat) (m m' : Memory) : Prop := ∀ i, i < a ∨ a + n ≤ i → m' i = m i

/-! ## Blocks -/

@[simp] theorem length_bytes (m : Memory) (a n : Nat) : (bytes m a n).length = n := by simp [bytes]

@[simp] theorem bytes_zero (m : Memory) (a : Nat) : bytes m a 0 = [] := rfl

theorem bytes_congr (h : ∀ j, j < n → m' (b + j) = m (a + j)) : bytes m' b n = bytes m a n := by
  apply List.map_congr_left
  intro j hj
  exact h j (List.mem_range.mp hj)

theorem bytes_add (m : Memory) (a n k : Nat) : bytes m a (n + k) = bytes m a n ++ bytes m (a + n) k := by
  simp [bytes, List.range_add, Nat.add_assoc]

@[simp] theorem write_nil (m : Memory) (a : Nat) : write m a [] = m := by
  funext i
  simp only [write, List.length_nil, Nat.add_zero]
  rw [if_neg (by omega)]

theorem write_at (h : k < bs.length) : write m a bs (a + k) = bs[k] := by
  simp only [write]
  rw [if_pos (by omega), Nat.add_sub_cancel_left]
  simp [h]

theorem outside_write (m : Memory) (a : Nat) (bs : List Byte) : Outside a bs.length m (write m a bs) := by
  intro i hi
  simp only [write]
  rw [if_neg (by omega)]

/-- What has been written is read. -/
theorem bytes_write (m : Memory) (a : Nat) (bs : List Byte) : bytes (write m a bs) a bs.length = bs := by
  apply List.ext_getElem (by simp)
  intro i hi hi'
  simp only [bytes, List.getElem_map, List.getElem_range]
  exact write_at hi'

/-- A write in two parts. -/
theorem write_append (m : Memory) (a : Nat) (bs cs : List Byte) :
    write m a (bs ++ cs) = write (write m a bs) (a + bs.length) cs := by
  funext i
  simp only [write, List.length_append, List.getD_eq_getElem?_getD]
  by_cases hlow : i < a
  · rw [if_neg (by omega), if_neg (by omega), if_neg (by omega)]
  · by_cases hmid : i < a + bs.length
    · rw [if_pos (by omega), if_neg (by omega), if_pos (by omega), List.getElem?_append_left (by omega)]
    · by_cases hhigh : i < a + bs.length + cs.length
      · rw [if_pos (by omega), if_pos (by omega), List.getElem?_append_right (by omega), Nat.sub_sub]
      · rw [if_neg (by omega), if_neg (by omega), if_neg (by omega)]

/-! ## Frames -/

theorem Outside.refl (a n : Nat) (m : Memory) : Outside a n m m := fun _ _ => rfl

theorem Outside.trans (h : Outside a n m m') (h' : Outside a n m' m'') : Outside a n m m'' := by
  intro i hi
  rw [h' i hi, h i hi]

theorem Outside.mono (h : Outside b k m m') (hlow : a ≤ b) (hhigh : b + k ≤ a + n) : Outside a n m m' := by
  intro i hi
  exact h i (by omega)

/-- **Frame**: a block that the writes do not meet. -/
theorem bytes_of_outside (h : Outside b k m m') (hd : a + n ≤ b ∨ b + k ≤ a) : bytes m' a n = bytes m a n := by
  apply bytes_congr
  intro j hj
  exact h (a + j) (by omega)

/-! ## Machine words -/

/-- A word that has been written to bytes is read from them. -/
theorem read_write (o : ByteOrder) (h : w ≤ 8 * k) (x : BitVec w) : o.read w (o.write k x) = x := by
  cases o with
  | big => exact ofBE_toBE h x
  | little => rw [ByteOrder.read, ByteOrder.write, List.reverse_reverse, ofBE_toBE h x]

theorem get_put (h : w ≤ 8 * k) (m : Memory) (a : Nat) (x : BitVec w) : get o w k (put o k m a x) a = x := by
  have hback := bytes_write m a (o.write k x)
  rw [ByteOrder.length_write] at hback
  rw [get, put, hback, read_write o h x]

theorem outside_put (m : Memory) (a : Nat) (x : BitVec w) : Outside a k m (put o k m a x) := by
  have hframe := outside_write m a (o.write k x)
  rwa [ByteOrder.length_write] at hframe

end FlatMemory
