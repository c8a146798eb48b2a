import Pobicos.Lib.Octets

/-!
# ByteBuffer

The byte buffers of `java.nio` and the exceptions their accesses throw.

A buffer is a backing array and a position; the limit is the capacity
throughout (`flip` and `limit` are not modelled).  The bytes before the
position are `filled`, those from it on are `rest`: a relative `put` or a
channel read extends `filled`, a channel write moves bytes from `rest` to
`filled`.  Absolute reads take a signed index and check it.
-/

namespace Nio

open Octets

/-! ## Exceptions -/

/-- The exception classes the calls of this library throw. -/
inductive Throwable
  | ioException
  | indexOutOfBounds
  | bufferOverflow
  | nullPointer
  | negativeArraySize
  deriving DecidableEq, Repr

/-- The one checked class; every other one is a `RuntimeException`. -/
def Throwable.isIOException : Throwable → Bool
  | .ioException => true
  | _ => false

/-- `o.m(…)` on a reference that may be null. -/
def deref {α : Type} : Option α → Except Throwable α
  | some a => .ok a
  | none => .error .nullPointer

@[simp] theorem deref_some {α : Type} (a : α) : deref (some a) = .ok a := rfl

/-- `a[i]` on a byte array. -/
def arrayGet (a : List Byte) (i : Nat) : Except Throwable Byte :=
  match a[i]? with
  | some b => .ok b
  | none => .error .indexOutOfBounds

theorem arrayGet_of_lt {a : List Byte} {i : Nat} (h : i < a.length) : arrayGet a i = .ok a[i] := by
  rw [arrayGet, List.getElem?_eq_getElem h]

theorem arrayGet_of_le {a : List Byte} {i : Nat} (h : a.length ≤ i) :
    arrayGet a i = .error .indexOutOfBounds := by
  rw [arrayGet, List.getElem?_eq_none h]

/-- `n` successive array reads from `i` on, as a loop or an array initializer
makes them. -/
def arrayGetRange (a : List Byte) (i : Nat) : Nat → Except Throwable (List Byte)
  | 0 => .ok []
  | n + 1 => do
      let b ← arrayGet a i
      let bs ← arrayGetRange a (i + 1) n
      .ok (b :: bs)

theorem arrayGetRange_of_le {a : List Byte} {i n : Nat} (h : i + n ≤ a.length) :
    arrayGetRange a i n = .ok ((a.drop i).take n) := by
  induction n generalizing i with
  | zero => rfl
  | succ n ih =>
      have hi : i < a.length := by omega
      rw [arrayGetRange, arrayGet_of_lt hi, ih (by omega), List.drop_eq_getElem_cons hi]
      rfl

theorem arrayGetRange_of_lt {a : List Byte} {i n : Nat} (hi : i ≤ a.length) (h : a.length < i + n) :
    arrayGetRange a i n = .error .indexOutOfBounds := by
  induction n generalizing i with
  | zero => omega
  | succ n ih =>
      rw [arrayGetRange]
      by_cases hlt : i < a.length
      · rw [arrayGet_of_lt hlt, ih (by omega) (by omega)]
        rfl
      · rw [arrayGet_of_le (by omega)]
        rfl

theorem arrayGetRange_eq_ok {a bs : List Byte} {i n : Nat} (hi : i ≤ a.length) :
    arrayGetRange a i n = .ok bs ↔ i + n ≤ a.length ∧ bs = (a.drop i).take n := by
  by_cases h : i + n ≤ a.length
  · rw [arrayGetRange_of_le h, and_iff_right h, Except.ok.injEq, eq_comm]
  · rw [arrayGetRange_of_lt hi (by omega)]
    exact ⟨fun h => (nomatch h), fun hle => absurd hle.1 h⟩

/-- `new byte[n]`. -/
def newByteArray (n : Int) : Except Throwable (List Byte) :=
  if 0 ≤ n then .ok (List.replicate n.toNat 0) else .error .negativeArraySize

/-- `a[i] = b`. -/
def arraySet (a : List Byte) (i : Nat) (b : Byte) : Except Throwable (List Byte) :=
  if i < a.length then .ok (a.set i b) else .error .indexOutOfBounds

theorem newByteArray_of_nat (n : Nat) : newByteArray n = .ok (List.replicate n 0) :=
  if_pos (Int.natCast_nonneg n)

theorem arraySet_of_lt {a : List Byte} {i : Nat} (h : i < a.length) (b : Byte) :
    arraySet a i b = .ok (a.set i b) := if_pos h

theorem arraySet_append (pre post : List Byte) (x b : Byte) :
    arraySet (pre ++ x :: post) pre.length b = .ok (pre ++ b :: post) := by
  rw [arraySet_of_lt (by simp)]
  simp

/-- `n` turns of a loop `dst[d] = src[s]` that counts both indices up. -/
def arrayCopy (src : List Byte) (s : Nat) (dst : List Byte) (d : Nat) :
    Nat → Except Throwable (List Byte)
  | 0 => .ok dst
  | n + 1 => do
      let b ← arrayGet src s
      let dst ← arraySet dst d b
      arrayCopy src (s + 1) dst (d + 1) n

theorem arrayCopy_of_le {src dst : List Byte} {s d n : Nat} (hs : s + n ≤ src.length)
    (hd : d + n ≤ dst.length) :
    arrayCopy src s dst d n = .ok (dst.take d ++ ((src.drop s).take n ++ dst.drop (d + n))) := by
  induction n generalizing s d dst with
  | zero => rw [arrayCopy, List.take_zero, List.nil_append, Nat.add_zero, List.take_append_drop]
  | succ n ih =>
      have hget : s < src.length := by omega
      have hset : d < dst.length := by omega
      have hlen : (dst.set d src[s]).length = dst.length := List.length_set
      have htake : (dst.set d src[s]).take (d + 1) = dst.take d ++ [src[s]] := by
        rw [List.take_add_one, List.take_set_of_le (Nat.le_refl d)]
        simp [hset]
      have hdrop : (dst.set d src[s]).drop (d + 1 + n) = dst.drop (d + (n + 1)) := by
        rw [List.drop_set_of_lt (by omega)]
        congr 1
        omega
      rw [arrayCopy, arrayGet_of_lt hget]
      simp only [bind, Except.bind, arraySet_of_lt hset]
      rw [ih (by omega) (by rw [hlen]; omega), htake, hdrop, List.drop_eq_getElem_cons hget,
        List.take_succ_cons, List.append_assoc]
      rfl

/-- Copying more than there is throws. -/
theorem arrayCopy_of_lt {src dst : List Byte} {s d n : Nat} (hs : s ≤ src.length)
    (hd : d + n ≤ dst.length) (h : src.length < s + n) :
    arrayCopy src s dst d n = .error .indexOutOfBounds := by
  induction n generalizing s d dst with
  | zero => omega
  | succ n ih =>
      rw [arrayCopy]
      by_cases hlt : s < src.length
      · rw [arrayGet_of_lt hlt]
        simp only [bind, Except.bind, arraySet_of_lt (show d < dst.length by omega)]
        exact ih hlt (by rw [List.length_set]; omega) (by omega)
      · rw [arrayGet_of_le (by omega)]
        rfl

/-- Copying into a new array fills it. -/
theorem arrayCopy_replicate {src : List Byte} {s n : Nat} (hs : s + n ≤ src.length) :
    arrayCopy src s (List.replicate n 0) 0 n = .ok ((src.drop s).take n) := by
  rw [arrayCopy_of_le hs (by simp)]
  simp

/-! ## Buffers -/

/-- A backing array and the position of the next relative access. -/
structure ByteBuffer where
  array : List Byte
  position : Nat
  position_le : position ≤ array.length
  deriving DecidableEq, Repr

namespace ByteBuffer

def capacity (b : ByteBuffer) : Nat := b.array.length

def remaining (b : ByteBuffer) : Nat := b.array.length - b.position

def hasRemaining (b : ByteBuffer) : Bool := decide (b.position < b.array.length)

/-- `ByteBuffer.allocate(n)`: zeroed, at position 0. -/
def allocate (n : Nat) : ByteBuffer := ⟨List.replicate n 0, 0, Nat.zero_le _⟩

/-- `position(0)`. -/
def rewind (b : ByteBuffer) : ByteBuffer := ⟨b.array, 0, Nat.zero_le _⟩

/-- The bytes before the position. -/
def filled (b : ByteBuffer) : List Byte := b.array.take b.position

/-- The bytes from the position on. -/
def rest (b : ByteBuffer) : List Byte := b.array.drop b.position

/-- A buffer whose bytes have all been put. -/
def full (bs : List Byte) : ByteBuffer := ⟨bs, bs.length, Nat.le_refl _⟩

/-- A buffer ready to be written out. -/
def wrap (bs : List Byte) : ByteBuffer := ⟨bs, 0, Nat.zero_le _⟩

theorem ext_iff' {a b : ByteBuffer} : a = b ↔ a.array = b.array ∧ a.position = b.position := by
  constructor
  · rintro rfl
    exact ⟨rfl, rfl⟩
  · obtain ⟨aa, ap, _⟩ := a
    obtain ⟨ba, bp, _⟩ := b
    rintro ⟨h1, h2⟩
    cases h1
    cases h2
    rfl

@[simp] theorem length_rest (b : ByteBuffer) : b.rest.length = b.remaining := by
  rw [rest, List.length_drop, remaining]

@[simp] theorem length_filled (b : ByteBuffer) : b.filled.length = b.position := by
  rw [filled, List.length_take, Nat.min_eq_left b.position_le]

theorem hasRemaining_iff {b : ByteBuffer} : b.hasRemaining = true ↔ 0 < b.remaining := by
  simp only [hasRemaining, decide_eq_true_eq, remaining]
  omega

theorem hasRemaining_eq_false_iff {b : ByteBuffer} : b.hasRemaining = false ↔ b.remaining = 0 := by
  simp only [hasRemaining, decide_eq_false_iff_not, remaining]
  omega

/-- A buffer with nothing remaining is its filled bytes. -/
theorem eq_full_of_remaining {b : ByteBuffer} (h : b.remaining = 0) : b = full b.filled := by
  have hpos : b.position = b.array.length := by
    have := b.position_le
    rw [remaining] at h
    omega
  have harr : b.filled = b.array := by rw [filled, hpos, List.take_length]
  rw [ext_iff', full, harr]
  exact ⟨rfl, hpos⟩

@[simp] theorem remaining_full (bs : List Byte) : (full bs).remaining = 0 := by simp [full, remaining]
@[simp] theorem array_full (bs : List Byte) : (full bs).array = bs := rfl
@[simp] theorem array_wrap (bs : List Byte) : (wrap bs).array = bs := rfl
@[simp] theorem rest_wrap (bs : List Byte) : (wrap bs).rest = bs := rfl
@[simp] theorem remaining_wrap (bs : List Byte) : (wrap bs).remaining = bs.length := rfl
@[simp] theorem rewind_full (bs : List Byte) : (full bs).rewind = wrap bs := rfl
@[simp] theorem filled_allocate (n : Nat) : (allocate n).filled = [] := rfl
@[simp] theorem position_allocate (n : Nat) : (allocate n).position = 0 := rfl
@[simp] theorem remaining_allocate (n : Nat) : (allocate n).remaining = n := by
  simp [allocate, remaining]
@[simp] theorem capacity_allocate (n : Nat) : (allocate n).capacity = n := by
  simp [allocate, capacity]

/-! ### Storing bytes -/

/-- Store at the position what fits of `bs`, and advance past it. -/
def store (b : ByteBuffer) (bs : List Byte) : ByteBuffer where
  array := b.filled ++ (bs.take b.remaining ++ b.rest.drop (bs.take b.remaining).length)
  position := b.position + (bs.take b.remaining).length
  position_le := by
    rw [List.length_append, List.length_append, length_filled]
    omega

@[simp] theorem position_store (b : ByteBuffer) (bs : List Byte) :
    (b.store bs).position = b.position + min b.remaining bs.length := by
  simp [store]

@[simp] theorem filled_store (b : ByteBuffer) (bs : List Byte) :
    (b.store bs).filled = b.filled ++ bs.take b.remaining := by
  have hlen : (b.filled ++ bs.take b.remaining).length =
      b.position + (bs.take b.remaining).length := by
    rw [List.length_append, length_filled]
  change (b.filled ++ (bs.take b.remaining ++ _)).take (b.position + _) = _
  rw [← List.append_assoc]
  exact List.take_left' hlen

@[simp] theorem capacity_store (b : ByteBuffer) (bs : List Byte) :
    (b.store bs).capacity = b.capacity := by
  have hpos := b.position_le
  have hle : (bs.take b.remaining).length ≤ b.remaining := by
    rw [List.length_take]
    exact Nat.min_le_left _ _
  simp only [capacity, store, List.length_append, length_filled, List.length_drop, length_rest]
  rw [remaining] at *
  omega

theorem remaining_store (b : ByteBuffer) (bs : List Byte) :
    (b.store bs).remaining = b.remaining - bs.length := by
  have hcap : (b.store bs).array.length = b.array.length := capacity_store b bs
  rw [remaining, hcap, position_store, remaining]
  omega

/-- Relative bulk `put`. -/
def put (b : ByteBuffer) (bs : List Byte) : Except Throwable ByteBuffer :=
  if bs.length ≤ b.remaining then .ok (b.store bs) else .error .bufferOverflow

theorem put_of_le {b : ByteBuffer} {bs : List Byte} (h : bs.length ≤ b.remaining) :
    b.put bs = .ok (b.store bs) := if_pos h

/-- Relative bulk puts one after the other. -/
def putAll (b : ByteBuffer) (bss : List (List Byte)) : Except Throwable ByteBuffer := bss.foldlM put b

theorem putAll_nil (b : ByteBuffer) : b.putAll [] = .ok b := rfl

theorem putAll_cons (b : ByteBuffer) (bs : List Byte) (bss : List (List Byte)) :
    b.putAll (bs :: bss) = b.put bs >>= fun b => b.putAll bss := rfl

theorem putAll_singleton (b : ByteBuffer) (bs : List Byte) : b.putAll [bs] = b.put bs :=
  bind_pure (b.put bs)

/-- Puts of exactly what there is room for fill a buffer. -/
theorem putAll_of_remaining {b : ByteBuffer} {bss : List (List Byte)}
    (h : bss.flatten.length = b.remaining) : b.putAll bss = .ok (full (b.filled ++ bss.flatten)) := by
  induction bss generalizing b with
  | nil =>
      rw [putAll_nil, List.flatten_nil, List.append_nil]
      exact congrArg _ (eq_full_of_remaining h.symm)
  | cons bs bss ih =>
      rw [List.flatten_cons, List.length_append] at h
      have hroom : bs.length ≤ b.remaining := by omega
      have hrest : bss.flatten.length = (b.store bs).remaining := by
        rw [remaining_store]
        omega
      have hput : b.putAll (bs :: bss) = (b.store bs).putAll bss := by
        rw [putAll_cons, put_of_le hroom]
        rfl
      rw [hput, ih hrest, filled_store, List.take_of_length_le hroom, List.flatten_cons,
        List.append_assoc]

/-- A buffer allocated to size holds what is put into it. -/
theorem putAll_allocate {n : Nat} {bss : List (List Byte)} (h : bss.flatten.length = n) :
    (allocate n).putAll bss = .ok (full bss.flatten) := by
  rw [putAll_of_remaining (by rw [h, remaining_allocate]), filled_allocate, List.nil_append]

/-! ### Absolute reads -/

/-- A big-endian word of `n` bytes at index `i`. -/
def getBE (w n : Nat) (b : ByteBuffer) (i : Int) : Except Throwable (BitVec w) :=
  if 0 ≤ i ∧ i + n ≤ b.array.length then .ok (ofBE w ((b.array.drop i.toNat).take n))
  else .error .indexOutOfBounds

/-- `getChar(i)`. -/
def getChar : ByteBuffer → Int → Except Throwable (BitVec 16) := getBE 16 2

/-- `getDouble(i)`, as the raw bits of the double. -/
def getDouble : ByteBuffer → Int → Except Throwable (BitVec 64) := getBE 64 8

theorem getBE_of_le {w n : Nat} {b : ByteBuffer} {i : Nat} (h : i + n ≤ b.array.length) :
    getBE w n b i = .ok (ofBE w ((b.array.drop i).take n)) := by
  rw [getBE, if_pos ⟨by omega, by omega⟩, Int.toNat_natCast]

theorem getBE_of_neg {w n : Nat} {b : ByteBuffer} {i : Int} (h : i < 0) :
    getBE w n b i = .error .indexOutOfBounds := by
  rw [getBE, if_neg (by omega)]

/-! ### Advancing -/

/-- Advance the position by what fits of `n`. -/
def advance (b : ByteBuffer) (n : Nat) : ByteBuffer where
  array := b.array
  position := b.position + min n b.remaining
  position_le := by
    have := b.position_le
    rw [remaining]
    omega

@[simp] theorem array_advance (b : ByteBuffer) (n : Nat) : (b.advance n).array = b.array := rfl

theorem rest_advance (b : ByteBuffer) (n : Nat) : (b.advance n).rest = b.rest.drop n := by
  have hdrop : b.rest.drop n = b.rest.drop (min n b.remaining) := by
    by_cases hn : n ≤ b.remaining
    · rw [Nat.min_eq_left hn]
    · rw [Nat.min_eq_right (by omega), List.drop_eq_nil_of_le (by rw [length_rest]; omega),
        List.drop_eq_nil_of_le (Nat.le_of_eq (length_rest b))]
  rw [hdrop, rest, rest, advance, List.drop_drop]

theorem filled_advance (b : ByteBuffer) (n : Nat) :
    (b.advance n).filled = b.filled ++ b.rest.take n := by
  have hmin : b.rest.take (min n b.remaining) = b.rest.take n := by
    rw [List.take_eq_take_iff, length_rest]
    omega
  rw [← hmin]
  simp [filled, advance, rest, List.take_add]

theorem remaining_advance (b : ByteBuffer) (n : Nat) :
    (b.advance n).remaining = b.remaining - n := by
  rw [← length_rest, rest_advance, List.length_drop, length_rest]

@[simp] theorem position_advance (b : ByteBuffer) (n : Nat) :
    (b.advance n).position = b.position + min n b.remaining := rfl

@[simp] theorem advance_zero (b : ByteBuffer) : b.advance 0 = b := by
  rw [ext_iff', position_advance]
  exact ⟨rfl, by omega⟩

/-- With nothing remaining there is nothing to advance past. -/
theorem advance_of_remaining {b : ByteBuffer} (h : b.remaining = 0) (n : Nat) : b.advance n = b := by
  rw [ext_iff', position_advance, h]
  exact ⟨rfl, by omega⟩

end ByteBuffer

end Nio
