import Pobicos.Lib.CArray

/-!
# Pobicos.Middleware.RAMMem

`PoRAMMemM.nc`: a bank of memory in an array of the size it is instantiated
with.

Addresses and sizes are `uint32_t`, and so is the sum that every command
compares with the size; it may wrap.  What is behind an index outside the array
is not modelled: a command that touched it would end in a `fault`.
-/

namespace Pobicos.Middleware

open Octets CArray

abbrev PoMemAddr := BitVec 32

/-- How a command ends: with what it returns, with its assertion and what it
returns then, or with an access outside an array. -/
inductive MemResult (α : Type)
  | done (a : α)
  | asserted (a : α)
  | fault
  deriving DecidableEq, Repr

/-- The array of the module. -/
structure RAMMem where
  size : BitVec 32
  memBuffer : List Byte
  length_eq : memBuffer.length = size.toNat

namespace RAMMem

variable (m : RAMMem) (order : ByteOrder)

/-- The loop of `Init.init()`, with `i` from 0 to `n`. -/
def fill : Nat → List Byte → List Byte
  | 0, buf => buf
  | i + 1, buf => (fill i buf).set i 0xFF

theorem length_fill (n : Nat) (buf : List Byte) : (fill n buf).length = buf.length := by
  induction n with
  | zero => rfl
  | succ i ih => rw [fill, List.length_set, ih]

/-- `Init.init()`. -/
def init : RAMMem :=
  ⟨m.size, fill m.size.toNat m.memBuffer, (length_fill _ _).trans m.length_eq⟩

/-- `memcpy(…, &memBuffer[addr], n)`: the bytes copied. -/
def copyOut {α : Type} (addr : PoMemAddr) (n : Nat) (f : List Byte → α) : MemResult α :=
  match load m.memBuffer addr.toNat n with
  | some bs => .done (f bs)
  | none => .fault

/-- `memcpy(&memBuffer[addr], …, n)` of the `n` bytes `bs`. -/
def copyIn (addr : PoMemAddr) (bs : List Byte) : MemResult RAMMem :=
  if h : addr.toNat + bs.length ≤ m.memBuffer.length then
    .done ⟨m.size, overwrite m.memBuffer addr.toNat bs, (length_overwrite h).trans m.length_eq⟩
  else .fault

/-- `get8(addr)`. -/
def get8 (addr : PoMemAddr) : MemResult Byte :=
  if addr + 1 > m.size then .asserted 0 else m.copyOut addr 1 fun bs => bs.headD 0

/-- `get16(addr)`. -/
def get16 (addr : PoMemAddr) : MemResult (BitVec 16) :=
  if addr + 2 > m.size then .asserted 0 else m.copyOut addr 2 (order.read 16)

/-- `get32(addr)`. -/
def get32 (addr : PoMemAddr) : MemResult (BitVec 32) :=
  if addr + 4 > m.size then .asserted 0 else m.copyOut addr 4 (order.read 32)

/-- `read(addr, data, len)`: the bytes that are copied to `data`. -/
def read (addr : PoMemAddr) (len : BitVec 16) : MemResult (List Byte) :=
  if addr + len.setWidth 32 > m.size then .asserted [] else m.copyOut addr len.toNat id

/-- `put8(addr, data)`. -/
def put8 (addr : PoMemAddr) (data : Byte) : MemResult RAMMem :=
  if addr + 1 > m.size then .asserted m else m.copyIn addr [data]

/-- `put16(addr, data)`. -/
def put16 (addr : PoMemAddr) (data : BitVec 16) : MemResult RAMMem :=
  if addr + 2 > m.size then .asserted m else m.copyIn addr (order.write 2 data)

/-- `put32(addr, data)`. -/
def put32 (addr : PoMemAddr) (data : BitVec 32) : MemResult RAMMem :=
  if addr + 4 > m.size then .asserted m else m.copyIn addr (order.write 4 data)

/-- `write(addr, data, len)`, when `data` points to the bytes `data`. -/
def write (addr : PoMemAddr) (data : List Byte) (len : BitVec 16) : MemResult RAMMem :=
  if addr + len.setWidth 32 > m.size then .asserted m
  else
    match load data 0 len.toNat with
    | some bs => m.copyIn addr bs
    | none => .fault

variable {m order}

/-! ## Accesses inside the bank -/

theorem getElem?_fill {n : Nat} {buf : List Byte} (h : n ≤ buf.length) {i : Nat} (hi : i < n) :
    (fill n buf)[i]? = some 0xFF := by
  induction n with
  | zero => exact absurd hi (Nat.not_lt_zero i)
  | succ k ih =>
      rw [fill, List.getElem?_set, length_fill]
      by_cases hk : k = i
      · rw [if_pos hk, if_pos (by omega)]
      · rw [if_neg hk]
        exact ih (by omega) (by omega)

/-- Every byte is `0xFF` after `Init.init()`. -/
theorem getElem?_init {i : Nat} (h : i < m.size.toNat) : m.init.memBuffer[i]? = some 0xFF :=
  getElem?_fill (Nat.le_of_eq m.length_eq.symm) h

/-- A range inside the bank passes the test of a command. -/
theorem not_gt_size {addr n : BitVec 32} (h : addr.toNat + n.toNat ≤ m.size.toNat) :
    ¬ addr + n > m.size := by
  have hsize := m.size.isLt
  rw [gt_iff_lt, BitVec.lt_def, BitVec.toNat_add, Nat.mod_eq_of_lt (by omega)]
  omega

theorem copyOut_of_le {α : Type} {addr : PoMemAddr} {n : Nat} (f : List Byte → α) {g : Nat → Byte}
    (h : addr.toNat + n ≤ m.size.toNat) (hg : ∀ i, i < m.size.toNat → m.memBuffer[i]? = some (g i)) :
    m.copyOut addr n f = .done (f ((List.range n).map fun j => g (addr.toNat + j))) := by
  have hload : load m.memBuffer addr.toNat n =
      some ((List.range n).map fun j => g (addr.toNat + j)) := by
    refine load_eq_map (fun j hj hlt => hg j (by omega)) ?_
    rw [m.length_eq]
    exact h
  rw [copyOut, hload]

/-- The bytes `bs` have been put at the address `addr`, and the rest has been
left alone. -/
structure Writes (m : RAMMem) (addr : PoMemAddr) (bs : List Byte) (m' : RAMMem) : Prop where
  size : m'.size = m.size
  buffer : ∀ i, m'.memBuffer[i]? =
    if addr.toNat ≤ i ∧ i < addr.toNat + bs.length then bs[i - addr.toNat]? else m.memBuffer[i]?

theorem copyIn_of_le {addr : PoMemAddr} {bs : List Byte} (h : addr.toNat + bs.length ≤ m.size.toNat) :
    ∃ m', m.copyIn addr bs = .done m' ∧ m.Writes addr bs m' := by
  have hfit : addr.toNat + bs.length ≤ m.memBuffer.length := by rwa [m.length_eq]
  rw [copyIn, dif_pos hfit]
  exact ⟨_, rfl, rfl, getElem?_overwrite hfit⟩

section Commands

variable {addr : PoMemAddr} {g : Nat → Byte}

theorem get8_of_le (h : addr.toNat + 1 ≤ m.size.toNat)
    (hg : ∀ i, i < m.size.toNat → m.memBuffer[i]? = some (g i)) :
    m.get8 addr = .done (g addr.toNat) := by
  rw [get8, if_neg (not_gt_size h), copyOut_of_le _ h hg]
  rfl

theorem get16_of_le (h : addr.toNat + 2 ≤ m.size.toNat)
    (hg : ∀ i, i < m.size.toNat → m.memBuffer[i]? = some (g i)) :
    m.get16 order addr = .done (order.read 16 ((List.range 2).map fun j => g (addr.toNat + j))) := by
  rw [get16, if_neg (not_gt_size h), copyOut_of_le _ h hg]

theorem get32_of_le (h : addr.toNat + 4 ≤ m.size.toNat)
    (hg : ∀ i, i < m.size.toNat → m.memBuffer[i]? = some (g i)) :
    m.get32 order addr = .done (order.read 32 ((List.range 4).map fun j => g (addr.toNat + j))) := by
  rw [get32, if_neg (not_gt_size h), copyOut_of_le _ h hg]

theorem toNat_len (len : BitVec 16) : (len.setWidth 32).toNat = len.toNat := by
  have hlen := len.isLt
  rw [BitVec.toNat_setWidth, Nat.mod_eq_of_lt (by omega)]

theorem read_of_le {len : BitVec 16} (h : addr.toNat + len.toNat ≤ m.size.toNat)
    (hg : ∀ i, i < m.size.toNat → m.memBuffer[i]? = some (g i)) :
    m.read addr len = .done ((List.range len.toNat).map fun j => g (addr.toNat + j)) := by
  have hpass : ¬ addr + len.setWidth 32 > m.size := not_gt_size (by rwa [toNat_len])
  rw [read, if_neg hpass, copyOut_of_le _ h hg]
  rfl

theorem put8_of_le {data : Byte} (h : addr.toNat + 1 ≤ m.size.toNat) :
    ∃ m', m.put8 addr data = .done m' ∧ m.Writes addr [data] m' := by
  rw [put8, if_neg (not_gt_size h)]
  exact copyIn_of_le h

theorem put16_of_le {data : BitVec 16} (h : addr.toNat + 2 ≤ m.size.toNat) :
    ∃ m', m.put16 order addr data = .done m' ∧ m.Writes addr (order.write 2 data) m' := by
  rw [put16, if_neg (not_gt_size h)]
  exact copyIn_of_le (by rwa [ByteOrder.length_write])

theorem put32_of_le {data : BitVec 32} (h : addr.toNat + 4 ≤ m.size.toNat) :
    ∃ m', m.put32 order addr data = .done m' ∧ m.Writes addr (order.write 4 data) m' := by
  rw [put32, if_neg (not_gt_size h)]
  exact copyIn_of_le (by rwa [ByteOrder.length_write])

theorem write_of_le {data : List Byte} {len : BitVec 16} (hdata : len.toNat ≤ data.length)
    (h : addr.toNat + len.toNat ≤ m.size.toNat) :
    ∃ m', m.write addr data len = .done m' ∧ m.Writes addr (data.take len.toNat) m' := by
  have hpass : ¬ addr + len.setWidth 32 > m.size := not_gt_size (by rwa [toNat_len])
  have hload : load data 0 len.toNat = some (data.take len.toNat) := by
    rw [load_of_le (by omega), List.drop_zero]
  rw [write, if_neg hpass, hload]
  refine copyIn_of_le ?_
  rw [List.length_take]
  omega

end Commands

end RAMMem

end Pobicos.Middleware
