import Pobicos.Middleware.HWMem

/-!
# Pobicos.Middleware.BankBounds

Which operations on a bank stay inside it.

Every command of `PoRAMMemM` compares the end of its range with the size of the
bank, and the end is a `uint32_t`: a range that goes past the last address may
end, modulo 2³², inside the bank.  `bounded_iff` says that these are the only
ranges that get past the test and do not fit.
-/

namespace Pobicos.Middleware

open Octets CArray

def PO_ADDRESS_INVALID : PoMemAddr := 0xFFFFFFFF

namespace MemOp

/-- The command of one bank: what it returns, if it reads, and the bank after
it. -/
def execBank (order : ByteOrder) (m : RAMMem) : MemOp → MemResult (Option MemValue × RAMMem)
  | get8 addr => (m.get8 addr).map fun x => (some (.u8 x), m)
  | get16 addr => (m.get16 order addr).map fun x => (some (.u16 x), m)
  | get32 addr => (m.get32 order addr).map fun x => (some (.u32 x), m)
  | read addr len => (m.read addr len).map fun bs => (some (.block bs), m)
  | put8 addr data => (m.put8 addr data).map fun m' => (none, m')
  | put16 addr data => (m.put16 order addr data).map fun m' => (none, m')
  | put32 addr data => (m.put32 order addr data).map fun m' => (none, m')
  | write addr data len => (m.write addr data len).map fun m' => (none, m')

/-- The same operation at another address. -/
def moveTo (addr : PoMemAddr) : MemOp → MemOp
  | get8 _ => get8 addr
  | get16 _ => get16 addr
  | get32 _ => get32 addr
  | read _ len => read addr len
  | put8 _ data => put8 addr data
  | put16 _ data => put16 addr data
  | put32 _ data => put32 addr data
  | write _ data len => write addr data len

end MemOp

/-- The operation touches nothing outside the bank; when its range does not fit
it takes its out-of-bounds branch and leaves the bank as it is. -/
def Bounded (order : ByteOrder) (m : RAMMem) (op : MemOp) : Prop :=
  op.execBank order m ≠ .fault ∧
    (m.size.toNat < op.addr.toNat + op.width → ∃ v, op.execBank order m = .asserted (v, m))

/-- The range goes past the last address, and ends inside a bank of this size. -/
def MemOp.WrapsInto (size : BitVec 32) (op : MemOp) : Prop :=
  2 ^ 32 ≤ op.addr.toNat + op.width ∧ op.addr.toNat + op.width - 2 ^ 32 ≤ size.toNat

instance (size : BitVec 32) (op : MemOp) : Decidable (op.WrapsInto size) :=
  inferInstanceAs (Decidable (_ ∧ _))

/-! ## The test and what is behind it -/

section
variable {m : RAMMem} {order : ByteOrder} {addr : PoMemAddr} {width : Nat}

theorem MemOp.width_lt (op : MemOp) : op.width < 2 ^ 16 := by
  cases op with
  | get8 addr => exact (by decide : 1 < 2 ^ 16)
  | get16 addr => exact (by decide : 2 < 2 ^ 16)
  | get32 addr => exact (by decide : 4 < 2 ^ 16)
  | read addr len => exact len.isLt
  | put8 addr data => exact (by decide : 1 < 2 ^ 16)
  | put16 addr data => exact (by decide : 2 < 2 ^ 16)
  | put32 addr data => exact (by decide : 4 < 2 ^ 16)
  | write addr data len => exact len.isLt

/-- The end of the range, as the commands compute it. -/
theorem gt_size_iff {n : BitVec 32} : addr + n > m.size ↔ m.size.toNat < (addr.toNat + n.toNat) % 2 ^ 32 := by
  rw [gt_iff_lt, BitVec.lt_def, BitVec.toNat_add]

/-- What a command does with a range of this width: by the end that it computes
it takes its out-of-bounds branch, and otherwise it succeeds exactly inside the
bank. -/
structure Tested (m : RAMMem) (addr : PoMemAddr) (width : Nat) (r : MemResult (Option MemValue × RAMMem)) :
    Prop where
  asserted : m.size.toNat < (addr.toNat + width) % 2 ^ 32 → ∃ v, r = .asserted (v, m)
  fault : (addr.toNat + width) % 2 ^ 32 ≤ m.size.toNat → m.size.toNat < addr.toNat + width → r = .fault
  done : addr.toNat + width ≤ m.size.toNat → ∃ v m', r = .done (v, m')

theorem tested_copyOut {α : Type} {n : BitVec 32} (hn : n.toNat = width) (a : α) (f : List Byte → α)
    (g : α → MemValue) :
    Tested m addr width
      ((if addr + n > m.size then .asserted a else m.copyOut addr width f).map fun x => (some (g x), m)) := by
  have htest : addr + n > m.size ↔ _ := gt_size_iff
  rw [hn] at htest
  refine ⟨fun hgt => ?_, fun hle hover => ?_, fun hfit => ?_⟩
  · rw [if_pos (htest.mpr hgt)]
    exact ⟨some (g a), rfl⟩
  · have hout : load m.memBuffer addr.toNat width = none := by
      rw [load, if_neg (by rw [m.length_eq]; omega)]
    rw [if_neg (mt htest.mp (Nat.not_lt.mpr hle)), RAMMem.copyOut, hout]
    rfl
  · have hsize := m.size.isLt
    have hin : load m.memBuffer addr.toNat width = some ((m.memBuffer.drop addr.toNat).take width) := by
      apply load_of_le
      rwa [m.length_eq]
    have hle : ¬ m.size.toNat < (addr.toNat + width) % 2 ^ 32 := by
      rw [Nat.mod_eq_of_lt (by omega)]
      omega
    rw [if_neg (mt htest.mp hle), RAMMem.copyOut, hin]
    exact ⟨_, _, rfl⟩

theorem tested_copyIn {n : BitVec 32} (hn : n.toNat = width) {bs : List Byte} (hbs : bs.length = width) :
    Tested m addr width
      ((if addr + n > m.size then .asserted m else m.copyIn addr bs).map fun m' => (none, m')) := by
  have htest : addr + n > m.size ↔ _ := gt_size_iff
  rw [hn] at htest
  refine ⟨fun hgt => ?_, fun hle hover => ?_, fun hfit => ?_⟩
  · rw [if_pos (htest.mpr hgt)]
    exact ⟨none, rfl⟩
  · have hout : ¬ addr.toNat + bs.length ≤ m.memBuffer.length := by
      rw [hbs, m.length_eq]
      omega
    rw [if_neg (mt htest.mp (Nat.not_lt.mpr hle)), RAMMem.copyIn, dif_neg hout]
    rfl
  · have hsize := m.size.isLt
    have hin : addr.toNat + bs.length ≤ m.memBuffer.length := by rwa [hbs, m.length_eq]
    have hle : ¬ m.size.toNat < (addr.toNat + width) % 2 ^ 32 := by
      rw [Nat.mod_eq_of_lt (by omega)]
      omega
    rw [if_neg (mt htest.mp hle), RAMMem.copyIn, dif_pos hin]
    exact ⟨_, _, rfl⟩

/-- **The commands** all make the same test. -/
theorem tested_execBank (order : ByteOrder) (m : RAMMem) {op : MemOp} (h : op.Pointed) :
    Tested m op.addr op.width (op.execBank order m) := by
  cases op with
  | get8 addr => exact tested_copyOut (n := 1) rfl _ _ _
  | get16 addr => exact tested_copyOut (n := 2) rfl _ _ _
  | get32 addr => exact tested_copyOut (n := 4) rfl _ _ _
  | read addr len => exact tested_copyOut (RAMMem.toNat_len len) _ _ _
  | put8 addr data => exact tested_copyIn (n := 1) rfl rfl
  | put16 addr data => exact tested_copyIn (n := 2) rfl (order.length_write 2 data)
  | put32 addr data => exact tested_copyIn (n := 4) rfl (order.length_write 4 data)
  | write addr data len =>
      have hload : load data 0 len.toNat = some (data.take len.toNat) := by
        rw [load_of_le (by rwa [Nat.zero_add]), List.drop_zero]
      rw [MemOp.execBank, RAMMem.write, hload]
      exact tested_copyIn (RAMMem.toNat_len len) (List.length_take_of_le h)

variable {op : MemOp}

/-- Only a range that wraps gets past the test and does not fit. -/
theorem execBank_ne_fault_iff (order : ByteOrder) (m : RAMMem) (h : op.Pointed) :
    op.execBank order m ≠ .fault ↔ ¬ op.WrapsInto m.size := by
  have hg := tested_execBank order m h
  have haddr := op.addr.isLt
  have hwidth := op.width_lt
  have hsize := m.size.isLt
  constructor
  · rintro hsafe ⟨hpast, hinside⟩
    exact hsafe (hg.fault (by omega) (by omega))
  · intro hwraps
    rw [MemOp.WrapsInto] at hwraps
    by_cases hfit : op.addr.toNat + op.width ≤ m.size.toNat
    · obtain ⟨v, m', hdone⟩ := hg.done hfit
      rw [hdone]
      simp
    · obtain ⟨v, hasserted⟩ := hg.asserted (by omega)
      rw [hasserted]
      simp

end

/-- **Bounds**: an operation stays inside its bank, and rejects every range that
does not fit, unless the range goes past the last address and ends inside the
bank. -/
theorem bounded_iff (order : ByteOrder) (m : RAMMem) (op : MemOp) (h : op.Pointed) :
    Bounded order m op ↔ ¬ op.WrapsInto m.size := by
  have hsafe := execBank_ne_fault_iff order m h
  refine ⟨fun hbounded => hsafe.mp hbounded.1, fun hwraps => ⟨hsafe.mpr hwraps, fun hover => ?_⟩⟩
  have hwidth := op.width_lt
  have haddr := op.addr.isLt
  rw [MemOp.WrapsInto] at hwraps
  exact (tested_execBank order m h).asserted (by omega)

/-- A bank of eight bytes. -/
def eightBytes : RAMMem := ⟨8, List.replicate 8 0, rfl⟩

/-- Its last four bytes are written, and a write that ends behind it is
rejected. -/
theorem bounded_iff_eightBytes :
    (Bounded .little eightBytes (.put32 4 0x11223344) ↔ ¬ (MemOp.put32 4 0x11223344).WrapsInto 8) ∧
      (Bounded .little eightBytes (.write 5 [1, 2, 3, 4] 4) ↔ ¬ (MemOp.write 5 [1, 2, 3, 4] 4).WrapsInto 8) :=
  ⟨bounded_iff .little eightBytes _ trivial, bounded_iff .little eightBytes _ (by decide)⟩

/-- The invalid address passes the test of `get8`. -/
theorem invalid_address_read :
    ¬ ∀ (order : ByteOrder) (m : RAMMem) (op : MemOp), op.Pointed → Bounded order m op := by
  intro h
  obtain ⟨hsafe, -⟩ := h .little eightBytes (.get8 PO_ADDRESS_INVALID) trivial
  exact hsafe rfl

/-! ## The flat memory -/

section
variable {m : HWMem} {map : MemMap} {order : ByteOrder} {op : MemOp}

theorem MemResult.map_map {α β γ : Type} (f : α → β) (g : β → γ) (r : MemResult α) :
    (r.map f).map g = r.map fun a => g (f a) := by
  cases r <;> rfl

theorem MemResult.map_eq_fault {α β : Type} {f : α → β} {r : MemResult α} : r.map f = .fault ↔ r = .fault := by
  cases r <;> simp [MemResult.map]

/-- **An operation on the flat memory** is one on the bank of its address, at its
physical address. -/
theorem exec_eq_execBank (map : MemMap) (order : ByteOrder) (m : HWMem) (op : MemOp) :
    op.exec map order m =
      ((op.moveTo (map.MASK_PHYSICAL_ADDRESS op.addr)).execBank order (m (map.bank op.addr))).map
        fun p => (p.1, Function.update m (map.bank op.addr) p.2) := by
  have hread : ∀ {α : Type} (r : MemResult α) (f : α → MemValue),
      r.map (fun x => (some (f x), m)) =
        (r.map fun x => (some (f x), m (map.bank op.addr))).map
          fun p => (p.1, Function.update m (map.bank op.addr) p.2) := by
    intro α r f
    rw [MemResult.map_map]
    simp only [Function.update_eq_self]
  have hwrite : ∀ r : MemResult RAMMem,
      (r.map fun r => Function.update m (map.bank op.addr) r).map (fun m' => ((none : Option MemValue), m')) =
        (r.map fun m' => ((none : Option MemValue), m')).map
          fun p => (p.1, Function.update m (map.bank op.addr) p.2) := by
    intro r
    rw [MemResult.map_map, MemResult.map_map]
  cases op with
  | get8 addr => exact hread _ _
  | get16 addr => exact hread _ _
  | get32 addr => exact hread _ _
  | read addr len => exact hread _ _
  | put8 addr data => exact hwrite _
  | put16 addr data => exact hwrite _
  | put32 addr data => exact hwrite _
  | write addr data len => exact hwrite _

/-- It touches nothing outside that bank unless its physical range ends in it
modulo 2³². -/
theorem exec_ne_fault_iff (h : op.Pointed) :
    op.exec map order m ≠ .fault ↔
      ¬ (op.moveTo (map.MASK_PHYSICAL_ADDRESS op.addr)).WrapsInto (m (map.bank op.addr)).size := by
  have hpointed : (op.moveTo (map.MASK_PHYSICAL_ADDRESS op.addr)).Pointed := by
    cases op with
    | write addr data len => exact h
    | get8 addr => trivial
    | get16 addr => trivial
    | get32 addr => trivial
    | read addr len => trivial
    | put8 addr data => trivial
    | put16 addr data => trivial
    | put32 addr data => trivial
  rw [exec_eq_execBank, ne_eq, MemResult.map_eq_fault]
  exact execBank_ne_fault_iff order (m (map.bank op.addr)) hpointed

end

end Pobicos.Middleware
