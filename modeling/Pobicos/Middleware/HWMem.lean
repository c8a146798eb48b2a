import Pobicos.Middleware.RAMMem
import Pobicos.Lib.Lts
import Mathlib.Logic.Function.Basic

/-!
# Pobicos.Middleware.HWMem

`PoHWMemM.nc` and its wiring in `PoHWMemC.nc`: the flat memory of a node, made
of four banks.

Every command asks the macros of `PoMemMngrM.h` which bank an address is in, and
passes the physical address on to that bank.  The macros are not part of the
repository; here they are any functions of the address (`MemMap`).
`reads_most_recent` says that the banks are a memory: what is read is what was
written last.
-/

namespace Pobicos.Middleware

open Octets CArray

/-! ## The banks -/

/-- The instances of `PoRAMMemM`. -/
inductive Bank
  | volatileRandom
  | nVolatileRandom
  | storageRandom
  | flashStorage
  deriving DecidableEq, Repr

/-- The macros of `PoMemMngrM.h`. -/
structure MemMap where
  IS_V_RANDOM_ADDRESS : PoMemAddr → Bool
  IS_NV_RANDOM_ADDRESS : PoMemAddr → Bool
  IS_STORAGE_ADDRESS : PoMemAddr → Bool
  MASK_PHYSICAL_ADDRESS : PoMemAddr → PoMemAddr

/-- The bank that a command passes an address on to. -/
def MemMap.bank (map : MemMap) (addr : PoMemAddr) : Bank :=
  if map.IS_V_RANDOM_ADDRESS addr then .volatileRandom
  else if map.IS_NV_RANDOM_ADDRESS addr then .nVolatileRandom
  else if map.IS_STORAGE_ADDRESS addr then .storageRandom
  else .flashStorage

abbrev HWMem := Bank → RAMMem

/-- What a read returns. -/
inductive MemValue
  | u8 (x : Byte)
  | u16 (x : BitVec 16)
  | u32 (x : BitVec 32)
  | block (bs : List Byte)
  deriving DecidableEq, Repr

/-- The bytes of it in the memory of the reader. -/
def MemValue.bytes (order : ByteOrder) : MemValue → List Byte
  | .u8 x => [x]
  | .u16 x => order.write 2 x
  | .u32 x => order.write 4 x
  | .block bs => bs

namespace MemResult

variable {α β : Type}

def map (f : α → β) : MemResult α → MemResult β
  | .done a => .done (f a)
  | .asserted a => .asserted (f a)
  | .fault => .fault

end MemResult

namespace HWMem

variable (map : MemMap) (order : ByteOrder) (m : HWMem) (addr : PoMemAddr)

/-- `Init.init()` of all four instances. -/
def init : HWMem := fun b => (m b).init

/-- A read of the bank of `addr`, at its physical address. -/
def select {α : Type} (get : RAMMem → PoMemAddr → MemResult α) : MemResult α :=
  get (m (map.bank addr)) (map.MASK_PHYSICAL_ADDRESS addr)

/-- A write to the bank of `addr`, at its physical address. -/
def change (put : RAMMem → PoMemAddr → MemResult RAMMem) : MemResult HWMem :=
  (put (m (map.bank addr)) (map.MASK_PHYSICAL_ADDRESS addr)).map fun r =>
    Function.update m (map.bank addr) r

def get8 : MemResult Byte := m.select map addr RAMMem.get8

def get16 : MemResult (BitVec 16) := m.select map addr fun r => r.get16 order

def get32 : MemResult (BitVec 32) := m.select map addr fun r => r.get32 order

def read (len : BitVec 16) : MemResult (List Byte) := m.select map addr fun r a => r.read a len

def put8 (data : Byte) : MemResult HWMem := m.change map addr fun r a => r.put8 a data

def put16 (data : BitVec 16) : MemResult HWMem := m.change map addr fun r a => r.put16 order a data

def put32 (data : BitVec 32) : MemResult HWMem := m.change map addr fun r a => r.put32 order a data

def write (data : List Byte) (len : BitVec 16) : MemResult HWMem :=
  m.change map addr fun r a => r.write a data len

end HWMem

/-! ## Operations -/

/-- A command of `PoMemHALI` that reads or writes, with the bytes that its
pointer argument points to if it writes them. -/
inductive MemOp
  | get8 (addr : PoMemAddr)
  | get16 (addr : PoMemAddr)
  | get32 (addr : PoMemAddr)
  | read (addr : PoMemAddr) (len : BitVec 16)
  | put8 (addr : PoMemAddr) (data : Byte)
  | put16 (addr : PoMemAddr) (data : BitVec 16)
  | put32 (addr : PoMemAddr) (data : BitVec 32)
  | write (addr : PoMemAddr) (data : List Byte) (len : BitVec 16)
  deriving DecidableEq, Repr

namespace MemOp

def addr : MemOp → PoMemAddr
  | get8 addr | get16 addr | get32 addr | read addr _ | put8 addr _ | put16 addr _ | put32 addr _
  | write addr _ _ => addr

/-- The length of the range of addresses. -/
def width : MemOp → Nat
  | get8 _ | put8 _ _ => 1
  | get16 _ | put16 _ _ => 2
  | get32 _ | put32 _ _ => 4
  | read _ len | write _ _ len => len.toNat

/-- How many bytes are read. -/
def reads : MemOp → Nat
  | get8 _ => 1
  | get16 _ => 2
  | get32 _ => 4
  | read _ len => len.toNat
  | _ => 0

/-- The bytes that are written. -/
def writes (order : ByteOrder) : MemOp → List Byte
  | put8 _ data => [data]
  | put16 _ data => order.write 2 data
  | put32 _ data => order.write 4 data
  | write _ data len => data.take len.toNat
  | _ => []

/-- The pointer argument of a write points to as many bytes as it says. -/
def Pointed : MemOp → Prop
  | write _ data len => len.toNat ≤ data.length
  | _ => True

/-- What the command returns, if it reads, and the memory after it. -/
def exec (map : MemMap) (order : ByteOrder) (m : HWMem) : MemOp → MemResult (Option MemValue × HWMem)
  | get8 addr => (m.get8 map addr).map fun x => (some (.u8 x), m)
  | get16 addr => (m.get16 map order addr).map fun x => (some (.u16 x), m)
  | get32 addr => (m.get32 map order addr).map fun x => (some (.u32 x), m)
  | read addr len => (m.read map addr len).map fun bs => (some (.block bs), m)
  | put8 addr data => (m.put8 map addr data).map fun m' => (none, m')
  | put16 addr data => (m.put16 map order addr data).map fun m' => (none, m')
  | put32 addr data => (m.put32 map order addr data).map fun m' => (none, m')
  | write addr data len => (m.write map addr data len).map fun m' => (none, m')

/-- The physical range of the operation is inside its bank. -/
def InRange (map : MemMap) (sizes : Bank → BitVec 32) (op : MemOp) : Prop :=
  op.Pointed ∧ (map.MASK_PHYSICAL_ADDRESS op.addr).toNat + op.width ≤ (sizes (map.bank op.addr)).toNat

instance : DecidablePred Pointed
  | write _ data len => inferInstanceAs (Decidable (len.toNat ≤ data.length))
  | get8 _ | get16 _ | get32 _ | read _ _ | put8 _ _ | put16 _ _ | put32 _ _ => isTrue trivial

instance (map : MemMap) (sizes : Bank → BitVec 32) (op : MemOp) : Decidable (op.InRange map sizes) :=
  inferInstanceAs (Decidable (_ ∧ _))

/-- The byte that the operation writes to the index `i` of the bank `b`. -/
def stores (map : MemMap) (order : ByteOrder) (b : Bank) (i : Nat) (op : MemOp) : Option Byte :=
  let phys := (map.MASK_PHYSICAL_ADDRESS op.addr).toNat
  if map.bank op.addr = b ∧ phys ≤ i then (op.writes order)[i - phys]? else none

end MemOp

/-- **The byte most recently written** to the index `i` of the bank `b`, `0xFF`
if none has been since `Init.init()`. -/
def lastWritten (map : MemMap) (order : ByteOrder) (ops : List MemOp) (b : Bank) (i : Nat) : Byte :=
  (ops.reverse.findSome? (MemOp.stores map order b i)).getD 0xFF

/-! ## One operation -/

variable {map : MemMap} {order : ByteOrder} {m : HWMem} {addr : PoMemAddr} {op : MemOp}
  {sizes : Bank → BitVec 32}

/-- What an operation that succeeds does: it returns the bytes `bs` if it reads,
and puts its bytes into its bank. -/
structure Does (map : MemMap) (order : ByteOrder) (m : HWMem) (op : MemOp) (bs : List Byte)
    (v : Option MemValue) (m' : HWMem) : Prop where
  value : (v.map (MemValue.bytes order)).getD [] = bs
  size : ∀ b, (m' b).size = (m b).size
  others : ∀ b, b ≠ map.bank op.addr → m' b = m b
  buffer : ∀ b i, (m' b).memBuffer[i]? = (op.stores map order b i).or (m b).memBuffer[i]?

/-- **A read** of the bank of `op`, at its physical address. -/
theorem does_select (op : MemOp) {α : Type} {get : RAMMem → PoMemAddr → MemResult α} {a : α} {bs : List Byte}
    (hget : get (m (map.bank op.addr)) (map.MASK_PHYSICAL_ADDRESS op.addr) = .done a)
    {f : α → MemValue} (hf : (f a).bytes order = bs) (hnone : op.writes order = []) :
    ∃ v m', (m.select map op.addr get).map (fun a => (some (f a), m)) = .done (v, m') ∧
      Does map order m op bs v m' := by
  rw [HWMem.select, hget]
  refine ⟨some (f a), m, rfl, hf, fun _ => rfl, fun _ _ => rfl, fun b i => ?_⟩
  rw [MemOp.stores, hnone]
  simp

/-- **A write** to the bank of `op`, at its physical address. -/
theorem does_change (op : MemOp) {put : RAMMem → PoMemAddr → MemResult RAMMem}
    (hput : ∃ r, put (m (map.bank op.addr)) (map.MASK_PHYSICAL_ADDRESS op.addr) = .done r ∧
      (m (map.bank op.addr)).Writes (map.MASK_PHYSICAL_ADDRESS op.addr) (op.writes order) r) :
    ∃ v m', (m.change map op.addr put).map (fun m' => ((none : Option MemValue), m')) = .done (v, m') ∧
      Does map order m op [] v m' := by
  obtain ⟨r, hput, hsize, hbuffer⟩ := hput
  rw [HWMem.change, hput]
  refine ⟨none, Function.update m (map.bank op.addr) r, rfl, rfl, fun b => ?_, fun b hb => ?_, fun b i => ?_⟩
  · by_cases hb : b = map.bank op.addr
    · rw [hb, Function.update_self, hsize]
    · rw [Function.update_of_ne hb]
  · rw [Function.update_of_ne hb]
  · rw [MemOp.stores]
    by_cases hb : b = map.bank op.addr
    · rw [hb, Function.update_self, hbuffer]
      simp only [true_and]
      by_cases hlow : (map.MASK_PHYSICAL_ADDRESS op.addr).toNat ≤ i
      · by_cases hin : i - (map.MASK_PHYSICAL_ADDRESS op.addr).toNat < (op.writes order).length
        · rw [if_pos ⟨hlow, by omega⟩, if_pos hlow, List.getElem?_eq_getElem hin, Option.some_or]
        · rw [if_neg (by omega), if_pos hlow, List.getElem?_eq_none (Nat.not_lt.mp hin), Option.none_or]
      · rw [if_neg (by omega), if_neg hlow, Option.none_or]
    · rw [Function.update_of_ne hb, if_neg fun h => hb h.1.symm, Option.none_or]

/-- **An operation inside its bank** succeeds; a read returns what is there. -/
theorem exec_of_inRange (order : ByteOrder) (hop : op.InRange map fun b => (m b).size) {g : Nat → Byte}
    (hg : ∀ i, i < (m (map.bank op.addr)).size.toNat →
      (m (map.bank op.addr)).memBuffer[i]? = some (g i)) :
    ∃ v m', op.exec map order m = .done (v, m') ∧
      Does map order m op
        ((List.range op.reads).map fun j => g ((map.MASK_PHYSICAL_ADDRESS op.addr).toNat + j)) v m' := by
  obtain ⟨hpointed, hrange⟩ := hop
  cases op with
  | get8 addr => exact does_select (.get8 addr) (RAMMem.get8_of_le hrange hg) rfl rfl
  | get16 addr =>
      refine does_select (.get16 addr) (RAMMem.get16_of_le hrange hg) ?_ rfl
      exact order.write_read rfl (by decide)
  | get32 addr =>
      refine does_select (.get32 addr) (RAMMem.get32_of_le hrange hg) ?_ rfl
      exact order.write_read rfl (by decide)
  | read addr len => exact does_select (.read addr len) (RAMMem.read_of_le hrange hg) rfl rfl
  | put8 addr data => exact does_change (.put8 addr data) (RAMMem.put8_of_le hrange)
  | put16 addr data => exact does_change (.put16 addr data) (RAMMem.put16_of_le hrange)
  | put32 addr data => exact does_change (.put32 addr data) (RAMMem.put32_of_le hrange)
  | write addr data len =>
      exact does_change (.write addr data len) (RAMMem.write_of_le hpointed hrange)

/-! ## Sequences of operations -/

/-- One operation of a sequence in which every operation succeeds. -/
def HWMem.step (map : MemMap) (order : ByteOrder) (m : HWMem) (op : MemOp) : Option HWMem :=
  match op.exec map order m with
  | .done (_, m') => some m'
  | _ => none

/-- The banks hold what has been written to them most recently. -/
structure Holds (map : MemMap) (order : ByteOrder) (sizes : Bank → BitVec 32) (ops : List MemOp)
    (m : HWMem) : Prop where
  size : ∀ b, (m b).size = sizes b
  buffer : ∀ b i, i < (sizes b).toNat → (m b).memBuffer[i]? = some (lastWritten map order ops b i)

theorem holds_init (map : MemMap) (order : ByteOrder) (m : HWMem) :
    Holds map order (fun b => (m b).size) [] m.init where
  size _ := rfl
  buffer _ _ hi := RAMMem.getElem?_init hi

theorem lastWritten_concat (map : MemMap) (order : ByteOrder) (ops : List MemOp) (op : MemOp) (b : Bank)
    (i : Nat) : lastWritten map order (ops ++ [op]) b i =
      (op.stores map order b i).getD (lastWritten map order ops b i) := by
  rw [lastWritten, lastWritten, List.reverse_append, List.reverse_singleton, List.singleton_append,
    List.findSome?_cons]
  cases op.stores map order b i <;> rfl

/-- **One step**: the operation succeeds, a read returns what has been written
most recently, and the banks go on to hold it. -/
theorem Holds.step {ops : List MemOp} (h : Holds map order sizes ops m) (hop : op.InRange map sizes) :
    ∃ v m', op.exec map order m = .done (v, m') ∧ Holds map order sizes (ops ++ [op]) m' ∧
      Does map order m op ((List.range op.reads).map fun j => lastWritten map order ops (map.bank op.addr)
        ((map.MASK_PHYSICAL_ADDRESS op.addr).toNat + j)) v m' := by
  have hsizes : (fun b => (m b).size) = sizes := funext h.size
  have hin : op.InRange map fun b => (m b).size := by rwa [hsizes]
  obtain ⟨v, m', hexec, hdoes⟩ := exec_of_inRange order hin
    fun i hi => h.buffer (map.bank op.addr) i (by rwa [← h.size])
  refine ⟨v, m', hexec, ⟨fun b => (hdoes.size b).trans (h.size b), fun b i hi => ?_⟩, hdoes⟩
  rw [hdoes.buffer, h.buffer b i hi, lastWritten_concat]
  cases op.stores map order b i <;> rfl

/-- **The banks are a memory**: after any operations inside their banks, an
operation inside its bank returns, if it reads, the bytes most recently written
to each of its addresses, and leaves the other banks alone. -/
theorem reads_most_recent (map : MemMap) (order : ByteOrder) (m : HWMem) (ops : List MemOp) (op : MemOp)
    (hops : ∀ o ∈ ops, o.InRange map fun b => (m b).size) (hop : op.InRange map fun b => (m b).size) :
    ∃ m₁, Lts.run (HWMem.step map order) m.init ops = some m₁ ∧
      ∃ v m₂, op.exec map order m₁ = .done (v, m₂) ∧
        (v.map (MemValue.bytes order)).getD [] =
          (List.range op.reads).map (fun j => lastWritten map order ops (map.bank op.addr)
            ((map.MASK_PHYSICAL_ADDRESS op.addr).toNat + j)) ∧
        ∀ b, b ≠ map.bank op.addr → m₂ b = m₁ b := by
  have hrun : ∃ m₁, Lts.run (HWMem.step map order) m.init ops = some m₁ ∧
      Holds map order (fun b => (m b).size) ops m₁ := by
    induction ops using List.reverseRecOn with
    | nil => exact ⟨m.init, rfl, holds_init map order m⟩
    | append_singleton ops o ih =>
        obtain ⟨m₁, hrun, hholds⟩ := ih fun o' ho' => hops o' (List.mem_append_left _ ho')
        obtain ⟨v, m', hexec, hnext, -⟩ := hholds.step (hops o (by simp))
        refine ⟨m', ?_, hnext⟩
        rw [Lts.run_append, hrun]
        refine Lts.run_of_step ?_
        rw [HWMem.step, hexec]
  obtain ⟨m₁, hrun, hholds⟩ := hrun
  obtain ⟨v, m₂, hexec, -, hdoes⟩ := hholds.step hop
  exact ⟨m₁, hrun, v, m₂, hexec, hdoes.value, hdoes.others⟩

/-- Writes of different widths that overlap, at the ends of two banks of 8
bytes told apart by the top bit, and a read across them. -/
theorem reads_most_recent_overlap :
    let map : MemMap := ⟨fun a => !a.msb, fun a => a.msb, fun _ => false, fun a => a &&& 0x7FFFFFFF⟩
    let m : HWMem := fun _ => ⟨8, List.replicate 8 0, rfl⟩
    let ops := [.put32 4 0x11223344, .put16 0x80000006 0xBBCC, .put8 5 0xAA]
    (List.range 4).map (fun j => lastWritten map .little ops .volatileRandom (3 + j)) =
        [0xFF, 0x44, 0xAA, 0x22] ∧
      ∃ m₁, Lts.run (HWMem.step map .little) m.init ops = some m₁ ∧
        ∃ v m₂, (MemOp.get32 3).exec map .little m₁ = .done (v, m₂) ∧
          (v.map (MemValue.bytes .little)).getD [] =
            (List.range 4).map (fun j => lastWritten map .little ops .volatileRandom (3 + j)) ∧
          ∀ b, b ≠ .volatileRandom → m₂ b = m₁ b := by
  intro map m ops
  exact ⟨by decide, reads_most_recent map .little m ops (.get32 3) (by decide) (by decide)⟩

end Pobicos.Middleware
