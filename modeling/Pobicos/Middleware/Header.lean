import Mathlib.Logic.Basic

/-!
# Pobicos.Middleware.Header

The constants of `middleware.h` that the communication layer and the address
space rest on.
-/

namespace Pobicos.Middleware

/-! Return codes of the communication layer. -/

def PO_COMM_OK : Int := 0
def PO_COMM_MSG_TOO_LARGE : Int := 2
def PO_COMM_NOT_STARTED : Int := 4
def PO_COMM_FAIL : Int := 7

def MAX_RADIO_MSG_DATA : Nat := 60

/-! Addresses. -/

def VIRTUAL_POOL_START : Nat := 40000
def VIRTUAL_POOL_RANGE : Nat := 100

def PO_COMM_GATEWAY_ADDR : Nat := 0x0000

def PO_BROADCAST_ADDR : Nat := 0xffff
def PO_SECURE_BROADCAST_ADDR : Nat := 0xfffe
def PO_HW_BROADCAST_ADDR : Nat := 0xfffd

/-- `IS_ADDR_VIRTUAL(addr)`: the pool of virtual nodes, or the gateway. -/
def IS_ADDR_VIRTUAL (addr : Nat) : Prop :=
  (addr ≥ VIRTUAL_POOL_START ∧ addr < VIRTUAL_POOL_START + VIRTUAL_POOL_RANGE) ∨
    addr = PO_COMM_GATEWAY_ADDR

/-- The addresses no ordinary node may have. -/
def Reserved (addr : Nat) : Prop :=
  IS_ADDR_VIRTUAL addr ∨ addr = PO_BROADCAST_ADDR ∨ addr = PO_SECURE_BROADCAST_ADDR ∨
    addr = PO_HW_BROADCAST_ADDR

instance (addr : Nat) : Decidable (Reserved addr) := by
  unfold Reserved IS_ADDR_VIRTUAL
  infer_instance

theorem reserved_iff (addr : Nat) :
    Reserved addr ↔ addr = 0 ∨ (40000 ≤ addr ∧ addr < 40100) ∨ (0xfffd ≤ addr ∧ addr ≤ 0xffff) := by
  simp only [Reserved, IS_ADDR_VIRTUAL, VIRTUAL_POOL_START, VIRTUAL_POOL_RANGE, PO_COMM_GATEWAY_ADDR,
    PO_BROADCAST_ADDR, PO_SECURE_BROADCAST_ADDR, PO_HW_BROADCAST_ADDR]
  omega

/-! Message types. -/

def PO_COMM_HDR_TYPE : Nat := 0

def PO_COMM_HDR_VIRTUAL_DATAGRAM : Nat := 0x03
def PO_COMM_HDR_VIRTUAL_RELIABLE : Nat := 0x04
def PO_COMM_HDR_VIRTUAL_ACK : Nat := 0x05

/-- `IS_MSG_VIRTUAL(type)`. -/
def IS_MSG_VIRTUAL (type : Nat) : Prop :=
  type = PO_COMM_HDR_VIRTUAL_DATAGRAM ∨ type = PO_COMM_HDR_VIRTUAL_RELIABLE ∨
    type = PO_COMM_HDR_VIRTUAL_ACK

instance (addr : Nat) : Decidable (IS_ADDR_VIRTUAL addr) := inferInstanceAs (Decidable (_ ∨ _))

instance (type : Nat) : Decidable (IS_MSG_VIRTUAL type) := inferInstanceAs (Decidable (_ ∨ _))

end Pobicos.Middleware
