import Pobicos.Java
import Pobicos.Middleware.Header

/-!
# Pobicos.Middleware.HWComm

`PoHWCommM.nc`: the datagram transport of the middleware on Android.

A message to the own address is looped back; any other is handed to the
`NetworkService` of the client through a JNI callback.  The only call out of
the module that can fail is the allocation of the callback's byte array.
-/

namespace Pobicos.Middleware

open Nio Octets

def PO_HW_COMM_MAX_PAYLOAD_LEN : Nat := 55

/-- `addrtype`. -/
abbrev AddrType := BitVec 32

/-- `PoMsg`: a length and room for 4 times 46 bytes of data. -/
structure PoMsg where
  len : Byte
  data : List Byte
  length_data : data.length = 4 * 46

/-- `enum states`. -/
inductive States
  | initial
  | joined
  | sending
  | idle
  deriving DecidableEq, Repr

structure HWComm where
  mState : States
  myAddr : AddrType

/-- `Init.init()`. -/
def HWComm.init : HWComm := ⟨.initial, 0xffff⟩

/-- `PoNetworkMngrHALI.joinNetwork(…)`; the callback `JNICallback_JoinNetwork`
returns `netAddr`. -/
def HWComm.joinNetwork (m : HWComm) (netAddr : JChar) : HWComm :=
  { m with myAddr := netAddr.setWidth 32, mState := .idle }

/-- What `sendMsg` does besides returning: it signals `msgArrived` with a
source address and a hop count, or calls back `JNICallback_SendPacket`. -/
inductive Signal
  | msgArrived (addr : AddrType) (hops : Nat) (msg : PoMsg)
  | sendPacket (payload : List Byte) (len : Byte) (source dest : JChar)

/-- `PoDatagramTransportHALI.sendMsg(addr, maxHops, poMsg)`; `maxHops` is not
used.  `allocated` says whether `NewByteArray` succeeds. -/
def HWComm.sendMsg (m : HWComm) (allocated : Bool) (addr : AddrType) (poMsg : PoMsg) :
    Int × Option Signal :=
  if m.mState = .initial then (PO_COMM_NOT_STARTED, none)
  else if poMsg.len.toNat > PO_HW_COMM_MAX_PAYLOAD_LEN ∨ poMsg.len.toNat > MAX_RADIO_MSG_DATA then
    (PO_COMM_MSG_TOO_LARGE, none)
  else if addr = m.myAddr then (PO_COMM_OK, some (.msgArrived m.myAddr 0 poMsg))
  else if allocated then
    (PO_COMM_OK, some (.sendPacket (poMsg.data.take poMsg.len.toNat) poMsg.len
      (m.myAddr.setWidth 16) (addr.setWidth 16)))
  else (PO_COMM_FAIL, none)

/-- `nativeReceivedPacket(bArray, len, source, destination)`, of `len` bytes: the
source address, the hop count and the data of the `msgArrived` it signals, if
any. -/
def HWComm.nativeReceivedPacket (m : HWComm) (payload : List Byte) (source destination : JChar) :
    Option (AddrType × Nat × List Byte) :=
  if destination.setWidth 32 ≠ m.myAddr ∧ destination.toNat ≠ PO_BROADCAST_ADDR then none
  else if payload.length > MAX_RADIO_MSG_DATA then none
  else some (source.setWidth 32, 1, payload)

/-- The bytes of a message. -/
def PoMsg.payload (poMsg : PoMsg) : List Byte := poMsg.data.take poMsg.len.toNat

theorem PoMsg.length_payload {poMsg : PoMsg} (h : poMsg.len.toNat ≤ PO_HW_COMM_MAX_PAYLOAD_LEN) :
    poMsg.payload.length = poMsg.len.toNat := by
  have hdata := poMsg.length_data
  simp only [PO_HW_COMM_MAX_PAYLOAD_LEN] at h
  rw [payload, List.length_take]
  omega

/-- **An accepted message** for another node is short, and handed over as it is. -/
theorem HWComm.sendMsg_ok {m : HWComm} {allocated : Bool} {addr : AddrType} {poMsg : PoMsg}
    (h : (m.sendMsg allocated addr poMsg).1 = PO_COMM_OK) (hne : addr ≠ m.myAddr) :
    poMsg.len.toNat ≤ PO_HW_COMM_MAX_PAYLOAD_LEN ∧ m.sendMsg allocated addr poMsg =
      (PO_COMM_OK, some (.sendPacket poMsg.payload poMsg.len (m.myAddr.setWidth 16)
        (addr.setWidth 16))) := by
  rw [sendMsg] at h ⊢
  split at h
  · cases h
  · next hrun =>
    rw [if_neg hrun]
    split at h
    · cases h
    · next hlen =>
      rw [if_neg hlen, if_neg hne] at *
      cases allocated with
      | false => cases h
      | true => exact ⟨by omega, rfl⟩

/-- What a callback is given. -/
theorem HWComm.sendPacket_eq {m : HWComm} {allocated : Bool} {addr : AddrType} {poMsg : PoMsg}
    {payload : List Byte} {len : Byte} {source dest : JChar}
    (h : (m.sendMsg allocated addr poMsg).2 = some (.sendPacket payload len source dest)) :
    poMsg.len.toNat ≤ PO_HW_COMM_MAX_PAYLOAD_LEN ∧ payload = poMsg.payload ∧ len = poMsg.len := by
  rw [sendMsg] at h
  split at h
  · cases h
  · split at h
    · cases h
    · next hlen =>
      split at h
      · cases h
      · split at h
        · cases h
          exact ⟨by omega, rfl, rfl⟩
        · cases h

/-- A callback is never for the own address. -/
theorem HWComm.addr_ne_of_sendPacket {m : HWComm} {allocated : Bool} {addr : AddrType} {poMsg : PoMsg}
    {code : Int} {payload : List Byte} {len : Byte} {source dest : JChar}
    (h : m.sendMsg allocated addr poMsg = (code, some (.sendPacket payload len source dest))) :
    addr ≠ m.myAddr := by
  rintro rfl
  rw [sendMsg, if_pos rfl] at h
  split at h
  · cases h
  · split at h <;> cases h

end Pobicos.Middleware
