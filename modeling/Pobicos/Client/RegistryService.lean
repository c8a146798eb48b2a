import Pobicos.NetworkMsg

/-!
# Pobicos.Client.RegistryService

`PoRegistryService.java`, the identity a client has been given, and the
request `RegistryUpdateTask.java` keeps it alive with.

Both queue the same `REGISTRY_REQ`; the service takes the identity from its
fields, an update task the one it was created with.
-/

namespace Pobicos.Client

open Nio Octets

open NetworkMsg (REGISTRY_REQ)

/-- `PoRegistryService.CLASS_MOBILE`. -/
def PoRegistryService.CLASS_MOBILE : Byte := 0x01

/-- `enum STATE`. -/
inductive STATE
  | UNREGISTERED
  | REGISTERED
  | REJECTED
  deriving DecidableEq, Repr

structure PoRegistryService where
  state : STATE
  seed : JInt
  myAddr : JChar
  lat : JDouble
  lon : JDouble
  deriving DecidableEq, Repr

/-- The service once `onCreate` has set its state; the fields of a Java object
start at zero. -/
def PoRegistryService.new : PoRegistryService where
  state := .UNREGISTERED
  seed := 0
  myAddr := 0
  lat := 0
  lon := 0

/-- `setMyAddr(b, s)`. -/
def PoRegistryService.setMyAddr (r : PoRegistryService) (b : JChar) (s : JInt) : PoRegistryService :=
  { r with myAddr := b, seed := s, state := .REGISTERED }

/-- `setState(s)`. -/
def PoRegistryService.setState (r : PoRegistryService) (s : STATE) : PoRegistryService :=
  { r with state := s }

/-- `onLocationChanged(location)`, for a better location. -/
def PoRegistryService.setLocation (r : PoRegistryService) (lat lon : JDouble) : PoRegistryService :=
  { r with lat := lat, lon := lon }

/-- The task a thread is started for; it is given an identity. -/
structure RegistryUpdateTask where
  addr : JChar
  seed : JInt
  deriving DecidableEq, Repr

/-! ## The request -/

/-- The message `register` and `update` make of a class of device, a location
and an identity. -/
def registryReq (classOfDevice : Byte) (lat lon : JDouble) (addr : JChar) (seed : JInt) :
    Except Throwable NetworkMsg := do
  let payloadLen : Byte := BitVec.ofNat 8 (1 + 8 + 8 + 2 + 4)
  let payload ← (ByteBuffer.allocate payloadLen.toNat).put [classOfDevice]
  let payload ← payload.put (toBE 8 lat)
  let payload ← payload.put (toBE 8 lon)
  let payload ← payload.put (toBE 2 addr)
  let payload ← payload.put (toBE 4 seed)
  .ok ⟨REGISTRY_REQ, payloadLen, payload.rewind.array⟩

/-- `register()`, up to the message it offers to the queue. -/
def PoRegistryService.register (r : PoRegistryService) : Except Throwable NetworkMsg :=
  registryReq PoRegistryService.CLASS_MOBILE r.lat r.lon r.myAddr r.seed

/-- `update()`, up to the message it offers to the queue; the location is the
service's. -/
def RegistryUpdateTask.update (t : RegistryUpdateTask) (r : PoRegistryService) :
    Except Throwable NetworkMsg :=
  registryReq NetworkMsg.CLASS_MOBILE r.lat r.lon t.addr t.seed

/-- The payload of a `REGISTRY_REQ`. -/
def reqPayload (classOfDevice : Byte) (lat lon : JDouble) (addr : JChar) (seed : JInt) : List Byte :=
  classOfDevice :: (toBE 8 lat ++ (toBE 8 lon ++ (toBE 2 addr ++ toBE 4 seed)))

@[simp] theorem length_reqPayload (classOfDevice : Byte) (lat lon : JDouble) (addr : JChar)
    (seed : JInt) : (reqPayload classOfDevice lat lon addr seed).length = 23 := by
  simp [reqPayload]

/-- **The request is whole**: its fields one after the other. -/
theorem registryReq_eq (classOfDevice : Byte) (lat lon : JDouble) (addr : JChar) (seed : JInt) :
    registryReq classOfDevice lat lon addr seed =
      .ok ⟨REGISTRY_REQ, 23, reqPayload classOfDevice lat lon addr seed⟩ := by
  have hput : (ByteBuffer.allocate 23).putAll
      [[classOfDevice], toBE 8 lat, toBE 8 lon, toBE 2 addr, toBE 4 seed] =
      .ok (.full (reqPayload classOfDevice lat lon addr seed)) := by
    rw [ByteBuffer.putAll_allocate (by simp)]
    simp [reqPayload]
  have hreq : registryReq classOfDevice lat lon addr seed =
      (ByteBuffer.allocate 23).putAll
        [[classOfDevice], toBE 8 lat, toBE 8 lon, toBE 2 addr, toBE 4 seed] >>=
        fun payload => .ok ⟨REGISTRY_REQ, 23, payload.rewind.array⟩ := by
    simp only [registryReq, ByteBuffer.putAll_cons, bind_assoc]
    rfl
  rw [hreq, hput]
  rfl

end Pobicos.Client
