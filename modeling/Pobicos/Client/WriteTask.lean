import Pobicos.Lib.Channel
import Pobicos.NetworkMsg
import Pobicos.Serialization

/-!
# Pobicos.Client.WriteTask

`PoCommMgrWriteTask.java`: the thread that takes messages from the client's
queue and writes them to the socket.

A `POBICOS_MSG` gets a location trailer behind its payload, the location of
the application if the client hosts its root agent and zeros otherwise
(`frameMsg_pobicos`).
-/

namespace Pobicos.Client

open Nio Octets Framing NetworkMsg Serialization

/-- `app_radiuskm`, `app_lat` and `app_lon`, as the application's
configuration sets them. -/
structure AppLocation where
  appRadiuskm : JChar
  appLat : JDouble
  appLon : JDouble

/-- The buffer `run` fills from one message, ready to be written. -/
def frameMsg (app : AppLocation) (hostsRootAgent : Bool) (msg : NetworkMsg) :
    Except Throwable ByteBuffer := do
  let extra := if msg.msgType = POBICOS_MSG then 18 else 0
  let capacity := HEADER_LEN + uint8ToInt msg.payloadLen + extra
  let paylen := BitVec.ofNat 8 (uint8ToInt msg.payloadLen + extra)
  let buf ← (ByteBuffer.allocate capacity).put [msg.msgType]
  let buf ← buf.put [paylen]
  let buf ← buf.put msg.payload
  if msg.msgType = POBICOS_MSG then
    if hostsRootAgent then do
      let buf ← buf.put (toBE 2 app.appRadiuskm)
      let buf ← buf.put (toBE 8 app.appLat)
      let buf ← buf.put (toBE 8 app.appLon)
      .ok buf.rewind
    else do
      let buf ← buf.put (toBE 2 (0 : JChar))
      let buf ← buf.put (toBE 8 (0 : JDouble))
      let buf ← buf.put (toBE 8 (0 : JDouble))
      .ok buf.rewind
  else .ok buf.rewind

/-- One turn of `run`, from the message taken from the queue to the end of the
write loop; the results of the writes are `es`. -/
def writeTurn (app : AppLocation) (hostsRootAgent : Bool) (msg : NetworkMsg) (c : Channel)
    (es : List WriteEvt) : Outcome × Channel :=
  match frameMsg app hostsRootAgent msg with
  | .error x => (.throws x, c)
  | .ok buf =>
      let (o, _, c) := writeLoop buf c es
      (o, c)

/-! ## What is written -/

/-- The location a message goes out with. -/
def locationOf (app : AppLocation) (hostsRootAgent : Bool) : AppLocation :=
  if hostsRootAgent then app else ⟨0, 0, 0⟩

/-- A location as it stands behind the payload. -/
def trailerBytes (app : AppLocation) : List Byte :=
  toBE 2 app.appRadiuskm ++ (toBE 8 app.appLat ++ toBE 8 app.appLon)

@[simp] theorem length_trailerBytes (app : AppLocation) : (trailerBytes app).length = 18 := by
  simp [trailerBytes]

/-- A message whose payload is as long as it says, with room for the trailer. -/
structure Fits (msg : NetworkMsg) : Prop where
  exact : msg.payload.length = msg.payloadLen.toNat
  room : msg.payloadLen.toNat + 18 < 256

/-- The frame of such a message. -/
def pobicosFrame (app : AppLocation) (hostsRootAgent : Bool) (msg : NetworkMsg) (h : Fits msg) :
    Frame where
  tag := POBICOS_MSG
  body := msg.payload ++ trailerBytes (locationOf app hostsRootAgent)
  length_body_lt := by
    have := h.exact
    have := h.room
    rw [List.length_append, length_trailerBytes]
    omega

/-- **A `POBICOS_MSG` is written as one frame**, its payload and a trailer. -/
theorem frameMsg_pobicos (app : AppLocation) (hostsRootAgent : Bool) {msg : NetworkMsg}
    (h : Fits msg) (htype : msg.msgType = POBICOS_MSG) :
    frameMsg app hostsRootAgent msg = .ok (.wrap (pobicosFrame app hostsRootAgent msg h).bytes) := by
  have hlen := h.exact
  let loc := locationOf app hostsRootAgent
  have hbody : (pobicosFrame app hostsRootAgent msg h).body.length = msg.payloadLen.toNat + 18 := by
    rw [pobicosFrame, List.length_append, length_trailerBytes, hlen]
  have hput : (ByteBuffer.allocate (HEADER_LEN + uint8ToInt msg.payloadLen + 18)).putAll
      [[msg.msgType], [BitVec.ofNat 8 (uint8ToInt msg.payloadLen + 18)], msg.payload,
        toBE 2 loc.appRadiuskm, toBE 8 loc.appLat, toBE 8 loc.appLon] =
      .ok (.full (pobicosFrame app hostsRootAgent msg h).bytes) := by
    rw [ByteBuffer.putAll_allocate (by simp [HEADER_LEN, uint8ToInt, hlen]; omega), Frame.bytes,
      Frame.lengthByte, hbody, htype]
    simp [uint8ToInt, pobicosFrame, trailerBytes, loc]
  have hframe : frameMsg app hostsRootAgent msg =
      (ByteBuffer.allocate (HEADER_LEN + uint8ToInt msg.payloadLen + 18)).putAll
        [[msg.msgType], [BitVec.ofNat 8 (uint8ToInt msg.payloadLen + 18)], msg.payload,
          toBE 2 loc.appRadiuskm, toBE 8 loc.appLat, toBE 8 loc.appLon] >>= fun out => .ok out.rewind := by
    simp only [frameMsg, htype, if_true, ByteBuffer.putAll_cons, bind_assoc]
    cases hostsRootAgent <;> rfl
  rw [hframe, hput]
  rfl

/-- The frame of any other message. -/
def plainFrame (msg : NetworkMsg) (h : msg.payload.length = msg.payloadLen.toNat) : Frame where
  tag := msg.msgType
  body := msg.payload
  length_body_lt := by
    have := msg.payloadLen.isLt
    omega

/-- **Any other message is written as one frame**, its payload. -/
theorem frameMsg_plain (app : AppLocation) (hostsRootAgent : Bool) {msg : NetworkMsg}
    (h : msg.payload.length = msg.payloadLen.toNat) (htype : msg.msgType ≠ POBICOS_MSG) :
    frameMsg app hostsRootAgent msg = .ok (.wrap (plainFrame msg h).bytes) := by
  have hput : (ByteBuffer.allocate (HEADER_LEN + uint8ToInt msg.payloadLen + 0)).putAll
      [[msg.msgType], [BitVec.ofNat 8 (uint8ToInt msg.payloadLen + 0)], msg.payload] =
      .ok (.full (plainFrame msg h).bytes) := by
    rw [ByteBuffer.putAll_allocate (by simp [HEADER_LEN, uint8ToInt, h]; omega), Frame.bytes,
      Frame.lengthByte, plainFrame]
    simp [uint8ToInt, h]
  have hframe : frameMsg app hostsRootAgent msg =
      (ByteBuffer.allocate (HEADER_LEN + uint8ToInt msg.payloadLen + 0)).putAll
        [[msg.msgType], [BitVec.ofNat 8 (uint8ToInt msg.payloadLen + 0)], msg.payload] >>=
        fun out => .ok out.rewind := by
    simp only [frameMsg, htype, if_false, ByteBuffer.putAll_cons, bind_assoc]
    rfl
  rw [hframe, hput]
  rfl

/-- What a turn writes of a frame: all of it if it ends normally, and otherwise
less. -/
theorem writeTurn_frame {app : AppLocation} {hostsRootAgent : Bool} {msg : NetworkMsg} {f : Frame}
    (hframe : frameMsg app hostsRootAgent msg = .ok (.wrap f.bytes)) (c : Channel)
    (es : List WriteEvt) :
    writeTurn app hostsRootAgent msg c es = (.ret, c.emit f.bytes) ∨
    ∃ o n, o ≠ .ret ∧ n < f.bytes.length ∧
      writeTurn app hostsRootAgent msg c es = (o, c.emit (f.bytes.take n)) := by
  obtain ⟨n, hn, hret⟩ := writeLoop_spec (.wrap f.bytes) c es
  have hiff := writeLoop_ret_iff (.wrap f.bytes) c es
  have hturn : writeTurn app hostsRootAgent msg c es =
      ((writeLoop (.wrap f.bytes) c es).1, c.emit (f.bytes.take n)) := by
    rw [writeTurn, hframe]
    simp only [hn, ByteBuffer.rest_wrap]
  rw [hn, ByteBuffer.remaining_advance, ByteBuffer.remaining_wrap] at hiff
  rw [hturn]
  by_cases ho : (writeLoop (.wrap f.bytes) c es).1 = .ret
  · left
    have hall : f.bytes.length ≤ n := hret ho
    rw [ho, List.take_of_length_le hall]
  · right
    have hleft := mt hiff.mpr ho
    exact ⟨_, n, ho, by omega, rfl⟩

/-- A turn ends once the socket takes a byte at each call. -/
theorem writeTurn_accepts {app : AppLocation} {hostsRootAgent : Bool} {msg : NetworkMsg} {f : Frame}
    (hframe : frameMsg app hostsRootAgent msg = .ok (.wrap f.bytes)) {c : Channel} {es : List WriteEvt}
    (ho : c.isOpen = true) (ha : Accepts es) (hes : f.bytes.length ≤ es.length) :
    writeTurn app hostsRootAgent msg c es = (.ret, c.emit f.bytes) := by
  have hret : (writeLoop (.wrap f.bytes) c es).1 = .ret := writeLoop_accepts ho ha hes
  obtain hturn | ⟨o, n, hne, -, hturn⟩ := writeTurn_frame hframe c es
  · exact hturn
  · have hfst : (writeTurn app hostsRootAgent msg c es).1 = .ret := by
      rw [writeTurn, hframe]
      exact hret
    rw [hturn] at hfst
    exact absurd hfst hne

/-- **A turn that ends has written the frame**, whatever the partial writes. -/
theorem writeTurn_pobicos {app : AppLocation} {hostsRootAgent : Bool} {msg : NetworkMsg}
    {c c' : Channel} {es : List WriteEvt} (h : Fits msg) (htype : msg.msgType = POBICOS_MSG)
    (hend : writeTurn app hostsRootAgent msg c es = (.ret, c')) :
    c' = c.emit (pobicosFrame app hostsRootAgent msg h).bytes := by
  rw [writeTurn, frameMsg_pobicos app hostsRootAgent h htype] at hend
  obtain ⟨n, hn, hret⟩ := writeLoop_spec (.wrap (pobicosFrame app hostsRootAgent msg h).bytes) c es
  match hl : writeLoop (.wrap (pobicosFrame app hostsRootAgent msg h).bytes) c es with
  | (o, b, c'') =>
    simp only [hl, Prod.mk.injEq] at hend hn hret
    obtain ⟨rfl, rfl⟩ := hend
    have hall : (pobicosFrame app hostsRootAgent msg h).bytes.length ≤ n := hret rfl
    rw [hn.2, ByteBuffer.rest_wrap, List.take_of_length_le hall]

end Pobicos.Client
