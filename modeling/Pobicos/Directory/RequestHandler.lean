import Pobicos.Directory.Registry
import Pobicos.NetworkMsg
import Pobicos.Serialization
import Mathlib.Tactic.Simps.Basic

/-!
# Pobicos.Directory.RequestHandler

`RequestHandler.java`: the attachment of one client's selection key.  A
dispatch runs `read`, `process` and `write` in turn:

* `read` allocates a header buffer and reads one frame, blocking in its loops
  once the first byte has arrived;
* `process` interprets the frame if the header is complete, updates the
  registry and prepares `outMsg`;
* `write` sends a registration reply to the client itself, or forwards a
  POBICOS message to the addressed node and, for the broadcast address, to all
  others.

Everything outside the program that a dispatch depends on is its `Script`: the
results of the socket calls and the successive readings of the clock.  The log
is not modelled; the array accesses made to print are.
-/

namespace Pobicos.Directory

open Nio Octets Framing NetworkMsg Serialization

/-- `enum OP`. -/
inductive Op
  | sendRegMsg
  | sendPoMsg
  deriving DecidableEq, Repr

/-- `System.currentTimeMillis() - lastSeen > TIME_THRESHOLD_MS` marks a
registration as expired. -/
def TIME_THRESHOLD_MS : JLong := 60000#64

structure RequestHandler where
  sock : SocketId
  networkMsgHeader : Option ByteBuffer
  payload : Option ByteBuffer
  outMsg : Option ByteBuffer
  appRadiuskm : JChar
  appLat : JDouble
  appLon : JDouble
  op : Option Op
  deriving DecidableEq, Repr

/-- `new RequestHandler(s)`. -/
def RequestHandler.new (s : SocketId) : RequestHandler where
  sock := s
  networkMsgHeader := none
  payload := none
  outMsg := none
  appRadiuskm := 0
  appLat := 0
  appLon := 0
  op := none

namespace RequestHandler

@[simp] theorem new_sock (s : SocketId) : (RequestHandler.new s).sock = s := rfl

/-! Assignments to the fields. -/

@[simps] def setHeader (h : RequestHandler) (b : ByteBuffer) : RequestHandler :=
  { h with networkMsgHeader := some b }

@[simps] def setPayload (h : RequestHandler) (b : ByteBuffer) : RequestHandler := { h with payload := some b }

@[simps] def setOutMsg (h : RequestHandler) (b : ByteBuffer) : RequestHandler := { h with outMsg := some b }

@[simps] def setOp (h : RequestHandler) (op : Op) : RequestHandler := { h with op := some op }

/-- `app_radiuskm`, `app_lat` and `app_lon` take the values of a trailer. -/
@[simps] def setApp (h : RequestHandler) (t : JChar × JDouble × JDouble) : RequestHandler :=
  { h with appRadiuskm := t.1, appLat := t.2.1, appLon := t.2.2 }

end RequestHandler

/-- What is fixed while the server runs: the verbose flag, and the great-circle
test `distCheck(lat1, lon1, center_lat, center_lon, radiuskm)`, whose
floating-point arithmetic is not modelled. -/
structure Config where
  verbose : Bool
  distCheck : JDouble → JDouble → JDouble → JDouble → JChar → Bool

/-- The environment of one dispatch: the results of the reads, the successive
readings of the clock, the results of the writes of a registration reply, and
the result of the `i`-th forwarding write if it goes to socket `s`. -/
structure Script where
  reads : List ReadEvt
  clock : Nat → JLong
  replies : List WriteEvt
  forwards : Nat → SocketId → WriteEvt

/-- The channel of every socket. -/
abbrev Net := SocketId → Channel

/-- The array accesses of `byteArrayToAscii(b, start, end)`. -/
def byteArrayToAscii (b : List Byte) (start stop : Nat) : Except Throwable Unit := do
  let _ ← arrayGetRange b start (stop + 1 - start)
  .ok ()

namespace RequestHandler

/-! ## read -/

/-- The second half of `read`, from the complete header on.  The header buffer
is passed to `sock.read` once more, with no room left. -/
def readPayload (h : RequestHandler) (header : ByteBuffer) (c : Channel) (es : List ReadEvt) :
    Outcome × RequestHandler × Channel :=
  match arrayGet header.array 1 with
  | .error x => (.throws x, h, c)
  | .ok len =>
      let payLen := uint8ToInt len
      let payload := ByteBuffer.allocate payLen
      match c.readFull with
      | .error x => (.throws x, h.setPayload payload, c)
      | .ok bytesRead =>
          let (o, st) := readLoop payLen bytesRead payload c es
          (o, h.setPayload st.buf, st.chan)

/-- `read()`. -/
def read (h : RequestHandler) (c : Channel) : List ReadEvt → Outcome × RequestHandler × Channel
  | [] => (.spins, h.setHeader (.allocate HEADER_LEN), c)
  | e :: es =>
      let header := ByteBuffer.allocate HEADER_LEN
      let h := h.setHeader header
      match c.read header e with
      | .error x => (.throws x, h, c)
      | .ok (none, _, c) => (.throws .ioException, h, c.close)
      | .ok (some 0, _, c) => (.ret, h, c)
      | .ok (some (n + 1), header, c) =>
          match readLoop HEADER_LEN (n + 1) header c es with
          | (.ret, st) => readPayload (h.setHeader st.buf) st.buf st.chan st.evts
          | (o, st) => (o, h.setHeader st.buf, st.chan)

/-! ## process -/

/-- A registration reply: allocated to size, filled and rewound. -/
def regReply (flag len : Byte) (body : List Byte) : Except Throwable ByteBuffer := do
  let out ← (ByteBuffer.allocate (HEADER_LEN + body.length)).put [flag]
  let out ← out.put [len]
  let out ← out.put body
  .ok out.rewind

/-- The `REGISTRY_REQ` branch of `process`. -/
def processRegistryReq (clock : Nat → JLong) (r : Registry) (h : RequestHandler) :
    Except Throwable (Registry × RequestHandler) := do
  let h := h.setOp .sendRegMsg
  let n := r.isRegistedSock h.sock
  let payload ← deref h.payload
  let _ ← arrayGetRange payload.array LAT_OFFSET 8
  let _ ← arrayGetRange payload.array LON_OFFSET 8
  let latitude ← payload.getDouble LAT_OFFSET
  let longitude ← payload.getDouble LON_OFFSET
  match n with
  | none => do
      let ad ← arrayGetRange payload.array ADDR_OFFSET 2
      let sd ← arrayGetRange payload.array (ADDR_OFFSET + 2) 4
      let addr ← byteArrayToChar ad
      let seed ← byteArrayToInt sd
      if seed = 0 ∧ addr = 0 then
        -- first time connection
        let (n, r) := NodeInfo.new r h.sock latitude longitude (clock 0) (clock 1)
        let out ← regReply REG_REPLY_WELCOME 0x06 (toBE 2 n.poNodeAddr ++ toBE 4 n.seed)
        .ok (r.add n, h.setOutMsg out)
      else
        match r.isRegistered addr seed with
        | none => do
            let out ← regReply REG_REPLY_FAIL 0x00 []
            .ok (r, h.setOutMsg out)
        | some i =>
            let node := r.reg.get i
            if TIME_THRESHOLD_MS.slt (clock 0 - node.lastSeen) then do
              -- the registration has expired
              let out ← regReply REG_REPLY_FAIL 0x00 []
              .ok (r.remove node.sock, h.setOutMsg out)
            else do
              -- the node exists; its socket is left as it is
              let out ← regReply REG_REPLY_PONG 0x00 []
              .ok (r.modify i fun n => n.refresh latitude longitude (clock 1), h.setOutMsg out)
  | some i => do
      let out ← regReply REG_REPLY_PONG 0x00 []
      .ok (r.modify i fun n => n.refresh latitude longitude (clock 0), h.setOutMsg out)

/-- `getChar(capacity-18)`, `getDouble(capacity-16)`, `getDouble(capacity-8)`:
radius and position of the location trailer. -/
def trailer (out : ByteBuffer) : Except Throwable (JChar × JDouble × JDouble) := do
  let rad ← out.getChar (out.capacity - 18)
  let lat ← out.getDouble (out.capacity - 16)
  let lon ← out.getDouble (out.capacity - 8)
  .ok (rad, lat, lon)

/-- `rad != 0 && lat != 0.0 && lon != 0.0`. -/
def trailerSet (t : JChar × JDouble × JDouble) : Bool :=
  t.1 != 0 && t.2.1.nonzero && t.2.2.nonzero

/-- The handler keeps a location that is set. -/
def takeLocation (h : RequestHandler) (t : JChar × JDouble × JDouble) : RequestHandler :=
  if trailerSet t then h.setApp t else h

@[simp] theorem takeLocation_sock (h : RequestHandler) (t : JChar × JDouble × JDouble) :
    (h.takeLocation t).sock = h.sock := by
  unfold takeLocation
  split <;> rfl

@[simp] theorem takeLocation_networkMsgHeader (h : RequestHandler) (t : JChar × JDouble × JDouble) :
    (h.takeLocation t).networkMsgHeader = h.networkMsgHeader := by
  unfold takeLocation
  split <;> rfl

@[simp] theorem takeLocation_outMsg (h : RequestHandler) (t : JChar × JDouble × JDouble) :
    (h.takeLocation t).outMsg = h.outMsg := by
  unfold takeLocation
  split <;> rfl

@[simp] theorem takeLocation_op (h : RequestHandler) (t : JChar × JDouble × JDouble) :
    (h.takeLocation t).op = h.op := by
  unfold takeLocation
  split <;> rfl

/-- `if (n != null) n.setLastSeen(…)` for the record of the sending socket. -/
def seen (clock : Nat → JLong) (r : Registry) (s : SocketId) : Registry :=
  match r.isRegistedSock s with
  | none => r
  | some i => r.modify i fun n => n.setLastSeen (clock 0)

/-- The `POBICOS_MSG` branch of `process`. -/
def processPobicosMsg (cfg : Config) (clock : Nat → JLong) (r : Registry) (h : RequestHandler)
    (header : ByteBuffer) : Except Throwable (Registry × RequestHandler) := do
  let h := h.setOp .sendPoMsg
  let payload ← deref h.payload
  let out ← (ByteBuffer.allocate (header.capacity + payload.capacity)).put header.array
  let out ← out.put payload.array
  let out := out.rewind
  if cfg.verbose then do
    byteArrayToAscii out.array 2 3
    byteArrayToAscii out.array 4 5
  let t ← trailer out
  .ok (seen clock r h.sock, (h.setOutMsg out).takeLocation t)

/-- `process()`. -/
def process (cfg : Config) (clock : Nat → JLong) (r : Registry) (h : RequestHandler) :
    Except Throwable (Registry × RequestHandler) := do
  let header ← deref h.networkMsgHeader
  if header.hasRemaining then
    .ok (r, h)
  else
    let flag ← arrayGet header.array 0
    if flag = REGISTRY_REQ then
      processRegistryReq clock r h
    else if flag = POBICOS_MSG then
      processPobicosMsg cfg clock r h header
    else
      .ok (r, h)

/-! ## write -/

/-- `appLocationSpecsSetUp()`. -/
def appLocationSpecsSetUp (h : RequestHandler) : Bool :=
  h.appLat.nonzero && h.appLon.nonzero && h.appRadiuskm != 0

/-- Whether a node is written to: `distCheck` decides when both the handler and
the frame carry a location, otherwise every node is. -/
def locationAdmits (cfg : Config) (h : RequestHandler) (t : JChar × JDouble × JDouble)
    (n : NodeInfo) : Bool :=
  if h.appLocationSpecsSetUp && trailerSet t then
    cfg.distCheck n.latitude n.longitude h.appLat h.appLon h.appRadiuskm
  else true

/-- What forwarding changes: the position of `outMsg`, the channels, and how
many forwarding writes the dispatch has made. -/
structure WriteState where
  outMsg : ByteBuffer
  net : Net
  calls : Nat

/-- `s.write(out_msg)`. -/
def forward (fw : Nat → SocketId → WriteEvt) (s : SocketId) (w : WriteState) : Outcome × WriteState :=
  match (w.net s).write w.outMsg (fw w.calls s) with
  | .ok (out, c) => (.ret, ⟨out, Function.update w.net s c, w.calls + 1⟩)
  | .error x => (.throws x, { w with calls := w.calls + 1 })

/-- The write to the addressed node. -/
def unicast (cfg : Config) (fw : Nat → SocketId → WriteEvt) (r : Registry) (h : RequestHandler)
    (dstId : JChar) (w : WriteState) : Outcome × WriteState :=
  match r.isRegistedAddr dstId with
  | none => (.ret, w)
  | some i =>
      match trailer w.outMsg with
      | .error x => (.throws x, w)
      | .ok t =>
          if locationAdmits cfg h t (r.reg.get i) then forward fw (r.reg.get i).sock w else (.ret, w)

/-- The broadcast loop over the registry; what a write throws is caught and
the loop goes on. -/
def broadcast (cfg : Config) (fw : Nat → SocketId → WriteEvt) (h : RequestHandler) :
    List NodeInfo → WriteState → Outcome × WriteState
  | [], w => (.ret, w)
  | n :: ns, w =>
      if n.sock ≠ h.sock then
        match trailer w.outMsg with
        | .error x => (.throws x, w)
        | .ok t =>
            if locationAdmits cfg h t n then broadcast cfg fw h ns (forward fw n.sock w).2
            else broadcast cfg fw h ns w
      else broadcast cfg fw h ns w

/-- The `SEND_PO_MSG` branch of `write`. -/
def writePoMsg (cfg : Config) (fw : Nat → SocketId → WriteEvt) (r : Registry) (h : RequestHandler)
    (w : WriteState) : Outcome × WriteState :=
  match byteArrayToCharAt w.outMsg.array 4 with
  | .error x => (.throws x, w)
  | .ok dstId =>
      match (do byteArrayToAscii w.outMsg.array 2 3; byteArrayToAscii w.outMsg.array 4 5) with
      | .error x => (.throws x, w)
      | .ok () =>
          match unicast cfg fw r h dstId w with
          | (.ret, w) => if dstId = 0xffff then broadcast cfg fw h r.reg w else (.ret, w)
          | (o, w) => (o, w)

/-- `write()`. -/
def write (cfg : Config) (sc : Script) (r : Registry) (h : RequestHandler) (net : Net) :
    Outcome × RequestHandler × Net :=
  match h.networkMsgHeader with
  | none => (.throws .nullPointer, h, net)
  | some header =>
      if header.hasRemaining then
        (.ret, h, net)
      else
        match h.op with
        | none => (.ret, h, net)
        | some op =>
            match h.outMsg with
            | none => (.throws .nullPointer, h, net)
            | some out =>
                match op with
                | .sendRegMsg =>
                    let (o, out, c) := writeLoop out (net h.sock) sc.replies
                    (o, h.setOutMsg out, Function.update net h.sock c)
                | .sendPoMsg =>
                    let (o, w) := writePoMsg cfg sc.forwards r h ⟨out, net, 0⟩
                    (o, h.setOutMsg w.outMsg, w.net)

end RequestHandler

/-! ## run -/

/-- What a dispatch works on. -/
structure Host where
  registry : Registry
  handler : RequestHandler
  net : Net

/-- An `IOException` is caught and logged; anything else leaves `run`. -/
def caught : Outcome → Outcome
  | .throws x => if x.isIOException then .ret else .throws x
  | o => o

namespace RequestHandler

/-- `process(); write();` -/
def serve (cfg : Config) (sc : Script) (d : Host) : Outcome × Host :=
  match process cfg sc.clock d.registry d.handler with
  | .error x => (.throws x, d)
  | .ok (r, h) =>
      let (o, h, net) := write cfg sc r h d.net
      (o, ⟨r, h, net⟩)

/-- `run()`. -/
def run (cfg : Config) (sc : Script) (d : Host) : Outcome × Host :=
  match read d.handler (d.net d.handler.sock) sc.reads with
  | (.ret, h, c) =>
      let (o, d) := serve cfg sc ⟨d.registry, h, Function.update d.net d.handler.sock c⟩
      (caught o, d)
  | (o, h, c) => (caught o, ⟨d.registry, h, Function.update d.net d.handler.sock c⟩)

end RequestHandler

end Pobicos.Directory
