import Pobicos.Lib.FlatMemory
import Pobicos.Lib.NodePool
import Pobicos.Lib.RingQueue
import Pobicos.Middleware.HWComm

/-!
# Pobicos.Transport.PoCommM

`PoCommM` of the middleware that the nesC compiler wrote out: reliable messages
over datagrams, with a window of unacknowledged datagrams for every other node,
and messages of up to 184 bytes in datagrams of up to 46.

* The tables of the module are in section 2 of `PoMemMngrM`; here they are what
  they are made of.  A buffer of a peer has indexes of nodes, `0xffff` where it
  has none.  What the nodes have is written and read as a whole.
* A datagram is the bytes of its `data` up to `len`.  One that is shorter than
  the header of its type is read behind its end, which is not modelled, and
  neither is a peer more than there is room for.
* What the layer below answers is not this module's: a call is given a `Hal`,
  which may refuse any datagram and any timer.  A timer may fire at any time.
-/

namespace Pobicos.Transport

open Octets FlatMemory Middleware

def MAX_NODES : Nat := 67
def MAX_BUFFERED_MSGS : Nat := MAX_NODES * 5
def PO_COMM_WINDOW_SIZE : Nat := 20
def MIN_RETRIES : Int := 3
def ID_TABLE_SIZE : Nat := 100
def LOCAL_MSG_BUF_SIZE : Nat := 10

def PO_RELIABLE_HEADER_LEN : Nat := 5
def PO_DATAGRAM_HEADER_LEN : Nat := 2
def PO_ACKNOWLEDGE_LEN : Nat := 4
def FRAGM_LEN : Nat := 46
def MAX_MSG_DATA : Nat := 4 * FRAGM_LEN
def MAX_DATAGRAM_MSG_LEN : Nat := 55 - PO_DATAGRAM_HEADER_LEN - 4

def PO_COMM_HW_FAIL : Int := 1
def PO_COMM_NO_RESOURCES : Int := 3
def PO_COMM_SENDRESULT_OK : Int := 0
def PO_COMM_SENDRESULT_FAIL : Int := 1

def PO_COMM_HDR_DATAGRAM : Byte := 0x00
def PO_COMM_HDR_RELIABLE : Byte := 0x01
def PO_COMM_HDR_ACK : Byte := 0x02

def PO_COMM_FLAGS_SW_ACKS : Byte := 2
def PO_COMM_FLAGS_FRAGM_EN : Byte := 4
def PO_COMM_FLAGS_MORE_FRAGM : Byte := 8
def PO_COMM_FLAGS_RESET : Byte := 16

def PO_NWKMNGR_IF_ID : Byte := 52

/-- The address in an entry of the table that is not in use. -/
def FREE_ENTRY : AddrType := 0xFFFFFFFF

/-! ## Messages -/

/-- `PoMsg`: its data up to `len`. -/
structure PoMsg where
  data : List Byte
  fits : data.length ≤ MAX_MSG_DATA

/-- `PoRadioMsg`: its data up to `len`. -/
abbrev PoRadioMsg := List Byte

namespace PoRadioMsg

variable (m : PoRadioMsg)

def type : Byte := m.getD 0 0
def ifId : Byte := m.getD 1 0
def seqNum : Byte := m.getD 2 0
def flags : Byte := m.getD 3 0
def fragmNum : Byte := m.getD 4 0
def payload : List Byte := m.drop PO_RELIABLE_HEADER_LEN

/-- A bit of the flags. -/
def has (flag : Byte) : Bool := m.flags &&& flag != 0

end PoRadioMsg

abbrev Slot := Fin PO_COMM_WINDOW_SIZE
abbrev NodeIndex := Fin MAX_BUFFERED_MSGS

/-! ## State -/

/-- `addrInfo_t`. -/
structure AddrInfo where
  addr : AddrType
  lastAckReceived : Byte
  lastMsgSent : Byte
  lastMsgReceived : Byte
  lastAckSent : Byte
  resetFlag : Bool
  sentMsgBuf : Slot → Option NodeIndex
  recvMsgBuf : Slot → Option NodeIndex
  fragmMsgBuf : Slot → Option NodeIndex

/-- The entry of a new peer. -/
def AddrInfo.new (addr : AddrType) : AddrInfo where
  addr := addr
  lastAckReceived := 0
  lastMsgSent := 0
  lastMsgReceived := 0
  lastAckSent := 0
  resetFlag := false
  sentMsgBuf := fun _ => none
  recvMsgBuf := fun _ => none
  fragmMsgBuf := fun _ => none

/-- `msgNode_t` without its link. -/
structure MsgNode where
  bufMsg : PoRadioMsg
  bufMsgId : Int
  resends : Int

/-- `localMsg_t`. -/
structure LocalMsg where
  ifId : Byte
  msgId : Int
  localMsg : PoMsg

/-- The variables of the module. -/
structure PoCommM where
  myAddr : AddrType
  addrInfo : Fin MAX_NODES → AddrInfo
  addrInfoTableLen : Nat
  msgNodes : NodePool MsgNode MAX_BUFFERED_MSGS
  fragmNodes : NodePool PoRadioMsg MAX_BUFFERED_MSGS
  nextMsgId : Byte
  localMsgBuf : RingQueue LocalMsg LOCAL_MSG_BUF_SIZE

/-- What the layers around the module are told. -/
inductive Signal
  | sendMsg (addr : AddrType) (msg : PoRadioMsg)
  | datagramArrived (ifId : Byte) (addr : AddrType) (msg : List Byte)
  | msgArrived (ifId : Byte) (addr : AddrType) (msg : List Byte)
  | MsgSendresult (ifId : Byte) (addr : AddrType) (msgId : Int) (result : Int)
  | removeNode (addr : AddrType)
  deriving DecidableEq

/-- What the layers around the module answer. -/
structure Hal where
  accepts : PoRadioMsg → Bool
  setMsgTimer : Byte → Bool
  isRunning : Byte → Bool

/-- How a computation ends early: with `FAIL`, or by an access outside of an array. -/
inductive Stop
  | fail (c : PoCommM)
  | outside

namespace PoCommM

/-! ## The table of peers -/

/-- `findAddrInfo(addr, addrInfoIndex)`. -/
def findAddrInfo (addr : AddrType) (c : PoCommM) : Option (Fin MAX_NODES) :=
  (List.finRange MAX_NODES).find? fun i => (c.addrInfo i).addr == addr

def setAddrInfo (i : Fin MAX_NODES) (info : AddrInfo) (c : PoCommM) : PoCommM :=
  { c with addrInfo := Function.update c.addrInfo i info }

/-- The entry of a peer, a new one if there is none. -/
def getAddrInfo (addr : AddrType) (c : PoCommM) : Option (Fin MAX_NODES × PoCommM) :=
  match c.findAddrInfo addr with
  | some i => some (i, c)
  | none =>
      if h : c.addrInfoTableLen < MAX_NODES then
        some (⟨c.addrInfoTableLen, h⟩, { c.setAddrInfo ⟨c.addrInfoTableLen, h⟩ (.new addr) with
          addrInfoTableLen := c.addrInfoTableLen + 1 })
      else none

/-! ## Nodes -/

/-- `getMsgNode(nodeIndex)`. -/
def getMsgNode (c : PoCommM) : Option (NodeIndex × PoCommM) :=
  c.msgNodes.get.map fun (i, nodes) => (i, { c with msgNodes := nodes })

/-- `freeMsgNode(nodeIndex)`. -/
def freeMsgNode (i : NodeIndex) (c : PoCommM) : PoCommM := { c with msgNodes := c.msgNodes.release i }

/-- A write of a message node. -/
def writeMsgNode (i : NodeIndex) (node : MsgNode) (c : PoCommM) : PoCommM :=
  { c with msgNodes := c.msgNodes.put i node }

/-- `getFragmNode(nodeIndex)`. -/
def getFragmNode (c : PoCommM) : Option (NodeIndex × PoCommM) :=
  c.fragmNodes.get.map fun (i, nodes) => (i, { c with fragmNodes := nodes })

/-- `freeFragmNode(nodeIndex)`. -/
def freeFragmNode (i : NodeIndex) (c : PoCommM) : PoCommM := { c with fragmNodes := c.fragmNodes.release i }

/-- A write of a fragment node. -/
def writeFragmNode (i : NodeIndex) (m : PoRadioMsg) (c : PoCommM) : PoCommM :=
  { c with fragmNodes := c.fragmNodes.put i m }

/-- The first slot that has no node. -/
def freeSlot (buf : Slot → Option NodeIndex) : Option Slot :=
  (List.finRange PO_COMM_WINDOW_SIZE).find? fun j => (buf j).isNone

end PoCommM

/-! ## Receiving -/

/-- The state while the entry of a peer is a local variable. -/
structure Draft where
  comm : PoCommM
  info : AddrInfo

namespace Draft

/-- The node of a slot is given back, and the slot is free. -/
def freeSent (j : Slot) (n : NodeIndex) (d : Draft) : Draft :=
  ⟨d.comm.freeMsgNode n, { d.info with sentMsgBuf := Function.update d.info.sentMsgBuf j none }⟩

def freeRecv (j : Slot) (n : NodeIndex) (d : Draft) : Draft :=
  ⟨d.comm.freeMsgNode n, { d.info with recvMsgBuf := Function.update d.info.recvMsgBuf j none }⟩

def freeFragm (j : Slot) (n : NodeIndex) (d : Draft) : Draft :=
  ⟨d.comm.freeFragmNode n, { d.info with fragmMsgBuf := Function.update d.info.fragmMsgBuf j none }⟩

/-- `addToFragmMsgBuf(fragmMsg, addrInfo, bufIndex)`. -/
def addToFragmMsgBuf (m : PoRadioMsg) (d : Draft) : Option (Slot × Draft) := do
  let j ← PoCommM.freeSlot d.info.fragmMsgBuf
  let (n, c) ← d.comm.getFragmNode
  some (j, ⟨c.writeFragmNode n m, { d.info with fragmMsgBuf := Function.update d.info.fragmMsgBuf j (some n) }⟩)

/-- `addToRecvMsgBuf(bufMsg, addrInfo)`. -/
def addToRecvMsgBuf (m : PoRadioMsg) (d : Draft) : Option Draft := do
  let j ← PoCommM.freeSlot d.info.recvMsgBuf
  let (n, c) ← d.comm.getMsgNode
  some ⟨c.writeMsgNode n ⟨m, 0, 0⟩, { d.info with
    recvMsgBuf := Function.update d.info.recvMsgBuf j (some n)
    lastMsgReceived := if m.seqNum > d.info.lastMsgReceived then m.seqNum else d.info.lastMsgReceived }⟩

/-- The first slot with the given fragment of a message, and what is in it. -/
def fragmSlot (seqNum fragmNum : Byte) (d : Draft) : Option (Slot × PoRadioMsg) :=
  (List.finRange PO_COMM_WINDOW_SIZE).findSome? fun j =>
    match d.info.fragmMsgBuf j with
    | some n =>
        let m := d.comm.fragmNodes.val n
        if m.seqNum = seqNum ∧ m.fragmNum = fragmNum then some (j, m) else none
    | none => none

/-- The fragments in the slots are given back; an index that has not been set is
`none`. -/
def freeFragments : List (Option Slot) → Draft → Except Stop Draft
  | [], d => .ok d
  | none :: _, _ => .error .outside
  | some j :: js, d =>
      match d.info.fragmMsgBuf j with
      | none => .error .outside
      | some n => freeFragments js (d.freeFragm j n)

/-- The loop `fragment_loopstart`, behind `numFragments` fragments that have been
found; every turn finds one more, and there are no more than slots. -/
def fragmentLoop (firstSeqNum : Byte) : (fuel : Nat) → (numFragments : Nat) → List (Option Slot) → Memory → Draft →
    Except Stop (List Byte × Draft)
  | 0, _, _, _, d => .ok ([], d)
  | fuel + 1, numFragments, indices, data, d =>
      match d.fragmSlot (firstSeqNum + BitVec.ofNat 8 (numFragments + 1)) (BitVec.ofNat 8 (numFragments + 1)) with
      | none => .ok ([], d)
      | some (j, m) =>
          if (numFragments + 1) * FRAGM_LEN + m.payload.length > MAX_MSG_DATA then .error .outside
          else
            let data := write data ((numFragments + 1) * FRAGM_LEN) m.payload
            if m.has PO_COMM_FLAGS_MORE_FRAGM then
              fragmentLoop firstSeqNum fuel (numFragments + 1) (indices ++ [some j]) data d
            else do
              let d ← freeFragments (indices ++ [some j]) d
              .ok (bytes data 0 (m.fragmNum.toNat * FRAGM_LEN + m.payload.length), d)

/-- The end of `processFragments`: the fragments are looked for from the first
one on. -/
def assemble (m : PoRadioMsg) (bufIndex : Option Slot) (d : Draft) : Except Stop (List Byte × Draft) :=
  if m.fragmNum = 0 then
    fragmentLoop m.seqNum (PO_COMM_WINDOW_SIZE + 1) 0 [bufIndex] (write (fun _ => 0) 0 m.payload) d
  else
    match d.fragmSlot (m.seqNum - m.fragmNum) 0 with
    | some (j, first) =>
        fragmentLoop first.seqNum (PO_COMM_WINDOW_SIZE + 1) 0 [some j] (write (fun _ => 0) 0 first.payload) d
    | none => .ok ([], d)

/-- `processFragments(fragmMsg, recompiledMsg, addrInfo, newMessage)`: what is in
`recompiledMsg`. -/
def processFragments (m : PoRadioMsg) (newMessage : Bool) (d : Draft) : Except Stop (List Byte × Draft) :=
  if !m.has PO_COMM_FLAGS_FRAGM_EN then .ok ([], d)
  else do
    let (bufIndex, d) ← if newMessage then
        match d.addToFragmMsgBuf m with
        | some (j, d) => .ok (some j, d)
        | none => .error (.fail d.comm)
      else .ok (none, d)
    d.assemble m bufIndex

/-- The messages that have arrived. -/
abbrev Arrived := List (Byte × List Byte)

/-- A datagram is taken in its turn. -/
def take (m : PoRadioMsg) (newMessage : Bool) (arrived : Arrived) (d : Draft) : Except Stop (Arrived × Draft) :=
  if m.has PO_COMM_FLAGS_FRAGM_EN then do
    let (msg, d) ← d.processFragments m newMessage
    .ok (if msg.length > 0 then arrived ++ [(m.ifId, msg)] else arrived, d)
  else .ok (arrived ++ [(m.ifId, m.payload)], d)

/-- The first slot with a buffered datagram of this number. -/
def recvSlot (seqNum : Byte) (d : Draft) : Option (Slot × NodeIndex) :=
  (List.finRange PO_COMM_WINDOW_SIZE).findSome? fun j =>
    match d.info.recvMsgBuf j with
    | some n => if (d.comm.msgNodes.val n).bufMsg.seqNum = seqNum then some (j, n) else none
    | none => none

/-- The loop `consec_loopstart`: datagrams that have waited for this one. -/
def consecLoop (seqNum : Byte) : (fuel : Nat) → (numConsecMsgs : Nat) → Arrived → Draft →
    Except Stop (Nat × Arrived × Draft)
  | 0, numConsecMsgs, arrived, d => .ok (numConsecMsgs, arrived, d)
  | fuel + 1, numConsecMsgs, arrived, d =>
      match d.recvSlot (seqNum + BitVec.ofNat 8 (numConsecMsgs + 1)) with
      | none => .ok (numConsecMsgs, arrived, d)
      | some (j, n) => do
          let (arrived, d) ← d.take (d.comm.msgNodes.val n).bufMsg false arrived
          consecLoop seqNum fuel (numConsecMsgs + 1) arrived (d.freeRecv j n)

/-- A datagram whose turn it is. -/
def inTurn (m : PoRadioMsg) (d : Draft) : Except Stop (Byte × Arrived × Draft) :=
  if d.info.lastAckSent = d.info.lastMsgReceived then do
    let (arrived, d) ← take m true [] { d with info := { d.info with lastMsgReceived := m.seqNum } }
    .ok (m.seqNum, arrived, d)
  else do
    let (arrived, d) ← d.take m true []
    let (numConsecMsgs, arrived, d) ← consecLoop m.seqNum (PO_COMM_WINDOW_SIZE + 1) 0 arrived d
    .ok (m.seqNum + BitVec.ofNat 8 numConsecMsgs, arrived, d)

/-- A datagram that is ahead of its turn. -/
def ahead (m : PoRadioMsg) (d : Draft) : Except Stop (Byte × Arrived × Draft) := do
  let (_, d) ← d.processFragments m true
  match d.addToRecvMsgBuf m with
  | none => .error (.fail d.comm)
  | some d =>
      .ok (d.info.lastAckSent, [], { d with info := { d.info with lastMsgReceived := m.seqNum } })

/-- A reliable datagram: the number to acknowledge and the messages that have
arrived. -/
def receive (m : PoRadioMsg) (d : Draft) : Except Stop (Byte × Arrived × Draft) :=
  if m.seqNum = d.info.lastAckSent + 1 then d.inTurn m
  else if (m.seqNum - d.info.lastAckSent).toNat ≤ PO_COMM_WINDOW_SIZE ∧ m.seqNum ≠ d.info.lastAckSent then d.ahead m
  else .ok (d.info.lastAckSent, [], d)

end Draft

namespace PoCommM

/-! ## Resetting -/

/-- The loop of `resetNode`: the sends that are aborted, one for each message. -/
def resetLoop : List Slot → List (Byte × Int) → Draft → List (Byte × Int) × Draft
  | [], aborted, d => (aborted, d)
  | j :: js, aborted, d =>
      let aborted := match d.info.sentMsgBuf j with
        | some n =>
            let node := d.comm.msgNodes.val n
            if node.bufMsgId ∈ aborted.map Prod.snd then aborted else aborted ++ [(node.bufMsg.ifId, node.bufMsgId)]
        | none => aborted
      let d := (d.info.sentMsgBuf j).elim d fun n => d.freeSent j n
      let d := (d.info.recvMsgBuf j).elim d fun n => d.freeRecv j n
      let d := (d.info.fragmMsgBuf j).elim d fun n => d.freeFragm j n
      resetLoop js aborted d

/-- `resetNode(addr, resetFlag)`. -/
def resetNode (addr : AddrType) (resetFlag : Bool) (c : PoCommM) : PoCommM × List Signal :=
  match c.findAddrInfo addr with
  | none => (c, [])
  | some i =>
      let info := { c.addrInfo i with
        lastAckReceived := 0
        lastMsgSent := 0
        lastMsgReceived := 0
        lastAckSent := 0
        resetFlag := resetFlag }
      let (aborted, d) := resetLoop (List.finRange PO_COMM_WINDOW_SIZE) [] ⟨c, info⟩
      (d.comm.setAddrInfo i d.info,
        aborted.map fun (ifId, msgId) => .MsgSendresult ifId addr msgId PO_COMM_SENDRESULT_FAIL)

/-! ## Datagrams that arrive -/

/-- The acknowledgement. -/
def ackMsg (ifId ackSeqNum : Byte) (resetFlag : Bool) : PoRadioMsg :=
  [PO_COMM_HDR_ACK, ifId, ackSeqNum, PO_COMM_FLAGS_SW_ACKS ||| if resetFlag then PO_COMM_FLAGS_RESET else 0]

/-- `msgArrived` of a reliable datagram. -/
def reliableArrived (hal : Hal) (addr : AddrType) (m : PoRadioMsg) (c : PoCommM) : Option (PoCommM × List Signal) :=
  match c.getAddrInfo addr with
  | none => none
  | some (i, c) =>
      let (c, aborted) := if m.has PO_COMM_FLAGS_RESET then c.resetNode addr false else (c, [])
      match Draft.receive m ⟨c, c.addrInfo i⟩ with
      | .error .outside => none
      | .error (.fail c) =>
          let (c, failed) := c.resetNode addr true
          some (c, aborted ++ failed)
      | .ok (ackSeqNum, arrived, d) =>
          let ack := ackMsg m.ifId ackSeqNum d.info.resetFlag
          if hal.accepts ack then
            some (d.comm.setAddrInfo i { d.info with resetFlag := false, lastAckSent := ackSeqNum },
              aborted ++ .sendMsg addr ack :: arrived.map fun (ifId, msg) => .msgArrived ifId addr msg)
          else some (d.comm, aborted)

/-- The loop over the sent datagrams that an acknowledgement covers. -/
def acknowledgeLoop (ackSeqNum : Byte) : List Slot → List (Byte × Int) → Draft → List (Byte × Int) × Draft
  | [], sendResults, d => (sendResults, d)
  | j :: js, sendResults, d =>
      match d.info.sentMsgBuf j with
      | none => acknowledgeLoop ackSeqNum js sendResults d
      | some n =>
          let node := d.comm.msgNodes.val n
          if (ackSeqNum - node.bufMsg.seqNum).toNat < PO_COMM_WINDOW_SIZE then
            let whole := !node.bufMsg.has PO_COMM_FLAGS_FRAGM_EN ||
              node.bufMsg.fragmNum != 0 && !node.bufMsg.has PO_COMM_FLAGS_MORE_FRAGM
            acknowledgeLoop ackSeqNum js
              (if whole then sendResults ++ [(node.bufMsg.ifId, node.bufMsgId)] else sendResults) (d.freeSent j n)
          else acknowledgeLoop ackSeqNum js sendResults d

/-- The first slot with a sent datagram of this number. -/
def sentSlot (seqNum : Byte) (info : AddrInfo) (c : PoCommM) : Option NodeIndex :=
  (List.finRange PO_COMM_WINDOW_SIZE).findSome? fun j =>
    match info.sentMsgBuf j with
    | some n => if (c.msgNodes.val n).bufMsg.seqNum = seqNum then some n else none
    | none => none

/-- `msgArrived` of an acknowledgement. -/
def ackArrived (hal : Hal) (addr : AddrType) (m : PoRadioMsg) (c : PoCommM) : PoCommM × List Signal :=
  match c.findAddrInfo addr with
  | none => (c, [])
  | some i =>
      if m.has PO_COMM_FLAGS_RESET then c.resetNode addr false
      else
        let info := c.addrInfo i
        if m.seqNum = info.lastAckReceived then
          if hal.isRunning (m.seqNum + 1) then (c, [])
          else
            match c.sentSlot (m.seqNum + 1) info with
            | none => (c, [])
            | some n =>
                let node := c.msgNodes.val n
                if hal.setMsgTimer node.bufMsg.seqNum && hal.accepts node.bufMsg then
                  (c.writeMsgNode n { node with resends := node.resends - 1 }, [.sendMsg addr node.bufMsg])
                else (c, [])
        else if (m.seqNum - info.lastAckReceived).toNat ≤ (info.lastMsgSent - info.lastAckReceived).toNat then
          let (sendResults, d) := acknowledgeLoop m.seqNum (List.finRange PO_COMM_WINDOW_SIZE) []
            ⟨c, { info with lastAckReceived := m.seqNum }⟩
          (d.comm.setAddrInfo i d.info,
            sendResults.map fun (ifId, msgId) => .MsgSendresult ifId addr msgId PO_COMM_SENDRESULT_OK)
        else (c, [])

/-- `PoDatagramTransportHALI.msgArrived(addr, hops, beMsg)`. -/
def msgArrived (hal : Hal) (addr : AddrType) (m : PoRadioMsg) (c : PoCommM) : Option (PoCommM × List Signal) :=
  (if m.type = PO_COMM_HDR_DATAGRAM then
    if m.length < PO_DATAGRAM_HEADER_LEN then none
    else some (c, [.datagramArrived m.ifId addr (m.drop PO_DATAGRAM_HEADER_LEN)])
  else if m.type = PO_COMM_HDR_RELIABLE then
    if m.length < PO_RELIABLE_HEADER_LEN then none else c.reliableArrived hal addr m
  else if m.type = PO_COMM_HDR_ACK then
    if m.length < PO_ACKNOWLEDGE_LEN then none else some (c.ackArrived hal addr m)
  else some (c, [])).map fun (c, signals) => (c, .datagramArrived PO_NWKMNGR_IF_ID addr [] :: signals)

/-! ## Sending -/

/-- The next message id. -/
def takeMsgId (c : PoCommM) : Byte × PoCommM :=
  (c.nextMsgId,
    { c with nextMsgId := if c.nextMsgId + 1 = BitVec.ofNat 8 (ID_TABLE_SIZE - 1) then 0 else c.nextMsgId + 1 })

/-- How many datagrams a message is put into, if the window has room. -/
def numFragmentsOf (len : Nat) (info : AddrInfo) : Option Nat :=
  if len < FRAGM_LEN then some 1
  else
    let n := len / FRAGM_LEN + if len % FRAGM_LEN ≠ 0 then 1 else 0
    if n ≤ PO_COMM_WINDOW_SIZE - (info.lastMsgSent - info.lastAckReceived).toNat then some n else none

/-- The first loop of `sendMsg`: a node and a slot for every fragment.  The
nodes that are found before one is missing are not given back. -/
def reserve : (numFragments : Nat) → (Slot → Option NodeIndex) → PoCommM →
    Option (List (NodeIndex × Slot)) × PoCommM
  | 0, _, c => (some [], c)
  | numFragments + 1, buf, c =>
      match c.getMsgNode with
      | none => (none, c)
      | some (n, c) =>
          match freeSlot buf with
          | none => (none, c)
          | some j =>
              let (rest, c) := reserve numFragments (Function.update buf j (some ⟨0, by decide⟩)) c
              (rest.map fun places => (n, j) :: places, c)

/-- The `i`-th datagram of a message. -/
def fragmentMsg (id seqNum : Byte) (resetFlag : Bool) (msg : PoMsg) (numFragments i : Nat) : PoRadioMsg :=
  let flags := PO_COMM_FLAGS_SW_ACKS ||| (if resetFlag then PO_COMM_FLAGS_RESET else 0) |||
    (if numFragments > 1 then
      PO_COMM_FLAGS_FRAGM_EN ||| if i < numFragments - 1 then PO_COMM_FLAGS_MORE_FRAGM else 0
    else 0)
  let len := if i < numFragments - 1 then FRAGM_LEN
    else if msg.data.length % FRAGM_LEN ≠ 0 then msg.data.length % FRAGM_LEN
    else if msg.data.length ≠ 0 then FRAGM_LEN else 0
  [PO_COMM_HDR_RELIABLE, id, seqNum, flags, BitVec.ofNat 8 i] ++ (msg.data.drop (i * FRAGM_LEN)).take len

/-- The second loop of `sendMsg`: the datagrams, from the `i`-th on. -/
def sendLoop (hal : Hal) (id : Byte) (addr : AddrType) (msg : PoMsg) (retries : Int) (msgId : Byte)
    (numFragments : Nat) : (i : Nat) → List (NodeIndex × Slot) → Draft → List Signal × Draft
  | _, [], d => ([], d)
  | i, (n, j) :: places, d =>
      let m := fragmentMsg id (d.info.lastMsgSent + 1) d.info.resetFlag msg numFragments i
      let node : MsgNode := ⟨m, msgId.toNat, if retries > MIN_RETRIES then retries else MIN_RETRIES⟩
      let (signals, d) := sendLoop hal id addr msg retries msgId numFragments (i + 1) places
        ⟨d.comm.writeMsgNode n node, { d.info with
          resetFlag := false
          lastMsgSent := d.info.lastMsgSent + 1
          sentMsgBuf := Function.update d.info.sentMsgBuf j (some n) }⟩
      (if hal.accepts m then .sendMsg addr m :: signals else signals, d)

/-- `PoReliableTransportI.sendMsg(id, addr, relMsg, retries, msgId)`: the code,
the message id that has been given, and what has become of the module. -/
def sendMsg (hal : Hal) (id : Byte) (addr : AddrType) (msg : PoMsg) (retries : Int) (c : PoCommM) :
    Option ((Int × Byte) × PoCommM × List Signal) :=
  if c.myAddr = 0xffff then some ((PO_COMM_NOT_STARTED, 0), c, [])
  else if addr = c.myAddr then
    let (msgId, c) := c.takeMsgId
    if h : c.localMsgBuf.count < LOCAL_MSG_BUF_SIZE then
      some ((PO_COMM_OK, msgId), { c with localMsgBuf := c.localMsgBuf.push ⟨id, msgId.toNat, msg⟩ h }, [])
    else some ((PO_COMM_NO_RESOURCES, msgId), c, [])
  else
    match c.getAddrInfo addr with
    | none => none
    | some (i, c) =>
        let info := c.addrInfo i
        if (info.lastMsgSent - info.lastAckReceived).toNat ≥ PO_COMM_WINDOW_SIZE then
          some ((PO_COMM_NO_RESOURCES, 0), c, [])
        else
          match numFragmentsOf msg.data.length info with
          | none => some ((PO_COMM_MSG_TOO_LARGE, 0), c, [])
          | some numFragments =>
              match reserve numFragments info.sentMsgBuf c with
              | (none, c) => some ((PO_COMM_NO_RESOURCES, 0), c, [])
              | (some places, c) =>
                  let (msgId, c) := c.takeMsgId
                  let (signals, d) := sendLoop hal id addr msg retries msgId numFragments 0 places ⟨c, info⟩
                  some ((PO_COMM_OK, msgId), d.comm.setAddrInfo i d.info, signals)

/-- `PoDatagramTransportI.sendMsg(id, addr, hops, beMsg)`. -/
def sendDatagram (hal : Hal) (id : Byte) (addr : AddrType) (beMsg : PoMsg) : Int × List Signal :=
  if beMsg.data.length > MAX_DATAGRAM_MSG_LEN then (PO_COMM_MSG_TOO_LARGE, [])
  else
    let m := [PO_COMM_HDR_DATAGRAM, id] ++ beMsg.data
    if hal.accepts m then (PO_COMM_OK, [.sendMsg addr m]) else (PO_COMM_HW_FAIL, [])

/-! ## Tasks and timers -/

/-- `processLocalMsg`; the task posts itself while there are messages. -/
def processLocalMsg (c : PoCommM) : PoCommM × List Signal :=
  if c.localMsgBuf.count > 0 then
    let tempMsg := c.localMsgBuf.cell c.localMsgBuf.head
    ({ c with localMsgBuf := c.localMsgBuf.pop },
      [.MsgSendresult tempMsg.ifId c.myAddr tempMsg.msgId PO_COMM_SENDRESULT_OK,
        .msgArrived tempMsg.ifId c.myAddr tempMsg.localMsg.data])
  else (c, [])

/-- `PoCommTimersI.msgTimerFired(addr, sqn)`. -/
def msgTimerFired (hal : Hal) (addr : AddrType) (sqn : Byte) (c : PoCommM) : PoCommM × List Signal :=
  match c.findAddrInfo addr with
  | none => (c, [])
  | some i =>
      match c.sentSlot sqn (c.addrInfo i) with
      | none => (c, [])
      | some n =>
          let node := c.msgNodes.val n
          if node.resends ≠ 0 then
            if hal.setMsgTimer node.bufMsg.seqNum then
              (c.writeMsgNode n { node with resends := node.resends - 1 },
                if hal.accepts node.bufMsg then [.sendMsg addr node.bufMsg] else [])
            else c.resetNode addr true
          else (c, [.removeNode addr])

/-- `PoNetworkInfoI.nodeRemoved(addr)`. -/
def nodeRemoved (addr : AddrType) (c : PoCommM) : PoCommM × List Signal := c.resetNode addr true

/-- `Init.init()`, and `PoNetworkInfoI.joined(addr)`.  What else is in an entry
that is not in use has not been set, and is not read. -/
def joined (addr : AddrType) : PoCommM where
  myAddr := addr
  addrInfo := fun _ => .new FREE_ENTRY
  addrInfoTableLen := 0
  msgNodes := NodePool.chained (n := 334) fun _ => ⟨[], 0, 0⟩
  fragmNodes := NodePool.chained (n := 334) fun _ => []
  nextMsgId := 0
  localMsgBuf := ⟨fun _ => ⟨0, 0, ⟨[], Nat.zero_le _⟩⟩, ⟨0, by decide⟩, 0, Nat.zero_le _⟩

end PoCommM

end Pobicos.Transport
