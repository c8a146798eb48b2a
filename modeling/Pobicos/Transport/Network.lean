import Pobicos.Lib.Lts
import Pobicos.Transport.PoCommM

/-!
# Pobicos.Transport.Network

Any number of nodes that talk to each other through `PoCommM`.

Between two nodes there is a channel in either direction.  It keeps the order of
the datagrams, as the TCP connections below it do, and may lose any of them.
-/

namespace Pobicos.Transport

open Octets Middleware

/-- The nodes by their addresses, and what is on its way from one to another. -/
structure Network where
  node : AddrType → PoCommM
  chan : AddrType → AddrType → List PoRadioMsg

/-- What can happen: a call from above, a datagram that arrives or is lost, a
timer, the task, and the removal of a node. -/
inductive Move
  | sendMsg (x : AddrType) (hal : Hal) (id : Byte) (y : AddrType) (msg : PoMsg) (retries : Int)
  | sendDatagram (x : AddrType) (hal : Hal) (id : Byte) (y : AddrType) (beMsg : PoMsg)
  | arrive (x y : AddrType) (hal : Hal)
  | lose (x y : AddrType)
  | msgTimerFired (x : AddrType) (hal : Hal) (y : AddrType) (sqn : Byte)
  | processLocalMsg (x : AddrType)
  | nodeRemoved (x y : AddrType)

/-- The datagram of a signal, if it is for `y`. -/
def Signal.datagram (y : AddrType) : Signal → Option PoRadioMsg
  | .sendMsg addr m => if addr = y then some m else none
  | _ => none

namespace Network

/-- All nodes have joined. -/
def boot : Network where
  node := .joined
  chan := fun _ _ => []

/-- The channel from `x` to `y` without its first datagram. -/
def shift (x y : AddrType) (w : Network) : Network :=
  { w with chan := Function.update w.chan x (Function.update (w.chan x) y (w.chan x y).tail) }

/-- What a call has made of a node, and what it has sent. -/
def after (x : AddrType) (w : Network) : PoCommM × List Signal → Network
  | (c, signals) => {
      node := Function.update w.node x c
      chan := Function.update w.chan x fun y => w.chan x y ++ signals.filterMap (Signal.datagram y) }

/-- What the node `x` does about a move, if it is not a loss. -/
def call (w : Network) : Move → Option (AddrType × PoCommM × List Signal)
  | .sendMsg x hal id y msg retries =>
      ((w.node x).sendMsg hal id y msg retries).map fun (_, c, signals) => (x, c, signals)
  | .sendDatagram x hal id y beMsg => some (x, w.node x, (PoCommM.sendDatagram hal id y beMsg).2)
  | .arrive x y hal => do
      let m ← (w.chan x y).head?
      let (c, signals) ← (w.node y).msgArrived hal x m
      some (y, c, signals)
  | .lose _ _ => none
  | .msgTimerFired x hal y sqn => some (x, (w.node x).msgTimerFired hal y sqn)
  | .processLocalMsg x => some (x, (w.node x).processLocalMsg)
  | .nodeRemoved x y => some (x, (w.node x).nodeRemoved y)

def step (w : Network) (a : Move) : Option Network :=
  match a with
  | .lose x y => if w.chan x y = [] then none else some (w.shift x y)
  | .arrive x y hal => (w.call (.arrive x y hal)).map fun (z, r) => (w.shift x y).after z r
  | a => (w.call a).map fun (z, r) => w.after z r

/-! ## What the nodes see -/

/-- A message that has been accepted, one that has been delivered, and a send
that has been reported as successful. -/
inductive Event
  | sent (x y : AddrType) (id msgId : Byte) (msg : List Byte)
  | delivered (x y : AddrType) (id : Byte) (msg : List Byte)
  | reported (x y : AddrType) (id : Byte) (msgId : Int)
  deriving DecidableEq

/-- What is seen of a signal at the node `z`. -/
def Event.ofSignal (z : AddrType) : Signal → Option Event
  | .msgArrived id addr msg => some (.delivered addr z id msg)
  | .MsgSendresult id addr msgId result => if result = PO_COMM_SENDRESULT_OK then some (.reported z addr id msgId) else none
  | _ => none

/-- What is seen of a move. -/
def events (w : Network) (a : Move) : List Event :=
  (match a with
    | .sendMsg x hal id y msg retries =>
        match (w.node x).sendMsg hal id y msg retries with
        | some ((code, msgId), _) => if code = PO_COMM_OK then [.sent x y id msgId msg.data] else []
        | none => []
    | _ => []) ++
  match w.call a with
  | some (z, _, signals) => signals.filterMap (Event.ofSignal z)
  | none => []

end Network

end Pobicos.Transport
