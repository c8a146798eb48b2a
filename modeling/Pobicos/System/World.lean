import Pobicos.Client.EndToEnd
import Pobicos.Client.ReadLoop
import Pobicos.Directory.Announcements

/-!
# Pobicos.System.World

The directory and any number of clients, put together.

A client is a process (`Node`): the registry service, the message queue, the
update tasks it has started, and the middleware with its `HWComm`.  It has any
number of connections (`Conn`), each with a reader and a writer of its own that
end when they fail; the directory's end of each is a channel of `Server`.  One
event of `World.step` is one call or one turn of one thread; every sequence of
events is an interleaving.

A connection carries bytes in order; it may break at any call on it, and is
broken from then on (`down`).  What goes out over it may be cut at any byte.
-/

namespace Pobicos.System

open Nio Octets Framing NetworkMsg Directory Client Middleware

/-- The address and the seed of a node. -/
abbrev AddrSeed := JChar × JInt

/-- A message in the queue; if it is a `REGISTRY_REQ`, with what it was made for. -/
structure Queued where
  msg : NetworkMsg
  ident : Option AddrSeed
  deriving DecidableEq, Repr

/-! ## A client -/

structure Node where
  registry : PoRegistryService
  outMsgQ : List Queued
  updateTasks : List RegistryUpdateTask
  hwComm : HWComm
  /-- The reader has handled a `WELCOME`. -/
  welcomed : Bool

namespace Node

/-- The process has started. -/
def new : Node where
  registry := .new
  outMsgQ := []
  updateTasks := []
  hwComm := .init
  welcomed := false

/-- What the registry service stores. -/
def stored (n : Node) : AddrSeed := (n.registry.myAddr, n.registry.seed)

/-- `getOutMsgQ().offer(msg)`, unless making the message has thrown. -/
def offer (n : Node) (msg : Except Throwable NetworkMsg) (ident : Option AddrSeed) : Node :=
  match msg with
  | .ok msg => { n with outMsgQ := n.outMsgQ ++ [⟨msg, ident⟩] }
  | .error _ => n

/-- `PoRegistryService.register()`. -/
def register (n : Node) : Node := n.offer n.registry.register (some n.stored)

/-- `startUpdateThread()`: the task is given what is stored. -/
def startUpdateThread (n : Node) : Node :=
  { n with updateTasks := n.updateTasks ++ [⟨n.registry.myAddr, n.registry.seed⟩] }

/-- `RegistryUpdateTask.update()`. -/
def update (n : Node) (t : RegistryUpdateTask) : Node :=
  n.offer (t.update n.registry) (some (t.addr, t.seed))

/-- `onLocationChanged(location)`. -/
def locate (n : Node) (lat lon : JDouble) : Node := { n with registry := n.registry.setLocation lat lon }

/-- The middleware is started. -/
def boot (n : Node) : Node := { n with hwComm := .init }

/-- `joinNetwork`: the callback returns the address the registry service stores. -/
def joinNetwork (n : Node) : Node := { n with hwComm := n.hwComm.joinNetwork n.registry.myAddr }

/-- `sendMsg`: a message for another node is queued by the callback. -/
def sendMsg (n : Node) (allocated : Bool) (addr : AddrType) (poMsg : PoMsg) : Node :=
  match (n.hwComm.sendMsg allocated addr poMsg).2 with
  | some (.sendPacket payload len source dest) =>
      n.offer (jniCallbackSendPacket payload len source dest) none
  | _ => n

/-- What the reader does about a frame; the event queue is not modelled. -/
def react (n : Node) : Effect → Node
  | .welcome addr seed =>
      { n with registry := (n.registry.setMyAddr addr seed).setState .REGISTERED, welcomed := true }
  | .fail => { n with registry := n.registry.setState .REJECTED }
  | .pong => { n with registry := n.registry.setState .REGISTERED }
  | .packetRx _ => n

end Node

/-- The client's end of a connection. -/
structure Conn where
  owner : Nat
  /-- The buffers of the reader, until its thread ends. -/
  reader : Option ReadTask
  /-- How many bytes it has read. -/
  heard : Nat
  /-- The writer has not failed. -/
  writing : Bool
  /-- What the messages were made for that the directory has not taken yet. -/
  onWay : List (Option AddrSeed)

/-- `connect()` of the client `c`, its threads started. -/
def Conn.new (c : Nat) : Conn where
  owner := c
  reader := some .new
  heard := 0
  writing := true
  onWay := []

namespace Conn

/-- The writer has taken a message made for `ident`, and its turn has ended
with `o`; a turn that fails or does not end is its last. -/
def wrote (conn : Conn) (o : Outcome) (ident : Option AddrSeed) : Conn :=
  if o = .ret then { conn with onWay := conn.onWay ++ [ident] } else { conn with writing := false }

/-- The reader has ended a turn with `u`; `sent` is all that it has been sent.
At a `REG_REPLY_FAIL` it stops itself. -/
def didRead (conn : Conn) (sent : List Byte) (u : ReadTask.Turn) : Conn :=
  { conn with
    reader := if .fail ∈ u.effects then none else some u.task
    heard := sent.length - u.chan.inp.length }

/-- The directory has been dispatched; `acted` says whether it took a message. -/
def dispatched (conn : Conn) (acted : Bool) : Conn :=
  if acted then { conn with onWay := conn.onWay.tail } else conn

/-- A turn of the writer concerns neither the reader nor the owner. -/
theorem wrote_keeps (conn : Conn) (o : Outcome) (ident : Option AddrSeed) :
    (conn.wrote o ident).owner = conn.owner ∧ (conn.wrote o ident).reader = conn.reader ∧
      (conn.wrote o ident).heard = conn.heard ∧
      ∀ p ∈ (conn.wrote o ident).onWay, p ∈ conn.onWay ∨ p = ident := by
  unfold wrote
  split
  · refine ⟨rfl, rfl, rfl, fun p hp => ?_⟩
    rwa [List.mem_append, List.mem_singleton] at hp
  · exact ⟨rfl, rfl, rfl, fun p hp => Or.inl hp⟩

/-- Nor does a dispatch. -/
theorem dispatched_keeps (conn : Conn) (acted : Bool) :
    (conn.dispatched acted).owner = conn.owner ∧ (conn.dispatched acted).reader = conn.reader ∧
      (conn.dispatched acted).heard = conn.heard ∧
      ∀ p ∈ (conn.dispatched acted).onWay, p ∈ conn.onWay := by
  cases acted with
  | false => exact ⟨rfl, rfl, rfl, fun _ h => h⟩
  | true => exact ⟨rfl, rfl, rfl, fun _ h => List.mem_of_mem_tail h⟩

end Conn

/-! ## The system -/

structure World where
  server : Server
  down : SocketId → Bool
  conns : SocketId → Option Conn
  nodes : Nat → Node

inductive Event
  | connect (c : Nat) (k : SocketId)
  | register (c : Nat)
  | startUpdateThread (c : Nat)
  | update (c i : Nat)
  | locate (c : Nat) (lat lon : JDouble)
  | boot (c : Nat)
  | joinNetwork (c : Nat)
  | sendMsg (c : Nat) (allocated : Bool) (addr : AddrType) (poMsg : PoMsg)
  | write (k : SocketId) (app : AppLocation) (hostsRootAgent : Bool) (es : List WriteEvt)
  | read (k : SocketId) (es : List ReadEvt)
  | dispatch (k : SocketId) (sc : Script)

namespace World

/-- Nobody has connected yet. -/
def new : World where
  server := .new
  down := fun _ => false
  conns := fun _ => none
  nodes := fun _ => .new

def setNode (w : World) (c : Nat) (n : Node) : World := { w with nodes := Function.update w.nodes c n }

def setConn (w : World) (k : SocketId) (conn : Conn) : World :=
  { w with conns := Function.update w.conns k (some conn) }

def setServer (w : World) (σ : Server) : World := { w with server := σ }

/-- A turn of the writer of `k`. -/
def write (cfg : Config) (w : World) (k : SocketId) (app : AppLocation) (hostsRootAgent : Bool)
    (es : List WriteEvt) : Option World :=
  match w.conns k with
  | none => none
  | some conn =>
      match conn.writing, (w.nodes conn.owner).outMsgQ with
      | true, m :: queue =>
          let (o, c) := writeTurn app hostsRootAgent m.msg ⟨true, [], []⟩ es
          (Server.step cfg w.server (.send k c.outp)).map fun σ =>
            ((w.setServer σ).setConn k (conn.wrote o m.ident)).setNode conn.owner
              { w.nodes conn.owner with outMsgQ := queue }
      | _, _ => none

/-- A turn of the reader of `k`. -/
def read (w : World) (k : SocketId) (es : List ReadEvt) : Option World :=
  match w.conns k with
  | none => none
  | some conn =>
      match conn.reader with
      | none => none
      | some t =>
          match t.turn ⟨true, (w.server.net k).outp.drop conn.heard, []⟩ es with
          | (.ret, u) =>
              some ((w.setConn k (conn.didRead (w.server.net k).outp u)).setNode conn.owner
                (u.effects.foldl Node.react (w.nodes conn.owner)))
          | (.throws _, _) => some (w.setConn k { conn with reader := none })
          | (.spins, _) => none

/-- A dispatch of `k` by the directory. -/
def dispatch (cfg : Config) (w : World) (k : SocketId) (sc : Script) : Option World :=
  let a := Action.dispatch k (sc.over w.down k)
  (Server.step cfg w.server a).map fun σ =>
    { w with
      server := σ
      down := Server.broken w.down k sc
      conns := Function.update w.conns k
        ((w.conns k).map fun conn => conn.dispatched !(w.server.actsOn k a).isEmpty) }

/-- One event. -/
def step (cfg : Config) (w : World) : Event → Option World
  | .connect c k =>
      (Server.step cfg w.server (.accept k)).map fun σ => (w.setServer σ).setConn k (.new c)
  | .register c => some (w.setNode c (w.nodes c).register)
  | .startUpdateThread c => some (w.setNode c (w.nodes c).startUpdateThread)
  | .update c i =>
      match (w.nodes c).updateTasks[i]? with
      | none => none
      | some t => some (w.setNode c ((w.nodes c).update t))
  | .locate c lat lon => some (w.setNode c ((w.nodes c).locate lat lon))
  | .boot c => some (w.setNode c (w.nodes c).boot)
  | .joinNetwork c => some (w.setNode c (w.nodes c).joinNetwork)
  | .sendMsg c allocated addr poMsg => some (w.setNode c ((w.nodes c).sendMsg allocated addr poMsg))
  | .write k app hostsRootAgent es => w.write cfg k app hostsRootAgent es
  | .read k es => w.read k es
  | .dispatch k sc => w.dispatch cfg k sc

/-! ## Inversion of the events -/

variable {cfg : Config} {w w' : World} {k : SocketId}

@[simp] theorem conns_setConn_self (w : World) (k : SocketId) (conn : Conn) :
    (w.setConn k conn).conns k = some conn := Function.update_self ..

@[simp] theorem nodes_setNode_self (w : World) (c : Nat) (n : Node) : (w.setNode c n).nodes c = n :=
  Function.update_self ..

theorem nodes_setNode_of_ne {c d : Nat} (h : d ≠ c) (w : World) (n : Node) :
    (w.setNode c n).nodes d = w.nodes d := Function.update_of_ne h ..

/-- One of the update tasks makes a request. -/
theorem step_update {c i : Nat} (h : step cfg w (.update c i) = some w') :
    ∃ t ∈ (w.nodes c).updateTasks, w' = w.setNode c ((w.nodes c).update t) := by
  cases ht : (w.nodes c).updateTasks[i]? with
  | none => simp [step, ht] at h
  | some t =>
      simp only [step, ht, Option.some.injEq] at h
      exact ⟨t, List.mem_of_getElem? ht, h.symm⟩

/-- The writer of `k` takes a message from the queue. -/
theorem step_write {app : AppLocation} {hostsRootAgent : Bool} {es : List WriteEvt}
    (h : step cfg w (.write k app hostsRootAgent es) = some w') :
    ∃ conn m queue, w.conns k = some conn ∧ conn.writing = true ∧
      (w.nodes conn.owner).outMsgQ = m :: queue ∧
      w' = ((w.setServer (w.server.send k (writeTurn app hostsRootAgent m.msg ⟨true, [], []⟩ es).2.outp)).setConn
        k (conn.wrote (writeTurn app hostsRootAgent m.msg ⟨true, [], []⟩ es).1 m.ident)).setNode conn.owner
          { w.nodes conn.owner with outMsgQ := queue } := by
  simp only [step, write] at h
  cases hk : w.conns k with
  | none => simp [hk] at h
  | some conn =>
      simp only [hk] at h
      cases hwriting : conn.writing with
      | false => simp [hwriting] at h
      | true =>
          cases hqueue : (w.nodes conn.owner).outMsgQ with
          | nil => simp [hwriting, hqueue] at h
          | cons m queue =>
              simp only [hwriting, hqueue, Option.map_eq_some_iff] at h
              obtain ⟨σ, hst, rfl⟩ := h
              obtain ⟨-, rfl⟩ := Server.step_send hst
              exact ⟨conn, m, queue, rfl, hwriting, hqueue, rfl⟩

/-- What a turn of the reader of `k` leads to. -/
theorem step_read {es : List ReadEvt} (h : step cfg w (.read k es) = some w') :
    ∃ conn t, w.conns k = some conn ∧ conn.reader = some t ∧
      (w' = w.setConn k { conn with reader := none } ∨
      ∃ u, t.turn ⟨true, (w.server.net k).outp.drop conn.heard, []⟩ es = (.ret, u) ∧
        w' = (w.setConn k (conn.didRead (w.server.net k).outp u)).setNode conn.owner
          (u.effects.foldl Node.react (w.nodes conn.owner))) := by
  simp only [step, read] at h
  cases hk : w.conns k with
  | none => simp [hk] at h
  | some conn =>
      cases hreader : conn.reader with
      | none => simp [hk, hreader] at h
      | some t =>
          rcases hturn : t.turn ⟨true, (w.server.net k).outp.drop conn.heard, []⟩ es with ⟨o, u⟩
          refine ⟨conn, t, rfl, hreader, ?_⟩
          cases o with
          | ret =>
              simp only [hk, hreader, hturn, Option.some.injEq] at h
              exact Or.inr ⟨u, hturn, h.symm⟩
          | throws x =>
              simp only [hk, hreader, hturn, Option.some.injEq] at h
              exact Or.inl h.symm
          | spins => simp [hk, hreader, hturn] at h

end World

end Pobicos.System
