import Pobicos.Directory.Routing

/-!
# Pobicos.Directory.LocationFilter

The location filter as a function of the message.

`process` keeps the location of a message in three fields that are left as
they were by a message without one, and `write` asks for them at two places,
for the addressed node and for each node of a broadcast.  As it also looks at
the message again, what an earlier message has left in the fields is never
used: `locationAdmits_forwarding` is the decision on one node, and
`filter_stateless` puts it into both places.
-/

namespace Pobicos.Directory.RequestHandler

open Nio Octets Framing NetworkMsg Serialization Server

variable {cfg : Config} {f : Frame}

/-- What the filter is for: `n` is in the circle of the message `f`, or `f` has
none. -/
def wanted (cfg : Config) (f : Frame) (n : NodeInfo) : Bool :=
  let (rad, lat, lon) := trailerOf f.bytes
  if rad = 0 ∨ !lat.nonzero ∨ !lon.nonzero then true
  else cfg.distCheck n.latitude n.longitude lat lon rad

theorem wanted_eq (cfg : Config) (f : Frame) (n : NodeInfo) :
    wanted cfg f n = if trailerSet (trailerOf f.bytes) then
      cfg.distCheck n.latitude n.longitude (trailerOf f.bytes).2.1 (trailerOf f.bytes).2.2
        (trailerOf f.bytes).1
    else true := by
  rcases ht : trailerOf f.bytes with ⟨rad, lat, lon⟩
  rw [wanted, trailerSet, ht]
  by_cases hrad : rad = 0
  · simp [hrad]
  · cases hlat : lat.nonzero with
    | false => simp [hlat]
    | true =>
        cases hlon : lon.nonzero with
        | false => simp [hlon]
        | true => simp [hlat, hlon]

/-- **The decision on one node**: whatever `h` has kept of earlier messages, it
is that of the message. -/
theorem locationAdmits_forwarding (cfg : Config) (h : RequestHandler) (f : Frame) (n : NodeInfo) :
    locationAdmits cfg (h.forwarding f) (trailerOf f.bytes) n = wanted cfg f n := by
  rw [wanted_eq, locationAdmits]
  cases hset : trailerSet (trailerOf f.bytes) with
  | false =>
      rw [Bool.and_false]
      rfl
  | true =>
      have hkept : h.forwarding f =
          (((h.holding f).setOp .sendPoMsg).setOutMsg (.wrap f.bytes)).setApp (trailerOf f.bytes) := by
        rw [forwarding, takeLocation, if_pos hset]
      have hspecs : (h.forwarding f).appLocationSpecsSetUp = true := by
        rw [trailerSet, Bool.and_eq_true, Bool.and_eq_true] at hset
        rw [hkept, appLocationSpecsSetUp, setApp_appLat, setApp_appLon, setApp_appRadiuskm, hset.1.2,
          hset.2, hset.1.1]
        rfl
      rw [hspecs, hkept]
      rfl

/-! ## Both copies of the test -/

/-- With `f` in `outMsg`, the two branches of `write` pass over exactly the
nodes that `f` does not want. -/
structure Filters (cfg : Config) (h : RequestHandler) (f : Frame) : Prop where
  admits : ∀ n, locationAdmits cfg h (trailerOf f.bytes) n = wanted cfg f n
  unicast : ∀ fw r a w, w.outMsg.array = f.bytes → unicast cfg fw r h a w =
    match r.isRegistedAddr a with
    | none => (.ret, w)
    | some i => if wanted cfg f (r.reg.get i) then forward fw (r.reg.get i).sock w else (.ret, w)
  broadcast : ∀ fw ns w, w.outMsg.array = f.bytes → broadcast cfg fw h ns w =
    (.ret, forwardAll fw ((ns.filter fun n => n.sock != h.sock && wanted cfg f n).map NodeInfo.sock) w)

theorem filters_of_admits {h : RequestHandler} (hlong : 16 ≤ f.body.length)
    (hadm : ∀ n, locationAdmits cfg h (trailerOf f.bytes) n = wanted cfg f n) : Filters cfg h f where
  admits := hadm
  unicast fw r a w harr := by
    have hlen : 18 ≤ w.outMsg.array.length := harr ▸ le_length_bytes hlong
    rw [unicast_eq hlen, harr, addressee]
    cases r.isRegistedAddr a with
    | none => rfl
    | some i =>
        simp only [hadm]
        cases wanted cfg f (r.reg.get i) <;> rfl
  broadcast fw ns w harr := by
    have hlen : 18 ≤ w.outMsg.array.length := harr ▸ le_length_bytes hlong
    rw [broadcast_eq hlen, harr, audience]
    simp only [hadm]

/-! ## Who is written to -/

/-- The socket of the node that the message is addressed to, as `write` reads
the address, if the message wants it. -/
def wantedAddressee (cfg : Config) (r : Registry) (f : Frame) : Option SocketId :=
  match r.isRegistedAddr (charReadAs (dstOf f.bytes)) with
  | none => none
  | some i => if wanted cfg f (r.reg.get i) then some (r.reg.get i).sock else none

/-- The sockets of the nodes off the socket `s` that a broadcast wants. -/
def wantedAudience (cfg : Config) (r : Registry) (s : SocketId) (f : Frame) : List SocketId :=
  if charReadAs (dstOf f.bytes) = 0xffff then
    (r.reg.filter fun n => n.sock != s && wanted cfg f n).map NodeInfo.sock
  else []

/-- The message goes to the addressee, and then, if that does not throw, to each
of the audience. -/
def forwardWanted (cfg : Config) (fw : Nat → SocketId → WriteEvt) (r : Registry) (s : SocketId) (f : Frame)
    (w : WriteState) : Outcome × WriteState :=
  match wantedAddressee cfg r f with
  | none => (.ret, forwardAll fw (wantedAudience cfg r s f) w)
  | some t =>
      match forward fw t w with
      | (.ret, w) => (.ret, forwardAll fw (wantedAudience cfg r s f) w)
      | (o, w) => (o, w)

/-- **Where `write` forwards to**: the sockets of the nodes that the message
wants. -/
theorem write_forwards {h : RequestHandler} (hr : Ready h f) (hf : Filters cfg h f) (sc : Script) (r : Registry)
    (net : Net) : write cfg sc r h net =
      ((forwardWanted cfg sc.forwards r h.sock f (start net f)).1,
        h.setOutMsg (forwardWanted cfg sc.forwards r h.sock f (start net f)).2.outMsg,
        (forwardWanted cfg sc.forwards r h.sock f (start net f)).2.net) := by
  have hlen := le_length_bytes hr.long
  have haddressee : wantedAddressee cfg r f =
      (addressee cfg r h (trailerOf f.bytes) (charReadAs (dstOf f.bytes))).map NodeInfo.sock := by
    rw [wantedAddressee, addressee]
    cases r.isRegistedAddr (charReadAs (dstOf f.bytes)) with
    | none => rfl
    | some i =>
        dsimp only
        rw [hf.admits]
        split_ifs
        · rfl
        · rfl
  have haudience : (audience cfg h (trailerOf f.bytes) r.reg).map NodeInfo.sock =
      (r.reg.filter fun n => n.sock != h.sock && wanted cfg f n).map NodeInfo.sock := by
    simp only [audience, hf.admits]
  have hforward : writePoMsg cfg sc.forwards r h (start net f) = forwardWanted cfg sc.forwards r h.sock f (start net f) := by
    rw [writePoMsg_eq hlen, forwardWanted, haddressee, wantedAudience]
    have harr : (start net f).outMsg.array = f.bytes := rfl
    rw [harr, haudience]
    cases addressee cfg r h (trailerOf f.bytes) (charReadAs (dstOf f.bytes)) with
    | none =>
        dsimp only [Option.map_none]
        split_ifs
        · rfl
        · rfl
    | some n =>
        dsimp only [Option.map_some]
        obtain ⟨o, w⟩ := forward sc.forwards n.sock (start net f)
        cases o with
        | throws x => rfl
        | spins => rfl
        | ret =>
            dsimp only
            split_ifs
            · rfl
            · rfl
  rw [write_sendPoMsg hr.header (ByteBuffer.remaining_full _) hr.op hr.outMsg, ← hforward]
  rfl

/-- Two handlers that are ready with `f`, on one socket, and filter by it write
alike. -/
theorem write_congr {h h' : RequestHandler} (hr : Ready h f) (hr' : Ready h' f)
    (hsock : h.sock = h'.sock) (hf : Filters cfg h f) (hf' : Filters cfg h' f) (sc : Script)
    (r : Registry) (net : Net) :
    (write cfg sc r h net).1 = (write cfg sc r h' net).1 ∧
      (write cfg sc r h net).2.2 = (write cfg sc r h' net).2.2 := by
  have hlen := le_length_bytes hr.long
  have haddr : ∀ a, addressee cfg r h (trailerOf f.bytes) a = addressee cfg r h' (trailerOf f.bytes) a := by
    intro a
    simp only [addressee, hf.admits, hf'.admits]
  have haud : audience cfg h (trailerOf f.bytes) r.reg = audience cfg h' (trailerOf f.bytes) r.reg := by
    simp only [audience, hf.admits, hf'.admits, hsock]
  have hsame : writePoMsg cfg sc.forwards r h ⟨.wrap f.bytes, net, 0⟩ =
      writePoMsg cfg sc.forwards r h' ⟨.wrap f.bytes, net, 0⟩ := by
    rw [writePoMsg_eq hlen, writePoMsg_eq hlen]
    simp only [ByteBuffer.array_wrap, haddr, haud]
    rfl
  rw [write_sendPoMsg hr.header (ByteBuffer.remaining_full _) hr.op hr.outMsg,
    write_sendPoMsg hr'.header (ByteBuffer.remaining_full _) hr'.op hr'.outMsg, hsame]
  exact ⟨rfl, rfl⟩

/-- **The filter is stateless**: a handler, whatever it has been through, and a
new one on its socket process a message alike, pass over the nodes that the
message does not want and no other, forward the message to the sockets of those
that it wants, and write the same bytes to the same channels. -/
theorem filter_stateless (cfg : Config) (clock : Nat → JLong) (r₀ : Registry) (h₀ : RequestHandler)
    (htag : f.tag = POBICOS_MSG) (hlong : 16 ≤ f.body.length) :
    ∃ r h h', process cfg clock r₀ (h₀.holding f) = .ok (r, h) ∧
      process cfg clock r₀ ((RequestHandler.new h₀.sock).holding f) = .ok (r, h') ∧
      Filters cfg h f ∧ Filters cfg h' f ∧
      (∀ sc r net, (write cfg sc r h net).1 = (write cfg sc r h' net).1 ∧
        (write cfg sc r h net).2.2 = (write cfg sc r h' net).2.2) ∧
      ∀ sc r net, write cfg sc r h net =
        ((forwardWanted cfg sc.forwards r h₀.sock f (start net f)).1,
          h.setOutMsg (forwardWanted cfg sc.forwards r h₀.sock f (start net f)).2.outMsg,
          (forwardWanted cfg sc.forwards r h₀.sock f (start net f)).2.net) := by
  have hreq : f.tag ≠ REGISTRY_REQ := by
    rw [htag]
    decide
  have hp : ∀ h : RequestHandler, process cfg clock r₀ (h.holding f) =
      .ok (seen clock r₀ h.sock, h.forwarding f) := by
    intro h
    rw [process_holding cfg clock (not_short_of_pobicosMsg htag hlong), settle, if_neg hreq, if_pos htag]
  have hfilters : ∀ h : RequestHandler, Filters cfg (h.forwarding f) f := fun h =>
    filters_of_admits hlong (locationAdmits_forwarding cfg h f)
  obtain ⟨hr, -, hsock⟩ := ready_of_process htag (hp h₀)
  obtain ⟨hr', -, hsock'⟩ := ready_of_process htag (hp (.new h₀.sock))
  exact ⟨_, _, _, hp h₀, hp (.new h₀.sock), hfilters h₀, hfilters (.new h₀.sock),
    write_congr hr hr' (hsock.trans hsock'.symm) (hfilters h₀) (hfilters (.new h₀.sock)),
    fun sc r net => by rw [write_forwards hr (hfilters h₀), hsock]⟩

/-- A broadcast to the nodes within 5 km of the position 1.0, 1.0. -/
def nearbyMsg : Frame :=
  ⟨POBICOS_MSG, 0 :: 0 :: 0xff :: 0xff :: 0 :: (toBE 2 (5 : JChar) ++
    toBE 8 (0x3FF0000000000000 : JDouble) ++ toBE 8 (0x3FF0000000000000 : JDouble)), by decide⟩

/-- It is filtered by its own location on a handler that has kept another, and
forwarded to both nodes. -/
theorem filter_stateless_nearby :
    ∃ r h, process everywhere (fun _ => 0) twoNodes
        (((RequestHandler.new 0).setApp (7, 0x4000000000000000, 0x4000000000000000)).holding nearbyMsg) =
          .ok (r, h) ∧ Filters everywhere h nearbyMsg ∧
        (write everywhere (prompt 0) twoNodes h allOpen).2.2 =
          (forwardAll (prompt 0).forwards [1, 2] (start allOpen nearbyMsg)).net := by
  obtain ⟨r, h, -, hp, -, hf, -, -, hwrite⟩ := filter_stateless everywhere (fun _ => 0) twoNodes
    ((RequestHandler.new 0).setApp (7, 0x4000000000000000, 0x4000000000000000)) (f := nearbyMsg) rfl
    (by decide)
  refine ⟨r, h, hp, hf, ?_⟩
  have haddressee : wantedAddressee everywhere twoNodes nearbyMsg = none := by decide +kernel
  have haudience : wantedAudience everywhere twoNodes 0 nearbyMsg = [1, 2] := by decide +kernel
  rw [hwrite, forwardWanted, haddressee]
  change (forwardAll (prompt 0).forwards (wantedAudience everywhere twoNodes 0 nearbyMsg) (start allOpen nearbyMsg)).net = _
  rw [haudience]

end Pobicos.Directory.RequestHandler
