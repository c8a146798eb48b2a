import Pobicos.Client.NetworkService
import Pobicos.Client.RegistryService
import Pobicos.Client.WriteTask
import Pobicos.Directory.ReadSpec
import Pobicos.Lib.Lts
import Mathlib.Data.List.Forall2

/-!
# Pobicos.Client.Uplink

From the message queue of a client to the request handler of the directory.

An `Uplink` is the queue, the write thread that empties it and its socket; its
labels are what is offered to the queue (`Offer`) and the turns of the thread.
`roundTrip` says of every run that the directory finds on the stream one frame
for each message whose turn has ended, in queue order, and nothing else.
-/

namespace Pobicos.Client

open Nio Octets Framing NetworkMsg Serialization Lts

/-! ## What is offered -/

/-- The message the callback queues. -/
def queuedMsg (p : NativePacket) : NetworkMsg where
  msgType := POBICOS_MSG
  payloadLen := BitVec.ofNat 8 (DATAGRAM_HEADER_LEN + p.len.toNat)
  payload := packed p.payload p.len p.src p.dst

theorem length_packed (payload : List Byte) (len : Byte) (source dest : JChar) :
    (packed payload len source dest).length = DATAGRAM_HEADER_LEN + payload.length := by
  simp only [packed, List.length_append, length_toBE, List.length_cons, DATAGRAM_HEADER_LEN]
  omega

/-- A datagram of up to 127 bytes leaves room for the trailer. -/
theorem fits_queuedMsg {p : NativePacket} (hlen : p.payload.length = p.len.toNat)
    (hpos : p.len.toNat < 128) : Fits (queuedMsg p) := by
  have hnat : (queuedMsg p).payloadLen.toNat = DATAGRAM_HEADER_LEN + p.len.toNat := by
    rw [queuedMsg, BitVec.toNat_ofNat, DATAGRAM_HEADER_LEN]
    omega
  constructor
  · rw [hnat, ← hlen]
    exact length_packed _ _ _ _
  · rw [hnat, DATAGRAM_HEADER_LEN]
    omega

/-- The calls that offer a message to `OutMsgQ`. -/
inductive Offer
  | sendPacket (payload : List Byte) (len : Byte) (source dest : JChar)
  | register (registry : PoRegistryService)
  | update (task : RegistryUpdateTask) (registry : PoRegistryService)

namespace Offer

/-- The message that is offered. -/
def msg : Offer → Except Throwable NetworkMsg
  | .sendPacket payload len source dest => jniCallbackSendPacket payload len source dest
  | .register registry => registry.register
  | .update task registry => task.update registry

/-- The callback is given an array of as many bytes as it says, up to 127. -/
def Valid : Offer → Prop
  | .sendPacket payload len _ _ => payload.length = len.toNat ∧ len.toNat < 128
  | .register _ => True
  | .update _ _ => True

end Offer

/-- A message whose payload is as long as it says; a `POBICOS_MSG` leaves room
for the trailer. -/
structure Framed (msg : NetworkMsg) : Prop where
  exact : msg.payload.length = msg.payloadLen.toNat
  room : msg.msgType = POBICOS_MSG → msg.payloadLen.toNat + 18 < 256

/-- **Every offer is a message that can be framed.** -/
theorem Offer.Valid.framed {o : Offer} (h : o.Valid) : ∃ msg, o.msg = .ok msg ∧ Framed msg := by
  have hreq : ∀ classOfDevice lat lon addr seed,
      Framed ⟨REGISTRY_REQ, 23, reqPayload classOfDevice lat lon addr seed⟩ := by
    intro classOfDevice lat lon addr seed
    refine ⟨length_reqPayload .., fun htype => ?_⟩
    cases htype
  cases o with
  | sendPacket payload len source dest =>
      obtain ⟨hlen, hpos⟩ := h
      have hfits := fits_queuedMsg (p := ⟨payload, len, source, dest⟩) hlen hpos
      exact ⟨_, jniCallbackSendPacket_eq source dest hlen hpos, hfits.exact, fun _ => hfits.room⟩
  | register registry => exact ⟨_, registryReq_eq .., hreq ..⟩
  | update task registry => exact ⟨_, registryReq_eq .., hreq ..⟩

/-! ## What is written -/

/-- What goes out behind a payload. -/
def trailer (app : AppLocation) (hostsRootAgent : Bool) (msg : NetworkMsg) : List Byte :=
  if msg.msgType = POBICOS_MSG then trailerBytes (locationOf app hostsRootAgent) else []

/-- `f` is the frame of the message `w.1`, written while `hostsRootAgent()` is
`w.2`. -/
structure Carries (app : AppLocation) (w : NetworkMsg × Bool) (f : Frame) : Prop where
  tag : f.tag = w.1.msgType
  body : f.body = w.1.payload ++ trailer app w.2 w.1

theorem Framed.carries {msg : NetworkMsg} (h : Framed msg) (app : AppLocation) (hostsRootAgent : Bool) :
    ∃ f, Carries app (msg, hostsRootAgent) f ∧
      frameMsg app hostsRootAgent msg = .ok (.wrap f.bytes) := by
  by_cases htype : msg.msgType = POBICOS_MSG
  · have hfits : Fits msg := ⟨h.exact, h.room htype⟩
    refine ⟨pobicosFrame app hostsRootAgent msg hfits, ⟨htype.symm, ?_⟩,
      frameMsg_pobicos app hostsRootAgent hfits htype⟩
    rw [trailer, if_pos htype]
    rfl
  · refine ⟨plainFrame msg h.exact, ⟨rfl, ?_⟩, frameMsg_plain app hostsRootAgent h.exact htype⟩
    rw [trailer, if_neg htype, List.append_nil]
    rfl

/-! ## The queue and the write thread -/

/-- The queue, the message whose turn has not ended normally, if any, and the
socket. -/
structure Uplink where
  outMsgQ : List NetworkMsg
  msg : Option NetworkMsg
  sockch : Channel
  deriving DecidableEq, Repr

namespace Uplink

/-- What happens at an uplink: a call that offers a message, or a turn of the
write thread. -/
inductive Act
  | offer (o : Offer)
  | write (hostsRootAgent : Bool) (es : List WriteEvt)

/-- A new connection, `inp` being what is read from it. -/
def start (inp : List Byte) : Uplink := ⟨[], none, ⟨true, inp, []⟩⟩

/-- The thread takes a message once it is done with the last one; an offer
that throws queues nothing. -/
def step (app : AppLocation) (u : Uplink) : Act → Option Uplink
  | .offer o =>
      match o.msg with
      | .ok msg => some { u with outMsgQ := u.outMsgQ ++ [msg] }
      | .error _ => some u
  | .write hostsRootAgent es =>
      match u.msg, u.outMsgQ with
      | none, msg :: queue =>
          match writeTurn app hostsRootAgent msg u.sockch es with
          | (.ret, c) => some ⟨queue, none, c⟩
          | (_, c) => some ⟨queue, some msg, c⟩
      | _, _ => none

/-- The message a label offers. -/
def offered (_ : Uplink) : Act → List NetworkMsg
  | .offer o => o.msg.toOption.toList
  | .write _ _ => []

/-- The message whose turn ends at a label, with the value of
`hostsRootAgent()`. -/
def written (app : AppLocation) (u : Uplink) : Act → List (NetworkMsg × Bool)
  | .offer _ => []
  | .write hostsRootAgent es =>
      match u.msg, u.outMsgQ with
      | none, msg :: _ =>
          match writeTurn app hostsRootAgent msg u.sockch es with
          | (.ret, _) => [(msg, hostsRootAgent)]
          | (_, _) => []
      | _, _ => []

/-- The messages that are waiting. -/
def pending (u : Uplink) : List NetworkMsg := u.msg.toList ++ u.outMsgQ

/-- The stream holds the frames of the messages `ws`, and part of another one
at most. -/
structure Spoken (app : AppLocation) (u : Uplink) (ws : List (NetworkMsg × Bool)) : Prop where
  framed : ∀ msg ∈ u.outMsgQ, Framed msg
  isOpen : u.sockch.isOpen = true
  stream : ∃ fs cut, List.Forall₂ (Carries app) ws fs ∧ u.sockch.outp = encode fs ++ cut ∧
    decode cut = none ∧ (u.msg = none → cut = [])

variable {app : AppLocation} {u u' : Uplink} {ws : List (NetworkMsg × Bool)}

/-- A turn of the write thread, message by message. -/
theorem Spoken.write (h : Spoken app u ws) {msg : NetworkMsg} {queue : List NetworkMsg}
    (hidle : u.msg = none) (hqueue : u.outMsgQ = msg :: queue) (hostsRootAgent : Bool)
    (es : List WriteEvt) :
    ∃ f, Carries app (msg, hostsRootAgent) f ∧
      ((writeTurn app hostsRootAgent msg u.sockch es = (.ret, u.sockch.emit f.bytes) ∧
        Spoken app ⟨queue, none, u.sockch.emit f.bytes⟩ (ws ++ [(msg, hostsRootAgent)])) ∨
      ∃ o n, o ≠ .ret ∧ n < f.bytes.length ∧
        writeTurn app hostsRootAgent msg u.sockch es = (o, u.sockch.emit (f.bytes.take n)) ∧
        Spoken app ⟨queue, some msg, u.sockch.emit (f.bytes.take n)⟩ ws) := by
  have hframed := h.framed
  rw [hqueue] at hframed
  have hlater : ∀ m ∈ queue, Framed m := fun m hm => hframed m (List.mem_cons_of_mem _ hm)
  obtain ⟨f, hcarries, hframe⟩ := (hframed msg List.mem_cons_self).carries app hostsRootAgent
  obtain ⟨fs, cut, hfs, houtp, -, hcut⟩ := h.stream
  rw [hcut hidle, List.append_nil] at houtp
  refine ⟨f, hcarries, ?_⟩
  obtain hret | ⟨o, n, ho, hn, hturn⟩ := writeTurn_frame hframe u.sockch es
  · refine Or.inl ⟨hret, hlater, h.isOpen, fs ++ [f], [], ?_, ?_, rfl, fun _ => rfl⟩
    · exact List.rel_append hfs (.cons hcarries .nil)
    · simp [houtp]
  · refine Or.inr ⟨o, n, ho, hn, hturn, hlater, h.isOpen, fs, f.bytes.take n, hfs, ?_, ?_, ?_⟩
    · simp [houtp]
    · exact decode_take hn
    · intro hnone
      cases hnone

/-- A turn begins when there is a message and the last one is done. -/
theorem waiting_of_write {hostsRootAgent : Bool} {es : List WriteEvt}
    (hstep : step app u (.write hostsRootAgent es) = some u') :
    ∃ msg queue, u.msg = none ∧ u.outMsgQ = msg :: queue := by
  cases hidle : u.msg with
  | some msg => simp [Uplink.step, hidle] at hstep
  | none =>
      cases hqueue : u.outMsgQ with
      | nil => simp [Uplink.step, hidle, hqueue] at hstep
      | cons msg queue => exact ⟨msg, queue, rfl, rfl⟩

/-- **Step lemma.** -/
theorem Spoken.step (h : Spoken app u ws) {a : Act} (hvalid : ∀ o, a = .offer o → o.Valid)
    (hstep : step app u a = some u') : Spoken app u' (ws ++ written app u a) := by
  cases a with
  | offer o =>
      obtain ⟨msg, hmsg, hframed⟩ := (hvalid o rfl).framed
      simp only [Uplink.step, hmsg] at hstep
      cases hstep
      rw [written, List.append_nil]
      refine ⟨fun m hm => ?_, h.isOpen, h.stream⟩
      obtain hm | hm := List.mem_append.mp hm
      · exact h.framed m hm
      · rw [List.mem_singleton.mp hm]
        exact hframed
  | write hostsRootAgent es =>
      obtain ⟨msg, queue, hidle, hqueue⟩ := waiting_of_write hstep
      obtain ⟨f, -, ⟨hturn, hspoken⟩ | ⟨o, n, ho, -, hturn, hspoken⟩⟩ :=
        h.write hidle hqueue hostsRootAgent es
      · simp only [Uplink.step, hidle, hqueue, hturn] at hstep
        cases hstep
        simpa only [written, hidle, hqueue, hturn] using hspoken
      · cases o with
        | ret => exact absurd rfl ho
        | throws x =>
            simp only [Uplink.step, hidle, hqueue, hturn] at hstep
            cases hstep
            simpa only [written, hidle, hqueue, hturn, List.append_nil] using hspoken
        | spins =>
            simp only [Uplink.step, hidle, hqueue, hturn] at hstep
            cases hstep
            simpa only [written, hidle, hqueue, hturn, List.append_nil] using hspoken

/-- What is offered waits until it is written. -/
theorem pending_step {a : Act} (hstep : step app u a = some u') :
    (written app u a).map Prod.fst ++ u'.pending = u.pending ++ offered u a := by
  cases a with
  | offer o =>
      cases hmsg : o.msg with
      | ok msg =>
          simp only [Uplink.step, hmsg] at hstep
          cases hstep
          simp [written, offered, pending, hmsg, Except.toOption]
      | error x =>
          simp only [Uplink.step, hmsg] at hstep
          cases hstep
          simp [written, offered, hmsg, Except.toOption]
  | write hostsRootAgent es =>
      obtain ⟨msg, queue, hidle, hqueue⟩ := waiting_of_write hstep
      rcases hturn : writeTurn app hostsRootAgent msg u.sockch es with ⟨o, c⟩
      cases o <;>
        (simp only [Uplink.step, hidle, hqueue, hturn] at hstep
         cases hstep
         simp [written, offered, pending, hidle, hqueue, hturn])

/-! ## The round trip -/

/-- What a run has come to, `offers` being the messages offered in it and `ws`
those whose turn has ended.  The messages are written in queue order; the
directory finds the frames of `ws` on the stream, however it is cut into reads,
and, unless a turn has been broken off, it finds all of them and nothing is
left over; and the thread gets on with the next message as fast as the socket
takes it. -/
structure RoundTrip (app : AppLocation) (offers : List NetworkMsg) (ws : List (NetworkMsg × Bool))
    (u : Uplink) : Prop where
  order : offers = ws.map Prod.fst ++ u.pending
  frames : ∃ fs, List.Forall₂ (Carries app) ws fs ∧
    (∀ (h : Directory.RequestHandler) (c : Channel) calls, c.inp = u.sockch.outp →
      (h.reads c calls).1 <+: fs.map Directory.RequestHandler.found) ∧
    (u.msg = none → ∀ (h : Directory.RequestHandler) (c : Channel) calls, c.isOpen = true →
      c.inp = u.sockch.outp → (∀ es ∈ calls, Feeds es) → fs.length ≤ calls.length →
      h.reads c calls = (fs.map Directory.RequestHandler.found, { c with inp := [] }))
  goesOn : ∀ hostsRootAgent msg queue es, u.msg = none → u.outMsgQ = msg :: queue → Accepts es →
    257 ≤ es.length → ∃ u', step app u (.write hostsRootAgent es) = some u' ∧ u'.msg = none ∧
      u'.outMsgQ = queue ∧ written app u (.write hostsRootAgent es) = [(msg, hostsRootAgent)]

/-- **Round trip from client to directory**, over every run. -/
theorem roundTrip (app : AppLocation) (inp : List Byte) {as : List Act} {u : Uplink}
    (hvalid : ∀ o, .offer o ∈ as → o.Valid) (hrun : run (step app) (start inp) as = some u) :
    RoundTrip app (trace (step app) offered (start inp) as)
      (trace (step app) (written app) (start inp) as) u := by
  have hok : Along (step app) (fun _ a => ∀ o, a = .offer o → o.Valid) (start inp) as :=
    along_of_forall (by rintro _ ha _ o rfl; exact hvalid o ha) (start inp)
  have hstart : Spoken app (start inp) [] :=
    ⟨fun msg hm => (nomatch hm), rfl, [], [], .nil, rfl, rfl, fun _ => rfl⟩
  have hspoken : Spoken app u (trace (step app) (written app) (start inp) as) :=
    trace_induct (fun s ws a t hs hsa hst => hs.step hsa hst) hok hstart hrun
  have hbalance := trace_conserved (P := fun _ => True) pending offered
    (fun s a => (written app s a).map Prod.fst)
    (fun s a t _ _ hst => ⟨trivial, pending_step hst⟩) hok trivial hrun
  constructor
  · rw [trace_map] at hbalance
    exact hbalance.symm
  · obtain ⟨fs, cut, hfs, houtp, hcut, hwhole⟩ := hspoken.stream
    refine ⟨fs, hfs, fun h c calls hinp => ?_, fun hidle h c calls ho hinp hfeeds hlen => ?_⟩
    · exact Directory.RequestHandler.reads_prefix (hinp.trans houtp) hcut calls
    · rw [hwhole hidle, List.append_nil] at houtp
      exact Directory.RequestHandler.reads_encode ho (hinp.trans houtp) hfeeds hlen
  · intro hostsRootAgent msg queue es hidle hqueue haccepts hcalls
    have hframed := hspoken.framed msg (by rw [hqueue]; exact List.mem_cons_self)
    obtain ⟨f, -, hframe⟩ := hframed.carries app hostsRootAgent
    have hbytes := f.length_bytes_le
    have hturn := writeTurn_accepts hframe hspoken.isOpen haccepts (by omega)
    exact ⟨⟨queue, none, u.sockch.emit f.bytes⟩, by simp only [step, hidle, hqueue, hturn], rfl, rfl,
      by simp only [written, hidle, hqueue, hturn]⟩

/-- A message of one byte is queued between two requests, and written in two
parts. -/
def mixedActs : List Act :=
  [.offer (.register .new), .offer (.sendPacket [7] 1 0x1234 0xfffe), .write true [.accept 25],
    .offer (.update ⟨0x1234, 5⟩ .new), .write true [.accept 3, .accept 0, .accept 99]]

/-- They leave the second request in the queue. -/
def mixedUplink : Uplink where
  outMsgQ := [⟨REGISTRY_REQ, 23, reqPayload 1 0 0 0x1234 5⟩]
  msg := none
  sockch := ⟨true, [], REGISTRY_REQ :: 23 :: reqPayload 1 0 0 0 0 ++
    (POBICOS_MSG :: 24 :: [0x12, 0x34, 0xff, 0xfe, 1, 7] ++ trailerBytes ⟨9, 1, 2⟩)⟩

theorem roundTrip_mixed :
    RoundTrip ⟨9, 1, 2⟩
      (trace (step ⟨9, 1, 2⟩) offered (start []) mixedActs)
      (trace (step ⟨9, 1, 2⟩) (written ⟨9, 1, 2⟩) (start []) mixedActs) mixedUplink := by
  refine roundTrip ⟨9, 1, 2⟩ [] ?_ (by decide)
  intro o ho
  simp only [mixedActs, List.mem_cons, Act.offer.injEq, reduceCtorEq, List.not_mem_nil, false_or,
    or_false] at ho
  obtain rfl | rfl | rfl := ho
  · trivial
  · exact ⟨rfl, by decide⟩
  · trivial

end Uplink

end Pobicos.Client
