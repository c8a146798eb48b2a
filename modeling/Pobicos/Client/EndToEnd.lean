import Pobicos.Client.ReadTask
import Pobicos.Client.Uplink
import Pobicos.Middleware.HWComm

/-!
# Pobicos.Client.EndToEnd

A message from the middleware of one client to the middleware of another:
`sendMsg`, the callback into `NetworkService`, the write thread, the wire, the
read thread, and `JNICall_ReceivedPacket`.

The bytes and the length of a message arrive as they were sent; its two
addresses arrive as the unmasked decoder reads them.  `carried_iff` says for
which addresses that is the message itself.
-/

namespace Pobicos.Client

open Nio Octets Framing NetworkMsg Serialization Middleware

/-! ## The way to the wire -/

/-- `OnWire m addr poMsg wire`: the datagram layer accepts `poMsg` for `addr`
and calls back, the callback queues a message, and a turn of the write thread
that ends writes `wire` for it. -/
inductive OnWire (m : HWComm) (addr : AddrType) (poMsg : PoMsg) (wire : List Byte) : Prop
  | sent (allocated : Bool) (app : AppLocation) (hostsRootAgent : Bool) (c : Channel)
      (es : List WriteEvt) {c' : Channel} {payload : List Byte} {len : Byte} {source dest : JChar}
      {msg : NetworkMsg}
      (accepted : m.sendMsg allocated addr poMsg =
        (PO_COMM_OK, some (.sendPacket payload len source dest)))
      (queued : jniCallbackSendPacket payload len source dest = .ok msg)
      (written : writeTurn app hostsRootAgent msg c es = (.ret, c'))
      (outp : c'.outp = c.outp ++ wire)

/-- A message as it should arrive: its bytes, its length and the 16 bits of
both addresses. -/
def original (m : HWComm) (addr : AddrType) (poMsg : PoMsg) : NativePacket where
  payload := poMsg.payload
  len := poMsg.len
  src := m.myAddr.setWidth 16
  dst := addr.setWidth 16

/-- A message as the unmasked decoder lets it arrive. -/
def misread (p : NativePacket) : NativePacket :=
  { p with src := charReadAs p.src, dst := charReadAs p.dst }

variable {m : HWComm} {addr : AddrType} {poMsg : PoMsg} {wire : List Byte}

/-- **What is on the wire**: one `POBICOS_MSG` frame, the packed datagram and
a location. -/
theorem OnWire.frame (h : OnWire m addr poMsg wire) :
    poMsg.len.toNat ≤ PO_HW_COMM_MAX_PAYLOAD_LEN ∧
    ∃ (f : Frame) (loc : AppLocation), wire = f.bytes ∧ f.tag = POBICOS_MSG ∧
      f.body = (queuedMsg (original m addr poMsg)).payload ++ trailerBytes loc := by
  obtain ⟨allocated, app, hostsRootAgent, c, es, accepted, queued, written, outp⟩ := h
  have hne := HWComm.addr_ne_of_sendPacket accepted
  obtain ⟨hshort, hcall⟩ := HWComm.sendMsg_ok (by rw [accepted]) hne
  rw [accepted] at hcall
  simp only [Prod.mk.injEq, Option.some.injEq, Signal.sendPacket.injEq, true_and] at hcall
  obtain ⟨rfl, rfl, rfl, rfl⟩ := hcall
  have hlen := PoMsg.length_payload hshort
  have hpos : poMsg.len.toNat < 128 := by
    rw [PO_HW_COMM_MAX_PAYLOAD_LEN] at hshort
    omega
  rw [jniCallbackSendPacket_eq _ _ hlen hpos] at queued
  cases queued
  have hfits := fits_queuedMsg (p := original m addr poMsg) hlen hpos
  have hwritten := writeTurn_pobicos hfits rfl written
  refine ⟨hshort, pobicosFrame app hostsRootAgent _ hfits, locationOf app hostsRootAgent, ?_, rfl, rfl⟩
  rw [hwritten, Channel.emit_outp] at outp
  exact (List.append_cancel_left outp).symm

/-! ## The way to the other middleware -/

/-- `DispatchEvt`, for what the read thread puts into the event queue: a
message is passed to the middleware. -/
def Effect.dispatchEvt : Effect → Option (Except Throwable NativePacket)
  | .packetRx msg => some (jniCallReceivedPacket msg)
  | _ => none

/-- What a turn of the read thread passes to the middleware. -/
def handedOver (t : ReadTask) (c : Channel) (es : List ReadEvt) : List (Except Throwable NativePacket) :=
  (t.turn c es).2.effects.filterMap Effect.dispatchEvt

/-- `Carried wire p`: a read thread with `wire` next on its socket hands over
`p`, once it has read the whole of it, and otherwise nothing. -/
structure Carried (wire : List Byte) (p : NativePacket) : Prop where
  whole : ∀ (t : ReadTask) (c : Channel) (es : List ReadEvt) (rest : List Byte), t.Ready →
    c.isOpen = true → c.inp = wire ++ rest → Progress es → wire.length ≤ es.length →
    handedOver t c es = [.ok p]
  otherwise : ∀ (t : ReadTask) (c : Channel) (es : List ReadEvt) (rest : List Byte), t.Ready →
    c.inp = wire ++ rest → handedOver t c es = [] ∨ handedOver t c es = [.ok p]

/-- A frame that has been read is handed over as the decoder reads it. -/
theorem finish_pobicos {p : NativePacket} {f : Frame} {trailer : List Byte} (t : ReadTask) (c : Channel)
    (hlen : p.payload.length = p.len.toNat) (hpos : p.len.toNat < 128) (htag : f.tag = POBICOS_MSG)
    (hbody : f.body = (queuedMsg p).payload ++ trailer) :
    ((t.took f).finish f.body.length c).2.effects.filterMap Effect.dispatchEvt = [.ok (misread p)] := by
  have hne : f.body ≠ [] := by
    rw [hbody]
    exact List.append_ne_nil_of_left_ne_nil (by simp [queuedMsg, packed]) _
  have hhandle : (t.took f).handle f.body.length =
      .ok [.packetRx ⟨POBICOS_MSG, BitVec.ofNat 8 f.body.length, f.body⟩] := by
    rw [ReadTask.handle, ReadTask.took, if_neg hne, htag]
    rfl
  rw [ReadTask.finish, hhandle]
  simp only [List.filterMap_cons, List.filterMap_nil, Effect.dispatchEvt]
  rw [hbody, queuedMsg, jniCallReceivedPacket_packed _ _ _ _ _ hlen hpos]
  rfl

/-- **A message on the wire is carried as it is misread.** -/
theorem OnWire.carried (h : OnWire m addr poMsg wire) :
    Carried wire (misread (original m addr poMsg)) := by
  obtain ⟨hshort, f, loc, rfl, htag, hbody⟩ := h.frame
  have hlen := PoMsg.length_payload hshort
  have hpos : poMsg.len.toNat < 128 := by
    rw [PO_HW_COMM_MAX_PAYLOAD_LEN] at hshort
    omega
  constructor
  · intro t c es rest ht ho hinp hp hes
    rw [handedOver, ReadTask.turn_frame ht ho hinp hp hes]
    exact finish_pobicos (p := original m addr poMsg) t _ hlen hpos htag hbody
  · intro t c es rest ht hinp
    obtain hnone | ⟨g, rest', hinp', hturn⟩ | ⟨u, hturn, heff⟩ | ⟨u, hturn, heff⟩ :=
      ReadTask.turn_cases ht c es
    · left
      rw [handedOver, hnone]
      rfl
    · obtain ⟨rfl, rfl⟩ := bytes_append_inj (hinp.symm.trans hinp')
      right
      rw [handedOver, hturn]
      exact finish_pobicos (p := original m addr poMsg) t _ hlen hpos htag hbody
    · left
      rw [handedOver, hturn, heff]
      rfl
    · left
      rw [handedOver, hturn, heff]
      rfl

/-- What is carried is determined by the wire. -/
theorem Carried.unique {p q : NativePacket} (hp : Carried wire p) (hq : Carried wire q) : p = q := by
  have hread : ∀ {p}, Carried wire p →
      handedOver .new ⟨true, wire, []⟩ (List.replicate wire.length (.ready 1)) = [.ok p] :=
    fun h => h.whole _ _ _ [] .new rfl (List.append_nil wire).symm (progress_replicate Nat.one_pos _)
      (Nat.le_of_eq List.length_replicate.symm)
  have hpq := (hread hp).symm.trans (hread hq)
  cases hpq
  rfl

theorem misread_eq_self_iff (p : NativePacket) :
    misread p = p ↔ charReadAs p.src = p.src ∧ charReadAs p.dst = p.dst := by
  obtain ⟨payload, len, src, dst⟩ := p
  simp [misread]

/-! ## When it is the same message -/

/-- **End to end**: a message on the wire is carried to the other middleware
as it was sent exactly when the low byte of each address is below `0x80` or
its high byte is `0xFF`. -/
theorem carried_iff (h : OnWire m addr poMsg wire) :
    Carried wire (original m addr poMsg) ↔
      ((m.myAddr.setWidth 16).toNat % 256 < 128 ∨ (m.myAddr.setWidth 16).toNat / 256 = 255) ∧
      ((addr.setWidth 16).toNat % 256 < 128 ∨ (addr.setWidth 16).toNat / 256 = 255) := by
  rw [← charReadAs_eq_self_iff, ← charReadAs_eq_self_iff]
  refine Iff.trans ?_ (misread_eq_self_iff (original m addr poMsg))
  constructor
  · intro hcarried
    exact h.carried.unique hcarried
  · intro hsame
    have := h.carried
    rwa [hsame] at this

/-- The middleware with address 1. -/
def firstClient : HWComm where
  mState := .idle
  myAddr := 1

/-- A message without bytes. -/
def emptyPoMsg : PoMsg where
  len := 0
  data := List.replicate (4 * 46) 0
  length_data := List.length_replicate

/-- `emptyPoMsg` as `firstClient` sends it to the address `lo`, without a
location. -/
def emptyWire (lo : Byte) : List Byte := [POBICOS_MSG, 23, 0, 1, 0, lo, 0] ++ List.replicate 18 0

/-- From address 1 to address 128, which arrives as address `0xFF80`. -/
theorem address_drifts :
    OnWire firstClient 0x80 emptyPoMsg (emptyWire 0x80) ∧
    handedOver .new ⟨true, emptyWire 0x80, []⟩ (List.replicate 25 (.ready 25)) =
      [.ok ⟨[], 0, 0x0001, 0xff80⟩] ∧
    ¬ Carried (emptyWire 0x80) (original firstClient 0x80 emptyPoMsg) := by
  have hwire : OnWire firstClient 0x80 emptyPoMsg (emptyWire 0x80) :=
    .sent true ⟨0, 0, 0⟩ false ⟨true, [], []⟩ [.accept 25] rfl rfl rfl rfl
  have hover : handedOver .new ⟨true, emptyWire 0x80, []⟩ (List.replicate 25 (.ready 25)) =
      [.ok ⟨[], 0, 0x0001, 0xff80⟩] := by decide
  refine ⟨hwire, hover, ?_⟩
  intro hcarried
  have hread := hcarried.whole _ ⟨true, emptyWire 0x80, []⟩ _ [] .new rfl rfl
    (progress_replicate (k := 25) (by decide) 25) (by decide)
  rw [hover] at hread
  exact absurd hread (by decide)

/-- From address 1 to address 2. -/
theorem carried_iff_emptyWire :
    Carried (emptyWire 2) (original firstClient 2 emptyPoMsg) ↔
      (((1 : AddrType).setWidth 16).toNat % 256 < 128 ∨ ((1 : AddrType).setWidth 16).toNat / 256 = 255) ∧
      (((2 : AddrType).setWidth 16).toNat % 256 < 128 ∨ ((2 : AddrType).setWidth 16).toNat / 256 = 255) :=
  carried_iff (m := firstClient) (.sent true ⟨0, 0, 0⟩ false ⟨true, [], []⟩ [.accept 25] rfl rfl rfl rfl)

end Pobicos.Client
