import Pobicos.Directory.WriteSpec

/-!
# Pobicos.Directory.RunSpec

One dispatch of a `RequestHandler` as a whole.  `run_cases` is the inversion
lemma every invariant of the server is derived from: a dispatch finds nothing
and changes nothing but its header buffer, or fails in `read`, or takes one
frame off the stream, or does not come to an end.  With a frame taken,
`run_of_read` says what follows: a frame too short for its type makes it throw,
any other is `served`.
-/

namespace Pobicos.Directory.RequestHandler

open Nio Octets Framing NetworkMsg Serialization

variable {cfg : Config} {sc : Script} {d : Host}

/-- The channels once the stream of `k` is down to `rest`. -/
def taken (net : Net) (k : SocketId) (rest : List Byte) : Net :=
  Function.update net k { net k with inp := rest }

@[simp] theorem isOpen_taken (net : Net) (k : SocketId) (rest : List Byte) (s : SocketId) :
    (taken net k rest s).isOpen = (net s).isOpen := by
  by_cases h : s = k
  · rw [h, taken, Function.update_self]
  · rw [taken, Function.update_of_ne h]

@[simp] theorem outp_taken (net : Net) (k : SocketId) (rest : List Byte) (s : SocketId) :
    (taken net k rest s).outp = (net s).outp := by
  by_cases h : s = k
  · rw [h, taken, Function.update_self]
  · rw [taken, Function.update_of_ne h]

theorem inp_taken_self (net : Net) (k : SocketId) (rest : List Byte) :
    (taken net k rest k).inp = rest := by
  rw [taken, Function.update_self]

theorem inp_taken_of_ne (net : Net) {k s : SocketId} (h : s ≠ k) (rest : List Byte) :
    (taken net k rest s).inp = (net s).inp := by
  rw [taken, Function.update_of_ne h]

/-- `process(); write();` on the frame `f`, and the end of `run`. -/
def served (cfg : Config) (sc : Script) (d : Host) (f : Frame) (rest : List Byte) : Outcome × Host :=
  let p := settle sc.clock d.registry d.handler f
  let q := write cfg sc p.1 p.2 (taken d.net d.handler.sock rest)
  (caught q.1, ⟨p.1, q.2.1, q.2.2⟩)

/-- What follows the `read` of a frame. -/
theorem run_of_read (cfg : Config) (sc : Script) (d : Host) {f : Frame} {rest : List Byte}
    (hread : read d.handler (d.net d.handler.sock) sc.reads =
      (.ret, d.handler.holding f, { d.net d.handler.sock with inp := rest })) :
    run cfg sc d =
      if Short d.registry d.handler.sock f then
        (.throws .indexOutOfBounds,
          ⟨d.registry, d.handler.holding f, taken d.net d.handler.sock rest⟩)
      else served cfg sc d f rest := by
  rw [run, hread]
  by_cases hshort : Short d.registry d.handler.sock f
  · rw [if_pos hshort]
    simp only [serve, process_short hshort]
    rfl
  · rw [if_neg hshort]
    simp only [serve, process_holding _ _ hshort]
    rfl

/-- Nothing read, nothing done. -/
theorem run_of_unread (cfg : Config) (sc : Script) (d : Host)
    (hread : read d.handler (d.net d.handler.sock) sc.reads =
      (.ret, d.handler.unread, d.net d.handler.sock)) :
    run cfg sc d = (.ret, { d with handler := d.handler.unread }) := by
  rw [run, hread]
  simp only [serve, process_unread, Function.update_eq_self, write_unread]
  rfl

/-- A read that does not end is a dispatch that does not. -/
theorem run_of_spins (cfg : Config) (sc : Script) (d : Host)
    (hspin : (read d.handler (d.net d.handler.sock) sc.reads).1 = .spins) :
    (run cfg sc d).1 = .spins := by
  match hr : read d.handler (d.net d.handler.sock) sc.reads with
  | (o, h', c') =>
    rw [hr] at hspin
    cases hspin
    rw [run, hr]
    rfl

/-- **Inversion of `run`.** -/
theorem run_cases (cfg : Config) (sc : Script) (d : Host) :
    (read d.handler (d.net d.handler.sock) sc.reads =
        (.ret, d.handler.unread, d.net d.handler.sock) ∧
      run cfg sc d = (.ret, { d with handler := d.handler.unread })) ∨
    (∃ h' c', read d.handler (d.net d.handler.sock) sc.reads = (.throws .ioException, h', c') ∧
      SameButInput d.handler h' ∧
      (Consumed (d.net d.handler.sock) c' ∨ c' = (d.net d.handler.sock).close) ∧
      run cfg sc d = (.ret, ⟨d.registry, h', Function.update d.net d.handler.sock c'⟩)) ∨
    (∃ f rest, (d.net d.handler.sock).inp = f.bytes ++ rest ∧
      read d.handler (d.net d.handler.sock) sc.reads =
        (.ret, d.handler.holding f, { d.net d.handler.sock with inp := rest })) ∨
    (run cfg sc d).1 = .spins := by
  obtain hidle | hframe | ⟨h', c', hread, hsame, hc'⟩ | hspin :=
    read_cases d.handler (d.net d.handler.sock) sc.reads
  · exact Or.inl ⟨hidle, run_of_unread cfg sc d hidle⟩
  · exact Or.inr (Or.inr (Or.inl hframe))
  · refine Or.inr (Or.inl ⟨h', c', hread, hsame, hc', ?_⟩)
    rw [run, hread]
    rfl
  · exact Or.inr (Or.inr (Or.inr (run_of_spins cfg sc d hspin)))

/-- A read that throws writes nothing. -/
theorem outp_of_failed {net : Net} {k : SocketId} {c' : Channel}
    (hc' : Consumed (net k) c' ∨ c' = (net k).close) (s : SocketId) :
    (Function.update net k c' s).outp = (net s).outp := by
  by_cases hsk : s = k
  · rw [hsk, Function.update_self]
    obtain hcons | rfl := hc'
    · exact hcons.outp
    · rfl
  · rw [Function.update_of_ne hsk]

/-- A whole frame on an open channel is read and acted on, whatever the
segmentation. -/
theorem run_frame (cfg : Config) (sc : Script) (d : Host) {f : Frame} {rest : List Byte}
    (ho : (d.net d.handler.sock).isOpen = true)
    (hinp : (d.net d.handler.sock).inp = f.bytes ++ rest) (hp : Progress sc.reads)
    (hlen : f.bytes.length ≤ sc.reads.length) :
    run cfg sc d =
      if Short d.registry d.handler.sock f then
        (.throws .indexOutOfBounds,
          ⟨d.registry, d.handler.holding f, taken d.net d.handler.sock rest⟩)
      else served cfg sc d f rest :=
  run_of_read cfg sc d (read_frame ho hinp hp hlen)

/-- The handler `settle` hands to `write` holds a complete header. -/
theorem settle_header (clock : Nat → JLong) (r : Registry) (h : RequestHandler) (f : Frame) :
    (settle clock r h f).2.networkMsgHeader = some (.full [f.tag, f.lengthByte]) := by
  rw [settle]
  split
  · rfl
  · split
    · rw [forwarding, takeLocation_networkMsgHeader]
      rfl
    · rfl

theorem settle_sock (clock : Nat → JLong) (r : Registry) (h : RequestHandler) (f : Frame) :
    (settle clock r h f).2.sock = h.sock := by
  rw [settle]
  split
  · rfl
  · split
    · rw [forwarding, takeLocation_sock]
      rfl
    · rfl

/-- A served request is answered by the write loop. -/
theorem served_registryReq {f : Frame} (rest : List Byte) (htag : f.tag = REGISTRY_REQ) :
    served cfg sc d f rest =
      let a := answer sc.clock d.registry d.handler.sock f.body
      let net := taken d.net d.handler.sock rest
      let w := writeLoop (.wrap a.2.bytes) (net d.handler.sock) sc.replies
      (caught w.1, ⟨a.1, ((d.handler.holding f).setOp .sendRegMsg).setOutMsg w.2.1,
        Function.update net d.handler.sock w.2.2⟩) := by
  have hout := setOutMsg_outMsg ((d.handler.holding f).setOp .sendRegMsg)
    (.wrap (answer sc.clock d.registry d.handler.sock f.body).2.bytes)
  rw [served, settle, if_pos htag]
  simp only
  rw [write_sendRegMsg rfl (ByteBuffer.remaining_full _) rfl hout]
  rfl

/-- A served message is forwarded. -/
theorem served_pobicosMsg {f : Frame} (rest : List Byte) (htag : f.tag = POBICOS_MSG) :
    served cfg sc d f rest =
      let h := d.handler.forwarding f
      let r := seen sc.clock d.registry d.handler.sock
      let w := writePoMsg cfg sc.forwards r h ⟨.wrap f.bytes, taken d.net d.handler.sock rest, 0⟩
      (caught w.1, ⟨r, h.setOutMsg w.2.outMsg, w.2.net⟩) := by
  have hreq : f.tag ≠ REGISTRY_REQ := by
    rw [htag]
    decide
  have hout : (d.handler.forwarding f).outMsg = some (.wrap f.bytes) := by
    rw [forwarding, takeLocation_outMsg, setOutMsg_outMsg]
  have hop : (d.handler.forwarding f).op = some .sendPoMsg := by
    rw [forwarding, takeLocation_op]
    rfl
  have hhead : (d.handler.forwarding f).networkMsgHeader = some (.full [f.tag, f.lengthByte]) := by
    rw [forwarding, takeLocation_networkMsgHeader]
    rfl
  rw [served, settle, if_neg hreq, if_pos htag]
  simp only
  rw [write_sendPoMsg hhead (ByteBuffer.remaining_full _) hop hout]

/-- A frame of another type makes `write` go on with what is left over. -/
theorem served_other {f : Frame} (rest : List Byte) (hreq : f.tag ≠ REGISTRY_REQ)
    (hmsg : f.tag ≠ POBICOS_MSG) :
    served cfg sc d f rest =
      let q := write cfg sc d.registry (d.handler.holding f) (taken d.net d.handler.sock rest)
      (caught q.1, ⟨d.registry, q.2.1, q.2.2⟩) := by
  rw [served, settle, if_neg hreq, if_neg hmsg]

/-- **Serving a frame** ends normally unless a reply is still being written;
it leaves the handler sound and only appends to channels. -/
theorem served_cases (cfg : Config) (sc : Script) (d : Host) (hs : Sound d.handler) {f : Frame}
    (rest : List Byte) (hlong : ¬ Short d.registry d.handler.sock f) :
    ((served cfg sc d f rest).1 = .ret ∨ (served cfg sc d f rest).1 = .spins) ∧
    (served cfg sc d f rest).2.registry = (settle sc.clock d.registry d.handler f).1 ∧
    (served cfg sc d f rest).2.handler.sock = d.handler.sock ∧
    Sound (served cfg sc d f rest).2.handler ∧
    Emitted (taken d.net d.handler.sock rest) (served cfg sc d f rest).2.net := by
  have hsound := hs.settle sc.clock hlong
  obtain ⟨hout, hhandler, hnet⟩ := write_cases cfg sc (settle sc.clock d.registry d.handler f).1
    (taken d.net d.handler.sock rest) hsound
    (settle_header _ _ _ _) (ByteBuffer.remaining_full _)
  refine ⟨?_, rfl, ?_, ?_, hnet⟩
  · obtain hret | hexc | ⟨hspin, -⟩ := hout
    · exact Or.inl (by rw [served, hret]; rfl)
    · exact Or.inl (by rw [served, hexc]; rfl)
    · exact Or.inr (by rw [served, hspin]; rfl)
  · simp only [served]
    obtain hsame | ⟨out, out', -, -, hset⟩ := hhandler
    · rw [hsame, settle_sock]
    · rw [hset, setOutMsg_sock, settle_sock]
  · simp only [served]
    obtain hsame | ⟨out, out', hout, harr, hset⟩ := hhandler
    · rw [hsame]
      exact hsound
    · rw [hset]
      exact hsound.setOutMsg hout harr

/-! ## When it ends -/

theorem caught_eq_spins_iff {o : Outcome} : caught o = .spins ↔ o = .spins := by
  cases o with
  | ret => simp [caught]
  | spins => simp [caught]
  | throws x => cases x <;> simp [caught, Throwable.isIOException]

/-- How many bytes of a reply the dispatch that takes `f` has to write: eight
for a welcome, two for any other reply; a frame of another type makes `write`
go on with the reply that is left over. -/
def owed (r : Registry) (h : RequestHandler) (f : Frame) : Nat :=
  if f.tag = REGISTRY_REQ then (if FirstTime r h.sock f.body then 8 else 2)
  else if f.tag = POBICOS_MSG then 0
  else if h.op = some .sendRegMsg then (h.outMsg.map ByteBuffer.remaining).getD 0 else 0

private theorem writePoMsg_ne_spins (cfg : Config) (fw : Nat → SocketId → WriteEvt) (r : Registry)
    (h : RequestHandler) {w : WriteState} (hlen : 18 ≤ w.outMsg.array.length) :
    (writePoMsg cfg fw r h w).1 ≠ .spins := by
  obtain hret | hexc := writePoMsg_outcome cfg fw r h hlen
  · simp [hret]
  · simp [hexc]

/-- **Serving a frame does not end** exactly when the reply is not drained. -/
theorem served_spins_iff (cfg : Config) (sc : Script) (d : Host) (hs : Sound d.handler)
    (ho : (d.net d.handler.sock).isOpen = true) {f : Frame} (rest : List Byte)
    (hlong : ¬ Short d.registry d.handler.sock f) :
    (served cfg sc d f rest).1 = .spins ↔
      drains (owed d.registry d.handler f) sc.replies = false := by
  have ho' : (taken d.net d.handler.sock rest d.handler.sock).isOpen = true := by
    rw [isOpen_taken, ho]
  by_cases hreq : f.tag = REGISTRY_REQ
  · rw [served_registryReq rest hreq, owed, if_pos hreq]
    simp only
    rw [caught_eq_spins_iff, writeLoop_eq_spins_iff ho', ByteBuffer.remaining_wrap, length_reply]
  · by_cases hmsg : f.tag = POBICOS_MSG
    · rw [served_pobicosMsg rest hmsg, owed, if_neg hreq, if_pos hmsg]
      simp only
      rw [caught_eq_spins_iff]
      have hlen := len_of_not_short hmsg hlong
      have hne := writePoMsg_ne_spins cfg sc.forwards (seen sc.clock d.registry d.handler.sock)
        (d.handler.forwarding f)
        (w := ⟨.wrap f.bytes, taken d.net d.handler.sock rest, 0⟩)
        (le_length_bytes hlen)
      simp [hne, drains]
    · rw [served_other rest hreq hmsg, owed, if_neg hreq, if_neg hmsg]
      simp only
      rw [caught_eq_spins_iff]
      have hfull : (ByteBuffer.full [f.tag, f.lengthByte]).remaining = 0 := ByteBuffer.remaining_full _
      cases hop : d.handler.op with
      | none =>
          rw [write_none (holding_header d.handler f) (by exact hop)]
          simp [drains]
      | some op =>
          obtain ⟨out, hout⟩ := hs.owed (by rw [hop]; simp)
          cases op with
          | sendRegMsg =>
              rw [write_sendRegMsg (h := d.handler.holding f) rfl hfull hop hout]
              simp only [hout, if_true, Option.map_some, Option.getD_some]
              exact writeLoop_eq_spins_iff ho' _
          | sendPoMsg =>
              have hlen := hs.long hop out hout
              rw [write_sendPoMsg (h := d.handler.holding f) rfl hfull hop hout]
              have hne := writePoMsg_ne_spins cfg sc.forwards d.registry
                (d.handler.holding f) (w := ⟨out, taken d.net d.handler.sock rest, 0⟩) hlen
              simp [hne, drains]

end Pobicos.Directory.RequestHandler
