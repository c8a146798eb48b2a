import Pobicos.Directory.ProcessSpec

/-!
# Pobicos.Directory.WriteSpec

What `RequestHandler.write` does with `outMsg`.

A reply goes to the client's own channel through a write loop.  A message is
forwarded by single writes that all share the one position of `outMsg`:
`writePoMsg_eq` reduces the two branches of `write` to the addressed node
(`addressee`) and the sockets of the broadcast loop (`audience`), and
`forwardAll` is the effect of a list of such writes, failures included.

What one forwarding write does is said once (`forward_cases`): it takes some
prefix of what remains of `outMsg`, or fails and changes nothing.
-/

namespace Pobicos.Directory.RequestHandler

open Nio Octets Framing NetworkMsg Serialization

/-! ## Single writes -/

variable {cfg : Config} {fw : Nat → SocketId → WriteEvt} {s : SocketId} {w : WriteState}

/-- The state after a forwarding write to `s` that took `n` bytes. -/
def WriteState.sent (w : WriteState) (s : SocketId) (n : Nat) : WriteState :=
  ⟨w.outMsg.advance n, Function.update w.net s ((w.net s).emit (w.outMsg.rest.take n)), w.calls + 1⟩

/-- The state after a forwarding write that failed. -/
def WriteState.failed (w : WriteState) : WriteState := { w with calls := w.calls + 1 }

theorem forward_accept (ho : (w.net s).isOpen = true) {n : Nat} (he : fw w.calls s = .accept n) :
    forward fw s w = (.ret, w.sent s n) := by
  rw [forward, he, Channel.write, if_pos ho]
  rfl

theorem forward_fail (h : (w.net s).isOpen = false ∨ fw w.calls s = .fail) :
    forward fw s w = (.throws .ioException, w.failed) := by
  have hwrite : (w.net s).write w.outMsg (fw w.calls s) = .error .ioException := by
    rw [Channel.write.eq_def]
    by_cases ho : (w.net s).isOpen = true
    · obtain hclosed | hfail := h
      · rw [hclosed] at ho
        cases ho
      · rw [if_pos ho, hfail]
    · rw [if_neg ho]
  rw [forward, hwrite]
  rfl

/-- **Inversion of a forwarding write.** -/
theorem forward_cases (fw : Nat → SocketId → WriteEvt) (s : SocketId) (w : WriteState) :
    (∃ n, (w.net s).isOpen = true ∧ fw w.calls s = .accept n ∧
      forward fw s w = (.ret, w.sent s n)) ∨
    ((w.net s).isOpen = false ∨ fw w.calls s = .fail) ∧
      forward fw s w = (.throws .ioException, w.failed) := by
  cases ho : (w.net s).isOpen with
  | false => exact Or.inr ⟨Or.inl rfl, forward_fail (Or.inl ho)⟩
  | true =>
      cases he : fw w.calls s with
      | accept n => exact Or.inl ⟨n, rfl, rfl, forward_accept ho he⟩
      | fail => exact Or.inr ⟨Or.inr rfl, forward_fail (Or.inr he)⟩

/-! ## Successive writes -/

/-- One write to each socket in turn, whatever becomes of it. -/
def forwardAll (fw : Nat → SocketId → WriteEvt) : List SocketId → WriteState → WriteState
  | [], w => w
  | s :: ss, w => forwardAll fw ss (forward fw s w).2

/-- **Step rule for `forwardAll`**: what one write preserves, all do. -/
theorem forwardAll_induct {P : WriteState → Prop} {ss : List SocketId}
    (hsent : ∀ w, ∀ s ∈ ss, ∀ n, P w → (w.net s).isOpen = true → fw w.calls s = .accept n →
      P (w.sent s n))
    (hfailed : ∀ w, P w → P w.failed) (h : P w) : P (forwardAll fw ss w) := by
  induction ss generalizing w with
  | nil => exact h
  | cons s ss ih =>
      rw [forwardAll]
      refine ih (fun w t ht => hsent w t (List.mem_cons_of_mem _ ht)) ?_
      obtain ⟨n, ho, he, hfwd⟩ | ⟨-, hfwd⟩ := forward_cases fw s w
      · rw [hfwd]
        exact hsent w s List.mem_cons_self n h ho he
      · rw [hfwd]
        exact hfailed w h

@[simp] theorem net_failed (w : WriteState) : w.failed.net = w.net := rfl
@[simp] theorem outMsg_failed (w : WriteState) : w.failed.outMsg = w.outMsg := rfl
@[simp] theorem outMsg_sent (w : WriteState) (s : SocketId) (n : Nat) :
    (w.sent s n).outMsg = w.outMsg.advance n := rfl

theorem net_sent_self (w : WriteState) (s : SocketId) (n : Nat) :
    (w.sent s n).net s = (w.net s).emit (w.outMsg.rest.take n) := Function.update_self ..

theorem net_sent_of_ne (w : WriteState) {s t : SocketId} (h : t ≠ s) (n : Nat) :
    (w.sent s n).net t = w.net t := Function.update_of_ne h ..

/-- Whether a channel is open is left alone. -/
@[simp] theorem isOpen_sent (w : WriteState) (s t : SocketId) (n : Nat) :
    ((w.sent s n).net t).isOpen = (w.net t).isOpen := by
  by_cases h : t = s
  · rw [h, net_sent_self, Channel.emit_isOpen]
  · rw [net_sent_of_ne w h]

/-- **Frame rule**: a socket that is not written to is left alone. -/
theorem forwardAll_net_of_not_mem {ss : List SocketId} {t : SocketId} (h : t ∉ ss) :
    (forwardAll fw ss w).net t = w.net t := by
  refine forwardAll_induct (P := fun u => u.net t = w.net t) ?_ (fun _ hu => hu) rfl
  intro u s hs n hu _ _
  have hne : t ≠ s := by
    rintro rfl
    exact h hs
  rw [net_sent_of_ne u hne, hu]

/-- With nothing left of `outMsg`, nothing more is written. -/
theorem forwardAll_of_remaining {ss : List SocketId} (h : w.outMsg.remaining = 0) :
    (forwardAll fw ss w).net = w.net ∧ (forwardAll fw ss w).outMsg.remaining = 0 := by
  refine forwardAll_induct (P := fun u => u.net = w.net ∧ u.outMsg.remaining = 0) ?_
    (fun _ hu => hu) ⟨rfl, h⟩
  intro u s _ n hu _ _
  have hrest : u.outMsg.rest = [] :=
    List.eq_nil_of_length_eq_zero (by rw [ByteBuffer.length_rest, hu.2])
  refine ⟨?_, by rw [outMsg_sent, ByteBuffer.advance_of_remaining hu.2, hu.2]⟩
  rw [WriteState.sent, hrest, List.take_nil, Channel.emit_nil, Function.update_eq_self, hu.1]

/-- Closed or broken channels take nothing. -/
theorem forwardAll_of_failing {ss : List SocketId}
    (h : ∀ s ∈ ss, (w.net s).isOpen = false ∨ ∀ i, fw i s = .fail) :
    (forwardAll fw ss w).net = w.net ∧ (forwardAll fw ss w).outMsg = w.outMsg := by
  refine forwardAll_induct (P := fun u => u.net = w.net ∧ u.outMsg = w.outMsg) ?_ (fun _ hu => hu)
    ⟨rfl, rfl⟩
  intro u s hs n hu ho he
  obtain hclosed | hfail := h s hs
  · rw [hu.1, hclosed] at ho
    cases ho
  · rw [hfail] at he
    cases he

/-- A channel that has changed was written to, and open. -/
theorem mem_of_forwardAll_ne {ss : List SocketId} {t : SocketId}
    (h : (forwardAll fw ss w).net t ≠ w.net t) : t ∈ ss ∧ (w.net t).isOpen = true := by
  refine ⟨?_, ?_⟩
  · by_contra hmem
    exact h (forwardAll_net_of_not_mem hmem)
  · by_contra hclosed
    refine h (forwardAll_induct (P := fun u => u.net t = w.net t) ?_ (fun _ hu => hu) rfl)
    intro u s _ n hu ho _
    by_cases hts : t = s
    · cases hts
      rw [hu] at ho
      exact absurd ho hclosed
    · rw [net_sent_of_ne u hts, hu]

theorem forwardAll_append (ss ts : List SocketId) (w : WriteState) :
    forwardAll fw (ss ++ ts) w = forwardAll fw ts (forwardAll fw ss w) := by
  induction ss generalizing w with
  | nil => rfl
  | cons s ss ih => exact ih _

/-- The first channel that takes anything takes all of `outMsg`, if it has
room, and leaves nothing to the ones after it. -/
theorem forwardAll_first {pre post : List SocketId}
    (hpre : ∀ t ∈ pre, (w.net t).isOpen = false ∨ ∀ i, fw i t = .fail)
    (ho : (w.net s).isOpen = true)
    (hfw : ∀ i, ∃ n, w.outMsg.remaining ≤ n ∧ fw i s = .accept n) :
    (forwardAll fw (pre ++ s :: post) w).net =
      Function.update w.net s ((w.net s).emit w.outMsg.rest) := by
  obtain ⟨hnet, hout⟩ := forwardAll_of_failing hpre
  obtain ⟨n, hn, he⟩ := hfw (forwardAll fw pre w).calls
  have ho' : ((forwardAll fw pre w).net s).isOpen = true := by rw [hnet, ho]
  have hrem : ((forwardAll fw pre w).sent s n).outMsg.remaining = 0 := by
    rw [outMsg_sent, ByteBuffer.remaining_advance, hout]
    omega
  have htake : w.outMsg.rest.take n = w.outMsg.rest :=
    List.take_of_length_le (by rw [ByteBuffer.length_rest]; exact hn)
  rw [forwardAll_append, forwardAll, forward_accept ho' he, (forwardAll_of_remaining hrem).1,
    WriteState.sent, hnet, hout, htake]

/-- **One shared position**: of several channels that would each take all of
`outMsg`, one gets it and the others nothing. -/
theorem forwardAll_accepting (w : WriteState) (ss : List SocketId)
    (hfw : ∀ i, ∀ s ∈ ss, ∃ n, w.outMsg.remaining ≤ n ∧ fw i s = .accept n) :
    (∀ s ∈ ss, (w.net s).isOpen = false) ∧ (forwardAll fw ss w).net = w.net ∨
    ∃ s ∈ ss, (w.net s).isOpen = true ∧
      (forwardAll fw ss w).net = Function.update w.net s ((w.net s).emit w.outMsg.rest) := by
  induction ss generalizing w with
  | nil => exact Or.inl ⟨fun s hs => (nomatch hs), rfl⟩
  | cons s ss ih =>
      cases ho : (w.net s).isOpen with
      | true =>
          obtain ⟨n, hn, he⟩ := hfw w.calls s List.mem_cons_self
          have hrem : (w.sent s n).outMsg.remaining = 0 := by
            rw [outMsg_sent, ByteBuffer.remaining_advance]
            omega
          have htake : w.outMsg.rest.take n = w.outMsg.rest :=
            List.take_of_length_le (by rw [ByteBuffer.length_rest]; exact hn)
          refine Or.inr ⟨s, List.mem_cons_self, ho, ?_⟩
          rw [forwardAll, forward_accept ho he, (forwardAll_of_remaining hrem).1, WriteState.sent,
            htake]
      | false =>
          rw [forwardAll, forward_fail (Or.inl ho)]
          obtain ⟨hclosed, hnet⟩ | ⟨t, ht, hto, hnet⟩ :=
            ih w.failed fun i t ht => hfw i t (List.mem_cons_of_mem _ ht)
          · refine Or.inl ⟨?_, hnet⟩
            intro t ht
            obtain rfl | ht := List.mem_cons.mp ht
            · exact ho
            · exact hclosed t ht
          · exact Or.inr ⟨t, List.mem_cons_of_mem _ ht, hto, hnet⟩

/-! ## Who is written to -/

/-- The nodes of the broadcast loop that are written to: not on the sender's
socket, and admitted by the location filter. -/
def audience (cfg : Config) (h : RequestHandler) (t : JChar × JDouble × JDouble)
    (ns : List NodeInfo) : List NodeInfo :=
  ns.filter fun n => n.sock != h.sock && locationAdmits cfg h t n

theorem mem_audience {h : RequestHandler} {t : JChar × JDouble × JDouble} {ns : List NodeInfo}
    {n : NodeInfo} :
    n ∈ audience cfg h t ns ↔ n ∈ ns ∧ n.sock ≠ h.sock ∧ locationAdmits cfg h t n = true := by
  simp [audience]

/-- The first node registered under `a`, if the location filter admits it. -/
def addressee (cfg : Config) (r : Registry) (h : RequestHandler) (t : JChar × JDouble × JDouble)
    (a : JChar) : Option NodeInfo :=
  match r.isRegistedAddr a with
  | none => none
  | some i => if locationAdmits cfg h t (r.reg.get i) then some (r.reg.get i) else none

/-- Writes leave the bytes of `outMsg` alone. -/
theorem array_forward (fw : Nat → SocketId → WriteEvt) (s : SocketId) (w : WriteState) :
    (forward fw s w).2.outMsg.array = w.outMsg.array := by
  obtain ⟨n, -, -, hfwd⟩ | ⟨-, hfwd⟩ := forward_cases fw s w
  · rw [hfwd, outMsg_sent, ByteBuffer.array_advance]
  · rw [hfwd, outMsg_failed]

/-- The broadcast loop is a write to each of its audience. -/
theorem broadcast_eq {h : RequestHandler} {ns : List NodeInfo} (hlen : 18 ≤ w.outMsg.array.length) :
    broadcast cfg fw h ns w = (.ret,
      forwardAll fw ((audience cfg h (trailerOf w.outMsg.array) ns).map NodeInfo.sock) w) := by
  induction ns generalizing w with
  | nil => rfl
  | cons n ns ih =>
      have htr := trailer_of_le hlen
      rw [broadcast]
      by_cases hsock : n.sock = h.sock
      · have haud : audience cfg h (trailerOf w.outMsg.array) (n :: ns) =
            audience cfg h (trailerOf w.outMsg.array) ns := by
          simp [audience, hsock]
        rw [if_neg (by simp [hsock]), ih hlen, haud]
      · rw [if_pos hsock, htr]
        by_cases hadm : locationAdmits cfg h (trailerOf w.outMsg.array) n = true
        · have haud : audience cfg h (trailerOf w.outMsg.array) (n :: ns) =
              n :: audience cfg h (trailerOf w.outMsg.array) ns := by
            simp [audience, hsock, hadm]
          have harr := array_forward fw n.sock w
          simp only [hadm, if_true]
          rw [ih (by rw [harr]; exact hlen), harr, haud, List.map_cons, forwardAll]
        · have haud : audience cfg h (trailerOf w.outMsg.array) (n :: ns) =
              audience cfg h (trailerOf w.outMsg.array) ns := by
            simp [audience, hadm]
          simp only [hadm, Bool.false_eq_true, if_false]
          rw [ih hlen, haud]

theorem unicast_eq {r : Registry} {h : RequestHandler} {a : JChar}
    (hlen : 18 ≤ w.outMsg.array.length) :
    unicast cfg fw r h a w =
      match addressee cfg r h (trailerOf w.outMsg.array) a with
      | none => (.ret, w)
      | some n => forward fw n.sock w := by
  rw [unicast, addressee]
  cases r.isRegistedAddr a with
  | none => rfl
  | some i =>
      simp only [trailer_of_le hlen]
      split <;> rfl

/-! ## Forwarding -/

/-- The destination field of a frame, bytes 4 and 5. -/
def dstOf (bs : List Byte) : JChar := ofBE 16 ((bs.drop 4).take 2)

/-- `write` reads it with the unmasked decoder. -/
theorem byteArrayToCharAt_dstOf {bs : List Byte} (hlen : 6 ≤ bs.length) :
    byteArrayToCharAt bs 4 = .ok (charReadAs (dstOf bs)) := by
  match bs, hlen with
  | a :: b :: c :: d :: hi :: lo :: rest, _ =>
      have hdst : dstOf (a :: b :: c :: d :: hi :: lo :: rest) = hi ++ lo := ofBE_pair hi lo
      rw [hdst, ← charReadAs_pair]
      exact byteArrayToCharAt_append [a, b, c, d] rest hi lo

/-- **Forwarding** a message: one write to the addressee; unless it throws, a
message for the broadcast address then goes to the audience. -/
theorem writePoMsg_eq {r : Registry} {h : RequestHandler} (hlen : 18 ≤ w.outMsg.array.length) :
    writePoMsg cfg fw r h w =
      match (match addressee cfg r h (trailerOf w.outMsg.array) (charReadAs (dstOf w.outMsg.array)) with
          | none => ((.ret, w) : Outcome × WriteState)
          | some n => forward fw n.sock w) with
      | (.ret, w') =>
          (.ret, if charReadAs (dstOf w.outMsg.array) = 0xffff then
            forwardAll fw ((audience cfg h (trailerOf w.outMsg.array) r.reg).map NodeInfo.sock) w'
          else w')
      | (o, w') => (o, w') := by
  have h23 : byteArrayToAscii w.outMsg.array 2 3 = .ok () :=
    byteArrayToAscii_of_lt (by omega) (by omega)
  have h45 : byteArrayToAscii w.outMsg.array 4 5 = .ok () :=
    byteArrayToAscii_of_lt (by omega) (by omega)
  rw [writePoMsg, byteArrayToCharAt_dstOf (by omega), h23, h45, ← unicast_eq hlen]
  simp only [bind, Except.bind]
  rcases hu : unicast cfg fw r h (charReadAs (dstOf w.outMsg.array)) w with ⟨o, w'⟩
  cases o with
  | throws x => rfl
  | spins => rfl
  | ret =>
      have harr : w'.outMsg.array = w.outMsg.array := by
        rw [unicast_eq hlen] at hu
        split at hu
        · cases hu
          rfl
        · next n _ =>
          have := array_forward fw n.sock w
          rw [hu] at this
          exact this
      simp only
      split
      · rw [broadcast_eq (by rw [harr]; exact hlen), harr]
      · rfl

/-- Everyone written to is registered. -/
theorem mem_of_addressee {r : Registry} {h : RequestHandler} {t : JChar × JDouble × JDouble}
    {a : JChar} {n : NodeInfo} (hn : addressee cfg r h t a = some n) :
    n ∈ r.reg ∧ n.poNodeAddr = a ∧ locationAdmits cfg h t n = true := by
  rw [addressee] at hn
  split at hn
  · cases hn
  · next i hi =>
    split at hn
    · next hadm =>
      cases hn
      exact ⟨List.getElem_mem i.isLt, Registry.addr_of_isRegistedAddr hi, hadm⟩
    · cases hn

/-- **Step rule for `writePoMsg`**: what every write to a registered socket
preserves, forwarding does. -/
theorem writePoMsg_induct {P : WriteState → Prop} {r : Registry} {h : RequestHandler}
    (hlen : 18 ≤ w.outMsg.array.length)
    (hsent : ∀ w, ∀ s ∈ r.reg.map NodeInfo.sock, ∀ n, P w → (w.net s).isOpen = true →
      fw w.calls s = .accept n → P (w.sent s n))
    (hfailed : ∀ w, P w → P w.failed) (hw : P w) : P (writePoMsg cfg fw r h w).2 := by
  have hall : ∀ u, P u → P (forwardAll fw
      ((audience cfg h (trailerOf w.outMsg.array) r.reg).map NodeInfo.sock) u) := by
    intro u hu
    refine forwardAll_induct (fun v s hs => hsent v s ?_) hfailed hu
    obtain ⟨n, hn, rfl⟩ := List.mem_map.mp hs
    exact List.mem_map_of_mem (mem_audience.mp hn).1
  rw [writePoMsg_eq hlen]
  cases ha : addressee cfg r h (trailerOf w.outMsg.array) (charReadAs (dstOf w.outMsg.array)) with
  | none =>
      simp only
      split
      · exact hall w hw
      · exact hw
  | some n =>
      obtain ⟨k, ho, he, hfwd⟩ | ⟨-, hfwd⟩ := forward_cases fw n.sock w
      · have hone : P (w.sent n.sock k) :=
          hsent w n.sock (List.mem_map_of_mem (mem_of_addressee ha).1) k hw ho he
        simp only [hfwd]
        split
        · exact hall _ hone
        · exact hone
      · simp only [hfwd]
        exact hfailed w hw

/-- Forwarding ends, if not normally then by the `IOException` of its first
write. -/
theorem writePoMsg_outcome (cfg : Config) (fw : Nat → SocketId → WriteEvt) (r : Registry)
    (h : RequestHandler) (hlen : 18 ≤ w.outMsg.array.length) :
    (writePoMsg cfg fw r h w).1 = .ret ∨ (writePoMsg cfg fw r h w).1 = .throws .ioException := by
  rw [writePoMsg_eq hlen]
  cases addressee cfg r h (trailerOf w.outMsg.array) (charReadAs (dstOf w.outMsg.array)) with
  | none => exact Or.inl rfl
  | some n =>
      obtain ⟨k, -, -, hfwd⟩ | ⟨-, hfwd⟩ := forward_cases fw n.sock w
      · exact Or.inl (by simp only [hfwd])
      · exact Or.inr (by simp only [hfwd])

/-! ## The handler between dispatches -/

/-- What `process` leaves behind and `write` relies on: `outMsg` holds the
bytes of one frame, an operation is set only when there is one, and one to
forward is long enough for a location trailer. -/
structure Sound (h : RequestHandler) : Prop where
  whole : ∀ out, h.outMsg = some out → ∃ f : Frame, out.array = f.bytes
  owed : h.op ≠ none → ∃ out, h.outMsg = some out
  long : h.op = some .sendPoMsg → ∀ out, h.outMsg = some out → 18 ≤ out.array.length

theorem Sound.new (s : SocketId) : Sound (.new s) where
  whole _ hout := by cases hout
  owed hop := absurd rfl hop
  long hop := by cases hop

/-- The input buffers do not matter. -/
theorem Sound.sameButInput {h h' : RequestHandler} (hs : Sound h) (hsame : SameButInput h h') :
    Sound h' := by
  rw [hsame]
  exact ⟨hs.whole, hs.owed, hs.long⟩

theorem sameButInput_unread (h : RequestHandler) : SameButInput h h.unread := rfl

theorem sameButInput_holding (h : RequestHandler) (f : Frame) : SameButInput h (h.holding f) := rfl

/-- Processing a frame re-establishes it. -/
theorem Sound.settle {h : RequestHandler} (hs : Sound h) (clock : Nat → JLong) {r : Registry}
    {f : Frame} (hlong : ¬ Short r h.sock f) : Sound (settle clock r h f).2 := by
  rw [RequestHandler.settle]
  by_cases hreq : f.tag = REGISTRY_REQ
  · rw [if_pos hreq]
    constructor
    · intro out hout
      cases hout
      exact ⟨_, rfl⟩
    · exact fun _ => ⟨_, rfl⟩
    · intro hop
      cases hop
  · rw [if_neg hreq]
    by_cases hmsg : f.tag = POBICOS_MSG
    · rw [if_pos hmsg]
      have hout : (h.forwarding f).outMsg = some (.wrap f.bytes) := by
        rw [forwarding, takeLocation_outMsg, setOutMsg_outMsg]
      constructor
      · intro out hsome
        rw [hout] at hsome
        cases hsome
        exact ⟨f, rfl⟩
      · exact fun _ => ⟨_, hout⟩
      · intro _ out hsome
        have hlen := len_of_not_short hmsg hlong
        rw [hout] at hsome
        cases hsome
        exact le_length_bytes hlen
    · rw [if_neg hmsg]
      exact hs.sameButInput (sameButInput_holding h f)

/-- So does advancing the position of `outMsg`. -/
theorem Sound.setOutMsg {h : RequestHandler} (hs : Sound h) {out out' : ByteBuffer}
    (hout : h.outMsg = some out) (harr : out'.array = out.array) : Sound (h.setOutMsg out') where
  whole b hb := by
    cases hb
    rw [harr]
    exact hs.whole out hout
  owed _ := ⟨out', rfl⟩
  long hop b hb := by
    cases hb
    rw [harr]
    exact hs.long hop out hout

/-! ## write -/

section Write

variable {sc : Script} {r : Registry} {h : RequestHandler} {net : Net} {header out : ByteBuffer}

/-- Nothing read, nothing written. -/
theorem write_unread : write cfg sc r h.unread net = (.ret, h.unread, net) := rfl

/-- A reply is written by a loop to the client's own channel. -/
theorem write_sendRegMsg (hh : h.networkMsgHeader = some header) (hfull : header.remaining = 0)
    (hop : h.op = some .sendRegMsg) (hout : h.outMsg = some out) :
    write cfg sc r h net =
      ((writeLoop out (net h.sock) sc.replies).1,
        h.setOutMsg (writeLoop out (net h.sock) sc.replies).2.1,
        Function.update net h.sock (writeLoop out (net h.sock) sc.replies).2.2) := by
  simp [write, hh, ByteBuffer.hasRemaining_eq_false_iff.mpr hfull, hop, hout]

/-- A message is forwarded. -/
theorem write_sendPoMsg (hh : h.networkMsgHeader = some header) (hfull : header.remaining = 0)
    (hop : h.op = some .sendPoMsg) (hout : h.outMsg = some out) :
    write cfg sc r h net =
      ((writePoMsg cfg sc.forwards r h ⟨out, net, 0⟩).1,
        h.setOutMsg (writePoMsg cfg sc.forwards r h ⟨out, net, 0⟩).2.outMsg,
        (writePoMsg cfg sc.forwards r h ⟨out, net, 0⟩).2.net) := by
  simp [write, hh, ByteBuffer.hasRemaining_eq_false_iff.mpr hfull, hop, hout]

theorem write_none (hh : h.networkMsgHeader = some header) (hop : h.op = none) :
    write cfg sc r h net = (.ret, h, net) := by
  simp [write, hh, hop]

/-- Every channel is as it was, but for bytes written to it. -/
def Emitted (net net' : Net) : Prop := ∀ s, ∃ bs, net' s = (net s).emit bs

theorem Emitted.refl (net : Net) : Emitted net net := fun _ => ⟨[], (Channel.emit_nil _).symm⟩

theorem Emitted.update {net net' : Net} (h : Emitted net net') (s : SocketId) (bs : List Byte) :
    Emitted net (Function.update net' s ((net' s).emit bs)) := by
  intro t
  obtain ⟨b, hb⟩ := h t
  by_cases hts : t = s
  · cases hts
    exact ⟨b ++ bs, by rw [Function.update_self, hb, Channel.emit_emit]⟩
  · exact ⟨b, by rw [Function.update_of_ne hts, hb]⟩

theorem Emitted.inp {net net' : Net} (h : Emitted net net') (s : SocketId) :
    (net' s).inp = (net s).inp := by
  obtain ⟨bs, hbs⟩ := h s
  rw [hbs, Channel.emit_inp]

theorem Emitted.isOpen {net net' : Net} (h : Emitted net net') (s : SocketId) :
    (net' s).isOpen = (net s).isOpen := by
  obtain ⟨bs, hbs⟩ := h s
  rw [hbs, Channel.emit_isOpen]

/-- **What `write` can do**: it throws nothing but `IOException`, moves the
position of `outMsg`, and appends to channels. -/
theorem write_cases (cfg : Config) (sc : Script) (r : Registry) (net : Net) (hs : Sound h)
    (hh : h.networkMsgHeader = some header) (hfull : header.remaining = 0) :
    ((write cfg sc r h net).1 = .ret ∨ (write cfg sc r h net).1 = .throws .ioException ∨
      (write cfg sc r h net).1 = .spins ∧ h.op = some .sendRegMsg) ∧
    ((write cfg sc r h net).2.1 = h ∨ ∃ out out', h.outMsg = some out ∧ out'.array = out.array ∧
      (write cfg sc r h net).2.1 = h.setOutMsg out') ∧
    Emitted net (write cfg sc r h net).2.2 := by
  cases hop : h.op with
  | none =>
      rw [write_none hh hop]
      exact ⟨Or.inl rfl, Or.inl rfl, .refl net⟩
  | some op =>
      obtain ⟨out, hout⟩ := hs.owed (by rw [hop]; simp)
      cases op with
      | sendRegMsg =>
          rw [write_sendRegMsg hh hfull hop hout]
          obtain ⟨n, hn, -⟩ := writeLoop_spec out (net h.sock) sc.replies
          refine ⟨?_, Or.inr ⟨out, _, hout, ?_, rfl⟩, ?_⟩
          · match ho : (writeLoop out (net h.sock) sc.replies).1 with
            | .ret => exact Or.inl rfl
            | .throws x =>
                rw [writeLoop_throws ho]
                exact Or.inr (Or.inl rfl)
            | .spins => exact Or.inr (Or.inr ⟨rfl, rfl⟩)
          · rw [hn, ByteBuffer.array_advance]
          · rw [hn]
            exact (Emitted.refl net).update h.sock _
      | sendPoMsg =>
          have hlen := hs.long hop out hout
          rw [write_sendPoMsg hh hfull hop hout]
          have hinv : (writePoMsg cfg sc.forwards r h ⟨out, net, 0⟩).2.outMsg.array = out.array ∧
              Emitted net (writePoMsg cfg sc.forwards r h ⟨out, net, 0⟩).2.net := by
            refine writePoMsg_induct (P := fun w => w.outMsg.array = out.array ∧ Emitted net w.net)
              hlen ?_ (fun _ hw => hw) ⟨rfl, .refl net⟩
            intro w t _ n hw _ _
            exact ⟨hw.1, hw.2.update t _⟩
          refine ⟨?_, Or.inr ⟨out, _, hout, hinv.1, rfl⟩, hinv.2⟩
          obtain hret | hexc := writePoMsg_outcome cfg sc.forwards r h
            (w := ⟨out, net, 0⟩) hlen
          · exact Or.inl hret
          · exact Or.inr (Or.inl hexc)

end Write

end Pobicos.Directory.RequestHandler
