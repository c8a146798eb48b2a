import Pobicos.Directory.OutputFraming
import Pobicos.Directory.Routing

/-!
# Pobicos.Directory.UnknownFrames

Frames that are neither requests nor messages.

`process` leaves such a frame alone, and with it `op` and `outMsg`; `write`
then goes on with whatever they hold.  The frame is inert exactly when that
is nothing, or nothing that reaches anybody (`unknown_inert_iff`).
-/

namespace Pobicos.Directory.RequestHandler

open Nio Octets Framing NetworkMsg Serialization Server

variable {cfg : Config} {r : Registry} {h : RequestHandler} {net : Net} {f : Frame}

/-- Processing `f` writes no byte to any socket and leaves the registry as it
is, whatever the calls of the dispatch find. -/
def Inert (cfg : Config) (r : Registry) (h : RequestHandler) (net : Net) (f : Frame) : Prop :=
  ∀ sc, (serve cfg sc ⟨r, h.holding f, net⟩).2.registry = r ∧
    ∀ s, ((serve cfg sc ⟨r, h.holding f, net⟩).2.net s).outp = (net s).outp

/-- The sockets that `op` writes the bytes `bs` of `outMsg` to: a reply goes to
the client, a message to the addressee or else, with the broadcast address, to
all others. -/
def recipients (cfg : Config) (r : Registry) (h : RequestHandler) (bs : List Byte) : List SocketId :=
  match h.op with
  | none => []
  | some .sendRegMsg => [h.sock]
  | some .sendPoMsg =>
      match addressee cfg r h (trailerOf bs) (charReadAs (dstOf bs)) with
      | some n => [n.sock]
      | none =>
          if charReadAs (dstOf bs) = 0xffff then (audience cfg h (trailerOf bs) r.reg).map NodeInfo.sock
          else []

/-- Nothing of `outMsg` is left, or nobody it goes to is connected. -/
def Idle (cfg : Config) (r : Registry) (h : RequestHandler) (net : Net) : Prop :=
  ∀ out, h.outMsg = some out →
    out.remaining = 0 ∨ ∀ s ∈ recipients cfg r h out.array, (net s).isOpen = false

/-! ## What `write` does with what is left -/

/-- A frame of unknown type is not looked at. -/
theorem serve_unknown (cfg : Config) (sc : Script) (r : Registry) (h : RequestHandler) (net : Net)
    (hreq : f.tag ≠ REGISTRY_REQ) (hmsg : f.tag ≠ POBICOS_MSG) :
    serve cfg sc ⟨r, h.holding f, net⟩ =
      let q := write cfg sc r (h.holding f) net
      (q.1, ⟨r, q.2.1, q.2.2⟩) := by
  have hshort : ¬ Short r h.sock f := by
    rintro (⟨htag, -⟩ | ⟨htag, -⟩)
    · exact hreq htag
    · exact hmsg htag
  rw [serve, process_holding cfg sc.clock hshort, settle, if_neg hreq, if_neg hmsg]

theorem writeLoop_closed {b : ByteBuffer} {c : Channel} (ho : c.isOpen = false) (es : List WriteEvt) :
    (writeLoop b c es).2 = (b, c) := by
  by_cases hrem : 0 < b.remaining
  · cases es with
    | nil => rfl
    | cons e es => rw [writeLoop_not_accept hrem (Or.inl ho)]
  · rw [writeLoop_of_remaining (by omega)]

/-- With no recipient connected, nobody who is written to is. -/
theorem closed_of_mem_targets {fw : Nat → SocketId → WriteEvt} {bs : List Byte} {s : SocketId}
    (hop : h.op = some .sendPoMsg) (hidle : ∀ t ∈ recipients cfg r h bs, (net t).isOpen = false)
    (hs : s ∈ targets cfg fw (fun t => (net t).isOpen) r h bs) : (net s).isOpen = false := by
  rw [recipients, hop] at hidle
  rw [targets] at hs
  cases ha : addressee cfg r h (trailerOf bs) (charReadAs (dstOf bs)) with
  | none =>
      simp only [ha] at hidle hs
      exact hidle s hs
  | some n =>
      simp only [ha, List.mem_singleton, forall_eq] at hidle hs
      rw [hidle, if_neg (by simp)] at hs
      cases hs

/-- A connected recipient whose write does not fail is written to. -/
theorem mem_targets {fw : Nat → SocketId → WriteEvt} {bs : List Byte} {s : SocketId}
    (hop : h.op = some .sendPoMsg) (ho : (net s).isOpen = true) (hfw : fw 0 s ≠ .fail)
    (hs : s ∈ recipients cfg r h bs) : s ∈ targets cfg fw (fun t => (net t).isOpen) r h bs := by
  rw [recipients, hop] at hs
  rw [targets]
  cases ha : addressee cfg r h (trailerOf bs) (charReadAs (dstOf bs)) with
  | none =>
      simp only [ha] at hs
      exact hs
  | some n =>
      simp only [ha, List.mem_singleton] at hs
      rw [hs] at ho hfw
      simp only [if_pos (And.intro ho hfw), hs]
      exact List.mem_cons_self

/-- **Who is idle writes nothing.** -/
theorem write_idle (hs : Sound h) (hidle : Idle cfg r h net) (sc : Script) (f : Frame) :
    (write cfg sc r (h.holding f) net).2.2 = net := by
  have hfull : (ByteBuffer.full [f.tag, f.lengthByte]).remaining = 0 := ByteBuffer.remaining_full _
  cases hop : h.op with
  | none => rw [write_none (holding_header h f) (by exact hop)]
  | some op =>
      obtain ⟨out, hout⟩ := hs.owed (by rw [hop]; simp)
      have hleft := hidle out hout
      cases op with
      | sendRegMsg =>
          rw [write_sendRegMsg (h := h.holding f) rfl hfull hop hout]
          have hsame : (writeLoop out (net h.sock) sc.replies).2.2 = net h.sock := by
            obtain hrem | hclosed := hleft
            · rw [writeLoop_of_remaining hrem]
            · rw [recipients, hop] at hclosed
              rw [writeLoop_closed (hclosed h.sock (List.mem_singleton_self _))]
          exact (congrArg (Function.update net h.sock) hsame).trans (Function.update_eq_self ..)
      | sendPoMsg =>
          have hlen := hs.long hop out hout
          rw [write_sendPoMsg (h := h.holding f) rfl hfull hop hout]
          obtain ⟨hnet, -⟩ := writePoMsg_targets cfg sc.forwards r (h.holding f)
            (w := ⟨out, net, 0⟩) hlen rfl
          refine hnet.trans ?_
          obtain hrem | hclosed := hleft
          · exact (forwardAll_of_remaining hrem).1
          · refine (forwardAll_of_failing fun s hmem => Or.inl ?_).1
            exact closed_of_mem_targets (h := h.holding f) hop hclosed hmem

/-- With room for everything, a connected recipient makes `write` write. -/
theorem write_of_recipient (hs : Sound h) {out : ByteBuffer} (hout : h.outMsg = some out)
    (hrem : out.remaining ≠ 0) {s : SocketId} (hmem : s ∈ recipients cfg r h out.array)
    (ho : (net s).isOpen = true) (f : Frame) :
    ∃ t, ((write cfg (prompt 0) r (h.holding f) net).2.2 t).outp = (net t).outp ++ out.rest := by
  have hfull : (ByteBuffer.full [f.tag, f.lengthByte]).remaining = 0 := ByteBuffer.remaining_full _
  have hroom : out.remaining ≤ 257 := by
    obtain ⟨g, harr⟩ := hs.whole out hout
    have hle := g.length_bytes_le
    rw [← harr] at hle
    have hrest := out.length_rest
    rw [ByteBuffer.rest, List.length_drop] at hrest
    omega
  have htake : out.rest.take 257 = out.rest := List.take_of_length_le (by rw [out.length_rest]; exact hroom)
  cases hop : h.op with
  | none =>
      rw [recipients, hop] at hmem
      cases hmem
  | some op =>
      cases op with
      | sendRegMsg =>
          rw [recipients, hop] at hmem
          cases List.mem_singleton.mp hmem
          have hdone : (out.advance 257).remaining = 0 := by
            rw [ByteBuffer.remaining_advance]
            omega
          refine ⟨h.sock, ?_⟩
          rw [write_sendRegMsg (h := h.holding f) rfl hfull hop hout]
          have hloop : (writeLoop out (net h.sock) (prompt 0).replies).2.2 = (net h.sock).emit out.rest := by
            rw [prompt, writeLoop_accept (by omega) ho, writeLoop_of_remaining hdone, htake]
          exact (congrArg Channel.outp (Function.update_self ..)).trans (congrArg Channel.outp hloop)
      | sendPoMsg =>
          have hlen := hs.long hop out hout
          rw [write_sendPoMsg (h := h.holding f) rfl hfull hop hout]
          obtain ⟨hnet, -⟩ := writePoMsg_targets cfg (prompt 0).forwards r (h.holding f)
            (w := ⟨out, net, 0⟩) hlen rfl
          have htarget : s ∈ targets cfg (prompt 0).forwards (fun t => (net t).isOpen) r (h.holding f)
              out.array := mem_targets (h := h.holding f) hop ho WriteEvt.noConfusion hmem
          have haccept : ∀ i, ∀ t ∈ targets cfg (prompt 0).forwards (fun t => (net t).isOpen) r (h.holding f) out.array,
              ∃ n, out.remaining ≤ n ∧ (prompt 0).forwards i t = .accept n := fun i t _ => ⟨257, hroom, rfl⟩
          obtain ⟨hclosed, -⟩ | ⟨t, -, -, hone⟩ := forwardAll_accepting ⟨out, net, 0⟩ _ haccept
          · rw [hclosed s htarget] at ho
            cases ho
          · refine ⟨t, ?_⟩
            have hsent := congrFun (hnet.trans hone) t
            simp only
            rw [hsent, outp_update_emit, if_pos rfl]

/-- **Unknown frames**: one is inert exactly when nothing is left over that
reaches anybody. -/
theorem unknown_inert_iff {σ : Server} {k : SocketId} {hd : RequestHandler} (rest : List Byte)
    (hσ : Server.Reachable cfg σ) (hk : σ.handlers k = some hd) (hreq : f.tag ≠ REGISTRY_REQ)
    (hmsg : f.tag ≠ POBICOS_MSG) :
    Inert cfg σ.registry hd (taken σ.net k rest) f ↔
      Idle cfg σ.registry hd (taken σ.net k rest) := by
  have hs := (attached_reachable hσ).sound k hd hk
  constructor
  · intro hinert out hout
    by_cases hrem : out.remaining = 0
    · exact Or.inl hrem
    · refine Or.inr fun s hmem => ?_
      by_contra ho
      rw [Bool.not_eq_false] at ho
      obtain ⟨t, ht⟩ := write_of_recipient hs hout hrem hmem ho f
      have hsame := (hinert (prompt 0)).2 t
      rw [serve_unknown cfg (prompt 0) σ.registry hd _ hreq hmsg] at hsame
      have hnil : out.rest = [] := List.self_eq_append_right.mp (hsame.symm.trans ht)
      exact hrem (by rw [← out.length_rest, hnil]; rfl)
  · intro hidle sc
    have hnet := write_idle hs hidle sc f
    rw [serve_unknown cfg sc σ.registry hd _ hreq hmsg]
    exact ⟨rfl, fun s => congrArg Channel.outp (congrFun hnet s)⟩

/-- A client sends a message to the address 1, which is nobody's; then another
client registers, and is given the address 1. -/
def lateComer : List Action :=
  [.accept 0, .send 0 (emptyMsg 1).bytes, .dispatch 0 (prompt 0),
    .accept 1, .send 1 firstRequest.bytes, .dispatch 1 (prompt 0)]

/-- A frame of no known type. -/
def unknownFrame : Frame := .empty 0x7f

/-- What they leave behind, and the handler of the first client in it. -/
def joinedLate : Server := (Lts.run (Server.step everywhere) .new lateComer).get (by decide +kernel)

def leftWith : RequestHandler := (joinedLate.handlers 0).get (by decide +kernel)

theorem run_lateComer : Lts.run (Server.step everywhere) .new lateComer = some joinedLate :=
  (Option.some_get _).symm

/-- The message is sent once more. -/
theorem unknown_resends :
    Server.Reachable everywhere joinedLate ∧ joinedLate.handlers 0 = some leftWith ∧
      ¬ Inert everywhere joinedLate.registry leftWith (taken joinedLate.net 0 []) unknownFrame := by
  refine ⟨⟨_, run_lateComer⟩, (Option.some_get _).symm, ?_⟩
  intro hinert
  have hsame := (hinert (prompt 0)).2 1
  revert hsame
  decide +kernel

/-- The equivalence for the two clients. -/
theorem unknown_inert_iff_lateComer :
    Inert everywhere joinedLate.registry leftWith (taken joinedLate.net 0 []) unknownFrame ↔
      Idle everywhere joinedLate.registry leftWith (taken joinedLate.net 0 []) :=
  unknown_inert_iff [] ⟨_, run_lateComer⟩ (Option.some_get _).symm (by decide) (by decide)

end Pobicos.Directory.RequestHandler
