import Pobicos.Directory.Segmentation

/-!
# Pobicos.Directory.OutputFraming

The output side of the server: what a client has been sent.

A reply is written by a loop, a message by single writes that may take any
part of it; what they leave of it is not written by anybody else.  The output
of every client stays a stream of whole frames as long as every message that
is taken at all is taken whole, and no reply is broken off (`outputs_framed`);
a message taken in part cuts the stream (`half_a_message`).
-/

namespace Pobicos.Directory

open Nio Octets Framing NetworkMsg Serialization

namespace RequestHandler

variable {cfg : Config} {fw : Nat → SocketId → WriteEvt} {w : WriteState} {sc : Script} {r : Registry}
  {h : RequestHandler} {net : Net}

/-! ## Messages taken whole -/

/-- Of the successive writes of `n` bytes to the sockets `ss`, from the `i`-th
forwarding write on, the first to take any takes all. -/
def TakesAll (fw : Nat → SocketId → WriteEvt) (isOpen : SocketId → Bool) (n : Nat) :
    Nat → List SocketId → Prop
  | _, [] => True
  | i, s :: ss =>
      if isOpen s then
        match fw i s with
        | .accept 0 => TakesAll fw isOpen n (i + 1) ss
        | .accept (k + 1) => n ≤ k + 1
        | .fail => TakesAll fw isOpen n (i + 1) ss
      else TakesAll fw isOpen n (i + 1) ss

/-- **One of them gets all, or none gets any.** -/
theorem forwardAll_takesAll {ss : List SocketId}
    (hall : TakesAll fw (fun s => (w.net s).isOpen) w.outMsg.remaining w.calls ss) :
    ((forwardAll fw ss w).net = w.net ∧ (forwardAll fw ss w).outMsg = w.outMsg) ∨
    ∃ s i m, fw i s = .accept m ∧
      (forwardAll fw ss w).net = Function.update w.net s ((w.net s).emit w.outMsg.rest) ∧
      (forwardAll fw ss w).outMsg.remaining = 0 := by
  induction ss generalizing w with
  | nil => exact Or.inl ⟨rfl, rfl⟩
  | cons s ss ih =>
      rw [TakesAll] at hall
      rw [forwardAll]
      cases ho : (w.net s).isOpen with
      | false =>
          rw [ho, if_neg (by simp)] at hall
          rw [forward_fail (Or.inl ho)]
          exact ih hall
      | true =>
          rw [ho, if_pos rfl] at hall
          cases he : fw w.calls s with
          | fail =>
              rw [he] at hall
              rw [forward_fail (Or.inr he)]
              exact ih hall
          | accept m =>
            cases m with
            | zero =>
              rw [he] at hall
              have hnet : (w.sent s 0).net = w.net := by
                rw [WriteState.sent, List.take_zero, Channel.emit_nil, Function.update_eq_self]
              have hout : (w.sent s 0).outMsg = w.outMsg := by
                rw [outMsg_sent, ByteBuffer.advance_zero]
              rw [forward_accept ho he]
              have hih := ih (w := w.sent s 0) (by rw [hnet, hout]; exact hall)
              rwa [hnet, hout] at hih
            | succ k =>
              rw [he] at hall
              have hrem : (w.sent s (k + 1)).outMsg.remaining = 0 := by
                rw [outMsg_sent, ByteBuffer.remaining_advance]
                omega
              have htake : w.outMsg.rest.take (k + 1) = w.outMsg.rest :=
                List.take_of_length_le (by rw [ByteBuffer.length_rest]; exact hall)
              rw [forward_accept ho he]
              refine Or.inr ⟨s, w.calls, k + 1, he, ?_, (forwardAll_of_remaining hrem).2⟩
              rw [(forwardAll_of_remaining hrem).1, WriteState.sent, htake]

/-- The sockets `write` writes the message `bs` to, one after the other: the
addressee, unless that write throws, and for the broadcast address all others. -/
def targets (cfg : Config) (fw : Nat → SocketId → WriteEvt) (isOpen : SocketId → Bool) (r : Registry)
    (h : RequestHandler) (bs : List Byte) : List SocketId :=
  let others := if charReadAs (dstOf bs) = 0xffff then
    (audience cfg h (trailerOf bs) r.reg).map NodeInfo.sock else []
  match addressee cfg r h (trailerOf bs) (charReadAs (dstOf bs)) with
  | none => others
  | some n => if isOpen n.sock ∧ fw 0 n.sock ≠ .fail then n.sock :: others else []

theorem writePoMsg_targets (cfg : Config) (fw : Nat → SocketId → WriteEvt) (r : Registry)
    (h : RequestHandler) (hlen : 18 ≤ w.outMsg.array.length) (hcalls : w.calls = 0) :
    (writePoMsg cfg fw r h w).2.net =
        (forwardAll fw (targets cfg fw (fun s => (w.net s).isOpen) r h w.outMsg.array) w).net ∧
      (writePoMsg cfg fw r h w).2.outMsg =
        (forwardAll fw (targets cfg fw (fun s => (w.net s).isOpen) r h w.outMsg.array) w).outMsg := by
  rw [writePoMsg_eq hlen, targets]
  cases addressee cfg r h (trailerOf w.outMsg.array) (charReadAs (dstOf w.outMsg.array)) with
  | none =>
      simp only
      split <;> exact ⟨rfl, rfl⟩
  | some n =>
      obtain ⟨m, ho, he, hfwd⟩ | ⟨hfail, hfwd⟩ := forward_cases fw n.sock w
      · have htwo : (w.net n.sock).isOpen = true ∧ fw 0 n.sock ≠ .fail := by
          rw [← hcalls, he]
          exact ⟨ho, by simp⟩
        simp only [hfwd, if_pos htwo, forwardAll]
        split <;> exact ⟨rfl, rfl⟩
      · have hnot : ¬ ((w.net n.sock).isOpen = true ∧ fw 0 n.sock ≠ .fail) := by
          rw [← hcalls]
          rintro ⟨ho, hne⟩
          obtain hclosed | he := hfail
          · rw [hclosed] at ho
            cases ho
          · exact hne he
        simp only [hfwd, if_neg hnot]
        exact ⟨rfl, rfl⟩

/-! ## One dispatch -/

/-- What the channels do lets no frame be cut: a reply is written as a whole
or not at all, and of the writes of a message the first to take any takes all. -/
def WritesWhole (cfg : Config) (sc : Script) (isOpen : SocketId → Bool) (r : Registry)
    (h : RequestHandler) : Prop :=
  ∀ out, h.outMsg = some out →
    (h.op = some .sendRegMsg → allOrNone out.remaining sc.replies = true) ∧
    (h.op = some .sendPoMsg → TakesAll sc.forwards isOpen out.remaining 0
      (targets cfg sc.forwards isOpen r h out.array))

/-- `outMsg` is at its beginning or written out. -/
def Settled (h : RequestHandler) : Prop :=
  ∀ out, h.outMsg = some out → out.position = 0 ∨ out.remaining = 0

/-- Every client has been sent whole frames. -/
def Framed (net : Net) : Prop := ∀ s, IsStream (net s).outp

/-- What remains of a settled frame is the frame or nothing. -/
theorem Framed.emit_rest (hf : Framed net) {out : ByteBuffer} {f : Frame} (harr : out.array = f.bytes)
    (hout : out.position = 0 ∨ out.remaining = 0) (s : SocketId) :
    Framed (Function.update net s ((net s).emit out.rest)) := by
  intro t
  by_cases hts : t = s
  · cases hts
    rw [Function.update_self, Channel.emit_outp]
    obtain hpos | hrem := hout
    · rw [ByteBuffer.rest, hpos, List.drop_zero, harr]
      exact (hf s).append_frame f
    · have hrest : out.rest = [] := List.eq_nil_of_length_eq_zero (by rw [ByteBuffer.length_rest, hrem])
      rw [hrest, List.append_nil]
      exact hf s
  · rw [Function.update_of_ne hts]
    exact hf t

theorem Settled.setOutMsg {out : ByteBuffer} (hout : out.position = 0 ∨ out.remaining = 0) :
    Settled (h.setOutMsg out) := by
  intro b hb
  cases hb
  exact hout

/-- **A `write` that cuts no frame** leaves whole frames, and `outMsg` settled. -/
theorem write_framed {header : ByteBuffer} (hs : Sound h) (hh : h.networkMsgHeader = some header)
    (hfull : header.remaining = 0) (hset : Settled h)
    (hw : WritesWhole cfg sc (fun s => (net s).isOpen) r h)
    (hend : (write cfg sc r h net).1 ≠ .spins) (hf : Framed net) :
    Framed (write cfg sc r h net).2.2 ∧ Settled (write cfg sc r h net).2.1 := by
  cases hop : h.op with
  | none =>
      rw [write_none hh hop]
      exact ⟨hf, hset⟩
  | some op =>
      obtain ⟨out, hout⟩ := hs.owed (by rw [hop]; simp)
      obtain ⟨f, harr⟩ := hs.whole out hout
      have hpos := hset out hout
      obtain ⟨hreply, hmsg⟩ := hw out hout
      cases op with
      | sendRegMsg =>
          rw [write_sendRegMsg hh hfull hop hout] at hend ⊢
          obtain hsame | ⟨hrem, hemit⟩ := writeLoop_allOrNone (hreply hop) hend
          · rw [hsame, Function.update_eq_self]
            exact ⟨hf, Settled.setOutMsg hpos⟩
          · rw [hemit]
            exact ⟨hf.emit_rest harr hpos h.sock, Settled.setOutMsg (Or.inr hrem)⟩
      | sendPoMsg =>
          have hlen := hs.long hop out hout
          rw [write_sendPoMsg hh hfull hop hout]
          obtain ⟨hnet, houtMsg⟩ := writePoMsg_targets cfg sc.forwards r h
            (w := ⟨out, net, 0⟩) hlen rfl
          simp only
          rw [hnet, houtMsg]
          obtain ⟨hnet', hout'⟩ | ⟨s, -, -, -, hnet', hrem⟩ :=
            forwardAll_takesAll (w := ⟨out, net, 0⟩) (hmsg hop)
          · rw [hnet', hout']
            exact ⟨hf, Settled.setOutMsg hpos⟩
          · rw [hnet']
            exact ⟨hf.emit_rest harr hpos s, Settled.setOutMsg (Or.inr hrem)⟩

/-- What `process` hands to `write` is settled. -/
theorem Settled.settle (hset : Settled h) (clock : Nat → JLong) (r : Registry) (f : Frame) :
    Settled (settle clock r h f).2 := by
  rw [RequestHandler.settle]
  by_cases hreq : f.tag = REGISTRY_REQ
  · rw [if_pos hreq]
    exact Settled.setOutMsg (Or.inl rfl)
  · rw [if_neg hreq]
    by_cases hmsg : f.tag = POBICOS_MSG
    · rw [if_pos hmsg]
      intro out hout
      rw [forwarding, takeLocation_outMsg, setOutMsg_outMsg] at hout
      cases hout
      exact Or.inl rfl
    · rw [if_neg hmsg]
      exact hset

end RequestHandler

/-! ## Whole runs -/

namespace Server

open RequestHandler

variable {cfg : Config} {σ τ : Server}

/-- A dispatch that takes a frame cuts none of those it writes. -/
def CutsNothing (cfg : Config) (σ : Server) (a : Action) : Prop :=
  ∀ k sc hd f rest r h, a = .dispatch k sc → σ.handlers k = some hd →
    (σ.net k).inp = f.bytes ++ rest → process cfg sc.clock σ.registry (hd.holding f) = .ok (r, h) →
    WritesWhole cfg sc (fun s => (σ.net s).isOpen) r h

/-- Every client has been sent whole frames, and every handler is settled. -/
structure Whole (σ : Server) : Prop where
  attached : Attached σ
  settled : ∀ k hd, σ.handlers k = some hd → Settled hd
  framed : Framed σ.net

theorem whole_new : Whole Server.new where
  attached := attached_new
  settled k hd hk := by cases hk
  framed s := IsStream.nil

/-- An event that gives `k` the settled handler `h`. -/
theorem Whole.update {k : SocketId} {h : RequestHandler} (hσ : Whole σ) (hatt : Attached τ)
    (hset : Settled h) (hτ : τ.handlers = Function.update σ.handlers k (some h))
    (hf : Framed τ.net) : Whole τ where
  attached := hatt
  settled j hd hj := by
    by_cases hjk : j = k
    · rw [hτ, hjk, Function.update_self] at hj
      cases hj
      exact hset
    · rw [hτ, Function.update_of_ne hjk] at hj
      exact hσ.settled j hd hj
  framed := hf

/-- Channels that have been sent the same. -/
theorem framed_of_outp {net net' : Net} (hf : Framed net) (h : ∀ s, (net' s).outp = (net s).outp) :
    Framed net' := fun s => (h s).symm ▸ hf s

/-- **An event that cuts no frame leaves whole frames.** -/
theorem whole_step {a : Action} (hσ : Whole σ) (hok : CutsNothing cfg σ a)
    (h : step cfg σ a = some τ) : Whole τ := by
  have hatt := attached_step hσ.attached h
  cases a with
  | accept k =>
      obtain ⟨-, -, rfl⟩ := step_accept h
      refine hσ.update hatt (h := .new k) (fun out hout => (nomatch hout)) rfl fun s => ?_
      by_cases hsk : s = k
      · rw [net_accept, hsk, Function.update_self]
        exact IsStream.nil
      · rw [net_accept, Function.update_of_ne hsk]
        exact hσ.framed s
  | send k bs =>
      obtain ⟨-, rfl⟩ := step_send h
      refine ⟨hatt, hσ.settled, framed_of_outp hσ.framed fun s => ?_⟩
      by_cases hsk : s = k
      · rw [net_send, hsk, Function.update_self]
      · rw [net_send, Function.update_of_ne hsk]
  | dispatch k sc =>
      obtain ⟨-, hd, hk, hsock, hsound, hcases⟩ := dispatch_cases hσ.attached h
      have hset := hσ.settled k hd hk
      obtain ⟨-, rfl⟩ | ⟨h', c', -, hsame, hc', rfl⟩ | ⟨f, rest, htakes⟩ := hcases
      · exact hσ.update hatt (h := hd.unread) hset rfl hσ.framed
      · have hset' : Settled h' := by
          rw [hsame]
          exact hset
        exact hσ.update hatt hset' rfl (framed_of_outp hσ.framed (outp_of_failed hc'))
      · have hf := framed_of_outp hσ.framed (outp_taken σ.net k rest)
        by_cases hshort : Short σ.registry k f
        · rw [htakes.short hshort] at hatt ⊢
          exact hσ.update hatt (h := hd.holding f) hset rfl hf
        · obtain ⟨d, hserved, rfl⟩ := htakes.long hshort
          cases hsock
          have hp := process_holding cfg sc.clock hshort
          have hopen : (fun s => (taken σ.net hd.sock rest s).isOpen) = fun s => (σ.net s).isOpen :=
            funext fun s => isOpen_taken ..
          have hw := hok hd.sock sc hd f rest _ _ rfl hk htakes.inp hp
          rw [← hopen] at hw
          rw [served, Prod.mk.injEq] at hserved
          obtain ⟨hret, rfl⟩ := hserved
          have hend : (write cfg sc (settle sc.clock σ.registry hd f).1
              (settle sc.clock σ.registry hd f).2 (taken σ.net hd.sock rest)).1 ≠ .spins := by
            intro hspin
            simp only [host] at hret
            rw [hspin] at hret
            cases hret
          obtain ⟨hframed, hsettled⟩ := write_framed (hsound.settle sc.clock hshort)
            (settle_header ..) (ByteBuffer.remaining_full _) (hset.settle sc.clock σ.registry f) hw hend hf
          exact hσ.update hatt hsettled rfl hframed

/-- **Output framing**: in a run whose dispatches cut no frame, every client
has at any time been sent a stream of whole frames. -/
theorem outputs_framed {as : List Action} (hok : Lts.Along (step cfg) (CutsNothing cfg) .new as)
    (hrun : Lts.run (step cfg) .new as = some σ) (s : SocketId) : IsStream (σ.net s).outp :=
  (Lts.run_induct (fun _ _ _ hs hsa hst => whole_step hs hsa hst) hok whole_new hrun).framed s

/-- Room for a whole frame everywhere is room enough. -/
theorem takesAll_prompt (now : JLong) (isOpen : SocketId → Bool) {n : Nat} (hn : n ≤ 257) (i : Nat)
    (ss : List SocketId) : TakesAll (prompt now).forwards isOpen n i ss := by
  induction ss generalizing i with
  | nil => trivial
  | cons s ss ih =>
      rw [TakesAll]
      split
      · exact hn
      · exact ih (i + 1)

theorem cutsNothing_prompt (hatt : Attached σ) (k : SocketId) (now : JLong) :
    CutsNothing cfg σ (.dispatch k (prompt now)) := by
  intro k sc hd f rest r h ha hk _ hp out hout
  cases ha
  by_cases hshort : Short σ.registry hd.sock f
  · rw [process_short hshort] at hp
    cases hp
  · rw [process_holding _ _ hshort] at hp
    have hsound := (hatt.sound k hd hk).settle (prompt now).clock hshort
    rw [Except.ok.inj hp] at hsound
    obtain ⟨g, harr⟩ := hsound.whole out hout
    have hlen : out.remaining ≤ 257 := by
      have := g.length_bytes_le
      rw [ByteBuffer.remaining, harr]
      omega
    refine ⟨fun _ => ?_, fun _ => takesAll_prompt now _ hlen 0 _⟩
    have hnone : out.remaining - 257 = 0 := by omega
    rw [prompt, allOrNone, hnone]
    rfl

/-- So it is in a run of such dispatches. -/
theorem along_prompt {as : List Action} (hatt : Attached σ)
    (has : ∀ k sc, .dispatch k sc ∈ as → ∃ now, sc = prompt now) :
    Lts.Along (step cfg) (CutsNothing cfg) σ as := by
  induction as generalizing σ with
  | nil => trivial
  | cons a as ih =>
      refine ⟨?_, fun τ hst => ih (attached_step hatt hst) fun k sc hmem =>
        has k sc (List.mem_cons_of_mem _ hmem)⟩
      cases a with
      | accept k => exact fun _ _ _ _ _ _ _ ha => (nomatch ha)
      | send k bs => exact fun _ _ _ _ _ _ _ ha => (nomatch ha)
      | dispatch k sc =>
          obtain ⟨now, rfl⟩ := has k sc List.mem_cons_self
          exact cutsNothing_prompt hatt k now

/-- Two newcomers have been sent whole frames. -/
theorem outputs_framed_newcomers :
    ∃ σ, Lts.run (step everywhere) .new (newcomers 2) = some σ ∧ IsStream (σ.net 0).outp := by
  obtain ⟨σ, hrun, -⟩ := run_newcomers everywhere 2
  refine ⟨σ, hrun, outputs_framed (along_prompt attached_new fun k sc hmem => ⟨0, ?_⟩) hrun 0⟩
  simp only [newcomers, List.mem_flatMap, List.mem_cons, List.not_mem_nil, or_false] at hmem
  obtain ⟨j, -, hacc | hsend | hdisp⟩ := hmem
  · cases hacc
  · cases hsend
  · cases hdisp
    rfl

/-! ### A message taken in part -/

/-- A message is forwarded. -/
theorem step_pobicosMsg (cfg : Config) (sc : Script) {k : SocketId} {hd : RequestHandler} {f : Frame}
    {rest : List Byte} (ha : σ.alive = true) (hk : σ.handlers k = some hd) (hsock : hd.sock = k)
    (ho : (σ.net k).isOpen = true) (hinp : (σ.net k).inp = f.bytes ++ rest)
    (htag : f.tag = POBICOS_MSG) (hlong : 16 ≤ f.body.length) (hp : Progress sc.reads)
    (hlen : f.bytes.length ≤ sc.reads.length) :
    ∃ τ, step cfg σ (.dispatch k sc) = some τ ∧
      τ.net = (writePoMsg cfg sc.forwards (seen sc.clock σ.registry k) (hd.forwarding f)
        ⟨.wrap f.bytes, taken σ.net k rest, 0⟩).2.net := by
  cases hsock
  have hnot : ¬ Short σ.registry hd.sock f := not_short_of_pobicosMsg htag hlong
  have hrun := run_frame cfg sc (σ.host hd) ho hinp hp hlen
  rw [if_neg (by exact hnot), served_pobicosMsg rest htag] at hrun
  have hret : caught (writePoMsg cfg sc.forwards (seen sc.clock σ.registry hd.sock) (hd.forwarding f)
      ⟨.wrap f.bytes, taken σ.net hd.sock rest, 0⟩).1 = .ret := by
    have hwhole := le_length_bytes hlong
    obtain h | h := writePoMsg_outcome cfg sc.forwards (seen sc.clock σ.registry hd.sock)
      (hd.forwarding f) (w := ⟨.wrap f.bytes, taken σ.net hd.sock rest, 0⟩) hwhole
    · rw [h]
      rfl
    · rw [h]
      rfl
  refine ⟨_, step_of_run ha hk hrun ?_, rfl⟩
  intro hspin
  simp only [host] at hspin
  rw [hret] at hspin
  cases hspin

/-- The calls of `prompt 0`, with room for five bytes of a message. -/
def narrow : Script := { prompt 0 with forwards := fun _ _ => .accept 5 }

private theorem targets_firstNode (isOpen : SocketId → Bool) (ho : isOpen 0 = true)
    (h : RequestHandler) :
    targets everywhere narrow.forwards isOpen ⟨[firstNode], 2⟩ h (emptyMsg 1).bytes = [0] := by
  have hread : charReadAs (dstOf (emptyMsg 1).bytes) = 1 := by
    rw [dstOf_emptyMsg]
    decide
  have haddr : addressee everywhere ⟨[firstNode], 2⟩ h (trailerOf (emptyMsg 1).bytes) 1 =
      some firstNode := by
    have hfound : (⟨[firstNode], 2⟩ : Registry).isRegistedAddr 1 = some ⟨0, by decide⟩ := by decide
    rw [addressee, hfound]
    simp only [locationAdmits_emptyMsg, if_true]
    rfl
  have htwo : isOpen firstNode.sock = true ∧ narrow.forwards 0 firstNode.sock ≠ .fail :=
    ⟨ho, by simp [narrow]⟩
  rw [targets, hread, haddr]
  simp only [if_pos htwo]
  rfl

/-- The first node has been sent its reply and five bytes of a message. -/
theorem half_a_message :
    ∃ σ, Lts.run (step everywhere) .new (newcomers 1 ++
        [.accept 1, .send 1 (emptyMsg 1).bytes, .dispatch 1 narrow]) = some σ ∧
      ¬ IsStream (σ.net 0).outp := by
  obtain ⟨σ, hrun, ha, hreg, hfree, hnet⟩ := run_firstNode everywhere
  have hjoin := run_joined everywhere ha (hfree 1 (by decide)) (emptyMsg 1).bytes
  have hself : (σ.joined 1 (emptyMsg 1).bytes).handlers 1 = some (.new 1) := by simp
  have ho : ((σ.joined 1 (emptyMsg 1).bytes).net 1).isOpen = true := by simp
  have hinp : ((σ.joined 1 (emptyMsg 1).bytes).net 1).inp = (emptyMsg 1).bytes ++ [] := by simp
  have hregJ : (σ.joined 1 (emptyMsg 1).bytes).registry = ⟨[firstNode], 2⟩ := hreg
  obtain ⟨τ, hdisp, hτ⟩ := step_pobicosMsg everywhere narrow (σ := σ.joined 1 (emptyMsg 1).bytes) ha
    hself rfl ho hinp rfl (by simp [emptyMsg]) (progress_prompt 0) (length_le_prompt _ 0)
  refine ⟨τ, ?_, ?_⟩
  · have hsplit : [Action.accept 1, .send 1 (emptyMsg 1).bytes, .dispatch 1 narrow] =
        [.accept 1, .send 1 (emptyMsg 1).bytes] ++ [.dispatch 1 narrow] := rfl
    rw [Lts.run_append, hrun, Option.bind_some, hsplit, Lts.run_append, hjoin, Option.bind_some,
      Lts.run_singleton, hdisp]
  · have hseen : seen narrow.clock (σ.joined 1 (emptyMsg 1).bytes).registry 1 = ⟨[firstNode], 2⟩ := by
      rw [hregJ]
      rfl
    have hlen : 18 ≤ (ByteBuffer.wrap (emptyMsg 1).bytes).array.length := by
      rw [ByteBuffer.array_wrap, Frame.length_bytes]
      simp [emptyMsg]
    let w : WriteState := ⟨.wrap (emptyMsg 1).bytes, taken (σ.joined 1 (emptyMsg 1).bytes).net 1 [], 0⟩
    have hw : w.net 0 = σ.net 0 := by simp [w, taken]
    have hopen : (w.net 0).isOpen = true := by rw [hw, hnet]
    obtain ⟨hnet', -⟩ := writePoMsg_targets everywhere narrow.forwards ⟨[firstNode], 2⟩
      ((RequestHandler.new 1).forwarding (emptyMsg 1)) (w := w) hlen rfl
    have harr : w.outMsg.array = (emptyMsg 1).bytes := rfl
    rw [harr, targets_firstNode _ hopen, forwardAll, forwardAll,
      forward_accept hopen (n := 5) rfl] at hnet'
    have hout : (τ.net 0).outp = (welcomeReply firstNode.poNodeAddr firstNode.seed).bytes ++
        (emptyMsg 1).bytes.take 5 := by
      rw [hτ, hseen, hnet']
      change ((w.sent 0 5).net 0).outp = _
      rw [net_sent_self, Channel.emit_outp, hw, hnet]
      rfl
    have hstream : IsStream (welcomeReply firstNode.poNodeAddr firstNode.seed).bytes :=
      ⟨[_], (encode_singleton _).symm⟩
    rw [hout]
    exact hstream.not_append_cut (by decide) (by decide)

end Server

end Pobicos.Directory
