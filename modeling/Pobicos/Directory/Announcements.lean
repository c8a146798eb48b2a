import Pobicos.Directory.Integrity
import Pobicos.Directory.OutputFraming

/-!
# Pobicos.Directory.Announcements

What the server tells its clients over connections that may break.

A connection a dispatch has found broken stays broken, so that what the server
has begun to write to it is not followed by anything else.  As long as every
message that is taken at all is taken whole, a client has been sent whole
frames, but for the end of a broken connection, and a `WELCOME` among them
gives the identity of the client's own record (`announced_dispatch`).
-/

namespace Pobicos.Directory

open Nio Octets Framing NetworkMsg

/-! ## Broken connections -/

/-- A call on a broken connection fails. -/
def brokenRead : ReadEvt → ReadEvt
  | .ready _ => .fail
  | e => e

/-- The calls of a dispatch of `k` while the connections `down` are broken. -/
def Script.over (down : SocketId → Bool) (k : SocketId) (sc : Script) : Script where
  reads := if down k then sc.reads.map brokenRead else sc.reads
  clock := sc.clock
  replies := if down k then sc.replies.map fun _ => .fail else sc.replies
  forwards := fun i s => if down s then .fail else sc.forwards i s

/-- A call on the connection of the dispatch has failed, or has found its end. -/
def Script.breaks (sc : Script) : Bool :=
  sc.reads.any (fun e => brokenRead e == e) || sc.replies.any (· == .fail)

theorem Script.over_of_up {down : SocketId → Bool} {k : SocketId} (hk : down k = false) (sc : Script) :
    (sc.over down k).reads = sc.reads ∧ (sc.over down k).replies = sc.replies := by
  simp [Script.over, hk]

/-- A connection that does not break is healthy, and takes every reply. -/
theorem Script.steady {sc : Script} (h : sc.breaks = false) :
    Healthy sc.reads ∧ .fail ∉ sc.replies := by
  simp only [Script.breaks, Bool.or_eq_false_iff, List.any_eq_false, beq_iff_eq] at h
  obtain ⟨hreads, hreplies⟩ := h
  refine ⟨fun e he => ?_, fun hmem => hreplies .fail hmem rfl⟩
  cases e with
  | ready n => exact ⟨n, rfl⟩
  | eof => exact absurd rfl (hreads _ he)
  | fail => exact absurd rfl (hreads _ he)

namespace RequestHandler

/-- Nothing is read from a broken connection. -/
theorem read_broken (h : RequestHandler) (c : Channel) (es : List ReadEvt) :
    (read h c (es.map brokenRead)).1 ≠ .ret := by
  cases es with
  | nil => simp [read]
  | cons e es =>
      cases ho : c.isOpen <;> cases e <;> simp [read, Channel.read, brokenRead, ho]

/-! ## One write -/

variable {cfg : Config} {sc : Script} {r : Registry} {h : RequestHandler} {net : Net}

instance decidableTakesAll (fw : Nat → SocketId → WriteEvt) (isOpen : SocketId → Bool) (n : Nat) :
    (i : Nat) → (ss : List SocketId) → Decidable (TakesAll fw isOpen n i ss)
  | _, [] => isTrue trivial
  | i, s :: ss =>
      haveI := decidableTakesAll fw isOpen n (i + 1) ss
      match ho : isOpen s, he : fw i s with
      | false, _ => decidable_of_iff (TakesAll fw isOpen n (i + 1) ss) (by simp [TakesAll, ho])
      | true, .fail => decidable_of_iff (TakesAll fw isOpen n (i + 1) ss) (by simp [TakesAll, ho, he])
      | true, .accept 0 => decidable_of_iff (TakesAll fw isOpen n (i + 1) ss) (by simp [TakesAll, ho, he])
      | true, .accept (k + 1) => decidable_of_iff (n ≤ k + 1) (by simp [TakesAll, ho, he])

/-- Of the writes of a message, if there is one to forward, the first to take
any takes all. -/
def ForwardsWhole (cfg : Config) (sc : Script) (isOpen : SocketId → Bool) (r : Registry)
    (h : RequestHandler) : Prop :=
  match h.op, h.outMsg with
  | some .sendPoMsg, some out => TakesAll sc.forwards isOpen out.remaining 0
      (targets cfg sc.forwards isOpen r h out.array)
  | _, _ => True

instance (cfg : Config) (sc : Script) (isOpen : SocketId → Bool) (r : Registry) (h : RequestHandler) :
    Decidable (ForwardsWhole cfg sc isOpen r h) := by
  unfold ForwardsWhole
  split <;> infer_instance

/-- **What `write` does** if it forwards a message whole: it writes nothing, or
as much of a reply as the client's own connection takes, or a message to one
other connection that takes it. -/
theorem write_outcome {header : ByteBuffer} (hs : Sound h) (hh : h.networkMsgHeader = some header)
    (hfull : header.remaining = 0) (hw : ForwardsWhole cfg sc (fun s => (net s).isOpen) r h)
    (ho : (net h.sock).isOpen = true) (hend : (write cfg sc r h net).1 ≠ .spins) :
    ((write cfg sc r h net).2.2 = net ∧ ((write cfg sc r h net).2.1 = h ∨ ∃ out, h.outMsg = some out ∧
      (write cfg sc r h net).2.1 = h.setOutMsg out)) ∨
    (∃ out n, h.op = some .sendRegMsg ∧ h.outMsg = some out ∧
      (write cfg sc r h net).2 = (h.setOutMsg (out.advance n),
        Function.update net h.sock ((net h.sock).emit (out.rest.take n))) ∧
      (.fail ∉ sc.replies → out.remaining ≤ n)) ∨
    ∃ out out' s i m, h.op = some .sendPoMsg ∧ h.outMsg = some out ∧ sc.forwards i s = .accept m ∧
      out'.array = out.array ∧ out'.remaining = 0 ∧
      (write cfg sc r h net).2 =
        (h.setOutMsg out', Function.update net s ((net s).emit out.rest)) := by
  cases hop : h.op with
  | none =>
      rw [write_none hh hop]
      exact Or.inl ⟨rfl, Or.inl rfl⟩
  | some op =>
      obtain ⟨out, hout⟩ := hs.owed (by rw [hop]; simp)
      cases op with
      | sendRegMsg =>
          rw [write_sendRegMsg hh hfull hop hout] at hend ⊢
          obtain ⟨n, hn, hret⟩ := writeLoop_spec out (net h.sock) sc.replies
          refine Or.inr (Or.inl ⟨out, n, rfl, hout, by rw [hn], fun hsteady => hret ?_⟩)
          have hne := writeLoop_completes ho (completes_of_not_mem hsteady out.remaining)
          cases hloop : (writeLoop out (net h.sock) sc.replies).1 with
          | ret => rfl
          | throws x => exact absurd hloop (hne x)
          | spins => exact absurd hloop hend
      | sendPoMsg =>
          have hlen := hs.long hop out hout
          rw [ForwardsWhole, hop, hout] at hw
          rw [write_sendPoMsg hh hfull hop hout]
          obtain ⟨hnet, houtMsg⟩ := writePoMsg_targets cfg sc.forwards r h (w := ⟨out, net, 0⟩) hlen rfl
          have harr : (writePoMsg cfg sc.forwards r h ⟨out, net, 0⟩).2.outMsg.array = out.array :=
            writePoMsg_induct (P := fun w => w.outMsg.array = out.array) hlen
              (fun _ _ _ _ hw _ _ => hw) (fun _ hw => hw) rfl
          dsimp only
          obtain ⟨hnet', hout'⟩ | ⟨s, i, m, hacc, hnet', hrem⟩ :=
            forwardAll_takesAll (w := ⟨out, net, 0⟩) hw
          · exact Or.inl ⟨hnet.trans hnet', Or.inr ⟨out, hout, by rw [houtMsg, hout']⟩⟩
          · refine Or.inr (Or.inr ⟨out, _, s, i, m, rfl, hout, hacc, harr, ?_, ?_⟩)
            · rw [houtMsg]
              exact hrem
            · rw [hnet, hnet']

end RequestHandler

/-! ## What a client has been sent -/

open RequestHandler

/-- A `WELCOME` for `k` gives the identity of its record. -/
def Genuine (l : Ledger) (k : SocketId) (f : Frame) : Prop :=
  f.tag = REG_REPLY_WELCOME → ∃ i ∈ l, i.sock = k ∧ f = welcomeReply i.addr i.seed

/-- The bytes are whole frames for `k`; on a broken connection the last one may
be cut. -/
def Told (l : Ledger) (down : Bool) (k : SocketId) (bs : List Byte) : Prop :=
  ∃ fs cut, bs = encode fs ++ cut ∧ decode cut = none ∧ (down = false → cut = []) ∧
    ∀ f ∈ fs, Genuine l k f

/-- What the handler of `k` has to write is a whole frame, unless the
connection is broken; a `WELCOME` is a reply to `k`. -/
structure Owes (l : Ledger) (down : Bool) (k : SocketId) (h : RequestHandler) : Prop where
  settled : down = false → Settled h
  genuine : ∀ out (f : Frame), h.outMsg = some out → out.array = f.bytes → Genuine l k f
  welcome : ∀ out (f : Frame), h.outMsg = some out → out.array = f.bytes → f.tag = REG_REPLY_WELCOME →
    h.op = some .sendRegMsg

variable {l l' : Ledger} {down down' : Bool} {k : SocketId} {bs : List Byte} {f : Frame}
  {h h' : RequestHandler}

/-- Records are only added. -/
theorem Genuine.mono (hf : Genuine l k f) (hl : l <+: l') : Genuine l' k f := fun htag => by
  obtain ⟨i, hi, hik, rfl⟩ := hf htag
  exact ⟨i, hl.subset hi, hik, rfl⟩

theorem genuine_of_ne (hne : f.tag ≠ REG_REPLY_WELCOME) : Genuine l k f := fun htag => absurd htag hne

theorem Told.nil : Told l down k [] := ⟨[], [], rfl, rfl, fun _ => rfl, fun _ hf => (nomatch hf)⟩

theorem Told.mono (ht : Told l down k bs) (hl : l <+: l') (hdown : down' = false → down = false) :
    Told l' down' k bs := by
  obtain ⟨fs, cut, hbs, hcut, hup, hfs⟩ := ht
  exact ⟨fs, cut, hbs, hcut, fun hd => hup (hdown hd), fun f hf => (hfs f hf).mono hl⟩

/-- A whole frame follows. -/
theorem Told.append (ht : Told l false k bs) (hf : Genuine l k f) : Told l down k (bs ++ f.bytes) := by
  obtain ⟨fs, cut, rfl, -, hup, hfs⟩ := ht
  refine ⟨fs ++ [f], [], by simp [hup rfl], rfl, fun _ => rfl, fun g hg => ?_⟩
  obtain hg | hg := List.mem_append.mp hg
  · exact hfs g hg
  · rw [List.mem_singleton.mp hg]
    exact hf

/-- Part of a frame follows, and the connection is broken. -/
theorem Told.append_cut (ht : Told l false k bs) {n : Nat} (hn : n < f.bytes.length) :
    Told l true k (bs ++ f.bytes.take n) := by
  obtain ⟨fs, cut, rfl, -, hup, hfs⟩ := ht
  exact ⟨fs, f.bytes.take n, by simp [hup rfl], decode_take hn, fun hd => (nomatch hd), hfs⟩

theorem Owes.new : Owes l down k (.new k) where
  settled _ _ hout := (nomatch hout)
  genuine _ _ hout := (nomatch hout)
  welcome _ _ hout := (nomatch hout)

theorem Owes.mono (ho : Owes l down k h) (hl : l <+: l') (hdown : down' = false → down = false) :
    Owes l' down' k h where
  settled hd := ho.settled (hdown hd)
  genuine out f hout harr := (ho.genuine out f hout harr).mono hl
  welcome := ho.welcome

/-- The input buffers do not matter. -/
theorem Owes.sameButInput (ho : Owes l down k h) (hsame : SameButInput h h') : Owes l down k h' := by
  rw [hsame]
  exact ⟨ho.settled, ho.genuine, ho.welcome⟩

/-- The position of `outMsg` is moved. -/
theorem Owes.setOutMsg (ho : Owes l down k h) {out out' : ByteBuffer} (hout : h.outMsg = some out)
    (harr : out'.array = out.array) (hset : down' = false → out'.position = 0 ∨ out'.remaining = 0) :
    Owes l down' k (h.setOutMsg out') where
  settled hd := Settled.setOutMsg (hset hd)
  genuine b f hb hf := by
    cases hb
    exact ho.genuine out f hout (harr ▸ hf)
  welcome b f hb hf := by
    cases hb
    exact ho.welcome out f hout (harr ▸ hf)

/-- The handler has been given the frame `f` to write. -/
private theorem Owes.of_bytes (hout : h.outMsg = some (.wrap f.bytes)) (hf : Genuine l k f)
    (hop : f.tag = REG_REPLY_WELCOME → h.op = some .sendRegMsg) : Owes l down k h := by
  have hone : ∀ out (g : Frame), h.outMsg = some out → out.array = g.bytes → g = f := by
    intro out g hsome harr
    rw [hout] at hsome
    cases hsome
    exact Frame.bytes_inj harr.symm
  constructor
  · intro _ out hsome
    rw [hout] at hsome
    cases hsome
    exact Or.inl rfl
  · intro out g hsome harr
    rw [hone out g hsome harr]
    exact hf
  · intro out g hsome harr htag
    rw [hone out g hsome harr] at htag
    exact hop htag

/-- **`process` announces a record to its own client only.** -/
theorem Owes.settle {clock : Nat → JLong} {r : Registry} (ho : Owes r.ledger down h.sock h)
    (hc : r.Counted) (f : Frame) :
    Owes (settle clock r h f).1.ledger down h.sock (settle clock r h f).2 := by
  obtain ⟨-, hfirst, hother⟩ := settle_ledger clock hc h f
  by_cases hf : f.tag = REGISTRY_REQ ∧ FirstTime r h.sock f.body
  · obtain ⟨-, happend⟩ := Ledger.enrol_eq_some.mp (hfirst hf)
    rw [settle_first clock hc hf, happend]
    refine Owes.of_bytes (f := welcomeReply r.ledger.nextAddr (newSeed clock)) rfl (fun _ => ?_)
      fun _ => rfl
    exact ⟨_, List.mem_append_right _ (List.mem_singleton_self _), rfl, rfl⟩
  · rw [hother hf, RequestHandler.settle]
    by_cases hreq : f.tag = REGISTRY_REQ
    · have htag := answer_tag_of_known clock fun hfirst => hf ⟨hreq, hfirst⟩
      rw [if_pos hreq]
      exact Owes.of_bytes rfl (genuine_of_ne htag) fun _ => rfl
    · rw [if_neg hreq]
      by_cases hmsg : f.tag = POBICOS_MSG
      · have htag : f.tag ≠ REG_REPLY_WELCOME := by
          rw [hmsg]
          decide
        have hout : (h.forwarding f).outMsg = some (.wrap f.bytes) := by simp [forwarding]
        rw [if_pos hmsg]
        exact Owes.of_bytes hout (genuine_of_ne htag) fun hw => absurd hw htag
      · rw [if_neg hmsg]
        exact ho.sameButInput (sameButInput_holding h f)

/-! ## The server -/

namespace Server

variable {cfg : Config} {σ τ : Server} {down down' : SocketId → Bool} {sc : Script}

/-- A dispatch that takes a message forwards it whole. -/
def ForwardsWhole (cfg : Config) (σ : Server) (k : SocketId) (sc : Script) : Prop :=
  match σ.handlers k with
  | none => True
  | some hd =>
      match RequestHandler.read hd (σ.net k) sc.reads with
      | (.ret, h, _) =>
          if heldBy h = [] then True
          else
            match process cfg sc.clock σ.registry h with
            | .ok (r, h) => h.ForwardsWhole cfg sc (fun s => (σ.net s).isOpen) r
            | .error _ => True
      | _ => True

instance (cfg : Config) (σ : Server) (k : SocketId) (sc : Script) :
    Decidable (ForwardsWhole cfg σ k sc) := by
  unfold ForwardsWhole
  repeat' split
  all_goals infer_instance

/-- Every client has been told whole frames and its own identity only, and its
handler owes it nothing else. -/
structure Announced (cfg : Config) (down : SocketId → Bool) (σ : Server) : Prop where
  reachable : Reachable cfg σ
  isOpen : ∀ k h, σ.handlers k = some h → down k = false → (σ.net k).isOpen = true
  owes : ∀ k h, σ.handlers k = some h → Owes σ.ledger (down k) k h
  told : ∀ k, Told σ.ledger (down k) k (σ.net k).outp

theorem announced_new (cfg : Config) : Announced cfg (fun _ => false) .new where
  reachable := .refl
  isOpen _ _ hk := (nomatch hk)
  owes _ _ hk := (nomatch hk)
  told _ := .nil

theorem Announced.accept (hσ : Announced cfg down σ) (h : step cfg σ (.accept k) = some τ) :
    Announced cfg down τ := by
  have hτ : Reachable cfg τ := hσ.reachable.of_step h
  obtain ⟨-, -, rfl⟩ := step_accept h
  refine ⟨hτ, fun j hd hj hup => ?_, fun j hd hj => ?_, fun j => ?_⟩
  · by_cases hjk : j = k
    · rw [net_accept, hjk, Function.update_self]
    · rw [net_accept, Function.update_of_ne hjk]
      exact hσ.isOpen j hd ((Function.update_of_ne hjk ..).symm.trans hj) hup
  · by_cases hjk : j = k
    · cases hjk
      cases (Function.update_self ..).symm.trans hj
      exact .new
    · exact hσ.owes j hd ((Function.update_of_ne hjk ..).symm.trans hj)
  · by_cases hjk : j = k
    · rw [net_accept, hjk, Function.update_self]
      exact .nil
    · rw [net_accept, Function.update_of_ne hjk]
      exact hσ.told j

theorem Announced.send {bs : List Byte} (hσ : Announced cfg down σ)
    (h : step cfg σ (.send k bs) = some τ) : Announced cfg down τ := by
  have hτ : Reachable cfg τ := hσ.reachable.of_step h
  obtain ⟨-, rfl⟩ := step_send h
  have hnet : ∀ j, ((σ.send k bs).net j).isOpen = (σ.net j).isOpen ∧
      ((σ.send k bs).net j).outp = (σ.net j).outp := by
    intro j
    rw [net_send]
    by_cases hjk : j = k
    · rw [hjk, Function.update_self]
      exact ⟨rfl, rfl⟩
    · rw [Function.update_of_ne hjk]
      exact ⟨rfl, rfl⟩
  refine ⟨hτ, fun j hd hj hup => (hnet j).1.trans (hσ.isOpen j hd hj hup), hσ.owes, fun j => ?_⟩
  rw [(hnet j).2]
  exact hσ.told j

/-- An event that gives `k` the handler `h`, and may break connections. -/
theorem Announced.update {hd h : RequestHandler} (hσ : Announced cfg down σ) (hτ : Reachable cfg τ)
    (hl : σ.ledger <+: τ.ledger) (hdown : ∀ j, down' j = false → down j = false)
    (hk : σ.handlers k = some hd) (hhandlers : τ.handlers = Function.update σ.handlers k (some h))
    (howes : Owes τ.ledger (down' k) k h)
    (hopen : ∀ j, down' j = false → (τ.net j).isOpen = (σ.net j).isOpen)
    (htold : ∀ j, Told τ.ledger (down' j) j (τ.net j).outp) : Announced cfg down' τ := by
  refine ⟨hτ, fun j h' hj hup => ?_, fun j h' hj => ?_, htold⟩
  · rw [hopen j hup]
    by_cases hjk : j = k
    · rw [hjk] at hup ⊢
      exact hσ.isOpen k hd hk (hdown k hup)
    · rw [hhandlers, Function.update_of_ne hjk] at hj
      exact hσ.isOpen j h' hj (hdown j hup)
  · by_cases hjk : j = k
    · rw [hjk] at hj ⊢
      rw [hhandlers, Function.update_self] at hj
      cases hj
      exact howes
    · rw [hhandlers, Function.update_of_ne hjk] at hj
      exact (hσ.owes j h' hj).mono hl (hdown j)

/-- Nothing that has been written is taken back. -/
theorem outp_dispatch (hatt : Attached σ) (h : step cfg σ (.dispatch k sc) = some τ) (j : SocketId) :
    (σ.net j).outp <+: (τ.net j).outp := by
  obtain ⟨-, hd, -, hsock, hsound, hcases⟩ := dispatch_cases hatt h
  obtain ⟨-, rfl⟩ | ⟨h', c', -, -, hc', rfl⟩ | ⟨f, rest, htakes⟩ := hcases
  · exact List.prefix_rfl
  · simp [outp_of_failed hc' j]
  · by_cases hshort : Short σ.registry k f
    · simp [htakes.short hshort]
    · obtain ⟨d, hserved, rfl⟩ := htakes.long hshort
      obtain ⟨-, -, -, hnet⟩ := served_attached hsock hsound hshort hserved
      obtain ⟨bs, hbs⟩ := hnet j
      rw [net_resume, hbs, Channel.emit_outp, outp_taken]
      exact List.prefix_append _ _

/-- The broken connections after a dispatch of `k`. -/
def broken (down : SocketId → Bool) (k : SocketId) (sc : Script) : SocketId → Bool :=
  Function.update down k (down k || sc.breaks)

theorem down_of_broken {j : SocketId} (h : broken down k sc j = false) : down j = false := by
  by_cases hjk : j = k
  · rw [hjk, broken, Function.update_self, Bool.or_eq_false_iff] at h
    rw [hjk]
    exact h.1
  · rwa [broken, Function.update_of_ne hjk] at h

/-- A connection that is up has frames taken from it, or breaks. -/
theorem up_of_read {hd : RequestHandler} {c c' : Channel}
    (hread : RequestHandler.read hd c (sc.over down k).reads = (.ret, h', c')) : down k = false := by
  cases hk : down k with
  | false => rfl
  | true =>
      have hne := read_broken hd c sc.reads
      simp only [Script.over, hk, if_true] at hread
      rw [hread] at hne
      exact absurd rfl hne

theorem broken_of_read_throws {hd : RequestHandler} {c c' : Channel} {x : Throwable}
    (ho : down k = false → c.isOpen = true)
    (hread : RequestHandler.read hd c (sc.over down k).reads = (.throws x, h', c')) :
    broken down k sc k = true := by
  rw [broken, Function.update_self]
  cases hk : down k with
  | true => rfl
  | false =>
      cases hbreaks : sc.breaks with
      | true => rfl
      | false =>
          have hne := read_healthy (h := hd) (ho hk) (Script.steady hbreaks).1 x
          rw [(Script.over_of_up hk sc).1] at hread
          rw [hread] at hne
          exact absurd rfl hne

/-- A connection that does not break in a dispatch takes every reply. -/
theorem not_breaks_of_up (h : broken down k sc k = false) : sc.breaks = false := by
  rw [broken, Function.update_self, Bool.or_eq_false_iff] at h
  exact h.2

/-- What remains of a settled frame is the frame or nothing. -/
private theorem rest_cases {out : ByteBuffer} (harr : out.array = f.bytes)
    (hset : out.position = 0 ∨ out.remaining = 0) : out.rest = f.bytes ∨ out.rest = [] := by
  obtain hpos | hrem := hset
  · left
    rw [ByteBuffer.rest, hpos, List.drop_zero, harr]
  · right
    exact List.eq_nil_of_length_eq_zero (by rw [ByteBuffer.length_rest, hrem])

/-- Part of what remains of a genuine frame is sent; if it is not all of it the
connection breaks. -/
private theorem told_rest {out : ByteBuffer} {n : Nat} (ht : Told l false k bs) (hf : Genuine l k f)
    (harr : out.array = f.bytes) (hset : out.position = 0 ∨ out.remaining = 0) {b : Bool}
    (hall : b = false → out.remaining ≤ n) : Told l b k (bs ++ out.rest.take n) := by
  have hlen := out.length_rest
  obtain hrest | hrest := rest_cases harr hset
  · rw [hrest] at hlen ⊢
    by_cases hn : f.bytes.length ≤ n
    · rw [List.take_of_length_le hn]
      exact ht.append hf
    · cases b with
      | false => exact absurd (hlen ▸ hall rfl) hn
      | true => exact ht.append_cut (by omega)
  · rw [hrest, List.take_nil, List.append_nil]
    exact ht.mono List.prefix_rfl fun _ => rfl

/-- Some bytes are written to `k`, and none to anyone else. -/
private theorem told_emit {net : Net} {lost : SocketId → Bool} {bs : List Byte}
    (ht : Told l (lost k) k ((net k).outp ++ bs)) (hsame : ∀ j, Told l (lost j) j (net j).outp)
    (j : SocketId) : Told l (lost j) j (Function.update net k ((net k).emit bs) j).outp := by
  by_cases hj : j = k
  · rw [hj, Function.update_self, Channel.emit_outp]
    exact ht
  · rw [Function.update_of_ne hj]
    exact hsame j

/-- **What is written is genuine**, to whomever it is. -/
theorem told_write (l : Ledger) (sc : Script) {r : Registry} {net : Net} {header : ByteBuffer} (hs : Sound h)
    (hh : h.networkMsgHeader = some header) (hfull : header.remaining = 0)
    (hw : h.ForwardsWhole cfg (sc.over down h.sock) (fun s => (net s).isOpen) r)
    (ho : (net h.sock).isOpen = true)
    (hend : (write cfg (sc.over down h.sock) r h net).1 ≠ .spins) (hup : down h.sock = false)
    (howes : Owes l false h.sock h) (htold : ∀ j, Told l (down j) j (net j).outp) :
    Owes l (broken down h.sock sc h.sock) h.sock (write cfg (sc.over down h.sock) r h net).2.1 ∧
      ∀ j, Told l (broken down h.sock sc j) j
        ((write cfg (sc.over down h.sock) r h net).2.2 j).outp := by
  have hsame : ∀ j, Told l (broken down h.sock sc j) j (net j).outp := fun j =>
    (htold j).mono List.prefix_rfl down_of_broken
  have hset := howes.settled rfl
  obtain ⟨hnet, hhandler⟩ | ⟨out, n, hop, hout, heq, hall⟩ |
      ⟨out, out', s, i, m, hop, hout, hacc, harr, hrem, heq⟩ := write_outcome hs hh hfull hw ho hend
  · rw [hnet]
    refine ⟨?_, hsame⟩
    obtain hhandler | ⟨out, hout, hhandler⟩ := hhandler
    · rw [hhandler]
      exact howes.mono List.prefix_rfl fun _ => rfl
    · rw [hhandler]
      exact howes.setOutMsg hout rfl fun _ => hset out hout
  · -- a reply, cut only if the connection breaks
    obtain ⟨f, harr⟩ := hs.whole out hout
    rw [(Script.over_of_up hup sc).2] at hall
    have hwhole : broken down h.sock sc h.sock = false → out.remaining ≤ n := fun hb =>
      hall (Script.steady (not_breaks_of_up hb)).2
    rw [heq]
    have htoldk := htold h.sock
    rw [hup] at htoldk
    have hpart := told_rest htoldk (howes.genuine out f hout harr) harr (hset out hout) hwhole
    refine ⟨howes.setOutMsg hout (ByteBuffer.array_advance ..) fun hb => Or.inr ?_,
      told_emit hpart hsame⟩
    have hsent := hwhole hb
    rw [ByteBuffer.remaining_advance]
    omega
  · -- a message, to a connection that is up
    obtain ⟨f, hf⟩ := hs.whole out hout
    have hups : down s = false := by
      cases hds : down s with
      | false => rfl
      | true => simp [Script.over, hds] at hacc
    have htag : f.tag ≠ REG_REPLY_WELCOME := fun hw => by
      have hreg := howes.welcome out f hout hf hw
      rw [hop] at hreg
      cases hreg
    have htolds := htold s
    rw [hups] at htolds
    have hone := told_rest (n := out.rest.length) (b := broken down h.sock sc s) htolds
      (genuine_of_ne htag) hf (hset out hout) fun _ => by rw [ByteBuffer.length_rest]
    rw [List.take_length] at hone
    rw [heq]
    exact ⟨howes.setOutMsg hout harr fun _ => Or.inr hrem, told_emit hone hsame⟩

/-- A frame has been served. -/
theorem Announced.served {hd : RequestHandler} {rest : List Byte} {d : Host} (hσ : Announced cfg down σ)
    (hok : ForwardsWhole cfg σ k (sc.over down k)) (hk : σ.handlers k = some hd) (hsock : hd.sock = k)
    (hread : RequestHandler.read hd (σ.net k) (sc.over down k).reads =
      (.ret, hd.holding f, { σ.net k with inp := rest }))
    (hlong : ¬ Short σ.registry k f)
    (hserved : RequestHandler.served cfg (sc.over down k) (σ.host hd) f rest = (.ret, d))
    (hl : σ.ledger <+: d.registry.ledger) :
    Owes d.registry.ledger (broken down k sc k) k d.handler ∧
      ∀ j, Told d.registry.ledger (broken down k sc j) j (d.net j).outp := by
  have hkept := kept_reachable hσ.reachable
  have hup : down k = false := up_of_read hread
  have hopen : (fun s => (taken σ.net k rest s).isOpen) = fun s => (σ.net s).isOpen :=
    funext fun s => isOpen_taken ..
  have howes := hσ.owes k hd hk
  cases hsock
  rw [hup] at howes
  have hp := process_holding cfg (sc.over down hd.sock).clock hlong
  simp only [ForwardsWhole, hk, hread, heldBy_holding, List.cons_ne_nil, if_false, hp] at hok
  rw [← hopen] at hok
  rw [RequestHandler.served, Prod.mk.injEq] at hserved
  obtain ⟨hret, rfl⟩ := hserved
  have hsks := settle_sock (sc.over down hd.sock).clock σ.registry hd f
  have hend : (write cfg (sc.over down hd.sock) (settle (sc.over down hd.sock).clock σ.registry hd f).1
      (settle (sc.over down hd.sock).clock σ.registry hd f).2 (taken σ.net hd.sock rest)).1 ≠
      .spins := by
    intro hspin
    simp only [host] at hret
    rw [hspin] at hret
    cases hret
  have hboth := told_write (settle (sc.over down hd.sock).clock σ.registry hd f).1.ledger sc
    ((hkept.attached.sound hd.sock hd hk).settle (sc.over down hd.sock).clock hlong)
    (settle_header ..) (ByteBuffer.remaining_full _) (by rw [hsks]; exact hok)
    (by rw [hsks, isOpen_taken]; exact hσ.isOpen hd.sock hd hk hup) (by rw [hsks]; exact hend)
    (by rw [hsks]; exact hup) (by rw [hsks]; exact howes.settle hkept.counted f)
    fun j => by rw [outp_taken]; exact (hσ.told j).mono hl fun hd => hd
  rw [hsks] at hboth
  exact hboth

/-- **A dispatch over connections that may break** announces nothing but what
is so. -/
theorem Announced.dispatch (hσ : Announced cfg down σ)
    (hok : ForwardsWhole cfg σ k (sc.over down k))
    (h : step cfg σ (.dispatch k (sc.over down k)) = some τ) :
    Announced cfg (broken down k sc) τ := by
  have hkept := kept_reachable hσ.reachable
  have hτ : Reachable cfg τ := hσ.reachable.of_step h
  have hl : σ.ledger <+: τ.ledger := ledger_grows hσ.reachable (Lts.run_of_step h)
  have hdown : ∀ j, broken down k sc j = false → down j = false := fun j => down_of_broken
  have hsame : ∀ j, Told τ.ledger (broken down k sc j) j (σ.net j).outp := fun j =>
    (hσ.told j).mono hl (hdown j)
  obtain ⟨-, hd, hk, hsock, hsound, hcases⟩ := dispatch_cases hkept.attached h
  have howes := (hσ.owes k hd hk).mono hl (hdown k)
  obtain ⟨-, rfl⟩ | ⟨h', c', hread, hinput, hc', rfl⟩ | ⟨f, rest, htakes⟩ := hcases
  · exact hσ.update hτ hl hdown hk rfl (howes.sameButInput (sameButInput_unread hd)) (fun _ _ => rfl)
      hsame
  · have hbroken := broken_of_read_throws (hσ.isOpen k hd hk) hread
    refine hσ.update hτ hl hdown hk rfl (howes.sameButInput hinput) (fun j hup => ?_) fun j => ?_
    · have hjk : j ≠ k := by
        rintro rfl
        rw [hbroken] at hup
        cases hup
      simp only [net_resume, Function.update_of_ne hjk]
    · simp only [net_resume, outp_of_failed hc' j]
      exact hsame j
  · have hup : down k = false := up_of_read htakes.read
    by_cases hshort : Short σ.registry k f
    · rw [htakes.short hshort] at hτ hl hsame howes ⊢
      refine hσ.update hτ hl hdown hk rfl (howes.sameButInput (sameButInput_holding hd f))
        (fun j _ => isOpen_taken ..) fun j => ?_
      simp only [net_resume, outp_taken]
      exact hsame j
    · obtain ⟨d, hserved, rfl⟩ := htakes.long hshort
      obtain ⟨-, -, -, hnet⟩ := served_attached hsock hsound hshort hserved
      obtain ⟨howes', htold'⟩ := hσ.served hok hk hsock htakes.read hshort hserved hl
      exact hσ.update hτ hl hdown hk rfl howes'
        (fun j _ => (hnet.isOpen j).trans (isOpen_taken ..)) htold'

/-- **What a dispatch takes from its own stream**: nothing or the frame it acts
on, unless the connection breaks. -/
theorem Announced.inp_dispatch (hσ : Announced cfg down σ)
    (h : step cfg σ (.dispatch k (sc.over down k)) = some τ) (hup : broken down k sc k = false) :
    (actsOn k σ (.dispatch k (sc.over down k)) = [] ∧ (τ.net k).inp = (σ.net k).inp) ∨
    ∃ f rest, actsOn k σ (.dispatch k (sc.over down k)) = [parts f] ∧
      (σ.net k).inp = f.bytes ++ rest ∧ (τ.net k).inp = rest := by
  obtain ⟨-, hd, hk, hsock, hsound, hcases⟩ := dispatch_cases (attached_reachable hσ.reachable) h
  obtain ⟨hread, rfl⟩ | ⟨h', c', hread, -, -, rfl⟩ | ⟨f, rest, htakes⟩ := hcases
  · exact Or.inl ⟨by simp [actsOn, hk, hread], rfl⟩
  · rw [broken_of_read_throws (hσ.isOpen k hd hk) hread] at hup
    cases hup
  · refine Or.inr ⟨f, rest, by simp [actsOn, hk, htakes.read, parts], htakes.inp, ?_⟩
    by_cases hshort : Short σ.registry k f
    · rw [htakes.short hshort]
      exact inp_taken_self σ.net k rest
    · obtain ⟨d, hserved, rfl⟩ := htakes.long hshort
      obtain ⟨-, -, -, hnet⟩ := served_attached hsock hsound hshort hserved
      exact (hnet.inp k).trans (inp_taken_self σ.net k rest)

/-- What is acted on comes over a connection that is up. -/
theorem up_of_actsOn {p : List Byte × List Byte}
    (hp : p ∈ actsOn k σ (.dispatch k (sc.over down k))) :
    down k = false ∧ ∃ f rest, (σ.net k).inp = f.bytes ++ rest ∧ p = parts f := by
  obtain hnone | ⟨sc', hd, f, rest, heq, -, hinp, hread, hacts⟩ :=
    actsOn_cases k σ (.dispatch k (sc.over down k))
  · rw [hnone] at hp
    cases hp
  · cases heq
    rw [hacts, List.mem_singleton] at hp
    exact ⟨up_of_read hread, f, rest, hinp, hp⟩

end Server

end Pobicos.Directory
