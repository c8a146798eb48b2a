import Pobicos.Directory.Segmentation
import Mathlib.Data.List.Infix

/-!
# Pobicos.Directory.Integrity

What the registry guarantees over the life of the server.

A record is only ever touched by a frame that concerns it: one received on its
own socket, or a request that carries its address and seed (`settle_record`).
A socket is welcomed when it enrols and never again (`greeted_step`); what is
left of a broken `WELCOME` may be written later, so all that is ever written
of one to a socket is the beginning of a single frame.
-/

namespace Pobicos.Directory

open Nio Octets Framing NetworkMsg

namespace RequestHandler

variable {clock : Nat → JLong} {r : Registry} {s : SocketId} {f : Frame}

/-! ## Which records a frame touches -/

/-- The readings of the clock that are taken for a message with this type and
payload, received on `s`. -/
def readings (clock : Nat → JLong) (r : Registry) (s : SocketId) (tag : Byte) (body : List Byte) :
    List JLong :=
  if tag = REGISTRY_REQ then
    match r.isRegistedSock s with
    | some _ => [clock 0]
    | none =>
        if reqSeed body = 0 ∧ reqAddr body = 0 then [clock 0, clock 1]
        else
          match r.isRegistered (reqAddr body) (reqSeed body) with
          | none => []
          | some i => if expired (clock 0) (r.reg.get i) then [clock 0] else [clock 0, clock 1]
  else if tag = POBICOS_MSG then
    match r.isRegistedSock s with
    | none => []
    | some _ => [clock 0]
  else []

/-- The frame `f`, received on `s`, concerns the record `n`. -/
def Concerns (s : SocketId) (f : Frame) (n : NodeInfo) : Prop :=
  s = n.sock ∨ f.tag = REGISTRY_REQ ∧ reqAddr f.body = n.poNodeAddr ∧ reqSeed f.body = n.seed

/-- The record `m` is `n`, or `n` updated at one of the readings `ts` of the
clock by a frame that concerns it. -/
def Touched (ts : List JLong) (s : SocketId) (f : Frame) (n m : NodeInfo) : Prop :=
  m = n ∨ Concerns s f n ∧ m.identity = n.identity ∧ m.lastSeen ∈ ts

/-- A record after one of them has been written to. -/
private theorem touched_modify {i : Nat} {j : Fin r.reg.length} {n : NodeInfo}
    (hn : r.reg[i]? = some n) {g : NodeInfo → NodeInfo} {ts : List JLong}
    (hconc : Concerns s f (r.reg.get j))
    (hg : ∀ n, (g n).identity = n.identity ∧ (g n).lastSeen ∈ ts) :
    ∃ m, (r.modify j g).reg[i]? = some m ∧ Touched ts s f n m := by
  rw [Registry.reg_modify, List.getElem?_modify, hn]
  by_cases hij : j.val = i
  · have hnj : r.reg.get j = n := by
      rw [← hij, List.getElem?_eq_getElem j.isLt, Option.some.injEq] at hn
      exact hn
    rw [hnj] at hconc
    exact ⟨g n, by simp [hij], Or.inr ⟨hconc, hg n⟩⟩
  · exact ⟨n, by simp [hij], Or.inl rfl⟩

/-- A record that is already there, after a newcomer has been added. -/
private theorem touched_add {i : Nat} {n m : NodeInfo} {addr : JInt} {ts : List JLong}
    (hn : r.reg[i]? = some n) :
    ∃ m', (⟨r.reg ++ [m], addr⟩ : Registry).reg[i]? = some m' ∧ Touched ts s f n m' := by
  have hi : i < r.reg.length := (List.getElem?_eq_some_iff.mp hn).1
  exact ⟨n, by rw [List.getElem?_append_left hi, hn], Or.inl rfl⟩

/-- **Frame condition of `process`**: every record stays where it is, and is
touched only by a frame that concerns it. -/
theorem settle_record (clock : Nat → JLong) (h : RequestHandler) (f : Frame) {i : Nat} {n : NodeInfo}
    (hn : r.reg[i]? = some n) :
    ∃ m, (settle clock r h f).1.reg[i]? = some m ∧
      Touched (readings clock r h.sock f.tag f.body) h.sock f n m := by
  rw [settle, readings]
  by_cases hreq : f.tag = REGISTRY_REQ
  · rw [if_pos hreq, if_pos hreq]
    by_cases hfirst : FirstTime r h.sock f.body
    · rw [answer_firstTime clock hfirst]
      exact touched_add hn
    · rw [answer]
      cases hreg : r.isRegistedSock h.sock with
      | some j =>
          have hconc : Concerns h.sock f (r.reg.get j) :=
            Or.inl (Registry.sock_of_isRegistedSock hreg).symm
          exact touched_modify hn hconc fun _ => ⟨rfl, List.mem_cons_self⟩
      | none =>
          have hne : ¬ (reqSeed f.body = 0 ∧ reqAddr f.body = 0) := fun hz => hfirst ⟨hreg, hz⟩
          simp only [if_neg hne]
          cases hid : r.isRegistered (reqAddr f.body) (reqSeed f.body) with
          | none => exact ⟨n, hn, Or.inl rfl⟩
          | some j =>
              obtain ⟨haddr, hseed⟩ := Registry.ident_of_isRegistered hid
              have hconc : Concerns h.sock f (r.reg.get j) := Or.inr ⟨hreq, haddr.symm, hseed.symm⟩
              simp only
              split
              · rw [Registry.remove_eq_self]
                exact ⟨n, hn, Or.inl rfl⟩
              · exact touched_modify hn hconc fun _ => ⟨rfl, List.mem_cons_of_mem _ List.mem_cons_self⟩
  · rw [if_neg hreq, if_neg hreq]
    by_cases hmsg : f.tag = POBICOS_MSG
    · rw [if_pos hmsg, if_pos hmsg, seen]
      cases hreg : r.isRegistedSock h.sock with
      | none => exact ⟨n, hn, Or.inl rfl⟩
      | some j =>
          have hconc : Concerns h.sock f (r.reg.get j) :=
            Or.inl (Registry.sock_of_isRegistedSock hreg).symm
          exact touched_modify hn hconc fun _ => ⟨rfl, List.mem_cons_self⟩
    · rw [if_neg hmsg, if_neg hmsg]
      exact ⟨n, hn, Or.inl rfl⟩

/-! ## Welcomes -/

/-- What the handler writes, or has written, is a `WELCOME`. -/
def welcoming (h : RequestHandler) : Bool :=
  h.op == some .sendRegMsg && h.outMsg.any fun out => out.array.head? == some REG_REPLY_WELCOME

theorem welcoming_of_op {h : RequestHandler} (hop : h.op ≠ some .sendRegMsg) : h.welcoming = false := by
  simp [welcoming, hop]

/-- Only the bytes of `outMsg` count, not how many are written. -/
theorem welcoming_congr {h h' : RequestHandler} (hop : h'.op = h.op)
    (hout : h'.outMsg.map ByteBuffer.array = h.outMsg.map ByteBuffer.array) :
    h'.welcoming = h.welcoming := by
  have hany : ∀ o : Option ByteBuffer,
      (o.any fun out => out.array.head? == some REG_REPLY_WELCOME) =
        (o.map ByteBuffer.array).any fun bs => bs.head? == some REG_REPLY_WELCOME := by
    rintro (_ | out) <;> rfl
  rw [welcoming, welcoming, hop, hany, hany, hout]

/-- Only a first-time registration is welcomed. -/
theorem answer_tag_of_known {body : List Byte} (clock : Nat → JLong) (hf : ¬ FirstTime r s body) :
    (answer clock r s body).2.tag ≠ REG_REPLY_WELCOME := by
  rw [answer]
  cases hreg : r.isRegistedSock s with
  | some i =>
      show REG_REPLY_PONG ≠ REG_REPLY_WELCOME
      decide
  | none =>
      have hne : ¬ (reqSeed body = 0 ∧ reqAddr body = 0) := fun hz => hf ⟨hreg, hz⟩
      simp only [if_neg hne]
      cases r.isRegistered (reqAddr body) (reqSeed body) with
      | none =>
          show REG_REPLY_FAIL ≠ REG_REPLY_WELCOME
          decide
      | some i =>
          simp only
          split
          · show REG_REPLY_FAIL ≠ REG_REPLY_WELCOME
            decide
          · show REG_REPLY_PONG ≠ REG_REPLY_WELCOME
            decide

/-- The reply to a first-time registration. -/
theorem settle_first (clock : Nat → JLong) (hc : r.Counted) {h : RequestHandler}
    (hf : f.tag = REGISTRY_REQ ∧ FirstTime r h.sock f.body) :
    (settle clock r h f).2 = ((h.holding f).setOp .sendRegMsg).setOutMsg
      (.wrap (welcomeReply r.ledger.nextAddr (newSeed clock)).bytes) := by
  rw [settle, if_pos hf.1, answer_firstTime clock hf.2, hc.getAddr]

/-- Any other frame after which there is a `WELCOME` to write was of neither
type, and it is the one that was there before. -/
theorem settle_of_welcoming {h : RequestHandler} (hf : ¬ (f.tag = REGISTRY_REQ ∧ FirstTime r h.sock f.body))
    (hwel : (settle clock r h f).2.welcoming = true) : (settle clock r h f).2 = h.holding f := by
  rw [settle] at hwel ⊢
  by_cases hreq : f.tag = REGISTRY_REQ
  · rw [if_pos hreq] at hwel
    have htag := answer_tag_of_known clock fun hfirst => hf ⟨hreq, hfirst⟩
    simp [welcoming, Frame.bytes, htag] at hwel
  · rw [if_neg hreq] at hwel ⊢
    by_cases hmsg : f.tag = POBICOS_MSG
    · rw [if_pos hmsg, welcoming_of_op (by simp [forwarding])] at hwel
      cases hwel
    · rw [if_neg hmsg]

/-- A handler that is welcoming is writing a registration reply. -/
theorem welcoming_cases {h : RequestHandler} (hwel : h.welcoming = true) :
    h.op = some .sendRegMsg ∧ ∃ out, h.outMsg = some out := by
  unfold welcoming at hwel
  cases hout : h.outMsg with
  | none => simp [hout] at hwel
  | some out =>
      simp only [hout, Option.any_some, Bool.and_eq_true, beq_iff_eq] at hwel
      exact ⟨hwel.1, out, rfl⟩

end RequestHandler

/-! ## One event -/

namespace Server

open RequestHandler

variable {cfg : Config} {σ τ : Server} {k : SocketId}

/-- Who is in the ledger after an event was there before or is the socket it
dispatches. -/
theorem enrolled_of_step {a : Action} (hkept : Kept σ) (h : step cfg σ a = some τ) {i : Identity}
    (hi : i ∈ τ.ledger) : i ∈ σ.ledger ∨ ∃ sc, a = .dispatch i.sock sc := by
  obtain ⟨-, heq | ⟨e, he⟩⟩ := ledger_step hkept h
  · exact Or.inl (heq ▸ hi)
  · obtain ⟨-, happend⟩ := Ledger.enrol_eq_some.mp he
    rw [happend, List.mem_append, List.mem_singleton] at hi
    obtain hold | rfl := hi
    · exact Or.inl hold
    · have hsocks := (sockets_step hkept h).2
      rw [List.nil_append, sockets, sockets, happend, List.map_append, List.map_singleton] at hsocks
      have hone : e.1 ∈ enrolments σ a := by
        rw [← List.append_cancel_left hsocks]
        exact List.mem_singleton_self _
      cases a with
      | accept j => cases hone
      | send j bs => cases hone
      | dispatch j sc =>
          obtain ⟨p, -, hp⟩ := List.mem_flatMap.mp hone
          split at hp
          · rw [List.mem_singleton] at hp
            exact Or.inr ⟨sc, by rw [hp]⟩
          · cases hp

/-- **Who touches a record**: a record that an event has changed was concerned
by the frame the event acted on. -/
theorem changed_of_step {a : Action} (hatt : Attached σ) (h : step cfg σ a = some τ) {i : Nat}
    {n m : NodeInfo} (hn : σ.registry.reg[i]? = some n) (hm : τ.registry.reg[i]? = some m)
    (hne : m ≠ n) :
    ∃ k sc f, a = .dispatch k sc ∧ σ.actsOn k a = [parts f] ∧ Concerns k f n ∧
      m.lastSeen ∈ readings sc.clock σ.registry k f.tag f.body := by
  have hsame : τ.registry ≠ σ.registry := by
    intro heq
    rw [heq, hn, Option.some.injEq] at hm
    exact hne hm.symm
  cases a with
  | accept j =>
      obtain ⟨-, -, rfl⟩ := step_accept h
      exact absurd rfl hsame
  | send j bs =>
      obtain ⟨-, rfl⟩ := step_send h
      exact absurd rfl hsame
  | dispatch j sc =>
      obtain ⟨-, hd, hj, hsock, hsound, hcases⟩ := dispatch_cases hatt h
      obtain ⟨-, rfl⟩ | ⟨h', c', -, -, -, rfl⟩ | ⟨f, rest, htakes⟩ := hcases
      · exact absurd rfl hsame
      · exact absurd rfl hsame
      · by_cases hshort : Short σ.registry j f
        · rw [htakes.short hshort] at hsame
          exact absurd rfl hsame
        · obtain ⟨d, hserved, rfl⟩ := htakes.long hshort
          obtain ⟨hreg, -⟩ := served_attached hsock hsound hshort hserved
          have hm' : d.registry.reg[i]? = some m := hm
          obtain ⟨m', hm'', htouched⟩ := settle_record sc.clock hd f hn
          rw [hreg, hm'', Option.some.injEq] at hm'
          rw [hm', hsock] at htouched
          obtain heq | ⟨hconc, -, hseen⟩ := htouched
          · exact absurd heq hne
          · exact ⟨j, sc, f, rfl, by simp [actsOn, hj, htakes.read, parts], hconc, hseen⟩

/-- The handlers of the other sockets are left alone by a dispatch. -/
theorem handlers_dispatch_of_ne {j : SocketId} {sc : Script}
    (h : step cfg σ (.dispatch j sc) = some τ) (hkj : k ≠ j) : τ.handlers k = σ.handlers k := by
  obtain ⟨-, hd, o, d, -, -, -, rfl⟩ := step_dispatch h
  exact Function.update_of_ne hkj ..

/-- What an event writes of a `WELCOME` to `k`: a dispatch of `k` that has
acted on a frame with a `WELCOME` to write writes nothing else there. -/
def welcomed (cfg : Config) (k : SocketId) (σ : Server) (a : Action) : List Byte :=
  match a, step cfg σ a with
  | .dispatch j sc, some τ =>
      if j = k ∧ actsOn k σ (.dispatch j sc) ≠ [] ∧ (τ.handlers k).any welcoming then
        (τ.net k).outp.drop (σ.net k).outp.length
      else []
  | _, _ => []

/-- `ws` is all that has been written of a `WELCOME` to `k`: nothing before `k`
enrols, then the beginning of its one `WELCOME`. -/
structure Greeted (cfg : Config) (k : SocketId) (σ : Server) (ws : List Byte) : Prop where
  reachable : Reachable cfg σ
  stranger : (∀ i ∈ σ.ledger, i.sock ≠ k) → ws = [] ∧ ∀ h, σ.handlers k = some h → h.welcoming = false
  known : ∀ i ∈ σ.ledger, i.sock = k → ws <+: (welcomeReply i.addr i.seed).bytes ∧
    ∀ h out, σ.handlers k = some h → h.welcoming = true → h.outMsg = some out →
      out.array = (welcomeReply i.addr i.seed).bytes ∧ ws = out.filled

theorem greeted_new (cfg : Config) (k : SocketId) : Greeted cfg k Server.new [] where
  reachable := .refl
  stranger _ := ⟨rfl, fun _ h => (nomatch h)⟩
  known _ hi := (nomatch hi)

/-- Nothing is written and `k` does not enrol; its handler has no other
`WELCOME` to write than before. -/
theorem Greeted.quiet {ws : List Byte} (hσ : Greeted cfg k σ ws) (hτ : Reachable cfg τ)
    (hledger : ∀ i, i.sock = k → (i ∈ τ.ledger ↔ i ∈ σ.ledger))
    (hhandler : ∀ h', τ.handlers k = some h' → h'.welcoming = false ∨
      ∃ h, σ.handlers k = some h ∧ h.welcoming = h'.welcoming ∧ h.outMsg = h'.outMsg) :
    Greeted cfg k τ ws where
  reachable := hτ
  stranger hnone := by
    obtain ⟨hws, hidle⟩ := hσ.stranger fun i hi hik => hnone i ((hledger i hik).mpr hi) hik
    refine ⟨hws, fun h' hh' => ?_⟩
    obtain hfalse | ⟨h, hh, hwel, -⟩ := hhandler h' hh'
    · exact hfalse
    · rw [← hwel]
      exact hidle h hh
  known i hi hik := by
    obtain ⟨hfront, hwriting⟩ := hσ.known i ((hledger i hik).mp hi) hik
    refine ⟨hfront, fun h' out hh' hwel hout => ?_⟩
    obtain hfalse | ⟨h, hh, hsame, hsout⟩ := hhandler h' hh'
    · rw [hfalse] at hwel
      cases hwel
    · exact hwriting h out hh (hsame.trans hwel) (hsout.trans hout)

/-- The handler of `k` has run, and has nothing else to write than before. -/
theorem Greeted.resume {ws : List Byte} {hd : RequestHandler} {o : Outcome} {d : Host}
    (hσ : Greeted cfg k σ ws) (hτ : Reachable cfg (σ.resume k o d))
    (hledger : d.registry.ledger = σ.registry.ledger) (hk : σ.handlers k = some hd)
    (hwel : hd.welcoming = d.handler.welcoming) (hout : hd.outMsg = d.handler.outMsg) :
    Greeted cfg k (σ.resume k o d) ws := by
  have hsame : (σ.resume k o d).ledger = σ.ledger := hledger
  refine hσ.quiet hτ (fun i _ => by rw [hsame]) fun h' hh' => ?_
  rw [handlers_resume_self] at hh'
  cases hh'
  exact Or.inr ⟨hd, hk, hwel, hout⟩

/-- A dispatch of `k` that acts on nothing writes nothing of a `WELCOME`. -/
theorem welcomed_of_actsOn {sc : Script} (hnone : actsOn k σ (.dispatch k sc) = []) :
    welcomed cfg k σ (.dispatch k sc) = [] := by
  unfold welcomed
  split
  · next heq => simp_all
  · rfl

/-- Nor does one after which the handler has no `WELCOME` to write. -/
theorem welcomed_of_idle {sc : Script} {h' : RequestHandler} (h : step cfg σ (.dispatch k sc) = some τ)
    (hk : τ.handlers k = some h') (hidle : h'.welcoming = false) :
    welcomed cfg k σ (.dispatch k sc) = [] := by
  simp [welcomed, h, hk, hidle]

/-- What a dispatch that has a `WELCOME` to write adds to the output of `k`. -/
theorem welcomed_of_outp {sc : Script} {h' : RequestHandler} {bs : List Byte}
    (h : step cfg σ (.dispatch k sc) = some τ) (hk : τ.handlers k = some h')
    (hacts : actsOn k σ (.dispatch k sc) ≠ []) (hwel : h'.welcoming = true)
    (hout : (τ.net k).outp = (σ.net k).outp ++ bs) : welcomed cfg k σ (.dispatch k sc) = bs := by
  simp [welcomed, h, hk, hacts, hwel, hout]

/-- The writing of a `WELCOME` goes on. -/
theorem Greeted.write {ws : List Byte} {sc : Script} {h' : RequestHandler} {out : ByteBuffer} {n : Nat}
    {i : Identity} (hτ : Reachable cfg τ) (h : step cfg σ (.dispatch k sc) = some τ)
    (hacts : actsOn k σ (.dispatch k sc) ≠ []) (hk : τ.handlers k = some (h'.setOutMsg (out.advance n)))
    (hop : h'.op = some .sendRegMsg) (hi : i ∈ τ.ledger) (hik : i.sock = k)
    (hout : out.array = (welcomeReply i.addr i.seed).bytes) (hws : ws = out.filled)
    (houtp : (τ.net k).outp = (σ.net k).outp ++ out.rest.take n) :
    Greeted cfg k τ (ws ++ welcomed cfg k σ (.dispatch k sc)) := by
  have hwel : (h'.setOutMsg (out.advance n)).welcoming = true := by
    simp [welcoming, hop, hout, Frame.bytes, welcomeReply]
  have hall : ws ++ welcomed cfg k σ (.dispatch k sc) = (out.advance n).filled := by
    rw [welcomed_of_outp h hk hacts hwel houtp, hws, ByteBuffer.filled_advance]
  rw [hall]
  refine ⟨hτ, fun hnone => absurd hik (hnone i hi), ?_⟩
  intro j hj hjk
  cases (orderly_reachable hτ).eq_of_sock hi hj (hik.trans hjk.symm)
  constructor
  · rw [← hout]
    exact List.take_prefix _ _
  · intro h'' out' hk' _ hout'
    rw [hk] at hk'
    cases hk'
    cases hout'
    exact ⟨hout, rfl⟩

/-- A dispatch of `k` after which its handler has no `WELCOME` to write. -/
theorem Greeted.idle {ws : List Byte} {sc : Script} {h' : RequestHandler} (hσ : Greeted cfg k σ ws)
    (h : step cfg σ (.dispatch k sc) = some τ) (hledger : τ.ledger = σ.ledger)
    (hk : τ.handlers k = some h') (hidle : h'.welcoming = false) :
    Greeted cfg k τ (ws ++ welcomed cfg k σ (.dispatch k sc)) := by
  have hτ : Reachable cfg τ := hσ.reachable.of_step h
  rw [welcomed_of_idle h hk hidle, List.append_nil]
  refine hσ.quiet hτ (fun i _ => by rw [hledger]) fun h'' hk' => ?_
  rw [hk] at hk'
  cases hk'
  exact Or.inl hidle

/-- The frame has been served, and the handler had a reply to write: as much of
it is written as the connection takes. -/
theorem served_reply (cfg : Config) (sc : Script) (d : Host) {f : Frame} (rest : List Byte) {h' : RequestHandler}
    {out : ByteBuffer} (hset : (settle sc.clock d.registry d.handler f).2 = h')
    (hop : h'.op = some .sendRegMsg) (hout : h'.outMsg = some out) :
    ∃ n, (served cfg sc d f rest).2.handler = h'.setOutMsg (out.advance n) ∧
      ((served cfg sc d f rest).2.net d.handler.sock).outp =
        (d.net d.handler.sock).outp ++ out.rest.take n ∧
      ((d.net d.handler.sock).isOpen = true → (served cfg sc d f rest).1 ≠ .spins →
        completes out.remaining sc.replies = true → out.remaining ≤ n) := by
  obtain ⟨n, hn, hret⟩ := writeLoop_spec out (taken d.net d.handler.sock rest d.handler.sock) sc.replies
  have hhead := settle_header sc.clock d.registry d.handler f
  have hsock := settle_sock sc.clock d.registry d.handler f
  rw [hset] at hhead hsock
  refine ⟨n, ?_⟩
  simp only [served, hset]
  rw [write_sendRegMsg hhead (ByteBuffer.remaining_full _) hop hout, hsock, hn]
  simp only [Function.update_self, Channel.emit_outp, outp_taken, true_and]
  intro ho hend hall
  have hne := writeLoop_completes (c := taken d.net d.handler.sock rest d.handler.sock)
    ((isOpen_taken ..).trans ho) hall
  refine hret ?_
  cases hloop : (writeLoop out (taken d.net d.handler.sock rest d.handler.sock) sc.replies).1 with
  | ret => rfl
  | throws x => exact absurd hloop (hne x)
  | spins =>
      rw [hloop] at hend
      exact absurd rfl hend

/-- Serving a frame leaves the handler with a `WELCOME` to write if it had one
before `write`. -/
private theorem served_welcoming (cfg : Config) (sc : Script) {d : Host} (hs : Sound d.handler) {f : Frame}
    (rest : List Byte) (hlong : ¬ Short d.registry d.handler.sock f) :
    (served cfg sc d f rest).2.handler.welcoming =
      (settle sc.clock d.registry d.handler f).2.welcoming := by
  obtain ⟨-, hhandler, -⟩ := write_cases cfg sc (settle sc.clock d.registry d.handler f).1
    (taken d.net d.handler.sock rest) (hs.settle sc.clock hlong) (settle_header ..)
    (ByteBuffer.remaining_full _)
  simp only [served]
  obtain hsame | ⟨out, out', hout, harr, hset⟩ := hhandler
  · rw [hsame]
  · rw [hset]
    refine welcoming_congr rfl ?_
    rw [hout, setOutMsg_outMsg, Option.map_some, Option.map_some, harr]

/-- **The welcome**: a dispatch that serves a frame enrols `k` and begins its
`WELCOME`, or goes on writing it, or writes none. -/
theorem greeted_served {sc : Script} {hd : RequestHandler} {f : Frame} {rest ws : List Byte}
    (hσ : Greeted cfg k σ ws) (h : step cfg σ (.dispatch k sc) = some τ) (hk : σ.handlers k = some hd)
    (hsock : hd.sock = k) (htakes : Takes cfg σ k sc hd f rest τ) (hlong : ¬ Short σ.registry k f) :
    Greeted cfg k τ (ws ++ welcomed cfg k σ (.dispatch k sc)) := by
  have hkept := kept_reachable hσ.reachable
  have hτ : Reachable cfg τ := hσ.reachable.of_step h
  have hacts : actsOn k σ (.dispatch k sc) ≠ [] := by simp [actsOn, hk, htakes.read]
  have hsound := hkept.attached.sound k hd hk
  obtain ⟨d, hserved, rfl⟩ := htakes.long hlong
  obtain ⟨hreg, -⟩ := served_attached hsock hsound hlong hserved
  obtain ⟨-, hfirst, hother⟩ := settle_ledger sc.clock hkept.counted hd f
  rw [← hreg, hsock] at hfirst hother
  cases hsock
  have hself : (σ.resume hd.sock .ret d).handlers hd.sock = some d.handler :=
    handlers_resume_self ..
  by_cases hf : f.tag = REGISTRY_REQ ∧ FirstTime σ.registry hd.sock f.body
  · -- the `WELCOME` of a newcomer
    have hset := settle_first sc.clock hkept.counted hf
    obtain ⟨n, hhandler, houtp, -⟩ := served_reply cfg sc (σ.host hd) rest hset rfl rfl
    rw [hserved] at hhandler houtp
    obtain ⟨hfresh, happend⟩ := Ledger.enrol_eq_some.mp (hfirst hf)
    rw [(hσ.stranger hfresh).1]
    refine Greeted.write (i := ⟨σ.registry.ledger.nextAddr, newSeed sc.clock, hd.sock⟩) hτ h hacts
      (hself.trans (congrArg some hhandler)) rfl ?_ rfl rfl rfl houtp
    change _ ∈ d.registry.ledger
    rw [happend]
    exact List.mem_append_right _ (List.mem_singleton_self _)
  · have hledger : (σ.resume hd.sock .ret d).ledger = σ.ledger := hother hf
    have hwel := served_welcoming cfg sc (d := σ.host hd) hsound rest hlong
    rw [hserved] at hwel
    cases hw : (settle sc.clock σ.registry hd f).2.welcoming with
    | false => exact hσ.idle h hledger hself (hwel.trans hw)
    | true =>
        -- the rest of the `WELCOME` that was being written
        have hset := settle_of_welcoming hf hw
        rw [hset] at hw
        obtain ⟨hop, out, hout⟩ := welcoming_cases hw
        obtain ⟨n, hhandler, houtp, -⟩ := served_reply cfg sc (σ.host hd) rest hset hop hout
        rw [hserved] at hhandler houtp
        by_cases hstranger : ∀ i ∈ σ.ledger, i.sock ≠ hd.sock
        · have hidle := (hσ.stranger hstranger).2 hd hk
          rw [show hd.welcoming = (hd.holding f).welcoming from rfl, hw] at hidle
          cases hidle
        · obtain ⟨i, hi, hik⟩ : ∃ i ∈ σ.ledger, i.sock = hd.sock := by simpa using hstranger
          obtain ⟨harr, hws⟩ := (hσ.known i hi hik).2 hd out hk hw hout
          exact Greeted.write (i := i) hτ h hacts (hself.trans (congrArg some hhandler)) hop
            (by rw [hledger]; exact hi) hik harr hws houtp

/-- **One `WELCOME` a socket**, event by event. -/
theorem greeted_step {ws : List Byte} {a : Action} (hσ : Greeted cfg k σ ws)
    (h : step cfg σ a = some τ) : Greeted cfg k τ (ws ++ welcomed cfg k σ a) := by
  have hkept := kept_reachable hσ.reachable
  have hτ : Reachable cfg τ := hσ.reachable.of_step h
  cases a with
  | accept j =>
      obtain ⟨-, hfree, rfl⟩ := step_accept h
      rw [show welcomed cfg k σ (.accept j) = [] from rfl, List.append_nil]
      refine hσ.quiet hτ (fun i _ => Iff.rfl) fun h' hh' => ?_
      by_cases hkj : k = j
      · cases hkj
        rw [show (σ.accept k).handlers k = some (.new k) from Function.update_self ..] at hh'
        cases hh'
        exact Or.inl rfl
      · rw [show (σ.accept j).handlers k = σ.handlers k from Function.update_of_ne hkj ..] at hh'
        exact Or.inr ⟨h', hh', rfl, rfl⟩
  | send j bs =>
      obtain ⟨-, rfl⟩ := step_send h
      rw [show welcomed cfg k σ (.send j bs) = [] from rfl, List.append_nil]
      exact hσ.quiet hτ (fun i _ => Iff.rfl) fun h' hh' => Or.inr ⟨h', hh', rfl, rfl⟩
  | dispatch j sc =>
      by_cases hjk : j = k
      · cases hjk
        obtain ⟨-, hd, hk, hsock, -, hcases⟩ := dispatch_cases hkept.attached h
        obtain ⟨hread, rfl⟩ | ⟨h', c', hread, hsame, -, rfl⟩ | ⟨f, rest, htakes⟩ := hcases
        · rw [welcomed_of_actsOn (by simp [actsOn, hk, hread]), List.append_nil]
          exact hσ.resume hτ rfl hk rfl rfl
        · rw [welcomed_of_actsOn (by simp [actsOn, hk, hread]), List.append_nil]
          exact hσ.resume hτ rfl hk (by rw [hsame]; rfl) (by rw [hsame])
        · by_cases hshort : Short σ.registry k f
          · have hnone : welcomed cfg k σ (.dispatch k sc) = [] := by
              simp [welcomed, h, htakes.short hshort]
            rw [hnone, List.append_nil]
            rw [htakes.short hshort] at hτ ⊢
            exact hσ.resume hτ rfl hk rfl rfl
          · exact greeted_served hσ h hk hsock htakes hshort
      · have hnone : welcomed cfg k σ (.dispatch j sc) = [] := by simp [welcomed, h, hjk]
        have hsame := handlers_dispatch_of_ne h (Ne.symm hjk)
        rw [hnone, List.append_nil]
        refine hσ.quiet hτ (fun i hik => ?_) fun h' hh' => Or.inr ⟨h', hsame ▸ hh', rfl, rfl⟩
        refine ⟨fun hi => ?_, fun hi => ?_⟩
        · obtain hold | ⟨sc', heq⟩ := enrolled_of_step hkept h hi
          · exact hold
          · cases heq
            exact absurd hik hjk
        · exact (ledger_grows hσ.reachable (Lts.run_of_step h)).subset hi

/-! ## Whole runs -/

/-- What the registry guarantees of a server that has come to `σ` by `as`. -/
structure Integrity (cfg : Config) (as : List Action) (σ : Server) : Prop where
  /-- No two records share a socket. -/
  sockets : (σ.registry.reg.map NodeInfo.sock).Nodup
  /-- Whatever happens later, a record keeps its address, seed and socket. -/
  identities : ∀ bs (τ : Server) (i : Nat) (n : NodeInfo), Lts.run (step cfg) σ bs = some τ → σ.registry.reg[i]? = some n →
    ∃ m : NodeInfo, τ.registry.reg[i]? = some m ∧ m.poNodeAddr = n.poNodeAddr ∧ m.seed = n.seed ∧ m.sock = n.sock
  /-- All that was ever written of a `WELCOME` to a socket began one frame. -/
  welcomes : ∀ k, ∃ addr seed, Lts.trace (step cfg) (welcomed cfg k) .new as <+:
    (welcomeReply addr seed).bytes
  /-- A record changes only while a frame that concerns it is acted on. -/
  changes : ∀ a (τ : Server) (i : Nat) n m, step cfg σ a = some τ → σ.registry.reg[i]? = some n →
    τ.registry.reg[i]? = some m → m ≠ n →
    ∃ k sc f, a = .dispatch k sc ∧ σ.actsOn k a = [parts f] ∧ Concerns k f n

/-- **Registry integrity**, in every reachable state. -/
theorem integrity {as : List Action} (h : Lts.run (step cfg) .new as = some σ) :
    Integrity cfg as σ where
  sockets := by
    have hdistinct := (orderly_reachable ⟨as, h⟩).distinct
    rwa [ledger, Registry.ledger, List.map_map] at hdistinct
  identities := by
    intro bs τ i n hrun hn
    obtain ⟨m, hm, hident⟩ := sock_of_run ⟨as, h⟩ hrun hn
    simp only [NodeInfo.identity, Identity.mk.injEq] at hident
    exact ⟨m, hm, hident⟩
  welcomes := by
    intro k
    have hgreeted : Greeted cfg k σ ([] ++ Lts.trace (step cfg) (welcomed cfg k) .new as) :=
      Lts.trace_induct (fun _ _ _ _ hs _ hst => greeted_step hs hst) (Lts.along_true _ _)
        (greeted_new cfg k) h
    rw [List.nil_append] at hgreeted
    by_cases hstranger : ∀ i ∈ σ.ledger, i.sock ≠ k
    · rw [(hgreeted.stranger hstranger).1]
      exact ⟨0, 0, List.nil_prefix⟩
    · obtain ⟨i, hi, hik⟩ : ∃ i ∈ σ.ledger, i.sock = k := by simpa using hstranger
      exact ⟨i.addr, i.seed, (hgreeted.known i hi hik).1⟩
  changes := by
    intro a τ i n m hst hn hm hne
    obtain ⟨k, sc, f, ha, hacts, hconc, -⟩ :=
      changed_of_step (attached_reachable ⟨as, h⟩) hst hn hm hne
    exact ⟨k, sc, f, ha, hacts, hconc⟩

/-- So it is after one newcomer. -/
theorem integrity_newcomers : ∃ σ, Lts.run (step everywhere) .new (newcomers 1) = some σ ∧
    Integrity everywhere (newcomers 1) σ := by
  obtain ⟨σ, hrun, -⟩ := run_firstNode everywhere
  exact ⟨σ, hrun, integrity hrun⟩

end Server

end Pobicos.Directory
