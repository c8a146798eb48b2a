import Pobicos.Directory.Registration

/-!
# Pobicos.Directory.Reconnect

What becomes of a registration when its node comes back on another socket.

A node not seen for too long is refused, and its record is meant to go; but
`reg.remove` is given the socket, which equals no record
(`expired_stays`).  A node seen recently is answered with a `PONG`; but its
record keeps the socket it first registered on, so neither lookup finds the
node on the new one (`reconnect_not_followed`).
-/

namespace Pobicos.Directory

open Nio Octets Framing NetworkMsg Server

namespace RequestHandler

variable {cfg : Config} {clock : Nat → JLong} {r : Registry} {h : RequestHandler} {f : Frame}

/-! ## Expiry -/

/-- A request on the unregistered socket `s` that matches the record `i`, not
seen for too long. -/
structure ExpiredRequest (clock : Nat → JLong) (r : Registry) (s : SocketId) (f : Frame)
    (i : Fin r.reg.length) : Prop where
  tag : f.tag = REGISTRY_REQ
  len : REQ_LEN_NEW ≤ f.body.length
  unregistered : r.isRegistedSock s = none
  again : ¬ (reqSeed f.body = 0 ∧ reqAddr f.body = 0)
  found : r.isRegistered (reqAddr f.body) (reqSeed f.body) = some i
  old : expired (clock 0) (r.reg.get i) = true

/-- The record `n` is gone from the registry, and only that one. -/
structure Removed (r r' : Registry) (n : NodeInfo) : Prop where
  byAddr : ∀ j, r'.isRegistedAddr n.poNodeAddr = some j → r'.reg.get j ≠ n
  byIdent : ∀ j, r'.isRegistered n.poNodeAddr n.seed = some j → r'.reg.get j ≠ n
  bySock : ∀ j, r'.isRegistedSock n.sock = some j → r'.reg.get j ≠ n
  others : ∀ m ∈ r.reg, m ≠ n → m ∈ r'.reg

/-- It is refused, and the registry is as it was. -/
theorem ExpiredRequest.answer {s : SocketId} {i : Fin r.reg.length}
    (hreq : ExpiredRequest clock r s f i) : answer clock r s f.body = (r, failReply) := by
  rw [RequestHandler.answer, hreq.unregistered]
  simp only [if_neg hreq.again, hreq.found, hreq.old, if_true, Registry.remove_eq_self]

theorem ExpiredRequest.process (cfg : Config) {i : Fin r.reg.length}
    (hreq : ExpiredRequest clock r h.sock f i) :
    ∃ h', process cfg clock r (h.holding f) = .ok (r, h') ∧
      h'.outMsg = some (.wrap failReply.bytes) := by
  refine ⟨(settle clock r h f).2, ?_, ?_⟩
  · rw [process_holding _ _ (not_short_of_len hreq.tag hreq.len), settle, if_pos hreq.tag, hreq.answer]
  · rw [settle, if_pos hreq.tag, hreq.answer]
    rfl

/-- The lookup that refused the request still finds the record. -/
theorem ExpiredRequest.not_removed {s : SocketId} {i : Fin r.reg.length}
    (hreq : ExpiredRequest clock r s f i) : ¬ Removed r r (r.reg.get i) := by
  intro hrem
  obtain ⟨haddr, hseed⟩ := Registry.ident_of_isRegistered hreq.found
  refine hrem.byIdent i ?_ rfl
  rw [haddr, hseed]
  exact hreq.found

/-- **An expired registration is never removed**: the request is refused, the
registry is as it was, and the refused record stays where it was found. -/
theorem expired_stays {i : Fin r.reg.length} (hreq : ExpiredRequest clock r h.sock f i) :
    ∃ r' h', process cfg clock r (h.holding f) = .ok (r', h') ∧
      h'.outMsg = some (.wrap failReply.bytes) ∧ r' = r ∧ ¬ Removed r r' (r.reg.get i) := by
  obtain ⟨h', hp, hout⟩ := hreq.process cfg
  exact ⟨r, h', hp, hout, rfl, hreq.not_removed⟩

/-- The first node, coming back on socket 1 a minute too late. -/
private theorem expired_again {r : Registry} (hr : r = ⟨[firstNode], 2⟩) :
    ∃ i, ExpiredRequest (fun _ => 60001) r 1 againRequest i := by
  subst hr
  exact ⟨⟨0, by decide⟩, by decide, by decide, by decide, by decide, by decide, by decide⟩

/-- A server that has been running for a minute keeps the record it refuses. -/
theorem expired_registration_found :
    ∃ σ hd, Server.Reachable everywhere σ ∧ σ.handlers 1 = some hd ∧
      ∃ i, ExpiredRequest (fun _ => 60001) σ.registry hd.sock againRequest i ∧
        ∃ r' h', process everywhere (fun _ => 60001) σ.registry (hd.holding againRequest) =
            .ok (r', h') ∧ ¬ Removed σ.registry r' (σ.registry.reg.get i) := by
  obtain ⟨σ, hrun, ha, hreg, hfree, -⟩ := Server.run_firstNode everywhere
  have hjoin := Server.run_joined everywhere ha (hfree 1 (by decide)) againRequest.bytes
  obtain ⟨i, hi⟩ := expired_again (r := (σ.joined 1 againRequest.bytes).registry) hreg
  obtain ⟨h', hp, -⟩ := hi.process everywhere (h := .new 1)
  refine ⟨σ.joined 1 againRequest.bytes, .new 1, Lts.Reachable.of_run ⟨_, hrun⟩ hjoin, rfl, i, hi,
    _, h', hp, hi.not_removed⟩

/-- The refusal on that server. -/
theorem expired_stays_first :
    ∃ i, ∃ r' h', process everywhere (fun _ => 60001) ⟨[firstNode], 2⟩
        ((RequestHandler.new 1).holding againRequest) = .ok (r', h') ∧
      h'.outMsg = some (.wrap failReply.bytes) ∧ r' = ⟨[firstNode], 2⟩ ∧
      ¬ Removed ⟨[firstNode], 2⟩ r' ((⟨[firstNode], 2⟩ : Registry).reg.get (i : Fin 1)) := by
  obtain ⟨i, hi⟩ := expired_again rfl
  exact ⟨i, expired_stays hi⟩

/-! ## Messages to a socket -/

/-- An empty message to `dst`, without a location. -/
def emptyMsg (dst : JChar) : Frame := ⟨POBICOS_MSG, 0 :: 0 :: (toBE 2 dst ++ List.replicate 19 0), by simp⟩

theorem dstOf_emptyMsg (dst : JChar) : dstOf (emptyMsg dst).bytes = dst := by
  obtain ⟨hi, lo, hpair, hdst⟩ := toBE_two dst
  have hbytes : (emptyMsg dst).bytes =
      POBICOS_MSG :: 0x17 :: 0 :: 0 :: hi :: lo :: List.replicate 19 0 := by
    simp [Frame.bytes, Frame.lengthByte, emptyMsg, hpair]
  rw [hbytes, ← hdst]
  exact ofBE_pair hi lo

theorem trailerSet_emptyMsg (dst : JChar) : trailerSet (trailerOf (emptyMsg dst).bytes) = false := by
  have hrad : (trailerOf (emptyMsg dst).bytes).1 = 0 := by
    have hlen : (emptyMsg dst).bytes.length = 25 := by simp [emptyMsg]
    obtain ⟨hi, lo, hpair, -⟩ := toBE_two dst
    have hbytes : (emptyMsg dst).bytes =
        POBICOS_MSG :: 0x17 :: 0 :: 0 :: hi :: lo :: List.replicate 19 0 := by
      simp [Frame.bytes, Frame.lengthByte, emptyMsg, hpair]
    rw [trailerOf, hlen, hbytes]
    rfl
  rw [trailerSet, hrad]
  rfl

/-- A message without a location goes to every node. -/
theorem locationAdmits_emptyMsg (h : RequestHandler) (dst : JChar) (n : NodeInfo) :
    locationAdmits cfg h (trailerOf (emptyMsg dst).bytes) n = true := by
  rw [locationAdmits, trailerSet_emptyMsg, Bool.and_false]
  rfl

/-- **Forwarding writes to registered sockets only.** -/
theorem writePoMsg_net_of_not_mem {fw : Nat → SocketId → WriteEvt} {w : WriteState} {k : SocketId}
    (hlen : 18 ≤ w.outMsg.array.length) (hk : k ∉ r.reg.map NodeInfo.sock) :
    (writePoMsg cfg fw r h w).2.net k = w.net k := by
  refine writePoMsg_induct (P := fun u => u.net k = w.net k) hlen ?_ (fun _ hu => hu) rfl
  intro u s hs n hu _ _
  have hne : k ≠ s := by
    rintro rfl
    exact hk hs
  rw [net_sent_of_ne u hne, hu]

end RequestHandler

/-! ## Reconnection -/

namespace Server

open RequestHandler

variable {cfg : Config} {σ τ υ : Server} {k : SocketId} {sc : Script} {f : Frame}

/-- The request carries the identity of the unexpired record `i`, first
registered on another socket than `k`, and is answered with a `PONG`. -/
structure Reconnects (clock : Nat → JLong) (r : Registry) (k : SocketId) (f : Frame)
    (i : Fin r.reg.length) : Prop where
  tag : f.tag = REGISTRY_REQ
  len : REQ_LEN_NEW ≤ f.body.length
  addr : (r.reg.get i).poNodeAddr = reqAddr f.body
  seed : (r.reg.get i).seed = reqSeed f.body
  recent : expired (clock 0) (r.reg.get i) = false
  elsewhere : (r.reg.get i).sock ≠ k
  pong : (answer clock r k f.body).2 = pongReply

/-- The record `i` is the sender of what is received on `k`: the one that is
marked as seen, and the one a broadcast leaves out. -/
structure CountsAsSender (υ : Server) (k : SocketId) (i : Nat) : Prop where
  seen : ∃ j, υ.registry.isRegistedSock k = some j ∧ j.val = i
  leftOut : ∀ n, υ.registry.reg[i]? = some n → n.sock = k

/-- Every message addressed to the record `i` and admitted there is written to
`k`, if the channel takes it. -/
def MessagesReach (cfg : Config) (υ : Server) (k : SocketId) (i : Nat) : Prop :=
  ∀ j hd n f clock fw, υ.handlers j = some hd → υ.registry.reg[i]? = some n → f.tag = POBICOS_MSG →
    16 ≤ f.body.length → dstOf f.bytes = n.poNodeAddr →
    locationAdmits cfg (hd.forwarding f) (trailerOf f.bytes) n = true →
    (υ.net k).isOpen = true → (∀ c, ∃ m, f.bytes.length ≤ m ∧ fw c k = .accept m) →
    ((writePoMsg cfg fw (seen clock υ.registry j) (hd.forwarding f)
      ⟨.wrap f.bytes, υ.net, 0⟩).2.net k).outp = (υ.net k).outp ++ f.bytes

/-- The record `i` has moved to `k`. -/
structure Followed (cfg : Config) (υ : Server) (k : SocketId) (i : Nat) : Prop where
  sender : CountsAsSender υ k i
  messages : MessagesReach cfg υ k i

/-- A record keeps its socket. -/
theorem sock_of_run {as : List Action} (hσ : Reachable cfg σ)
    (h : Lts.run (step cfg) σ as = some τ) {i : Nat} {n : NodeInfo}
    (hn : σ.registry.reg[i]? = some n) :
    ∃ m, τ.registry.reg[i]? = some m ∧ m.identity = n.identity := by
  obtain ⟨new, hnew⟩ := ledger_grows hσ h
  have hi : σ.ledger[i]? = some n.identity := by
    rw [ledger, Registry.ledger, List.getElem?_map, hn]
    rfl
  have hτ : τ.ledger[i]? = some n.identity := by
    rw [← hnew, List.getElem?_append_left (List.getElem?_eq_some_iff.mp hi).1, hi]
  rw [ledger, Registry.ledger, List.getElem?_map, Option.map_eq_some_iff] at hτ
  exact hτ

/-- A `PONG` enrols nobody. -/
private theorem Reconnects.not_firstTime {clock : Nat → JLong} {r : Registry} {i : Fin r.reg.length}
    (hrec : Reconnects clock r k f i) : ¬ FirstTime r k f.body := by
  intro hf
  have hpong := hrec.pong
  rw [answer_firstTime clock hf] at hpong
  cases hpong

/-- After the `PONG` the sockets of the ledger are those before it. -/
private theorem ledger_of_reconnect {hd : RequestHandler} {rest : List Byte}
    {i : Fin σ.registry.reg.length} (hkept : Kept σ) (hsock : hd.sock = k) (hsound : Sound hd)
    (hrec : Reconnects sc.clock σ.registry k f i) (htakes : Takes cfg σ k sc hd f rest τ) :
    τ.ledger = σ.ledger ∧ (∃ h, τ.handlers k = some h) ∧ (τ.net k).isOpen = true := by
  have hlong : ¬ Short σ.registry k f := not_short_of_len hrec.tag hrec.len
  obtain ⟨d, hserved, rfl⟩ := htakes.long hlong
  obtain ⟨hreg, -, -, hnet⟩ := served_attached hsock hsound hlong hserved
  obtain ⟨-, -, hother⟩ := settle_ledger sc.clock hkept.counted hd f
  rw [← hreg, hsock] at hother
  refine ⟨hother fun hn => hrec.not_firstTime hn.2, ⟨d.handler, Function.update_self ..⟩, ?_⟩
  exact (hnet.isOpen k).trans ((isOpen_taken ..).trans (isOpen_of_read htakes.read))

/-- The record keeps its socket, so it is never the sender on `k`. -/
private theorem not_countsAsSender {as : List Action} (hσ : Reachable cfg σ)
    (hrun : Lts.run (step cfg) σ as = some υ) {i : Fin σ.registry.reg.length}
    (helse : (σ.registry.reg.get i).sock ≠ k) : ¬ CountsAsSender υ k i := by
  rintro ⟨⟨j, hj, hji⟩, -⟩
  obtain ⟨m, hm, hident⟩ := sock_of_run hσ hrun (i := i) (n := σ.registry.reg.get i) (by simp)
  have hmj : υ.registry.reg.get j = m := by
    rw [← hji, List.getElem?_eq_getElem j.isLt, Option.some.injEq] at hm
    exact hm
  have hsock : m.sock = k := by
    rw [← hmj]
    exact Registry.sock_of_isRegistedSock hj
  have hkeep : m.sock = (σ.registry.reg.get i).sock := congrArg Identity.sock hident
  exact helse (hkeep.symm.trans hsock)

/-- Right after the `PONG` on a socket nobody registered, a message to the
record does not reach it there. -/
private theorem not_messagesReach (hτ : ∀ n ∈ τ.registry.reg, n.sock ≠ k)
    (hk : ∃ h, τ.handlers k = some h) (ho : (τ.net k).isOpen = true) {i : Nat}
    (hi : i < τ.registry.reg.length) : ¬ MessagesReach cfg τ k i := by
  intro hreach
  obtain ⟨hd, hhd⟩ := hk
  have hsame : ∀ clock : Nat → JLong, k ∉ (seen clock τ.registry k).reg.map NodeInfo.sock := by
    intro clock hmem
    have hnone : τ.registry.isRegistedSock k = none := Registry.isRegistedSock_eq_none_iff.mpr hτ
    rw [seen, hnone] at hmem
    obtain ⟨n, hn, hsock⟩ := List.mem_map.mp hmem
    exact hτ n hn hsock
  have hwritten := hreach k hd τ.registry.reg[i] (emptyMsg (τ.registry.reg[i]).poNodeAddr)
    (fun _ => 0) (fun _ _ => .accept 25) hhd (List.getElem?_eq_getElem hi) rfl (by simp [emptyMsg])
    (dstOf_emptyMsg _) (locationAdmits_emptyMsg ..) ho
    (fun _ => ⟨25, by simp [emptyMsg], rfl⟩)
  rw [writePoMsg_net_of_not_mem (by simp [emptyMsg]) (hsame _)] at hwritten
  exact Frame.bytes_ne_nil _ (List.self_eq_append_right.mp hwritten)

/-- **A reconnection is never followed**: at no later time is the record the
sender on its new socket; and unless that socket has a record of its own,
messages to it do not reach the socket the `PONG` was sent on. -/
theorem reconnect_not_followed {i : Fin σ.registry.reg.length} {as : List Action}
    (hσ : Reachable cfg σ) (hst : step cfg σ (.dispatch k sc) = some τ)
    (hacts : σ.actsOn k (.dispatch k sc) = [([f.tag, f.lengthByte], f.body)])
    (hrec : Reconnects sc.clock σ.registry k f i) (hrun : Lts.run (step cfg) τ as = some υ) :
    ¬ Followed cfg υ k i ∧ ¬ CountsAsSender υ k i ∧
      (σ.registry.isRegistedSock k = none → ¬ MessagesReach cfg τ k i) := by
  have hkept := kept_reachable hσ
  have hlater : Lts.run (step cfg) σ (.dispatch k sc :: as) = some υ :=
    Lts.run_cons_eq_some.mpr ⟨τ, hst, hrun⟩
  have hsender := not_countsAsSender hσ hlater hrec.elsewhere
  refine ⟨fun hfol => hsender hfol.sender, hsender, ?_⟩
  intro hnone
  obtain ⟨-, hd, hk, hsock, hsound, hcases⟩ := dispatch_cases hkept.attached hst
  obtain ⟨hread, -⟩ | ⟨h', c', hread, -⟩ | ⟨g, rest, htakes⟩ := hcases
  · simp [actsOn, hk, hread] at hacts
  · simp [actsOn, hk, hread] at hacts
  · have hfg : g = f := by
      simp only [actsOn, hk, htakes.read, if_true, heldBy_holding, List.cons.injEq,
        Prod.mk.injEq] at hacts
      exact Frame.ext hacts.1.1.1 hacts.1.2
    cases hfg
    obtain ⟨hledger, hhandler, ho⟩ := ledger_of_reconnect hkept hsock hsound hrec htakes
    have hlen : τ.registry.reg.length = σ.registry.reg.length := by
      have := congrArg List.length hledger
      simpa [ledger] using this
    refine not_messagesReach ?_ hhandler ho (by rw [hlen]; exact i.isLt)
    intro n hn hsk
    have hmem : n.identity ∈ τ.ledger := List.mem_map_of_mem hn
    rw [hledger] at hmem
    obtain ⟨m, hm, hident⟩ := List.mem_map.mp hmem
    exact Registry.isRegistedSock_eq_none_iff.mp hnone m hm
      ((congrArg Identity.sock hident).trans hsk)

/-- The first node comes back on socket 1 at once. -/
private theorem run_again :
    ∃ σ τ, ∃ i : Fin σ.registry.reg.length, Reachable everywhere σ ∧
      step everywhere σ (.dispatch 1 (prompt 0)) = some τ ∧
      σ.actsOn 1 (.dispatch 1 (prompt 0)) =
        [([againRequest.tag, againRequest.lengthByte], againRequest.body)] ∧
      Reconnects (prompt 0).clock σ.registry 1 againRequest i := by
  obtain ⟨σ, hrun, ha, hreg, hfree, -⟩ := run_firstNode everywhere
  have hjoin := run_joined everywhere ha (hfree 1 (by decide)) againRequest.bytes
  have hrec : ∀ r : Registry, r = ⟨[firstNode], 2⟩ →
      ∃ i, Reconnects (prompt 0).clock r 1 againRequest i := by
    rintro r rfl
    exact ⟨⟨0, by decide⟩, by decide, by decide, by decide, by decide, by decide, by decide, by decide⟩
  obtain ⟨i, hi⟩ := hrec (σ.joined 1 againRequest.bytes).registry hreg
  have hlong : ¬ Short (σ.joined 1 againRequest.bytes).registry 1 againRequest :=
    not_short_of_len hi.tag hi.len
  have hself : (σ.joined 1 againRequest.bytes).handlers 1 = some (.new 1) := by simp
  have ho : ((σ.joined 1 againRequest.bytes).net 1).isOpen = true := by simp
  have hinp : ((σ.joined 1 againRequest.bytes).net 1).inp = againRequest.bytes ++ [] := by simp
  obtain ⟨h, hdisp⟩ := step_registryReq everywhere 0 (σ := σ.joined 1 againRequest.bytes) ha hself
    rfl ho hinp rfl hlong
  exact ⟨_, _, i, Lts.Reachable.of_run ⟨_, hrun⟩ hjoin, hdisp,
    actsOn_prompt hself ho hinp, hi⟩

/-- The node that comes back is answered with a `PONG` and not followed. -/
theorem first_node_not_followed :
    ∃ σ τ, ∃ i : Fin σ.registry.reg.length, Reachable everywhere σ ∧
      step everywhere σ (.dispatch 1 (prompt 0)) = some τ ∧
      Reconnects (prompt 0).clock σ.registry 1 againRequest i ∧ ¬ Followed everywhere τ 1 i := by
  obtain ⟨σ, τ, i, hσ, hst, -, hrec⟩ := run_again
  have hrun : Lts.run (step everywhere) σ [.dispatch 1 (prompt 0)] = some τ := by
    rw [Lts.run_singleton, hst]
  exact ⟨σ, τ, i, hσ, hst, hrec, fun hfol => not_countsAsSender hσ hrun hrec.elsewhere hfol.sender⟩

/-- The statement on the run of that node. -/
theorem reconnect_not_followed_first :
    ∃ σ τ, ∃ i : Fin σ.registry.reg.length, step everywhere σ (.dispatch 1 (prompt 0)) = some τ ∧
      ¬ Followed everywhere τ 1 i ∧ ¬ CountsAsSender τ 1 i ∧
      (σ.registry.isRegistedSock 1 = none → ¬ MessagesReach everywhere τ 1 i) := by
  obtain ⟨σ, τ, i, hσ, hst, hacts, hrec⟩ := run_again
  exact ⟨σ, τ, i, hst, reconnect_not_followed hσ hst hacts hrec (Lts.run_nil τ)⟩

end Server

end Pobicos.Directory
