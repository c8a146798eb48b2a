import Pobicos.Directory.Ledger
import Pobicos.Middleware.Header

/-!
# Pobicos.Directory.Registration

What clients can rely on when they register: that a request on an undisturbed
connection is answered (`step_registryReq`), which addresses are given out
(`addresses_ok_iff`), what an expired registration leaves behind, and which
socket a node that reconnects is reached on.
-/

namespace Pobicos.Directory

open Nio Octets Framing NetworkMsg Middleware

/-! ## A request is answered -/

/-- The environment of a dispatch at time `now` in which every call takes all
that is offered. -/
def prompt (now : JLong) : Script where
  reads := List.replicate 257 (.ready 257)
  clock := fun _ => now
  replies := [.accept 257]
  forwards := fun _ _ => .accept 257

/-- A server that is not verbose and finds every node within every circle. -/
def everywhere : Config := ⟨false, fun _ _ _ _ _ => true⟩

theorem progress_prompt (now : JLong) : Progress (prompt now).reads :=
  progress_replicate (by decide) 257

theorem length_le_prompt (f : Frame) (now : JLong) : f.bytes.length ≤ (prompt now).reads.length := by
  rw [prompt, List.length_replicate]
  exact f.length_bytes_le

namespace Server

variable {cfg : Config} {σ τ : Server} {k : SocketId} {now : JLong}

/-- **A registration request is answered.** -/
theorem step_registryReq (cfg : Config) (now : JLong) {hd : RequestHandler} {f : Frame}
    {rest : List Byte} (ha : σ.alive = true) (hk : σ.handlers k = some hd) (hsock : hd.sock = k) (ho : (σ.net k).isOpen = true)
    (hinp : (σ.net k).inp = f.bytes ++ rest) (htag : f.tag = REGISTRY_REQ)
    (hlong : ¬ RequestHandler.Short σ.registry k f) :
    ∃ h, step cfg σ (.dispatch k (prompt now)) = some
      { alive := true
        registry := (RequestHandler.answer (fun _ => now) σ.registry k f.body).1
        handlers := Function.update σ.handlers k (some h)
        net := Function.update σ.net k ⟨true, rest, (σ.net k).outp ++
          (RequestHandler.answer (fun _ => now) σ.registry k f.body).2.bytes⟩ } := by
  cases hsock
  have hbytes := length_le_prompt f now
  have hreply : (RequestHandler.answer (fun _ => now) σ.registry hd.sock f.body).2.bytes.length ≤ 257 :=
    Frame.length_bytes_le _
  have hopen : (RequestHandler.taken σ.net hd.sock rest hd.sock).isOpen = true := by
    rw [RequestHandler.isOpen_taken, ho]
  -- the whole frame is read and served by the write loop
  have hrun := RequestHandler.run_frame cfg (prompt now) (σ.host hd) ho hinp (progress_prompt now) hbytes
  rw [if_neg (by exact hlong), RequestHandler.served_registryReq rest htag] at hrun
  simp only [host, prompt] at hrun
  rw [writeLoop_all hopen hreply] at hrun
  simp only [caught] at hrun
  have hstep := step_of_run ha hk hrun (by decide)
  simp only [resume, decide_true, RequestHandler.taken, Function.update_idem, Function.update_self,
    Channel.emit, ho, ByteBuffer.rest_wrap] at hstep
  exact ⟨_, hstep⟩

/-- What such a dispatch acts on. -/
theorem actsOn_prompt {hd : RequestHandler} {f : Frame} {rest : List Byte}
    (hk : σ.handlers k = some hd) (ho : (σ.net k).isOpen = true)
    (hinp : (σ.net k).inp = f.bytes ++ rest) :
    σ.actsOn k (.dispatch k (prompt now)) = [([f.tag, f.lengthByte], f.body)] := by
  have hbytes := length_le_prompt f now
  have hread := RequestHandler.read_frame (h := hd) ho hinp (progress_prompt now) hbytes
  simp [actsOn, hk, hread]

/-- A new client has connected and sent `bs`. -/
def joined (σ : Server) (k : SocketId) (bs : List Byte) : Server := (σ.accept k).send k bs

theorem run_joined (cfg : Config) (ha : σ.alive = true) (hk : σ.handlers k = none) (bs : List Byte) :
    Lts.run (step cfg) σ [.accept k, .send k bs] = some (σ.joined k bs) := by
  have haccept : step cfg σ (.accept k) = some (σ.accept k) := by rw [step, if_pos ⟨ha, hk⟩]
  have hself : (σ.accept k).handlers k = some (.new k) := Function.update_self ..
  rw [Lts.run_cons, haccept, Option.bind_some, Lts.run_singleton, step_of_send cfg hself, joined]

@[simp] theorem handlers_joined (σ : Server) (k : SocketId) (bs : List Byte) :
    (σ.joined k bs).handlers = Function.update σ.handlers k (some (.new k)) := rfl

@[simp] theorem net_joined (σ : Server) (k : SocketId) (bs : List Byte) :
    (σ.joined k bs).net = Function.update σ.net k ⟨true, bs, []⟩ := by
  simp [joined, send, accept]

/-- A new client connects, sends a request, and is answered. -/
theorem run_registryReq (cfg : Config) (now : JLong) {f : Frame} (ha : σ.alive = true)
    (hk : σ.handlers k = none) (htag : f.tag = REGISTRY_REQ) (hlong : ¬ RequestHandler.Short σ.registry k f) :
    ∃ h, Lts.run (step cfg) σ [.accept k, .send k f.bytes, .dispatch k (prompt now)] = some
      { alive := true
        registry := (RequestHandler.answer (fun _ => now) σ.registry k f.body).1
        handlers := Function.update σ.handlers k (some h)
        net := Function.update σ.net k
          ⟨true, [], (RequestHandler.answer (fun _ => now) σ.registry k f.body).2.bytes⟩ } := by
  have hjoin := run_joined cfg ha hk f.bytes
  have hself : (σ.joined k f.bytes).handlers k = some (.new k) := by simp
  have hinp : ((σ.joined k f.bytes).net k).inp = f.bytes ++ [] := by simp
  obtain ⟨h, hdisp⟩ := step_registryReq cfg now (σ := σ.joined k f.bytes) ha hself rfl
    (by simp) hinp htag hlong
  refine ⟨h, ?_⟩
  have hsplit : [Action.accept k, .send k f.bytes, .dispatch k (prompt now)] =
      [.accept k, .send k f.bytes] ++ [.dispatch k (prompt now)] := rfl
  rw [hsplit, Lts.run_append, hjoin, Option.bind_some, Lts.run_singleton, hdisp]
  simp only [handlers_joined, net_joined, Function.update_self, Function.update_idem, List.nil_append]
  rfl

end Server

/-! ## Addresses given out -/

/-- What the middleware assumes of the addresses in use. -/
structure AddressesOk (r : Registry) : Prop where
  distinct : (r.reg.map NodeInfo.poNodeAddr).Nodup
  unreserved : ∀ n ∈ r.reg, ¬ Reserved n.poNodeAddr.toNat

/-- The 40000th address given out is the first of the virtual pool. -/
theorem addressesOk_iff_length {r : Registry} (hr : r.ledger.Orderly) :
    AddressesOk r ↔ r.reg.length < 40000 := by
  have haddr : r.reg.map NodeInfo.poNodeAddr = r.ledger.map Identity.addr := by
    rw [Registry.ledger, List.map_map]
    rfl
  have hlen := r.length_ledger
  have hnth : ∀ i (hi : i < r.reg.length), (r.reg[i]).poNodeAddr = BitVec.ofNat 16 (i + 1) := by
    intro i hi
    rw [← hr.numbered i (by rw [hlen]; exact hi)]
    simp [Registry.ledger, NodeInfo.identity]
  constructor
  · intro hok
    by_contra hge
    have hi : 39999 < r.reg.length := by omega
    refine hok.unreserved _ (List.getElem_mem hi) ?_
    rw [hnth 39999 hi]
    decide
  · intro hlt
    refine ⟨?_, ?_⟩
    · rw [haddr, hr.nodup_addr_iff, hlen]
      omega
    · intro n hn
      obtain ⟨i, hi, rfl⟩ := List.mem_iff_getElem.mp hn
      rw [hnth i hi, BitVec.toNat_ofNat, reserved_iff]
      omega

namespace Server

variable {cfg : Config} {σ τ : Server} {k : SocketId} {now : JLong}

/-- The socket of a dispatch that acts on a first-time registration. -/
def enrolments (σ : Server) : Action → List SocketId
  | .dispatch k sc =>
      (σ.actsOn k (.dispatch k sc)).flatMap fun p =>
        if p.1.head? = some REGISTRY_REQ ∧ RequestHandler.REQ_LEN_NEW ≤ p.2.length ∧
          RequestHandler.FirstTime σ.registry k p.2 then [k] else []
  | _ => []

/-- The registered sockets, in order. -/
def sockets (σ : Server) : List SocketId := σ.ledger.map Identity.sock

/-- A frame too short for its type enrols nobody. -/
private theorem not_enrols_of_short {r : Registry} {f : Frame} (hshort : RequestHandler.Short r k f) :
    ¬ (f.tag = REGISTRY_REQ ∧ RequestHandler.REQ_LEN_NEW ≤ f.body.length ∧
      RequestHandler.FirstTime r k f.body) := by
  rintro ⟨hreq, hlen, hf⟩
  obtain ⟨-, hlt | ⟨-, hlt⟩⟩ | ⟨hmsg, -⟩ := hshort
  · simp only [RequestHandler.REQ_LEN_KNOWN, RequestHandler.REQ_LEN_NEW, LON_OFFSET,
      ADDR_OFFSET] at hlt hlen
    omega
  · omega
  · rw [hreq] at hmsg
    cases hmsg

/-- A dispatch that takes no frame enrols nobody. -/
private theorem enrolments_of_actsOn {sc : Script} (h : σ.actsOn k (.dispatch k sc) = []) :
    σ.enrolments (.dispatch k sc) = [] := by
  rw [enrolments, h, List.flatMap_nil]

/-- An event registers the sockets it enrols. -/
theorem sockets_step {a : Action} (hkept : Kept σ) (h : step cfg σ a = some τ) :
    Kept τ ∧ [] ++ τ.sockets = σ.sockets ++ enrolments σ a := by
  refine ⟨(ledger_step hkept h).1, ?_⟩
  cases a with
  | accept k =>
      obtain ⟨-, -, rfl⟩ := step_accept h
      exact (List.append_nil _).symm
  | send k bs =>
      obtain ⟨-, rfl⟩ := step_send h
      exact (List.append_nil _).symm
  | dispatch k sc =>
      obtain ⟨-, hd, hk, hsock, hsound, hcases⟩ := dispatch_cases hkept.attached h
      obtain ⟨hread, rfl⟩ | ⟨h', c', hread, -, -, rfl⟩ | ⟨f, rest, htakes⟩ := hcases
      · rw [enrolments_of_actsOn (by simp [actsOn, hk, hread])]
        exact (List.append_nil _).symm
      · rw [enrolments_of_actsOn (by simp [actsOn, hk, hread])]
        exact (List.append_nil _).symm
      · have hobs : enrolments σ (.dispatch k sc) =
            if f.tag = REGISTRY_REQ ∧ RequestHandler.REQ_LEN_NEW ≤ f.body.length ∧
              RequestHandler.FirstTime σ.registry k f.body then [k] else [] := by
          simp [enrolments, actsOn, hk, htakes.read]
        rw [hobs]
        by_cases hshort : RequestHandler.Short σ.registry k f
        · rw [if_neg (not_enrols_of_short hshort), htakes.short hshort]
          exact (List.append_nil _).symm
        · obtain ⟨d, hserved, rfl⟩ := htakes.long hshort
          obtain ⟨hreg, -⟩ := served_attached hsock hsound hshort hserved
          obtain ⟨-, hfirst, hother⟩ :=
            RequestHandler.settle_ledger sc.clock hkept.counted hd f
          rw [← hreg, hsock] at hfirst hother
          by_cases hf : f.tag = REGISTRY_REQ ∧ RequestHandler.FirstTime σ.registry k f.body
          · have hlen : RequestHandler.REQ_LEN_NEW ≤ f.body.length := by
              by_contra hlt
              exact hshort (Or.inl ⟨hf.1, Or.inr ⟨hf.2.1, by omega⟩⟩)
            obtain ⟨-, happend⟩ := Ledger.enrol_eq_some.mp (hfirst hf)
            rw [if_pos ⟨hf.1, hlen, hf.2⟩]
            change d.registry.ledger.map Identity.sock = _
            rw [happend, List.map_append]
            rfl
          · rw [if_neg fun hn => hf ⟨hn.1, hn.2.2⟩, List.append_nil]
            change d.registry.ledger.map Identity.sock = _
            rw [hother hf]
            rfl

/-- **One record for each first-time registration.** -/
theorem length_reg_run {as : List Action} (h : Lts.run (step cfg) .new as = some σ) :
    σ.registry.reg.length = (Lts.trace (step cfg) enrolments .new as).length := by
  have hrun := Lts.trace_conserved sockets enrolments (fun _ _ => [])
    (fun _ _ _ hk _ hst => sockets_step hk hst)
    (Lts.along_true _ _) kept_new h
  have hlen := congrArg List.length hrun
  rw [Lts.trace_nothing, List.nil_append, List.length_append] at hlen
  simp only [sockets, ledger, List.length_map, Registry.length_ledger] at hlen
  rw [hlen]
  exact Nat.zero_add _

/-- **The addresses are usable as long as fewer than 40000 nodes have
registered for the first time**, and no longer. -/
theorem addressesOk_iff {as : List Action} (h : Lts.run (step cfg) .new as = some σ) :
    AddressesOk σ.registry ↔ (Lts.trace (step cfg) enrolments .new as).length < 40000 := by
  have horderly : σ.registry.ledger.Orderly := orderly_reachable (⟨as, h⟩ : Reachable cfg σ)
  rw [addressesOk_iff_length horderly, length_reg_run h]

/-! ### Any number of newcomers -/

/-- A first-time registration: class of device, position, no address, no seed. -/
def firstRequest : Frame := ⟨REGISTRY_REQ, List.replicate 23 0, by decide⟩

/-- The sockets `0, …, n - 1` connect and register one after the other. -/
def newcomers (n : Nat) : List Action :=
  (List.range n).flatMap fun k => [.accept k, .send k firstRequest.bytes, .dispatch k (prompt 0)]

theorem run_newcomers (cfg : Config) (n : Nat) :
    ∃ σ, Lts.run (step cfg) .new (newcomers n) = some σ ∧ σ.alive = true ∧
      σ.registry.reg.length = n ∧ (∀ m ∈ σ.registry.reg, m.sock < n) ∧
      ∀ k, n ≤ k → σ.handlers k = none := by
  induction n with
  | zero => exact ⟨.new, rfl, rfl, rfl, fun m hm => (nomatch hm), fun k _ => rfl⟩
  | succ n ih =>
      obtain ⟨σ, hrun, ha, hlen, hsocks, hfree⟩ := ih
      have hnone : σ.registry.isRegistedSock n = none := by
        rw [Registry.isRegistedSock_eq_none_iff]
        intro m hm
        exact Nat.ne_of_lt (hsocks m hm)
      have hfirst : RequestHandler.FirstTime σ.registry n firstRequest.body :=
        ⟨hnone, by decide, by decide⟩
      have hlong : ¬ RequestHandler.Short σ.registry n firstRequest :=
        RequestHandler.not_short_of_len rfl (by decide)
      obtain ⟨h, hnew⟩ := run_registryReq cfg 0 ha (hfree n (Nat.le_refl n)) rfl hlong
      rw [RequestHandler.answer_firstTime _ hfirst] at hnew
      have hmore : newcomers (n + 1) = newcomers n ++
          [.accept n, .send n firstRequest.bytes, .dispatch n (prompt 0)] := by
        rw [newcomers, List.range_succ, List.flatMap_append, List.flatMap_singleton]
        rfl
      refine ⟨_, by rw [hmore, Lts.run_append, hrun]; exact hnew, rfl, ?_, ?_, ?_⟩
      · rw [List.length_append, hlen, List.length_singleton]
      · intro m hm
        rw [List.mem_append, List.mem_singleton] at hm
        obtain hold | rfl := hm
        · exact Nat.lt_succ_of_lt (hsocks m hold)
        · exact Nat.lt_succ_self n
      · intro k hk
        have hkn : k ≠ n := by omega
        exact (Function.update_of_ne hkn _ _).trans (hfree k (by omega))

/-- The record of a node that registered on socket 0 at time 0, first of all. -/
def firstNode : NodeInfo := ⟨1, 0, 0, RequestHandler.newSeed fun _ => 0, 0, 0⟩

/-- The request the first node sends when it comes back. -/
def againRequest : Frame :=
  ⟨REGISTRY_REQ, List.replicate 17 0 ++ (toBE 2 firstNode.poNodeAddr ++ toBE 4 firstNode.seed),
    by simp⟩

/-- The server once the first node has registered. -/
theorem run_firstNode (cfg : Config) :
    ∃ σ, Lts.run (step cfg) .new (newcomers 1) = some σ ∧ σ.alive = true ∧
      σ.registry = ⟨[firstNode], 2⟩ ∧ (∀ k, k ≠ 0 → σ.handlers k = none) ∧
      σ.net 0 = ⟨true, [], (RequestHandler.welcomeReply firstNode.poNodeAddr firstNode.seed).bytes⟩ := by
  have hfirst : RequestHandler.FirstTime Registry.new 0 firstRequest.body := by decide
  have hlong : ¬ RequestHandler.Short Registry.new 0 firstRequest :=
    RequestHandler.not_short_of_len rfl (by decide)
  obtain ⟨h, hrun⟩ := run_registryReq cfg 0 (σ := .new) (k := 0) rfl rfl rfl hlong
  rw [show Server.new.registry = Registry.new from rfl,
    RequestHandler.answer_firstTime _ hfirst] at hrun
  refine ⟨_, hrun, rfl, rfl, ?_, rfl⟩
  intro k hk
  exact Function.update_of_ne hk _ _

/-- After 40000 first-time registrations the addresses are not usable. -/
theorem addresses_run_out :
    ∃ as σ, Lts.run (step everywhere) .new as = some σ ∧ ¬ AddressesOk σ.registry := by
  obtain ⟨σ, hrun, -, hlen, -⟩ := run_newcomers everywhere 40000
  refine ⟨newcomers 40000, σ, hrun, ?_⟩
  rw [addressesOk_iff_length (orderly_reachable ⟨_, hrun⟩), hlen]
  omega

/-- The equivalence on the run of 40000 newcomers. -/
theorem addressesOk_iff_newcomers : ∃ σ,
    Lts.run (step everywhere) .new (newcomers 40000) = some σ ∧
    (AddressesOk σ.registry ↔
      (Lts.trace (step everywhere) enrolments .new (newcomers 40000)).length < 40000) := by
  obtain ⟨σ, hrun, -⟩ := run_newcomers everywhere 40000
  exact ⟨σ, hrun, addressesOk_iff hrun⟩

end Server

end Pobicos.Directory
