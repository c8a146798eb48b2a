import Pobicos.System.World

/-!
# Pobicos.System.Agreement

Client and directory agree on the identity of the client.

What a client stores is `(0, 0)` or the address and the seed of a record of one
of its own connections, and the directory decodes from a `REGISTRY_REQ` what
the client has made it for.  It takes that every message forwarded to a client
is forwarded whole (`agreed_of_run`): behind a message that has been cut, bytes
another client has chosen are read as a `WELCOME` (`foreign_identity_stored`).
-/

namespace Pobicos.System

open Nio Octets Framing NetworkMsg Serialization Directory Client Middleware

/-! ## The agreement -/

/-- The address and the seed `process` decodes from the payload of a
`REGISTRY_REQ`. -/
def reqIdentity (payload : List Byte) : Except Throwable AddrSeed := do
  let ad ← arrayGetRange payload ADDR_OFFSET 2
  let sd ← arrayGetRange payload (ADDR_OFFSET + 2) 4
  let addr ← byteArrayToChar ad
  let seed ← byteArrayToInt sd
  .ok (addr, seed)

namespace World

/-- A record made for a connection of `c` has this address and this seed. -/
def Assigned (w : World) (c : Nat) (p : AddrSeed) : Prop :=
  ∃ n ∈ w.server.registry.reg, (w.conns n.sock).map Conn.owner = some c ∧ (n.poNodeAddr, n.seed) = p

/-- Nothing yet, or assigned. -/
def Known (w : World) (c : Nat) (p : AddrSeed) : Prop := p = (0, 0) ∨ w.Assigned c p

/-- Every client and the directory agree on the client's address and seed. -/
structure Agreed (w : World) : Prop where
  /-- What a client stores is its own. -/
  stored : ∀ c, w.Known c (w.nodes c).stored
  /-- So is what its update tasks, its queue and its connections hold. -/
  tasks : ∀ c, ∀ t ∈ (w.nodes c).updateTasks, w.Known c (t.addr, t.seed)
  queued : ∀ c, ∀ m ∈ (w.nodes c).outMsgQ, ∀ p, m.ident = some p → w.Known c p
  onWay : ∀ k conn, w.conns k = some conn → ∀ p, some p ∈ conn.onWay → w.Known conn.owner p
  /-- A `REGISTRY_REQ` that is acted on is decoded to what it was made for. -/
  decoded : ∀ k conn (sc : Script) p, w.conns k = some conn →
    p ∈ w.server.actsOn k (.dispatch k (sc.over w.down k)) → p.1.head? = some REGISTRY_REQ →
    ∃ ident, conn.onWay.head? = some (some ident) ∧ reqIdentity p.2 = .ok ident

/-- Every message the directory forwards in this event is forwarded whole. -/
def ForwardsWhole (cfg : Config) (w : World) : Event → Prop
  | .dispatch k sc => w.server.ForwardsWhole cfg k (sc.over w.down k)
  | _ => True

instance (cfg : Config) (w : World) (e : Event) : Decidable (w.ForwardsWhole cfg e) := by
  cases e <;> unfold ForwardsWhole <;> infer_instance

end World

/-! ## Requests -/

/-- **The request round trip**: the directory decodes what the client has put
in, for every address and seed. -/
theorem reqIdentity_reqPayload (classOfDevice : Byte) (lat lon : JDouble) (addr : JChar) (seed : JInt) :
    reqIdentity (reqPayload classOfDevice lat lon addr seed) = .ok (addr, seed) := by
  have hfront : (classOfDevice :: (toBE 8 lat ++ toBE 8 lon)).length = ADDR_OFFSET := by
    simp [ADDR_OFFSET]
  have hsplit : reqPayload classOfDevice lat lon addr seed =
      (classOfDevice :: (toBE 8 lat ++ toBE 8 lon)) ++ (toBE 2 addr ++ toBE 4 seed) := by
    simp [reqPayload]
  have had : ((reqPayload classOfDevice lat lon addr seed).drop ADDR_OFFSET).take 2 = toBE 2 addr := by
    rw [hsplit, List.drop_left' hfront, List.take_left' (length_toBE ..)]
  have hsd : ((reqPayload classOfDevice lat lon addr seed).drop (ADDR_OFFSET + 2)).take 4 =
      toBE 4 seed := by
    rw [← List.drop_drop, hsplit, List.drop_left' hfront, List.drop_left' (length_toBE ..)]
    exact List.take_of_length_le (Nat.le_of_eq (length_toBE ..))
  have hlen := length_reqPayload classOfDevice lat lon addr seed
  rw [reqIdentity, arrayGetRange_of_le (by rw [hlen, ADDR_OFFSET]; omega),
    arrayGetRange_of_le (by rw [hlen, ADDR_OFFSET]), had, hsd]
  simp only [bind, Except.bind, byteArrayToChar_toBE, byteArrayToInt_toBE]

/-- **The reply round trip**: the reader stores what the directory has put in,
for every address and seed. -/
theorem handle_welcomeReply (t : ReadTask) (addr : JChar) (seed : JInt) :
    (t.took (RequestHandler.welcomeReply addr seed)).handle
      (RequestHandler.welcomeReply addr seed).body.length = .ok [.welcome addr seed] := by
  have hbody : (RequestHandler.welcomeReply addr seed).body = toBE 2 addr ++ toBE 4 seed := rfl
  have hne : (RequestHandler.welcomeReply addr seed).body ≠ [] := by
    intro hnil
    simpa [hbody] using congrArg List.length hnil
  have haddr : arrayGetRange (toBE 2 addr ++ toBE 4 seed) 0 2 = .ok (toBE 2 addr) := by
    rw [arrayGetRange_of_le (by simp), List.drop_zero, List.take_left' (length_toBE ..)]
  have hseed : arrayGetRange (toBE 2 addr ++ toBE 4 seed) 2 4 = .ok (toBE 4 seed) := by
    rw [arrayGetRange_of_le (by simp), List.drop_left' (length_toBE ..)]
    exact congrArg Except.ok (List.take_of_length_le (Nat.le_of_eq (length_toBE ..)))
  have htag : (RequestHandler.welcomeReply addr seed).tag = REG_REPLY_WELCOME := rfl
  rw [ReadTask.handle_took, if_pos htag, ReadTask.took, if_neg hne, hbody]
  simp only [deref_some, bind, Except.bind, ByteBuffer.array_full, haddr, hseed, byteArrayToChar_toBE,
    byteArrayToInt_toBE]

/-- No other frame makes the reader store an identity. -/
theorem handle_not_welcome {t : ReadTask} {f : Frame} {effects : List Effect}
    (htag : f.tag ≠ REG_REPLY_WELCOME) (h : (t.took f).handle f.body.length = .ok effects)
    (addr : JChar) (seed : JInt) : .welcome addr seed ∉ effects := by
  by_cases hmessage : f.tag = POBICOS_MSG
  · rw [ReadTask.handle_took, hmessage] at h
    cases hp : (t.took f).payload with
    | none =>
        rw [hp] at h
        cases h
    | some b =>
        rw [hp] at h
        cases h
        simp
  · by_cases hfail : f.tag = REG_REPLY_FAIL
    · rw [ReadTask.handle_took, hfail] at h
      cases h
      simp
    · obtain hnone | hpong := ReadTask.handle_other t hmessage htag hfail
      · rw [hnone] at h
        cases h
        simp
      · rw [hpong] at h
        cases h
        simp

/-! ## The invariant -/

/-- The frame `f`, if it is a request, is decoded to what `ident` says. -/
def Asks (ident : Option AddrSeed) (f : Frame) : Prop :=
  f.tag = REGISTRY_REQ → ∃ p, ident = some p ∧ reqIdentity f.body = .ok p

/-- A message that can be framed, and is made for what it says. -/
structure Sendable (m : Queued) : Prop where
  framed : Client.Framed m.msg
  asks : m.msg.msgType = REGISTRY_REQ → ∃ p, m.ident = some p ∧ reqIdentity m.msg.payload = .ok p

theorem sendable_registryReq (classOfDevice : Byte) (lat lon : JDouble) (addr : JChar) (seed : JInt) :
    Sendable ⟨⟨REGISTRY_REQ, 23, reqPayload classOfDevice lat lon addr seed⟩, some (addr, seed)⟩ where
  framed := ⟨length_reqPayload .., fun htype => (nomatch htype)⟩
  asks _ := ⟨_, rfl, reqIdentity_reqPayload ..⟩

/-- The frame a message is written as. -/
theorem Sendable.frame {m : Queued} (h : Sendable m) (app : AppLocation) (hostsRootAgent : Bool) :
    ∃ f, Asks m.ident f ∧ frameMsg app hostsRootAgent m.msg = .ok (.wrap f.bytes) := by
  obtain ⟨f, hcarries, hframe⟩ := h.framed.carries app hostsRootAgent
  refine ⟨f, fun htag => ?_, hframe⟩
  have htype : m.msg.msgType = REGISTRY_REQ := hcarries.tag.symm.trans htag
  have hne : m.msg.msgType ≠ POBICOS_MSG := by
    rw [htype]
    decide
  obtain ⟨p, hp, hident⟩ := h.asks htype
  refine ⟨p, hp, ?_⟩
  rw [hcarries.body, Client.trailer, if_neg hne, List.append_nil]
  exact hident

/-- The reader, unless it has ended, has read whole frames of what it has been
sent. -/
def Conn.Reads (conn : Conn) (sent : List Byte) : Prop :=
  ∀ t, conn.reader = some t → ReadTask.Ready t ∧ conn.heard ≤ sent.length ∧
    ∃ hs, sent.take conn.heard = encode hs

theorem Conn.Reads.mono {conn : Conn} {sent sent' : List Byte} (h : conn.Reads sent)
    (hsent : sent <+: sent') : conn.Reads sent' := by
  intro t ht
  obtain ⟨hready, hheard, hs, hhs⟩ := h t ht
  obtain ⟨bs, rfl⟩ := hsent
  refine ⟨hready, ?_, hs, ?_⟩
  · rw [List.length_append]
    omega
  · rw [List.take_append_of_le_length hheard, hhs]

namespace World

variable {cfg : Config} {w w' : World} {c : Nat} {k : SocketId} {n : Node} {conn : Conn} {p : AddrSeed}

/-- All that the process of `c` holds is its own. -/
structure NodeOk (w : World) (c : Nat) (n : Node) : Prop where
  stored : w.Known c n.stored
  tasks : ∀ t ∈ n.updateTasks, w.Known c (t.addr, t.seed)
  queued : ∀ m ∈ n.outMsgQ, ∀ p, m.ident = some p → w.Known c p
  sendable : ∀ m ∈ n.outMsgQ, Sendable m

/-- What the directory has not taken yet are the frames on their way, the last
of which may be cut when the writer has failed. -/
structure ConnOk (w : World) (k : SocketId) (conn : Conn) : Prop where
  handler : w.server.handlers k ≠ none
  reads : conn.Reads (w.server.net k).outp
  onWay : ∀ p, some p ∈ conn.onWay → w.Known conn.owner p
  stream : w.down k = false → ∃ gs cut, (w.server.net k).inp = encode gs ++ cut ∧ decode cut = none ∧
    (conn.writing = true → cut = []) ∧ List.Forall₂ Asks conn.onWay gs

structure Invariant (cfg : Config) (w : World) : Prop where
  announced : Server.Announced cfg w.down w.server
  nodes : ∀ c, w.NodeOk c (w.nodes c)
  conns : ∀ k conn, w.conns k = some conn → w.ConnOk k conn

/-- Records and connections of `w` are still there. -/
structure Extends (w w' : World) : Prop where
  records : w.server.ledger <+: w'.server.ledger
  owners : ∀ k c, (w.conns k).map Conn.owner = some c → (w'.conns k).map Conn.owner = some c

theorem assigned_iff : w.Assigned c p ↔
    ∃ i ∈ w.server.ledger, (w.conns i.sock).map Conn.owner = some c ∧ (i.addr, i.seed) = p := by
  simp [Assigned, Server.ledger, Registry.ledger, NodeInfo.identity]

/-- **What is known stays known.** -/
theorem Known.mono (h : w.Known c p) (hext : Extends w w') : w'.Known c p := by
  obtain hzero | hassigned := h
  · exact Or.inl hzero
  · obtain ⟨i, hi, howner, hp⟩ := assigned_iff.mp hassigned
    exact Or.inr (assigned_iff.mpr ⟨i, hext.records.subset hi, hext.owners _ _ howner, hp⟩)

theorem NodeOk.mono (h : w.NodeOk c n) (hext : Extends w w') : w'.NodeOk c n where
  stored := h.stored.mono hext
  tasks t ht := (h.tasks t ht).mono hext
  queued m hm p hp := (h.queued m hm p hp).mono hext
  sendable := h.sendable

/-- A connection the event leaves alone, but for bytes that are sent over it. -/
theorem ConnOk.mono (h : w.ConnOk k conn) (hext : Extends w w') (hhandler : w'.server.handlers k ≠ none)
    (houtp : (w.server.net k).outp <+: (w'.server.net k).outp)
    (hinp : w'.down k = false → w.down k = false ∧ (w'.server.net k).inp = (w.server.net k).inp) :
    w'.ConnOk k conn where
  handler := hhandler
  reads := h.reads.mono houtp
  onWay p hp := (h.onWay p hp).mono hext
  stream hup := by
    obtain ⟨hup', hsame⟩ := hinp hup
    rw [hsame]
    exact h.stream hup'

theorem invariant_new (cfg : Config) : Invariant cfg .new where
  announced := Server.announced_new cfg
  nodes _ := ⟨Or.inl rfl, fun _ ht => (nomatch ht), fun _ hm => (nomatch hm), fun _ hm => (nomatch hm)⟩
  conns _ _ hk := (nomatch hk)

/-! ## The processes -/

/-- Only the process of `c` has changed. -/
theorem Invariant.setNode (hw : Invariant cfg w) (hn : w.NodeOk c n) :
    Invariant cfg (w.setNode c n) := by
  have hext : Extends w (w.setNode c n) := ⟨List.prefix_rfl, fun _ _ h => h⟩
  refine ⟨hw.announced, fun j => ?_, fun k conn hk => ?_⟩
  · by_cases hj : j = c
    · rw [hj, nodes_setNode_self]
      exact hn.mono hext
    · rw [nodes_setNode_of_ne hj]
      exact (hw.nodes j).mono hext
  · have hconn := hw.conns k conn hk
    exact hconn.mono hext hconn.handler List.prefix_rfl fun hup => ⟨hup, rfl⟩

theorem NodeOk.offer {msg : Except Throwable NetworkMsg} {ident : Option AddrSeed} (hn : w.NodeOk c n)
    (hmsg : ∀ m, msg = .ok m → Sendable ⟨m, ident⟩) (hident : ∀ p, ident = some p → w.Known c p) :
    w.NodeOk c (n.offer msg ident) := by
  cases msg with
  | error x => exact hn
  | ok m =>
      refine ⟨hn.stored, hn.tasks, fun m' hm' => ?_, fun m' hm' => ?_⟩
      · obtain hm' | hm' := List.mem_append.mp hm'
        · exact hn.queued m' hm'
        · rw [List.mem_singleton.mp hm']
          exact hident
      · obtain hm' | hm' := List.mem_append.mp hm'
        · exact hn.sendable m' hm'
        · rw [List.mem_singleton.mp hm']
          exact hmsg m rfl

/-- A request is made for what is stored. -/
theorem NodeOk.register (hn : w.NodeOk c n) : w.NodeOk c n.register := by
  refine hn.offer (fun m hm => ?_) fun p hp => ?_
  · rw [PoRegistryService.register, registryReq_eq] at hm
    cases hm
    exact sendable_registryReq ..
  · cases hp
    exact hn.stored

theorem NodeOk.startUpdateThread (hn : w.NodeOk c n) : w.NodeOk c n.startUpdateThread := by
  refine ⟨hn.stored, fun t ht => ?_, hn.queued, hn.sendable⟩
  obtain ht | ht := List.mem_append.mp ht
  · exact hn.tasks t ht
  · rw [List.mem_singleton.mp ht]
    exact hn.stored

theorem NodeOk.update {t : RegistryUpdateTask} (hn : w.NodeOk c n) (ht : t ∈ n.updateTasks) :
    w.NodeOk c (n.update t) := by
  refine hn.offer (fun m hm => ?_) fun p hp => ?_
  · rw [RegistryUpdateTask.update, registryReq_eq] at hm
    cases hm
    exact sendable_registryReq ..
  · cases hp
    exact hn.tasks t ht

/-- A message of the middleware is no request. -/
theorem NodeOk.sendMsg (hn : w.NodeOk c n) (allocated : Bool) (addr : AddrType) (poMsg : PoMsg) :
    w.NodeOk c (n.sendMsg allocated addr poMsg) := by
  unfold Node.sendMsg
  split
  · next payload len source dest hcall =>
    obtain ⟨hshort, rfl, rfl⟩ := HWComm.sendPacket_eq hcall
    have hlen := PoMsg.length_payload hshort
    have hpos : poMsg.len.toNat < 128 := by
      rw [PO_HW_COMM_MAX_PAYLOAD_LEN] at hshort
      omega
    have hfits := fits_queuedMsg (p := ⟨poMsg.payload, poMsg.len, source, dest⟩) hlen hpos
    refine hn.offer (fun m hm => ?_) fun p hp => ?_
    · rw [jniCallbackSendPacket_eq source dest hlen hpos] at hm
      cases hm
      refine ⟨⟨hfits.exact, fun _ => hfits.room⟩, fun htype => ?_⟩
      cases htype
    · cases hp
  · exact hn

/-- The reader stores what it has been told. -/
theorem NodeOk.react (hn : w.NodeOk c n) (effects : List Effect)
    (htold : ∀ addr seed, .welcome addr seed ∈ effects → w.Known c (addr, seed)) :
    w.NodeOk c (effects.foldl Node.react n) := by
  induction effects generalizing n with
  | nil => exact hn
  | cons e effects ih =>
      refine ih ?_ fun addr seed hmem => htold addr seed (List.mem_cons_of_mem _ hmem)
      cases e with
      | welcome addr seed => exact ⟨htold addr seed List.mem_cons_self, hn.tasks, hn.queued, hn.sendable⟩
      | fail => exact ⟨hn.stored, hn.tasks, hn.queued, hn.sendable⟩
      | pong => exact ⟨hn.stored, hn.tasks, hn.queued, hn.sendable⟩
      | packetRx msg => exact hn

/-- The writer has taken a message. -/
theorem NodeOk.taken {m : Queued} {queue : List Queued} (hn : w.NodeOk c n) (hq : n.outMsgQ = m :: queue) :
    w.NodeOk c { n with outMsgQ := queue } where
  stored := hn.stored
  tasks := hn.tasks
  queued m' hm' := hn.queued m' (hq ▸ List.mem_cons_of_mem _ hm')
  sendable m' hm' := hn.sendable m' (hq ▸ List.mem_cons_of_mem _ hm')

/-! ## The connections -/

/-- The event was one of the connection `k`: of the others, it has at most sent
something over them. -/
structure Elsewhere (k : SocketId) (w w' : World) : Prop where
  records : w.server.ledger <+: w'.server.ledger
  nodes : w'.nodes = w.nodes
  owner : ∀ c, (w.conns k).map Conn.owner = some c → (w'.conns k).map Conn.owner = some c
  conns : ∀ j, j ≠ k → w'.conns j = w.conns j
  down : ∀ j, j ≠ k → w'.down j = w.down j
  handlers : ∀ j, j ≠ k → w'.server.handlers j = w.server.handlers j
  inp : ∀ j, j ≠ k → (w'.server.net j).inp = (w.server.net j).inp
  outp : ∀ j, j ≠ k → (w.server.net j).outp <+: (w'.server.net j).outp

theorem Elsewhere.extends (h : Elsewhere k w w') : Extends w w' where
  records := h.records
  owners j c hj := by
    by_cases hjk : j = k
    · rw [hjk] at hj ⊢
      exact h.owner c hj
    · rwa [h.conns j hjk]

/-- The client's end of `k` has changed, and the directory's. -/
theorem elsewhere_setConn {σ : Server} {conn' : Conn} (hrecords : w.server.ledger <+: σ.ledger)
    (howner : ∀ conn, w.conns k = some conn → conn'.owner = conn.owner)
    (hhandlers : ∀ j, j ≠ k → σ.handlers j = w.server.handlers j)
    (hnet : ∀ j, j ≠ k → σ.net j = w.server.net j) :
    Elsewhere k w ((w.setServer σ).setConn k conn') where
  records := hrecords
  nodes := rfl
  owner c hc := by
    obtain ⟨conn, hk, rfl⟩ := Option.map_eq_some_iff.mp hc
    rw [conns_setConn_self, Option.map_some, howner conn hk]
  conns _ hj := Function.update_of_ne hj ..
  down _ _ := rfl
  handlers := hhandlers
  inp j hj := congrArg Channel.inp (hnet j hj)
  outp j hj := (congrArg Channel.outp (hnet j hj)).symm ▸ List.prefix_rfl

/-- The other connections and the processes are as they were. -/
theorem Invariant.elsewhere (hw : Invariant cfg w) (h : Elsewhere k w w')
    (hannounced : Server.Announced cfg w'.down w'.server)
    (hconn : ∀ conn, w'.conns k = some conn → w'.ConnOk k conn) : Invariant cfg w' where
  announced := hannounced
  nodes c := by
    rw [h.nodes]
    exact (hw.nodes c).mono h.extends
  conns j conn hj := by
    by_cases hjk : j = k
    · rw [hjk] at hj ⊢
      exact hconn conn hj
    · rw [h.conns j hjk] at hj
      have hold := hw.conns j conn hj
      refine hold.mono h.extends (by rw [h.handlers j hjk]; exact hold.handler) (h.outp j hjk) fun hup => ?_
      rw [h.down j hjk] at hup
      exact ⟨hup, h.inp j hjk⟩

/-- Only a new connection is accepted. -/
theorem Invariant.elsewhere_connect (hw : Invariant cfg w) (hfree : w.server.handlers k = none)
    (c : Nat) : Elsewhere k w ((w.setServer (w.server.accept k)).setConn k (.new c)) :=
  elsewhere_setConn List.prefix_rfl (fun conn hk => absurd hfree (hw.conns k conn hk).handler)
    (fun _ hj => Function.update_of_ne hj ..) fun _ hj => Function.update_of_ne hj ..

/-- A new connection. -/
theorem Invariant.connect (hw : Invariant cfg w) (h : step cfg w (.connect c k) = some w') :
    Invariant cfg w' := by
  obtain ⟨σ, hst, rfl⟩ := Option.map_eq_some_iff.mp h
  have hannounced := hw.announced.accept hst
  obtain ⟨-, hfree, rfl⟩ := Server.step_accept hst
  have hnet : (w.server.accept k).net k = ⟨true, [], []⟩ := by
    rw [Server.net_accept, Function.update_self]
  have hhandler : (w.server.accept k).handlers k = some (.new k) := Function.update_self ..
  refine hw.elsewhere (hw.elsewhere_connect hfree c) hannounced fun conn hconn => ?_
  rw [conns_setConn_self] at hconn
  cases hconn
  refine ⟨fun hnone => ?_, fun t ht => ?_, fun p hp => (nomatch hp),
    fun _ => ⟨[], [], congrArg Channel.inp hnet, rfl, fun _ => rfl, .nil⟩⟩
  · cases hhandler.symm.trans hnone
  · cases ht
    exact ⟨.new, Nat.zero_le _, [], rfl⟩

/-- What the directory has not taken yet, once the writer has ended a turn. -/
theorem ConnOk.wrote {m : Queued} {o : Outcome} {bs : List Byte} {f : Frame} (h : w.ConnOk k conn)
    (hwriting : conn.writing = true) (hasks : Asks m.ident f)
    (hturn : o = .ret ∧ bs = f.bytes ∨ o ≠ .ret ∧ ∃ n, n < f.bytes.length ∧ bs = f.bytes.take n)
    (hup : w.down k = false) :
    ∃ gs cut, (w.server.net k).inp ++ bs = encode gs ++ cut ∧ decode cut = none ∧
      ((conn.wrote o m.ident).writing = true → cut = []) ∧
      List.Forall₂ Asks (conn.wrote o m.ident).onWay gs := by
  obtain ⟨gs, cut, hinp, -, hcut, hgs⟩ := h.stream hup
  rw [hcut hwriting, List.append_nil] at hinp
  obtain ⟨rfl, rfl⟩ | ⟨ho, n, hn, rfl⟩ := hturn
  · refine ⟨gs ++ [f], [], ?_, rfl, fun _ => rfl, ?_⟩
    · rw [hinp, encode_append, encode_singleton, List.append_nil]
    · rw [Conn.wrote, if_pos rfl]
      exact List.rel_append hgs (.cons hasks .nil)
  · refine ⟨gs, f.bytes.take n, by rw [hinp], decode_take hn, fun hw => ?_, ?_⟩
    · rw [Conn.wrote, if_neg ho] at hw
      cases hw
    · rw [Conn.wrote, if_neg ho]
      exact hgs

/-- The writer of `k` has sent some bytes. -/
theorem elsewhere_wrote (hk : w.conns k = some conn) (bs : List Byte) (o : Outcome)
    (ident : Option AddrSeed) :
    Elsewhere k w ((w.setServer (w.server.send k bs)).setConn k (conn.wrote o ident)) := by
  refine elsewhere_setConn List.prefix_rfl (fun conn' hconn' => ?_) (fun _ _ => rfl)
    fun _ hj => Function.update_of_ne hj ..
  rw [hk] at hconn'
  cases hconn'
  exact (conn.wrote_keeps o ident).1

/-- A turn of a writer. -/
theorem Invariant.write {app : AppLocation} {hostsRootAgent : Bool} {es : List WriteEvt}
    (hw : Invariant cfg w) (h : step cfg w (.write k app hostsRootAgent es) = some w') :
    Invariant cfg w' := by
  obtain ⟨conn, m, queue, hk, hwriting, hqueue, rfl⟩ := step_write h
  have hconn := hw.conns k conn hk
  have hnode := hw.nodes conn.owner
  have hm : m ∈ (w.nodes conn.owner).outMsgQ := by
    rw [hqueue]
    exact List.mem_cons_self
  obtain ⟨f, hasks, hframe⟩ := (hnode.sendable m hm).frame app hostsRootAgent
  obtain ⟨hd, hhandler⟩ := Option.ne_none_iff_exists'.mp hconn.handler
  rcases hturn : writeTurn app hostsRootAgent m.msg ⟨true, [], []⟩ es with ⟨o, ch⟩
  have hout : o = .ret ∧ ch.outp = f.bytes ∨
      o ≠ .ret ∧ ∃ n, n < f.bytes.length ∧ ch.outp = f.bytes.take n := by
    obtain hret | ⟨o', n, ho, hn, hcut⟩ := writeTurn_frame hframe ⟨true, [], []⟩ es
    · rw [hturn] at hret
      cases hret
      exact Or.inl ⟨rfl, rfl⟩
    · rw [hturn] at hcut
      cases hcut
      exact Or.inr ⟨ho, n, hn, rfl⟩
  have hstep := Server.step_of_send cfg hhandler ch.outp
  obtain ⟨howner, hreader, hheard, honWay⟩ := conn.wrote_keeps o m.ident
  have helse := elsewhere_wrote hk ch.outp o m.ident
  refine (hw.elsewhere helse (hw.announced.send hstep) fun conn' hconn' => ?_).setNode
    ((hnode.taken hqueue).mono helse.extends)
  rw [conns_setConn_self] at hconn'
  cases hconn'
  have hnet : (w.server.send k ch.outp).net k =
      { w.server.net k with inp := (w.server.net k).inp ++ ch.outp } := by
    rw [Server.net_send, Function.update_self]
  refine ⟨hconn.handler, ?_, fun p hp => ?_, fun hup => ?_⟩
  · change (conn.wrote o m.ident).Reads ((w.server.send k ch.outp).net k).outp
    rw [hnet, Conn.Reads, hreader, hheard]
    exact hconn.reads
  · rw [howner]
    obtain hold | hnew := honWay _ hp
    · exact (hconn.onWay p hold).mono helse.extends
    · exact (hnode.queued m hm p hnew.symm).mono helse.extends
  · have hstream := hconn.wrote hwriting hasks hout hup
    change ∃ gs cut, ((w.server.send k ch.outp).net k).inp = _ ∧ _
    rw [hnet]
    exact hstream

/-- The next whole frame of what a client has been sent is one the directory has
written, and behind it the client has read whole frames again. -/
theorem genuine_of_told {l : Ledger} {down : Bool} {sent rest : List Byte} {heard : Nat} {hs : List Frame}
    {f : Frame} (htold : Told l down k sent) (hhs : sent.take heard = encode hs)
    (hnext : sent.drop heard = f.bytes ++ rest) :
    Genuine l k f ∧ sent.take (sent.length - rest.length) = encode (hs ++ [f]) := by
  obtain ⟨fs, cut, hsent, hcut, -, hgenuine⟩ := htold
  have hsplit : encode (hs ++ [f]) ++ rest = sent := by
    rw [encode_append, encode_singleton, List.append_assoc, ← hnext, ← hhs, List.take_append_drop]
  obtain ⟨gs, hfs, -⟩ := exists_of_encode_append_cut (hsplit.trans hsent) hcut
  have hlen : sent.length - rest.length = (encode (hs ++ [f])).length := by
    rw [← hsplit, List.length_append]
    omega
  refine ⟨hgenuine f (by rw [hfs]; simp), ?_⟩
  rw [hlen, ← hsplit, List.take_left]

/-- **A turn of the reader**: it has read whole frames again, and what it stores
is the identity of a record of `k`, as the next frame says. -/
theorem didRead_of_told {l : Ledger} {down : Bool} {sent : List Byte} {t : ReadTask}
    {es : List ReadEvt} {u : ReadTask.Turn} (htold : Told l down k sent) (hreads : conn.Reads sent)
    (hreader : conn.reader = some t)
    (hturn : t.turn ⟨true, sent.drop conn.heard, []⟩ es = (.ret, u)) :
    (conn.didRead sent u).Reads sent ∧ ∀ addr seed, .welcome addr seed ∈ u.effects →
      (∃ i ∈ l, i.sock = k ∧ (i.addr, i.seed) = (addr, seed)) ∧
        ∃ rest, sent.drop conn.heard = (RequestHandler.welcomeReply addr seed).bytes ++ rest := by
  obtain ⟨ht, hheard, hs, hhs⟩ := hreads t hreader
  have hready := ht.turn hturn
  have hagain : ∀ gs, sent.take (sent.length - u.chan.inp.length) = encode gs →
      (conn.didRead sent u).Reads sent := by
    intro gs hgs t' ht'
    simp only [Conn.didRead] at ht'
    split at ht'
    · cases ht'
    · cases ht'
      exact ⟨hready, Nat.sub_le .., gs, hgs⟩
  obtain hnone | ⟨f, rest, hinp, htook⟩ | ⟨u', hthrow, -⟩ | ⟨u', hspin, -⟩ :=
    ReadTask.turn_cases ht ⟨true, sent.drop conn.heard, []⟩ es
  · rw [hnone] at hturn
    cases hturn
    refine ⟨hagain hs ?_, fun addr seed hmem => (nomatch hmem)⟩
    rw [List.length_drop, Nat.sub_sub_self hheard, hhs]
  · rw [htook, ReadTask.finish] at hturn
    obtain ⟨hf, hread⟩ := genuine_of_told htold hhs hinp
    cases hhandle : (t.took f).handle f.body.length with
    | error x =>
        rw [hhandle] at hturn
        cases hturn
    | ok effects =>
        rw [hhandle] at hturn
        cases hturn
        refine ⟨hagain (hs ++ [f]) hread, fun addr seed hmem => ?_⟩
        by_cases htag : f.tag = REG_REPLY_WELCOME
        · obtain ⟨i, hi, hik, rfl⟩ := hf htag
          rw [handle_welcomeReply] at hhandle
          cases hhandle
          cases List.mem_singleton.mp hmem
          exact ⟨⟨i, hi, hik, rfl⟩, rest, hinp⟩
        · exact absurd hmem (handle_not_welcome htag hhandle addr seed)
  · rw [hthrow] at hturn
    cases hturn
  · rw [hspin] at hturn
    cases hturn

/-- Only the client's end of `k` has changed. -/
theorem elsewhere_read {conn' : Conn} (hk : w.conns k = some conn) (howner : conn'.owner = conn.owner) :
    Elsewhere k w (w.setConn k conn') := by
  refine elsewhere_setConn (σ := w.server) List.prefix_rfl (fun conn'' hconn'' => ?_) (fun _ _ => rfl)
    fun _ _ => rfl
  rw [hk] at hconn''
  cases hconn''
  exact howner

/-- The client's end of the connection has changed. -/
theorem Invariant.setConn {conn' : Conn} (hw : Invariant cfg w) (hk : w.conns k = some conn)
    (hconn : w.ConnOk k conn') (howner : conn'.owner = conn.owner) :
    Extends w (w.setConn k conn') ∧ Invariant cfg (w.setConn k conn') := by
  have helse := elsewhere_read hk howner
  refine ⟨helse.extends, hw.elsewhere helse hw.announced fun conn'' hconn'' => ?_⟩
  rw [conns_setConn_self] at hconn''
  cases hconn''
  exact hconn.mono helse.extends hconn.handler List.prefix_rfl fun hup => ⟨hup, rfl⟩

/-- A turn of a reader. -/
theorem Invariant.read {es : List ReadEvt} (hw : Invariant cfg w)
    (h : step cfg w (.read k es) = some w') : Invariant cfg w' := by
  obtain ⟨conn, t, hk, hreader, rfl | ⟨u, hturn, rfl⟩⟩ := step_read h
  · have hconn := hw.conns k conn hk
    have hconn' : w.ConnOk k { conn with reader := none } :=
      ⟨hconn.handler, fun t ht => (nomatch (show none = some t from ht)), hconn.onWay, hconn.stream⟩
    exact (hw.setConn hk hconn' rfl).2
  · have hconn := hw.conns k conn hk
    obtain ⟨hreads, htold⟩ := didRead_of_told (hw.announced.told k) hconn.reads hreader hturn
    have hconn' : w.ConnOk k (conn.didRead (w.server.net k).outp u) :=
      ⟨hconn.handler, hreads, hconn.onWay, hconn.stream⟩
    obtain ⟨hext, hset⟩ := hw.setConn hk hconn' rfl
    refine hset.setNode (((hw.nodes conn.owner).react u.effects fun addr seed hmem => ?_).mono hext)
    obtain ⟨⟨i, hi, hik, hp⟩, -⟩ := htold addr seed hmem
    exact Or.inr (assigned_iff.mpr ⟨i, hi, by rw [hik, hk]; rfl, hp⟩)

/-- What the directory has not taken yet, once it has taken a frame or none. -/
theorem ConnOk.dispatched {acted : Bool} {inp : List Byte} (h : w.ConnOk k conn) (hup : w.down k = false)
    (hinp : acted = false ∧ inp = (w.server.net k).inp ∨
      acted = true ∧ ∃ f, (w.server.net k).inp = Frame.bytes f ++ inp) :
    ∃ gs cut, inp = encode gs ++ cut ∧ decode cut = none ∧
      ((conn.dispatched acted).writing = true → cut = []) ∧
      List.Forall₂ Asks (conn.dispatched acted).onWay gs := by
  obtain ⟨gs, cut, hstream, hcut, hwriting, hgs⟩ := h.stream hup
  obtain ⟨rfl, rfl⟩ | ⟨rfl, f, hf⟩ := hinp
  · exact ⟨gs, cut, hstream, hcut, hwriting, hgs⟩
  · rw [hf, ← encode_singleton] at hstream
    obtain ⟨hs, rfl, rfl⟩ := exists_of_encode_append_cut hstream hcut
    obtain ⟨ident, onWay, -, htail, honWay⟩ := List.forall₂_cons_right_iff.mp hgs
    refine ⟨hs, cut, rfl, hcut, hwriting, ?_⟩
    rw [Conn.dispatched, if_pos rfl]
    simp only [honWay, List.tail_cons]
    exact htail

/-- What a dispatch of `k` leads to. -/
theorem step_dispatch {sc : Script} (hw : Invariant cfg w) (h : step cfg w (.dispatch k sc) = some w') :
    Server.step cfg w.server (.dispatch k (sc.over w.down k)) = some w'.server ∧
      w'.down = Server.broken w.down k sc ∧ Elsewhere k w w' ∧
      ∀ conn', w'.conns k = some conn' → ∃ conn, w.conns k = some conn ∧ conn' = conn.dispatched
        !(w.server.actsOn k (.dispatch k (sc.over w.down k))).isEmpty := by
  obtain ⟨σ, hst, rfl⟩ := Option.map_eq_some_iff.mp h
  have hatt := Server.attached_reachable hw.announced.reachable
  refine ⟨hst, rfl, ?_, fun conn' hconn' => ?_⟩
  · constructor
    · exact Server.ledger_grows hw.announced.reachable (Lts.run_of_step hst)
    · rfl
    · intro c hc
      obtain ⟨conn, hk, rfl⟩ := Option.map_eq_some_iff.mp hc
      simp [hk, Conn.dispatched_keeps]
    · exact fun j hj => Function.update_of_ne hj ..
    · exact fun j hj => Function.update_of_ne hj ..
    · exact fun j hj => Server.handlers_dispatch_of_ne hst hj
    · exact fun j hj => (Server.inp_dispatch_of_ne hatt hst hj).1
    · exact fun j _ => Server.outp_dispatch hatt hst j
  · simp only [Function.update_self, Option.map_eq_some_iff] at hconn'
    obtain ⟨conn, hk, hdispatched⟩ := hconn'
    exact ⟨conn, hk, hdispatched.symm⟩

/-- A dispatch of the directory. -/
theorem Invariant.dispatch {sc : Script} (hw : Invariant cfg w)
    (hok : w.ForwardsWhole cfg (.dispatch k sc)) (h : step cfg w (.dispatch k sc) = some w') :
    Invariant cfg w' := by
  obtain ⟨hst, hdown, helse, hconns⟩ := step_dispatch hw h
  have hatt := Server.attached_reachable hw.announced.reachable
  have hannounced := hw.announced.dispatch hok hst
  rw [← hdown] at hannounced
  refine hw.elsewhere helse hannounced fun conn' hconn' => ?_
  obtain ⟨conn, hk, rfl⟩ := hconns conn' hconn'
  have hconn := hw.conns k conn hk
  obtain ⟨hd, hhandler⟩ := Option.ne_none_iff_exists'.mp hconn.handler
  obtain ⟨hd', hhandler'⟩ := Server.handler_step hhandler hst
  obtain ⟨howner, hreader, hheard, honWay⟩ := Conn.dispatched_keeps conn
    !(w.server.actsOn k (.dispatch k (sc.over w.down k))).isEmpty
  refine ⟨by rw [hhandler']; simp, ?_, fun p hp => ?_, fun hup => ?_⟩
  · have hreads := hconn.reads.mono (Server.outp_dispatch hatt hst k)
    rwa [Conn.Reads, hreader, hheard]
  · rw [howner]
    exact (hconn.onWay p (honWay _ hp)).mono helse.extends
  · rw [hdown] at hup
    refine hconn.dispatched (Server.down_of_broken hup) ?_
    obtain ⟨hacts, hinp⟩ | ⟨f, rest, hacts, hinp, hrest⟩ := hw.announced.inp_dispatch hst hup
    · exact Or.inl ⟨by simp [hacts], hinp⟩
    · exact Or.inr ⟨by simp [hacts], f, by rw [hinp, hrest]⟩

/-- **Step lemma.** -/
theorem Invariant.step {e : Event} (hw : Invariant cfg w) (hok : w.ForwardsWhole cfg e)
    (h : step cfg w e = some w') : Invariant cfg w' := by
  cases e with
  | connect c k => exact hw.connect h
  | register c =>
      cases h
      exact hw.setNode (hw.nodes c).register
  | startUpdateThread c =>
      cases h
      exact hw.setNode (hw.nodes c).startUpdateThread
  | update c i =>
      obtain ⟨t, ht, rfl⟩ := step_update h
      exact hw.setNode ((hw.nodes c).update ht)
  | locate c lat lon =>
      cases h
      have hnode := hw.nodes c
      exact hw.setNode ⟨hnode.stored, hnode.tasks, hnode.queued, hnode.sendable⟩
  | boot c =>
      cases h
      have hnode := hw.nodes c
      exact hw.setNode ⟨hnode.stored, hnode.tasks, hnode.queued, hnode.sendable⟩
  | joinNetwork c =>
      cases h
      have hnode := hw.nodes c
      exact hw.setNode ⟨hnode.stored, hnode.tasks, hnode.queued, hnode.sendable⟩
  | sendMsg c allocated addr poMsg =>
      cases h
      exact hw.setNode ((hw.nodes c).sendMsg allocated addr poMsg)
  | write k app hostsRootAgent es => exact hw.write h
  | read k es => exact hw.read h
  | dispatch k sc => exact hw.dispatch hok h

/-! ## Whole runs -/

/-- The invariant says that they agree. -/
theorem Invariant.agreed (hw : Invariant cfg w) : Agreed w where
  stored c := (hw.nodes c).stored
  tasks c := (hw.nodes c).tasks
  queued c := (hw.nodes c).queued
  onWay k conn hk := (hw.conns k conn hk).onWay
  decoded k conn sc p hk hp htag := by
    obtain ⟨hup, f, rest, hinp, rfl⟩ := Server.up_of_actsOn hp
    obtain ⟨gs, cut, hstream, hcut, -, hgs⟩ := (hw.conns k conn hk).stream hup
    rw [hinp, ← encode_singleton] at hstream
    obtain ⟨hs, rfl, -⟩ := exists_of_encode_append_cut hstream hcut
    obtain ⟨ident, onWay, hasks, -, honWay⟩ := List.forall₂_cons_right_iff.mp hgs
    obtain ⟨p, hident, hdecoded⟩ := hasks (Option.some.inj htag)
    exact ⟨p, by rw [honWay, hident]; rfl, hdecoded⟩

theorem invariant_of_run {es : List Event} (hok : Lts.Along (step cfg) (ForwardsWhole cfg) .new es)
    (hrun : Lts.run (step cfg) .new es = some w) : Invariant cfg w :=
  Lts.run_induct (fun _ _ _ hs hsa hst => hs.step hsa hst) hok (invariant_new cfg) hrun

/-- **Identity agreement**: in a run in which every message the directory
forwards is forwarded whole, it and its clients agree at any time. -/
theorem agreed_of_run {es : List Event} (hok : Lts.Along (step cfg) (ForwardsWhole cfg) .new es)
    (hrun : Lts.run (step cfg) .new es = some w) : Agreed w := (invariant_of_run hok hrun).agreed

/-- The client `c` connects over `k`, registers and is welcomed. -/
def registration (c : Nat) (k : SocketId) : List Event :=
  [.connect c k, .register c, .write k ⟨0, 0, 0⟩ false [.accept 257], .dispatch k (prompt 0),
    .read k (List.replicate 40 (.ready 40))]

/-- A message of the middleware. -/
def poMsgOf (bs : List Byte) (h : bs.length ≤ 4 * 46) : PoMsg where
  len := BitVec.ofNat 8 bs.length
  data := bs ++ List.replicate (4 * 46 - bs.length) 0
  length_data := by
    rw [List.length_append, List.length_replicate]
    omega

/-- The second of two clients sends the first one a message, and the first one
renews its registration. -/
def exchange : List Event :=
  registration 0 0 ++ registration 1 1 ++
    [.joinNetwork 1, .sendMsg 1 true 1 (poMsgOf [7] (by decide)),
      .write 1 ⟨0, 0, 0⟩ false [.accept 9, .accept 257], .dispatch 1 (prompt 0),
      .read 0 (List.replicate 40 (.ready 40)), .startUpdateThread 0, .update 0 0,
      .write 0 ⟨0, 0, 0⟩ false [.accept 257], .dispatch 0 (prompt 0)]

theorem agreed_exchange : ∃ w, Lts.run (step everywhere) .new exchange = some w ∧ Agreed w := by
  have hends : (Lts.run (step everywhere) .new exchange).isSome = true := by decide +kernel
  obtain ⟨w, hrun⟩ := Option.isSome_iff_exists.mp hends
  have hwhole : Lts.Along (step everywhere) (ForwardsWhole everywhere) .new exchange := by
    decide +kernel
  exact ⟨w, hrun, agreed_of_run hwhole hrun⟩

/-! ### A message taken in part -/

/-- The second of two clients sends the first one two messages.  18 of the 25
bytes of the first message are taken; the 7 bytes of the second one up to its
data complete it, and its data are read as a frame of their own. -/
def forgery : List Event :=
  registration 0 0 ++ registration 1 1 ++
    [.joinNetwork 1, .sendMsg 1 true 1 (poMsgOf [] (by decide)),
      .sendMsg 1 true 1 (poMsgOf [REG_REPLY_WELCOME, 6, 0x12, 0x34, 0x56, 0x78, 0x9a, 0xbc] (by decide)),
      .write 1 ⟨0, 0, 0⟩ false [.accept 257],
      .dispatch 1 { prompt 0 with forwards := fun _ _ => .accept 18 },
      .write 1 ⟨0, 0, 0⟩ false [.accept 257], .dispatch 1 (prompt 0),
      .read 0 (List.replicate 40 (.ready 40)), .read 0 (List.replicate 40 (.ready 40))]

/-- The first client stores an address and a seed that nobody has. -/
theorem foreign_identity_stored :
    ∃ w, Lts.run (step everywhere) .new forgery = some w ∧ (w.nodes 0).stored = (0x1234, 0x56789abc) ∧
      ¬ Agreed w := by
  have hends : (Lts.run (step everywhere) .new forgery).map (fun w => ((w.nodes 0).stored,
      w.server.registry.reg.map fun n => (n.poNodeAddr, n.seed))) =
      some ((0x1234, 0x56789abc), [(1, 0xbb20b460), (2, 0xbb20b460)]) := by decide +kernel
  obtain ⟨w, hrun, hfacts⟩ := Option.map_eq_some_iff.mp hends
  obtain ⟨hstored, hreg⟩ := Prod.mk.inj hfacts
  refine ⟨w, hrun, hstored, fun hagreed => ?_⟩
  obtain hzero | ⟨n, hn, -, hp⟩ := hagreed.stored 0
  · rw [hstored] at hzero
    exact absurd hzero (by decide)
  · have hmem : (n.poNodeAddr, n.seed) ∈ w.server.registry.reg.map fun n => (n.poNodeAddr, n.seed) :=
      List.mem_map_of_mem hn
    rw [hreg, hp, hstored] at hmem
    exact absurd hmem (by decide)

end World

end Pobicos.System
