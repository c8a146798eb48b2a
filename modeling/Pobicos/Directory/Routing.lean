import Pobicos.Directory.Survival

/-!
# Pobicos.Directory.Routing

Where a POBICOS message goes.

The destination of a message passes through the unmasked decoder, so a unicast
message is routed by `charReadAs` of its destination: `routed_iff` says for
which destinations, and otherwise for which registries and channels, it still
reaches the addressed node and nobody else.  A broadcast writes one buffer to
every recipient without rewinding it: `broadcasts_iff` says when that is
enough.
-/

namespace Pobicos.Directory

open Nio Octets Framing NetworkMsg Serialization RequestHandler

variable {cfg : Config} {clock : Nat → JLong} {r r₀ : Registry} {h h₀ : RequestHandler} {net : Net}
  {f : Frame} {sc : Script}

/-! ## Channels after a write -/

/-- The handler `process` hands to `write` with the message `f`. -/
structure Ready (h : RequestHandler) (f : Frame) : Prop where
  header : h.networkMsgHeader = some (.full [f.tag, f.lengthByte])
  op : h.op = some .sendPoMsg
  outMsg : h.outMsg = some (.wrap f.bytes)
  long : 16 ≤ f.body.length

theorem ready_of_process (htag : f.tag = POBICOS_MSG)
    (hp : process cfg clock r₀ (h₀.holding f) = .ok (r, h)) :
    Ready h f ∧ r = seen clock r₀ h₀.sock ∧ h.sock = h₀.sock := by
  by_cases hshort : Short r₀ h₀.sock f
  · rw [process_short hshort] at hp
    cases hp
  · have hreq : f.tag ≠ REGISTRY_REQ := by
      rw [htag]
      decide
    rw [process_holding _ _ hshort, settle, if_neg hreq, if_pos htag] at hp
    cases hp
    refine ⟨⟨?_, ?_, ?_, len_of_not_short htag hshort⟩, rfl, ?_⟩
    · rw [forwarding, takeLocation_networkMsgHeader]
      rfl
    · rw [forwarding, takeLocation_op]
      rfl
    · rw [forwarding, takeLocation_outMsg, setOutMsg_outMsg]
    · rw [forwarding, takeLocation_sock]
      rfl

/-- The channels after `write`. -/
def delivered (cfg : Config) (sc : Script) (r : Registry) (h : RequestHandler) (net : Net) : Net :=
  (write cfg sc r h net).2.2

/-- The filter admits the node, and its channel is open. -/
def Live (cfg : Config) (h : RequestHandler) (net : Net) (f : Frame) (n : NodeInfo) : Prop :=
  locationAdmits cfg h (trailerOf f.bytes) n = true ∧ (net n.sock).isOpen = true

/-- The node the unicast branch writes to. -/
def aimedAt (cfg : Config) (r : Registry) (h : RequestHandler) (f : Frame) : Option NodeInfo :=
  addressee cfg r h (trailerOf f.bytes) (charReadAs (dstOf f.bytes))

/-- The sockets the broadcast branch writes to. -/
def hearers (cfg : Config) (r : Registry) (h : RequestHandler) (f : Frame) : List SocketId :=
  (audience cfg h (trailerOf f.bytes) r.reg).map NodeInfo.sock

theorem mem_hearers {s : SocketId} :
    s ∈ hearers cfg r h f ↔ ∃ n ∈ r.reg, n.sock ≠ h.sock ∧
      locationAdmits cfg h (trailerOf f.bytes) n = true ∧ n.sock = s := by
  rw [hearers, List.mem_map]
  constructor
  · rintro ⟨n, hn, rfl⟩
    obtain ⟨hmem, hsock, hadm⟩ := mem_audience.mp hn
    exact ⟨n, hmem, hsock, hadm, rfl⟩
  · rintro ⟨n, hmem, hsock, hadm, rfl⟩
    exact ⟨n, mem_audience.mpr ⟨hmem, hsock, hadm⟩, rfl⟩

theorem aimedAt_eq_some {m : NodeInfo} :
    aimedAt cfg r h f = some m ↔ ∃ i, r.isRegistedAddr (charReadAs (dstOf f.bytes)) = some i ∧
      r.reg.get i = m ∧ locationAdmits cfg h (trailerOf f.bytes) m = true := by
  rw [aimedAt, addressee]
  cases hi : r.isRegistedAddr (charReadAs (dstOf f.bytes)) with
  | none => simp
  | some i =>
      by_cases hadm : locationAdmits cfg h (trailerOf f.bytes) (r.reg.get i) = true
      · simp only [hadm, if_true, Option.some.injEq]
        constructor
        · rintro rfl
          exact ⟨i, rfl, rfl, hadm⟩
        · rintro ⟨j, rfl, hm, -⟩
          exact hm
      · simp only [hadm, Bool.false_eq_true, if_false]
        constructor
        · intro hnone
          cases hnone
        · rintro ⟨j, hij, rfl, hadm'⟩
          cases hij
          exact absurd hadm' hadm

/-- The state before the first forwarding write. -/
def start (net : Net) (f : Frame) : WriteState := ⟨.wrap f.bytes, net, 0⟩

/-- **The ways a message takes**: nobody is aimed at; or the node aimed at
cannot be written to; or it is written to, before any other. -/
theorem delivered_cases (cfg : Config) (r : Registry) (net : Net) (hr : Ready h f) (sc : Script) :
    (aimedAt cfg r h f = none ∧ delivered cfg sc r h net =
      if charReadAs (dstOf f.bytes) = 0xffff then
        (forwardAll sc.forwards (hearers cfg r h f) (start net f)).net
      else net) ∨
    (∃ m, aimedAt cfg r h f = some m ∧
      ((net m.sock).isOpen = false ∨ sc.forwards 0 m.sock = .fail) ∧
      delivered cfg sc r h net = net) ∨
    (∃ m n, aimedAt cfg r h f = some m ∧ (net m.sock).isOpen = true ∧
      sc.forwards 0 m.sock = .accept n ∧ delivered cfg sc r h net =
      if charReadAs (dstOf f.bytes) = 0xffff then
        (forwardAll sc.forwards (hearers cfg r h f) ((start net f).sent m.sock n)).net
      else ((start net f).sent m.sock n).net) := by
  have hlong := hr.long
  have hwhole : 18 ≤ (start net f).outMsg.array.length := le_length_bytes hlong
  have hwrite : delivered cfg sc r h net = (writePoMsg cfg sc.forwards r h (start net f)).2.net := by
    rw [delivered, write_sendPoMsg hr.header (ByteBuffer.remaining_full _) hr.op hr.outMsg]
    rfl
  have harr : (start net f).outMsg.array = f.bytes := rfl
  rw [hwrite, writePoMsg_eq hwhole, harr]
  cases ha : aimedAt cfg r h f with
  | none =>
      rw [aimedAt] at ha
      simp only [ha]
      exact Or.inl ⟨trivial, apply_ite WriteState.net ..⟩
  | some m =>
      rw [aimedAt] at ha
      simp only [ha]
      right
      obtain ⟨n, ho, he, hfwd⟩ | ⟨hfail, hfwd⟩ := forward_cases sc.forwards m.sock (start net f)
      · refine Or.inr ⟨m, n, rfl, ho, he, ?_⟩
        simp only [hfwd]
        exact apply_ite WriteState.net ..
      · refine Or.inl ⟨m, rfl, hfail, ?_⟩
        simp only [hfwd]
        rfl

/-- A first write that takes the whole frame leaves nothing to the others. -/
theorem sent_whole (net : Net) (s : SocketId) {n : Nat} (hn : f.bytes.length ≤ n) :
    ((start net f).sent s n).outMsg.remaining = 0 ∧
      ((start net f).sent s n).net = Function.update net s ((net s).emit f.bytes) := by
  refine ⟨?_, ?_⟩
  · rw [outMsg_sent, ByteBuffer.remaining_advance, start, ByteBuffer.remaining_wrap]
    omega
  · rw [WriteState.sent, start, ByteBuffer.rest_wrap, List.take_of_length_le hn]

/-! ## Broadcast -/

/-- What a broadcast is for: every node but the sender that the filter admits
and that is connected gets the whole frame once, the sender nothing. -/
structure Broadcasts (cfg : Config) (sc : Script) (r : Registry) (h : RequestHandler) (net : Net)
    (f : Frame) : Prop where
  reached : ∀ n ∈ r.reg, n.sock ≠ h.sock → Live cfg h net f n →
    (delivered cfg sc r h net n.sock).outp = (net n.sock).outp ++ f.bytes
  spared : (delivered cfg sc r h net h.sock).outp = (net h.sock).outp

/-- All nodes to be reached share one channel; and the node registered first
under the broadcast address, if the filter admits it, takes the frame for
them, or has a closed channel and there are none. -/
structure OneChannel (cfg : Config) (r : Registry) (h : RequestHandler) (net : Net) (f : Frame) :
    Prop where
  shared : ∀ n ∈ r.reg, ∀ m ∈ r.reg, n.sock ≠ h.sock → m.sock ≠ h.sock →
    Live cfg h net f n → Live cfg h net f m → n.sock = m.sock
  ahead : ∀ i, r.isRegistedAddr 0xffff = some i →
    locationAdmits cfg h (trailerOf f.bytes) (r.reg.get i) = true →
    if (net (r.reg.get i).sock).isOpen then (r.reg.get i).sock ≠ h.sock
    else ∀ n ∈ r.reg, n.sock ≠ h.sock → ¬ Live cfg h net f n

/-- After a write of the whole frame to `s`, and none elsewhere. -/
theorem outp_update_emit (net : Net) (s t : SocketId) (bs : List Byte) :
    (Function.update net s ((net s).emit bs) t).outp =
      if t = s then (net t).outp ++ bs else (net t).outp := by
  by_cases hts : t = s
  · cases hts
    rw [Function.update_self, Channel.emit_outp, if_pos rfl]
  · rw [Function.update_of_ne hts, if_neg hts]

/-- Who has been written a frame has not been written nothing. -/
theorem outp_ne_append_bytes (bs : List Byte) (f : Frame) : bs ≠ bs ++ f.bytes := fun heq =>
  f.bytes_ne_nil (List.self_eq_append_right.mp heq)

theorem update_emit_ne (net : Net) (s : SocketId) (f : Frame) :
    Function.update net s ((net s).emit f.bytes) s ≠ net s := by
  intro hsame
  have hout := congrArg Channel.outp hsame
  rw [outp_update_emit, if_pos rfl] at hout
  exact outp_ne_append_bytes _ f hout.symm

/-- A broadcast that reaches one channel `s` and no other. -/
private theorem broadcasts_update_iff {s : SocketId}
    (hnet : delivered cfg sc r h net = Function.update net s ((net s).emit f.bytes)) :
    Broadcasts cfg sc r h net f ↔
      s ≠ h.sock ∧ ∀ n ∈ r.reg, n.sock ≠ h.sock → Live cfg h net f n → n.sock = s := by
  constructor
  · intro hb
    refine ⟨?_, ?_⟩
    · rintro rfl
      have hsp := hb.spared
      rw [hnet, outp_update_emit, if_pos rfl] at hsp
      exact outp_ne_append_bytes _ f hsp.symm
    · intro n hn hsock hlive
      have hre := hb.reached n hn hsock hlive
      rw [hnet, outp_update_emit] at hre
      by_contra hns
      rw [if_neg hns] at hre
      exact outp_ne_append_bytes _ f hre
  · rintro ⟨hs, hall⟩
    constructor
    · intro n hn hsock hlive
      rw [hnet, outp_update_emit, if_pos (hall n hn hsock hlive)]
    · rw [hnet, outp_update_emit, if_neg hs.symm]

/-- A broadcast that reaches no channel. -/
private theorem broadcasts_self_iff (hnet : delivered cfg sc r h net = net) :
    Broadcasts cfg sc r h net f ↔ ∀ n ∈ r.reg, n.sock ≠ h.sock → ¬ Live cfg h net f n := by
  constructor
  · intro hb n hn hsock hlive
    have hre := hb.reached n hn hsock hlive
    rw [hnet] at hre
    exact outp_ne_append_bytes _ f hre
  · intro hnone
    exact ⟨fun n hn hsock hlive => absurd hlive (hnone n hn hsock), by rw [hnet]⟩

/-- One channel, when the frame goes to that of `m`. -/
private theorem oneChannel_iff_of_live {m : NodeInfo} (hm : m ∈ r.reg) (hlive : Live cfg h net f m)
    (hahead : ∀ i, r.isRegistedAddr 0xffff = some i →
      locationAdmits cfg h (trailerOf f.bytes) (r.reg.get i) = true → r.reg.get i = m)
    (hoff : OneChannel cfg r h net f → m.sock ≠ h.sock) :
    OneChannel cfg r h net f ↔
      m.sock ≠ h.sock ∧ ∀ n ∈ r.reg, n.sock ≠ h.sock → Live cfg h net f n → n.sock = m.sock := by
  constructor
  · intro hch
    exact ⟨hoff hch, fun n hn hns hnl => hch.shared n hn m hm hns (hoff hch) hnl hlive⟩
  · rintro ⟨hms, hall⟩
    constructor
    · intro a ha b hb has hbs hal hbl
      rw [hall a ha has hal, hall b hb hbs hbl]
    · intro i hi hadm
      rw [hahead i hi hadm, if_pos hlive.2]
      exact hms

/-- One channel, when the frame goes nowhere. -/
private theorem oneChannel_iff_of_closed
    (hahead : ∀ i, r.isRegistedAddr 0xffff = some i →
      locationAdmits cfg h (trailerOf f.bytes) (r.reg.get i) = true →
      (net (r.reg.get i).sock).isOpen = false)
    (hnone : OneChannel cfg r h net f → ∀ n ∈ r.reg, n.sock ≠ h.sock → ¬ Live cfg h net f n) :
    OneChannel cfg r h net f ↔ ∀ n ∈ r.reg, n.sock ≠ h.sock → ¬ Live cfg h net f n := by
  refine ⟨hnone, fun hno => ?_⟩
  constructor
  · intro n hn _ _ hsock _ hlive _
    exact absurd hlive (hno n hn hsock)
  · intro i hi hadm
    rw [hahead i hi hadm, if_neg Bool.false_ne_true]
    exact hno

/-- The three ways, with every channel taking what it is offered. -/
private theorem broadcasts_iff_oneChannel (hr : Ready h f) (hdst : dstOf f.bytes = 0xffff)
    (hacc : ∀ i s, ∃ n, f.bytes.length ≤ n ∧ sc.forwards i s = .accept n) :
    Broadcasts cfg sc r h net f ↔ OneChannel cfg r h net f := by
  have hread : charReadAs (dstOf f.bytes) = 0xffff := by
    rw [hdst]
    decide
  obtain ⟨haim, hnet⟩ | ⟨m, haim, hfail, hnet⟩ | ⟨m, n, haim, ho, he, hnet⟩ :=
    delivered_cases cfg r net hr sc
  · -- nobody is aimed at: the loop decides
    have hahead : ∀ i, r.isRegistedAddr 0xffff = some i →
        ¬ locationAdmits cfg h (trailerOf f.bytes) (r.reg.get i) = true := by
      intro i hi hadm
      rw [← hread] at hi
      have hsome := aimedAt_eq_some.mpr ⟨i, hi, rfl, hadm⟩
      rw [haim] at hsome
      cases hsome
    rw [if_pos hread] at hnet
    obtain ⟨hclosed, hsame⟩ | ⟨s, hs, hopen, hone⟩ := forwardAll_accepting
      (start net f) (hearers cfg r h f) fun i s _ => hacc i s
    · rw [hsame] at hnet
      have hnone : ∀ n ∈ r.reg, n.sock ≠ h.sock → ¬ Live cfg h net f n := by
        intro n hn hsock hlive
        have hno := hclosed n.sock (mem_hearers.mpr ⟨n, hn, hsock, hlive.1, rfl⟩)
        exact Bool.false_ne_true (hno.symm.trans hlive.2)
      exact (broadcasts_self_iff hnet).trans (oneChannel_iff_of_closed
        (fun i hi hadm => absurd hadm (hahead i hi)) fun _ => hnone).symm
    · rw [hone] at hnet
      obtain ⟨n₀, hn₀, hsock₀, hadm₀, rfl⟩ := mem_hearers.mp hs
      have hlive₀ : Live cfg h net f n₀ := ⟨hadm₀, hopen⟩
      exact (broadcasts_update_iff hnet).trans (oneChannel_iff_of_live hn₀ hlive₀
        (fun i hi hadm => absurd hadm (hahead i hi)) fun _ => hsock₀).symm
  · -- the node aimed at has a closed channel: the write throws
    obtain ⟨i, hi, rfl, hadm⟩ := aimedAt_eq_some.mp haim
    rw [hread] at hi
    have hclosed : (net (r.reg.get i).sock).isOpen = false := by
      obtain hclosed | hbroken := hfail
      · exact hclosed
      · obtain ⟨n, -, he⟩ := hacc 0 (r.reg.get i).sock
        rw [he] at hbroken
        cases hbroken
    refine (broadcasts_self_iff hnet).trans (oneChannel_iff_of_closed ?_ ?_).symm
    · intro j hj _
      rw [hi] at hj
      cases hj
      exact hclosed
    · intro hch
      have hnone := hch.ahead i hi hadm
      rwa [hclosed, if_neg Bool.false_ne_true] at hnone
  · -- the node aimed at takes the frame
    obtain ⟨i, hi, rfl, hadm⟩ := aimedAt_eq_some.mp haim
    rw [hread] at hi
    obtain ⟨n', hn, he'⟩ := hacc 0 (r.reg.get i).sock
    rw [he] at he'
    cases he'
    obtain ⟨hrem, hsent⟩ := sent_whole net (r.reg.get i).sock hn
    rw [if_pos hread, (forwardAll_of_remaining hrem).1, hsent] at hnet
    refine (broadcasts_update_iff hnet).trans
      (oneChannel_iff_of_live (List.getElem_mem i.isLt) ⟨hadm, ho⟩ ?_ ?_).symm
    · intro j hj _
      rw [hi] at hj
      cases hj
      rfl
    · intro hch
      have hoff := hch.ahead i hi hadm
      rwa [if_pos ho] at hoff

/-- **Broadcast delivery**, with every channel taking what it is offered:
exactly when all nodes to be reached share one channel. -/
theorem broadcasts_iff (htag : f.tag = POBICOS_MSG)
    (hp : process cfg clock r₀ (h₀.holding f) = .ok (r, h)) (hdst : dstOf f.bytes = 0xffff)
    (hacc : ∀ i s, ∃ n, f.bytes.length ≤ n ∧ sc.forwards i s = .accept n) :
    Broadcasts cfg sc r h net f ↔ OneChannel cfg r h net f :=
  broadcasts_iff_oneChannel (ready_of_process htag hp).1 hdst hacc

/-- A node with address `a` on socket `s`. -/
def nodeOn (a : JChar) (s : SocketId) : NodeInfo := ⟨a, 0, 0, 0, s, 0⟩

/-- Two nodes on the sockets 1 and 2. -/
def twoNodes : Registry := ⟨[nodeOn 1 1, nodeOn 2 2], 3⟩

/-- Every channel is open. -/
def allOpen : Net := fun _ => ⟨true, [], []⟩

private theorem process_twoNodes (dst : JChar) :
    process everywhere (fun _ => 0) twoNodes ((RequestHandler.new 0).holding (emptyMsg dst)) =
      .ok (twoNodes, (RequestHandler.new 0).forwarding (emptyMsg dst)) := by
  have hlong : ¬ Short twoNodes 0 (emptyMsg dst) := not_short_of_pobicosMsg rfl (by simp [emptyMsg])
  rw [process_holding _ _ hlong]
  rfl

private theorem live_allOpen (h : RequestHandler) (dst : JChar) (n : NodeInfo) :
    Live everywhere h allOpen (emptyMsg dst) n := ⟨locationAdmits_emptyMsg .., rfl⟩

private theorem prompt_accepts (f : Frame) :
    ∀ i s, ∃ n, f.bytes.length ≤ n ∧ (prompt 0).forwards i s = .accept n := by
  exact fun _ _ => ⟨257, f.length_bytes_le, rfl⟩

private theorem not_oneChannel_twoNodes (h : RequestHandler) (hs : h.sock = 0) :
    ¬ OneChannel everywhere twoNodes h allOpen (emptyMsg 0xffff) := by
  intro hch
  have heq := hch.shared (nodeOn 1 1) (by decide) (nodeOn 2 2) (by decide) (by rw [hs]; decide)
    (by rw [hs]; decide) (live_allOpen ..) (live_allOpen ..)
  exact absurd heq (by decide)

/-- Of two nodes, the second gets nothing of a broadcast. -/
theorem two_nodes_not_reached :
    ∃ h, process everywhere (fun _ => 0) twoNodes
        ((RequestHandler.new 0).holding (emptyMsg 0xffff)) = .ok (twoNodes, h) ∧
      ¬ Broadcasts everywhere (prompt 0) twoNodes h allOpen (emptyMsg 0xffff) := by
  have hp := process_twoNodes 0xffff
  obtain ⟨hr, -, hs⟩ := ready_of_process rfl hp
  refine ⟨_, hp, fun hb => not_oneChannel_twoNodes _ hs ?_⟩
  exact (broadcasts_iff_oneChannel hr (dstOf_emptyMsg _) (prompt_accepts _)).mp hb

/-- A broadcast to these two: neither is it one, nor do they share a channel. -/
theorem broadcasts_iff_twoNodes :
    ¬ Broadcasts everywhere (prompt 0) twoNodes ((RequestHandler.new 0).forwarding (emptyMsg 0xffff)) allOpen
        (emptyMsg 0xffff) ∧
      ¬ OneChannel everywhere twoNodes ((RequestHandler.new 0).forwarding (emptyMsg 0xffff)) allOpen (emptyMsg 0xffff) := by
  have hp := process_twoNodes 0xffff
  have hiff : Broadcasts _ _ _ _ allOpen _ ↔ _ := broadcasts_iff rfl hp (dstOf_emptyMsg _) (prompt_accepts _)
  have hnot := not_oneChannel_twoNodes _ (ready_of_process rfl hp).2.2
  exact ⟨fun hb => hnot (hiff.mp hb), hnot⟩

/-! ## Unicast -/

/-- What a unicast is for: nobody but the node registered under the
destination is written to, and that node, if the filter admits it and its
channel takes the bytes, gets the whole frame. -/
structure Routed (cfg : Config) (r : Registry) (h : RequestHandler) (net : Net) (f : Frame) : Prop where
  only : ∀ sc s, delivered cfg sc r h net s ≠ net s →
    ∃ n ∈ r.reg, n.poNodeAddr = dstOf f.bytes ∧ n.sock = s
  whole : ∀ sc, ∀ n ∈ r.reg, n.poNodeAddr = dstOf f.bytes → Live cfg h net f n →
    (∀ i, ∃ m, f.bytes.length ≤ m ∧ sc.forwards i n.sock = .accept m) →
    (delivered cfg sc r h net n.sock).outp = (net n.sock).outp ++ f.bytes

/-- No two records share an address or a socket. -/
structure Distinct (r : Registry) : Prop where
  addr : ∀ n ∈ r.reg, ∀ m ∈ r.reg, n.poNodeAddr = m.poNodeAddr → n = m
  sock : (r.reg.map NodeInfo.sock).Nodup

theorem Distinct.eq_of_sock (hr : Distinct r) {n m : NodeInfo} (hn : n ∈ r.reg) (hm : m ∈ r.reg)
    (hs : n.sock = m.sock) : n = m := List.inj_on_of_nodup_map hr.sock hn hm hs

theorem aimedAt_of_mem (cfg : Config) (h : RequestHandler) (hr : Distinct r) {n : NodeInfo}
    (hn : n ∈ r.reg) (haddr : n.poNodeAddr = charReadAs (dstOf f.bytes))
    (hadm : locationAdmits cfg h (trailerOf f.bytes) n = true) : aimedAt cfg r h f = some n := by
  cases hi : r.isRegistedAddr (charReadAs (dstOf f.bytes)) with
  | none => exact absurd haddr (Registry.isRegistedAddr_eq_none_iff.mp hi n hn)
  | some i =>
      have hin : r.reg.get i = n := hr.addr _ (List.getElem_mem i.isLt) n hn
        ((Registry.addr_of_isRegistedAddr hi).trans haddr.symm)
      exact aimedAt_eq_some.mpr ⟨i, hi, hin, hadm⟩

theorem mem_of_aimedAt {n : NodeInfo} (ha : aimedAt cfg r h f = some n) :
    n ∈ r.reg ∧ n.poNodeAddr = charReadAs (dstOf f.bytes) ∧
      locationAdmits cfg h (trailerOf f.bytes) n = true := by
  rw [aimedAt] at ha
  exact mem_of_addressee ha

/-- **A destination that is read as it is** is routed. -/
theorem routed_of_read (hr : Ready h f) (hd : Distinct r) (hdst : dstOf f.bytes ≠ 0xffff)
    (hread : charReadAs (dstOf f.bytes) = dstOf f.bytes) : Routed cfg r h net f := by
  have hnb : charReadAs (dstOf f.bytes) ≠ 0xffff := by rwa [hread]
  constructor
  · intro sc s hs
    obtain ⟨-, hnet⟩ | ⟨m, -, -, hnet⟩ | ⟨m, n, haim, -, -, hnet⟩ :=
      delivered_cases cfg r net hr sc
    · rw [if_neg hnb] at hnet
      exact absurd (by rw [hnet]) hs
    · exact absurd (by rw [hnet]) hs
    · rw [if_neg hnb] at hnet
      obtain ⟨hmem, haddr, -⟩ := mem_of_aimedAt haim
      refine ⟨m, hmem, haddr.trans hread, ?_⟩
      by_contra hne
      refine hs ?_
      rw [hnet, net_sent_of_ne _ (Ne.symm hne), start]
  · intro sc n hn haddr hlive hacc
    have haim := aimedAt_of_mem cfg h hd hn (haddr.trans hread.symm) hlive.1
    obtain ⟨hnone, -⟩ | ⟨m, haim', hfail, -⟩ | ⟨m, c, haim', -, he, hnet⟩ :=
      delivered_cases cfg r net hr sc
    · rw [hnone] at haim
      cases haim
    · rw [haim] at haim'
      cases haim'
      obtain ⟨c, -, he⟩ := hacc 0
      rw [hlive.2, he] at hfail
      simp at hfail
    · rw [haim] at haim'
      cases haim'
      obtain ⟨c', hc', he'⟩ := hacc 0
      rw [he] at he'
      cases he'
      rw [if_neg hnb, (sent_whole _ _ hc').2] at hnet
      rw [hnet, outp_update_emit, if_pos rfl]

/-- With every channel taking all, the node aimed at gets the frame if it is
connected, and nobody else gets anything. -/
private theorem delivered_prompt (net : Net) (hr : Ready h f)
    (haimed : charReadAs (dstOf f.bytes) ≠ 0xffff ∨ aimedAt cfg r h f ≠ none) :
    (delivered cfg (prompt 0) r h net = net ∧
      ∀ m, aimedAt cfg r h f = some m → (net m.sock).isOpen = false) ∨
    ∃ m, aimedAt cfg r h f = some m ∧
      delivered cfg (prompt 0) r h net = Function.update net m.sock ((net m.sock).emit f.bytes) := by
  obtain ⟨haim, hnet⟩ | ⟨m, haim, hfail, hnet⟩ | ⟨m, c, haim, -, he, hnet⟩ :=
    delivered_cases cfg r net hr (prompt 0)
  · obtain hnb | hsome := haimed
    · rw [if_neg hnb] at hnet
      exact Or.inl ⟨hnet, fun m hm => by rw [haim] at hm; cases hm⟩
    · exact absurd haim hsome
  · refine Or.inl ⟨hnet, ?_⟩
    intro m' hm'
    rw [haim] at hm'
    cases hm'
    obtain hclosed | hbroken := hfail
    · exact hclosed
    · cases hbroken
  · obtain ⟨c', hc', he'⟩ := prompt_accepts f 0 m.sock
    rw [he] at he'
    cases he'
    obtain ⟨hrem, hsent⟩ := sent_whole net m.sock hc'
    rw [(forwardAll_of_remaining hrem).1, ite_self, hsent] at hnet
    exact Or.inr ⟨m, haim, hnet⟩

/-- If neither the node it is for nor the one it is aimed at is live, nothing
is written, and nothing had to be. -/
private theorem routed_of_none_live (hr : Ready h f)
    (haimed : charReadAs (dstOf f.bytes) ≠ 0xffff ∨ aimedAt cfg r h f ≠ none)
    (hnone : ∀ n ∈ r.reg, n.poNodeAddr = dstOf f.bytes ∨ n.poNodeAddr = charReadAs (dstOf f.bytes) →
      ¬ Live cfg h net f n) : Routed cfg r h net f := by
  constructor
  · intro sc s hs
    exfalso
    obtain ⟨haim, hnet⟩ | ⟨m, -, -, hnet⟩ | ⟨m, c, haim, ho, -, -⟩ := delivered_cases cfg r net hr sc
    · obtain hnb | hsome := haimed
      · rw [if_neg hnb] at hnet
        exact hs (by rw [hnet])
      · exact hsome haim
    · exact hs (by rw [hnet])
    · obtain ⟨hmem, hma, hadm⟩ := mem_of_aimedAt haim
      exact hnone m hmem (Or.inr hma) ⟨hadm, ho⟩
  · intro sc n hn haddr hlive
    exact absurd hlive (hnone n hn (Or.inl haddr))

/-- A misread destination that names a node, or not the broadcast address: the
message reaches nobody it should. -/
private theorem routed_iff_of_aimed (hr : Ready h f) (hd : Distinct r)
    (hmis : charReadAs (dstOf f.bytes) ≠ dstOf f.bytes)
    (haimed : charReadAs (dstOf f.bytes) ≠ 0xffff ∨ aimedAt cfg r h f ≠ none) :
    Routed cfg r h net f ↔ ∀ n ∈ r.reg,
      n.poNodeAddr = dstOf f.bytes ∨ n.poNodeAddr = charReadAs (dstOf f.bytes) →
        ¬ Live cfg h net f n := by
  refine ⟨?_, routed_of_none_live hr haimed⟩
  have hprompt := delivered_prompt net hr haimed
  rintro hrt n hn (haddr | haddr) hlive
  · -- the addressed node gets nothing
    have hout := hrt.whole (prompt 0) n hn haddr hlive (fun i => prompt_accepts f i n.sock)
    have hsame : (delivered cfg (prompt 0) r h net n.sock).outp = (net n.sock).outp := by
      obtain ⟨hnet, -⟩ | ⟨m, haim, hnet⟩ := hprompt
      · rw [hnet]
      · obtain ⟨hmem, hma, -⟩ := mem_of_aimedAt haim
        have hne : n.sock ≠ m.sock := by
          intro hsock
          have hnm := hd.eq_of_sock hn hmem hsock
          rw [← hnm, haddr] at hma
          exact hmis hma.symm
        rw [hnet, outp_update_emit, if_neg hne]
    rw [hsame] at hout
    exact outp_ne_append_bytes _ f hout
  · -- the node under the misread address gets the frame
    have haim := aimedAt_of_mem cfg h hd hn haddr hlive.1
    obtain ⟨-, hclosed⟩ | ⟨m, haim', hnet⟩ := hprompt
    · exact Bool.false_ne_true ((hclosed n haim).symm.trans hlive.2)
    · rw [haim] at haim'
      cases haim'
      obtain ⟨m, hm, hma, hsock⟩ := hrt.only (prompt 0) n.sock (by rw [hnet]; exact update_emit_ne net _ f)
      rw [hd.eq_of_sock hm hn hsock, haddr] at hma
      exact hmis hma

/-- With nobody to aim at, a message read as a broadcast goes to the loop. -/
private theorem delivered_of_unaimed (hr : Ready h f) (hall : charReadAs (dstOf f.bytes) = 0xffff)
    (hnone : aimedAt cfg r h f = none) (sc : Script) :
    delivered cfg sc r h net = (forwardAll sc.forwards (hearers cfg r h f) (start net f)).net := by
  obtain ⟨-, hnet⟩ | ⟨m, haim, -, -⟩ | ⟨m, c, haim, -, -, -⟩ := delivered_cases cfg r net hr sc
  · rw [hnet, if_pos hall]
  · rw [hnone] at haim
    cases haim
  · rw [hnone] at haim
    cases haim

/-- There, a recipient that nobody before it takes anything from gets the whole
frame. -/
private theorem delivered_first (hr : Ready h f) (hd : Distinct r)
    (hall : charReadAs (dstOf f.bytes) = 0xffff) (hnone : aimedAt cfg r h f = none) {n : NodeInfo}
    (hn : n ∈ r.reg) (hlive : Live cfg h net f n) (hsock : n.sock ≠ h.sock)
    (hothers : ∀ t ∈ hearers cfg r h f, t ≠ n.sock →
      (net t).isOpen = false ∨ ∀ i, sc.forwards i t = .fail)
    (hacc : ∀ i, ∃ m, f.bytes.length ≤ m ∧ sc.forwards i n.sock = .accept m) :
    delivered cfg sc r h net = Function.update net n.sock ((net n.sock).emit f.bytes) := by
  have hnodup : (hearers cfg r h f).Nodup :=
    (List.filter_sublist.map NodeInfo.sock).nodup hd.sock
  have hmem : n.sock ∈ hearers cfg r h f := mem_hearers.mpr ⟨n, hn, hsock, hlive.1, rfl⟩
  obtain ⟨pre, post, hsplit⟩ := List.append_of_mem hmem
  have hpre : ∀ t ∈ pre, ((start net f).net t).isOpen = false ∨ ∀ i, sc.forwards i t = .fail := by
    intro t ht
    refine hothers t (by rw [hsplit]; exact List.mem_append_left _ ht) ?_
    rintro rfl
    rw [hsplit, List.nodup_append] at hnodup
    exact hnodup.2.2 _ ht _ List.mem_cons_self rfl
  rw [delivered_of_unaimed hr hall hnone, hsplit, forwardAll_first (w := start net f) hpre hlive.2 hacc]
  rfl

/-- A destination misread as the broadcast address, and no node to aim at: the
message goes to everyone else. -/
private theorem routed_iff_of_broadcast (hr : Ready h f) (hd : Distinct r)
    (hall : charReadAs (dstOf f.bytes) = 0xffff) (hnone : aimedAt cfg r h f = none) :
    Routed cfg r h net f ↔ ∀ n ∈ r.reg, Live cfg h net f n →
      (n.sock ≠ h.sock ↔ n.poNodeAddr = dstOf f.bytes) := by
  constructor
  · intro hrt n hn hlive
    constructor
    · intro hsock
      -- nobody but `n` takes anything
      let sc : Script :=
        { prompt 0 with forwards := fun _ t => if t = n.sock then .accept 257 else .fail }
      have hone : delivered cfg sc r h net = Function.update net n.sock ((net n.sock).emit f.bytes) :=
        delivered_first hr hd hall hnone hn hlive hsock (fun t _ hne => Or.inr fun _ => if_neg hne)
          fun i => ⟨257, f.length_bytes_le, if_pos rfl⟩
      obtain ⟨m, hm, hma, hms⟩ := hrt.only sc n.sock (by rw [hone]; exact update_emit_ne net _ f)
      rw [hd.eq_of_sock hm hn hms] at hma
      exact hma
    · intro haddr hsock
      have hout := hrt.whole (prompt 0) n hn haddr hlive fun i => prompt_accepts f i n.sock
      have hnot : n.sock ∉ hearers cfg r h f := by
        intro hin
        obtain ⟨m, -, hne, -, hms⟩ := mem_hearers.mp hin
        exact hne (hms.trans hsock)
      rw [delivered_of_unaimed hr hall hnone, forwardAll_net_of_not_mem hnot] at hout
      exact outp_ne_append_bytes _ f hout
  · intro hcond
    constructor
    · intro sc s hs
      rw [delivered_of_unaimed hr hall hnone] at hs
      obtain ⟨hin, ho⟩ := mem_of_forwardAll_ne (w := start net f) hs
      obtain ⟨n, hn, hsock, hadm, rfl⟩ := mem_hearers.mp hin
      exact ⟨n, hn, (hcond n hn ⟨hadm, ho⟩).mp hsock, rfl⟩
    · intro sc n hn haddr hlive hacc
      have hsock := (hcond n hn hlive).mpr haddr
      rw [delivered_first hr hd hall hnone hn hlive hsock (fun t ht hne => ?_) hacc, outp_update_emit,
        if_pos rfl]
      obtain ⟨m, hm, hms, hadm, rfl⟩ := mem_hearers.mp ht
      left
      by_contra ho
      have hml := (hcond m hm ⟨hadm, by simpa using ho⟩).mp hms
      exact hne (by rw [hd.addr m hm n hn (hml.trans haddr.symm)])

/-- A misread message still does no harm: read as the broadcast address, with
no node to aim at, the node it is for is the one live node off the sender's
socket; read as anything else, neither the node it is for nor the one it is
aimed at is live. -/
def RoutesAnyway (cfg : Config) (r : Registry) (h : RequestHandler) (net : Net) (f : Frame) : Prop :=
  if flooded (dstOf f.bytes) = 0xffff ∧ ∀ m ∈ r.reg, m.poNodeAddr = 0xffff →
      locationAdmits cfg h (trailerOf f.bytes) m = false then
    ∀ n ∈ r.reg, Live cfg h net f n → (n.sock ≠ h.sock ↔ n.poNodeAddr = dstOf f.bytes)
  else
    ∀ n ∈ r.reg, n.poNodeAddr = dstOf f.bytes ∨ n.poNodeAddr = flooded (dstOf f.bytes) →
      ¬ Live cfg h net f n

/-- Nobody is aimed at under `0xffff` when the filter turns away all of them. -/
theorem aimedAt_eq_none_iff (hd : Distinct r) (hall : charReadAs (dstOf f.bytes) = 0xffff) :
    aimedAt cfg r h f = none ↔ ∀ m ∈ r.reg, m.poNodeAddr = 0xffff →
      locationAdmits cfg h (trailerOf f.bytes) m = false := by
  constructor
  · intro hnone m hm haddr
    by_contra hadm
    have haim := aimedAt_of_mem cfg h hd hm (haddr.trans hall.symm) (by simpa using hadm)
    rw [hnone] at haim
    cases haim
  · intro hno
    cases ha : aimedAt cfg r h f with
    | none => rfl
    | some m =>
        obtain ⟨hm, haddr, hadm⟩ := mem_of_aimedAt ha
        rw [hno m hm (haddr.trans hall)] at hadm
        cases hadm

theorem distinct_of_process {σ : Server} (hσ : Server.Reachable cfg σ)
    (hdist : (σ.registry.reg.map NodeInfo.poNodeAddr).Nodup) (htag : f.tag = POBICOS_MSG)
    (hp : process cfg clock σ.registry (h₀.holding f) = .ok (r, h)) : Distinct r := by
  obtain ⟨-, hseen, -⟩ := ready_of_process htag hp
  obtain ⟨hledger, -⟩ := seen_ledger clock h₀.sock (Server.kept_reachable hσ).counted
  rw [← hseen] at hledger
  have haddr : ∀ q : Registry, q.reg.map NodeInfo.poNodeAddr = q.ledger.map Identity.addr := by
    intro q
    rw [Registry.ledger, List.map_map]
    rfl
  have hsock : r.reg.map NodeInfo.sock = r.ledger.map Identity.sock := by
    rw [Registry.ledger, List.map_map]
    rfl
  rw [haddr, ← hledger, ← haddr] at hdist
  refine ⟨fun n hn m hm hnm => List.inj_on_of_nodup_map hdist hn hm hnm, ?_⟩
  rw [hsock, hledger]
  exact (Server.orderly_reachable hσ).distinct

/-- **Unicast routing**: exactly the destinations whose low byte is below
`0x80` or whose high byte is `0xFF` are routed whatever is registered; any
other only where its misreading does no harm. -/
theorem routed_iff {σ : Server} (hσ : Server.Reachable cfg σ)
    (hdist : (σ.registry.reg.map NodeInfo.poNodeAddr).Nodup) (htag : f.tag = POBICOS_MSG)
    (hp : process cfg clock σ.registry (h₀.holding f) = .ok (r, h)) (hdst : dstOf f.bytes ≠ 0xffff) :
    Routed cfg r h net f ↔ (dstOf f.bytes).toNat % 256 < 128 ∨ (dstOf f.bytes).toNat / 256 = 255 ∨
      RoutesAnyway cfg r h net f := by
  obtain ⟨hr, -, -⟩ := ready_of_process htag hp
  have hd := distinct_of_process hσ hdist htag hp
  rw [← or_assoc, ← charReadAs_eq_self_iff]
  by_cases hread : charReadAs (dstOf f.bytes) = dstOf f.bytes
  · exact ⟨fun _ => Or.inl hread, fun _ => routed_of_read hr hd hdst hread⟩
  · have hflood := charReadAs_of_ne hread
    have hanyway : Routed cfg r h net f ↔ RoutesAnyway cfg r h net f := by
      rw [RoutesAnyway, ← hflood]
      by_cases hall : charReadAs (dstOf f.bytes) = 0xffff
      · by_cases hnone : aimedAt cfg r h f = none
        · rw [if_pos ⟨hall, (aimedAt_eq_none_iff hd hall).mp hnone⟩]
          exact routed_iff_of_broadcast hr hd hall hnone
        · rw [if_neg fun hc => hnone ((aimedAt_eq_none_iff hd hall).mpr hc.2)]
          exact routed_iff_of_aimed hr hd hread (Or.inr hnone)
      · rw [if_neg fun hc => hall hc.1]
        exact routed_iff_of_aimed hr hd hread (Or.inl hall)
    rw [hanyway]
    exact ⟨Or.inr, fun hor => hor.resolve_left hread⟩

/-- One node, with address 1, and a client that sends to address 255. -/
private theorem misrouted_setting :
    ∃ (σ : Server) (h : RequestHandler), Server.Reachable everywhere σ ∧
      (σ.registry.reg.map NodeInfo.poNodeAddr).Nodup ∧
      process everywhere (fun _ => 0) σ.registry ((RequestHandler.new 1).holding (emptyMsg 0x00ff)) =
        .ok (σ.registry, h) ∧
      ¬ Routed everywhere σ.registry h σ.net (emptyMsg 0x00ff) := by
  obtain ⟨σ, hrun, ha, hreg, hfree, hnet⟩ := Server.run_firstNode everywhere
  have ho : (σ.net 0).isOpen = true := by rw [hnet]
  have hnodup : (σ.registry.reg.map NodeInfo.poNodeAddr).Nodup := by
    rw [hreg]
    decide
  have hlong : ¬ Short σ.registry 1 (emptyMsg 0x00ff) := not_short_of_pobicosMsg rfl (by decide)
  have hseen : seen (fun _ => 0) σ.registry 1 = σ.registry := by
    rw [hreg]
    rfl
  have hp : process everywhere (fun _ => 0) σ.registry
      ((RequestHandler.new 1).holding (emptyMsg 0x00ff)) =
        .ok (σ.registry, (RequestHandler.new 1).forwarding (emptyMsg 0x00ff)) := by
    have hwhole := process_holding everywhere (fun _ => 0) (h := .new 1) hlong
    have hset : settle (fun _ => 0) σ.registry (.new 1) (emptyMsg 0x00ff) =
        (seen (fun _ => 0) σ.registry 1, (RequestHandler.new 1).forwarding (emptyMsg 0x00ff)) := rfl
    rw [hwhole, hset, hseen]
  refine ⟨σ, _, ⟨_, hrun⟩, hnodup, hp, ?_⟩
  obtain ⟨hr, -, hs⟩ := ready_of_process rfl hp
  have hd := distinct_of_process (Lts.Reachable.of_run Lts.Reachable.refl hrun) hnodup rfl hp
  have hall : charReadAs (dstOf (emptyMsg 0x00ff).bytes) = 0xffff := by
    rw [dstOf_emptyMsg]
    decide
  have hnone : aimedAt everywhere σ.registry ((RequestHandler.new 1).forwarding (emptyMsg 0x00ff))
      (emptyMsg 0x00ff) = none := by
    rw [aimedAt_eq_none_iff hd hall, hreg]
    intro m hm haddr
    rw [List.mem_singleton] at hm
    rw [hm] at haddr
    exact absurd haddr (by decide)
  rw [routed_iff_of_broadcast hr hd hall hnone]
  intro hcond
  have hmem : Server.firstNode ∈ σ.registry.reg := by
    rw [hreg]
    exact List.mem_singleton_self _
  have hiff := hcond Server.firstNode hmem ⟨locationAdmits_emptyMsg .., ho⟩
  rw [dstOf_emptyMsg, hs] at hiff
  exact absurd (hiff.mp (by decide)) (by decide)

/-- A message to address 255 reaches the node with address 1. -/
theorem unicast_goes_astray :
    ∃ (σ : Server) (h : RequestHandler), Server.Reachable everywhere σ ∧
      (σ.registry.reg.map NodeInfo.poNodeAddr).Nodup ∧ dstOf (emptyMsg 0x00ff).bytes ≠ 0xffff ∧
      process everywhere (fun _ => 0) σ.registry ((RequestHandler.new 1).holding (emptyMsg 0x00ff)) =
        .ok (σ.registry, h) ∧
      ¬ Routed everywhere σ.registry h σ.net (emptyMsg 0x00ff) := by
  obtain ⟨σ, h, hσ, hnodup, hp, hnot⟩ := misrouted_setting
  exact ⟨σ, h, hσ, hnodup, by rw [dstOf_emptyMsg]; decide, hp, hnot⟩

/-- In that setting the message is not routed, and its misreading does harm. -/
theorem routed_iff_firstNode :
    ∃ (σ : Server) (h : RequestHandler),
      process everywhere (fun _ => 0) σ.registry ((RequestHandler.new 1).holding (emptyMsg 0x00ff)) =
        .ok (σ.registry, h) ∧
      ¬ Routed everywhere σ.registry h σ.net (emptyMsg 0x00ff) ∧
      ¬ ((dstOf (emptyMsg 0x00ff).bytes).toNat % 256 < 128 ∨ (dstOf (emptyMsg 0x00ff).bytes).toNat / 256 = 255 ∨
        RoutesAnyway everywhere σ.registry h σ.net (emptyMsg 0x00ff)) := by
  obtain ⟨σ, h, hσ, hnodup, hp, hnot⟩ := misrouted_setting
  have hiff : Routed _ _ _ σ.net _ ↔ _ := routed_iff hσ hnodup rfl hp (by rw [dstOf_emptyMsg]; decide)
  exact ⟨σ, h, hp, hnot, fun hcond => hnot (hiff.mpr hcond)⟩

end Pobicos.Directory
