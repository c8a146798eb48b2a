import Pobicos.Lib.SlidingWindow
import Pobicos.Transport.Fragments
import Pobicos.Transport.Network

/-!
# Pobicos.Transport.Emission

What a node does with the datagrams that it has sent to a peer: they are kept
until they are acknowledged, and are sent again as they were.

`Outgoing` is what the node has of a peer that has acknowledged the datagrams up
to `base`.
-/

namespace Pobicos.Transport

open Octets Middleware SlidingWindow PoCommM

/-- A datagram that has not been acknowledged yet, with the id of its message. -/
def Unacked (sent : List Sent) (n : Nat) (node : MsgNode) : Prop :=
  ∃ s i, At sent n s i ∧ node.bufMsg = s.datagram n i ∧ node.bufMsgId = s.msgId.toNat

/-- What a node has of a peer to which the messages `sent` have been sent, and
which has acknowledged the first `base` datagrams. -/
structure Outgoing (sent : List Sent) (base : Nat) (p : Peer) : Prop where
  lastMsgSent : p.lastMsgSent = BitVec.ofNat 8 (total sent)
  lastAckReceived : p.lastAckReceived = BitVec.ofNat 8 base
  le : base ≤ total sent
  window : total sent ≤ base + PO_COMM_WINDOW_SIZE
  sent : Numbered (Unacked sent) (fun n => base < n ∧ n ≤ total sent) p.sent

/-- What is kept of a peer for receiving from it. -/
structure Peer.SameIn (p p' : Peer) : Prop where
  lastAckSent : p'.lastAckSent = p.lastAckSent
  resetFlag : p'.resetFlag = p.resetFlag
  recv : p'.recv = p.recv
  fragm : p'.fragm = p.fragm

/-- What is done for the peer `y` alone. -/
structure Serves (y : AddrType) (c c' : PoCommM) : Prop where
  sound : c'.Sound []
  others : ∀ z ≠ FREE_ENTRY, z ≠ y → c'.peer z = c.peer z
  myAddr : c'.myAddr = c.myAddr

variable {c c' : PoCommM} {y : AddrType} {i : Fin MAX_NODES} {d d' : Draft} {taken : List NodeIndex}
  {sent : List Sent} {s : Sent} {base n : Nat} {m : PoRadioMsg}

/-- What is kept to be sent again is the datagram itself. -/
theorem Unacked.is {node : MsgNode} (h : Unacked sent n node) : Is sent n node.bufMsg := by
  obtain ⟨s, i, hat, hm, -⟩ := h
  exact ⟨s, i, hat, hm⟩

theorem Peer.SameIn.trans {p p' p'' : Peer} (h : p.SameIn p') (h' : p'.SameIn p'') : p.SameIn p'' :=
  ⟨h'.lastAckSent.trans h.lastAckSent, h'.resetFlag.trans h.resetFlag, h'.recv.trans h.recv, h'.fragm.trans h.fragm⟩

/-- Nothing is done. -/
theorem Serves.refl (h : c.Sound []) (y : AddrType) : Serves y c c := ⟨h, fun _ _ _ => rfl, rfl⟩

/-- A draft that has been written back. -/
theorem Draft.Keeps.serves (hkeeps : Draft.Keeps i ⟨c, c.addrInfo i⟩ d') (hy : y ≠ FREE_ENTRY)
    (hfind : c.findAddrInfo y = some i) (h' : d'.Sound i []) : Serves y c (d'.whole i) ∧ (d'.whole i).peer y = d'.peer := by
  obtain ⟨hpeer, hothers, hmyAddr⟩ := hkeeps.written hy hfind h'
  exact ⟨⟨h'.whole, hothers, hmyAddr⟩, hpeer⟩

/-- More messages do not change what has been sent before them. -/
theorem unacked_append_iff {more : List Sent} {node : MsgNode} (hn : n ≤ total sent) :
    Unacked sent n node ↔ Unacked (sent ++ more) n node := by
  constructor
  · intro ⟨s, i, hat, hm⟩
    exact ⟨s, i, hat.append more, hm⟩
  · intro ⟨s, i, hat, hm⟩
    exact ⟨s, i, hat.of_append hn, hm⟩

/-! ## Datagrams that are sent again -/

theorem sentSlot_eq_some {seq : Byte} {info : AddrInfo} {k : NodeIndex} (h : c.sentSlot seq info = some k) :
    (∃ j, info.sentMsgBuf j = some k) ∧ (c.msgNodes.val k).bufMsg.seqNum = seq := by
  obtain ⟨l, -, hl⟩ := List.exists_of_findSome?_eq_some h
  cases hnode : info.sentMsgBuf l with
  | none => simp [hnode] at hl
  | some n =>
      simp only [hnode] at hl
      split_ifs at hl with hmatch
      cases hl
      exact ⟨⟨l, hnode⟩, hmatch⟩

/-- **A datagram that is sent again** is one that has been sent and not been
acknowledged, and it is the same. -/
theorem resend_spec {seq : Byte} {k : NodeIndex} {resends : Int} (h : c.Sound []) (hy : y ≠ FREE_ENTRY)
    (hfind : c.findAddrInfo y = some i) (hout : Outgoing sent base (c.peer y))
    (hslot : c.sentSlot seq (c.addrInfo i) = some k)
    (hc : c' = c.writeMsgNode k { c.msgNodes.val k with resends := resends }) :
    Serves y c c' ∧ Outgoing sent base (c'.peer y) ∧ (c.peer y).SameIn (c'.peer y) ∧
      ∃ n, base < n ∧ Is sent n (c.msgNodes.val k).bufMsg := by
  obtain ⟨⟨j, hj⟩, -⟩ := sentSlot_eq_some hslot
  obtain ⟨hsound, hpeer⟩ := Draft.sound_self h hy hfind
  obtain ⟨hsound', hkeeps, hpeer'⟩ := Draft.rewriteSent_spec hsound hj { c.msgNodes.val k with resends := resends }
  obtain ⟨hserves, hwritten⟩ := hkeeps.serves hy hfind hsound'
  have hwhole : Draft.whole i ⟨c.writeMsgNode k { c.msgNodes.val k with resends := resends }, c.addrInfo i⟩ = c' := by
    rw [hc]
    exact Draft.whole_self i _
  rw [hwhole] at hserves hwritten
  rw [hpeer] at hpeer'
  have hnode : (c.peer y).sent j = some (c.msgNodes.val k) := by
    rw [← hpeer]
    simp [Draft.peer, AddrInfo.peer, hj]
  obtain ⟨n, hn, hun⟩ := hout.sent.number hnode
  refine ⟨hserves, ?_, ?_, n, hn.1, hun.is⟩
  · rw [hwritten, hpeer']
    exact ⟨hout.lastMsgSent, hout.lastAckReceived, hout.le, hout.window, hout.sent.rewrite hnode fun _ => Iff.rfl⟩
  · rw [hwritten, hpeer']
    exact ⟨rfl, rfl, rfl, rfl⟩

/-! ## Datagrams that are acknowledged -/

/-- The acknowledgement covers the datagram. -/
def Covers (ackSeqNum : Byte) (node : MsgNode) : Prop := (ackSeqNum - node.bufMsg.seqNum).toNat < PO_COMM_WINDOW_SIZE

instance (ackSeqNum : Byte) (node : MsgNode) : Decidable (Covers ackSeqNum node) :=
  inferInstanceAs (Decidable (_ < _))

/-- What is reported of a datagram, if it is the last one of its message. -/
def report (ackSeqNum : Byte) (node : MsgNode) : Option (Byte × Int) :=
  if Covers ackSeqNum node ∧ (!node.bufMsg.has PO_COMM_FLAGS_FRAGM_EN ||
      node.bufMsg.fragmNum != 0 && !node.bufMsg.has PO_COMM_FLAGS_MORE_FRAGM) then some (node.bufMsg.ifId, node.bufMsgId)
  else none

/-- The buffer without what the acknowledgement covers in the slots `js`. -/
def uncovered (ackSeqNum : Byte) (js : List Slot) (buf : Slot → Option MsgNode) : Slot → Option MsgNode := fun j =>
  if j ∈ js then (buf j).filter fun node => !decide (Covers ackSeqNum node) else buf j

/-- **An acknowledgement** takes what it covers out of the send buffer and
reports the messages that have ended, slot by slot. -/
theorem acknowledgeLoop_spec {a : Byte} {js : List Slot} {acc results : List (Byte × Int)} (h : d.Sound i taken)
    (hjs : js.Nodup) (hloop : acknowledgeLoop a js acc d = (results, d')) :
    d'.Sound i taken ∧ Draft.Keeps i d d' ∧ results = acc ++ (js.filterMap d.peer.sent).filterMap (report a) ∧
      d'.peer = { d.peer with sent := uncovered a js d.peer.sent } := by
  induction js generalizing acc d with
  | nil =>
      cases hloop
      have hbuf : uncovered a [] d'.peer.sent = d'.peer.sent := by
        funext k
        simp [uncovered]
      exact ⟨h, Draft.Keeps.refl i _, by simp, by rw [hbuf]⟩
  | cons j js ih =>
      obtain ⟨hj, hjs⟩ := List.nodup_cons.mp hjs
      unfold acknowledgeLoop at hloop
      cases hnode : d.info.sentMsgBuf j with
      | none =>
          have hnone : d.peer.sent j = none := by simp [Draft.peer, AddrInfo.peer, hnode]
          rw [hnode] at hloop
          obtain ⟨hsound, hkeeps, hresults, hpeer⟩ := ih h hjs hloop
          have hbuf : uncovered a (j :: js) d.peer.sent = uncovered a js d.peer.sent := by
            funext k
            by_cases hk : k = j
            · subst hk
              simp [uncovered, hnone]
            · simp [uncovered, hk]
          exact ⟨hsound, hkeeps, by rw [hresults, List.filterMap_cons_none hnone], by rw [hpeer, hbuf]⟩
      | some n =>
          have hsome : d.peer.sent j = some (d.comm.msgNodes.val n) := by simp [Draft.peer, AddrInfo.peer, hnode]
          rw [hnode] at hloop
          dsimp only at hloop
          -- a datagram that is covered leaves its slot; the others stay where they are
          by_cases hcovers : Covers a (d.comm.msgNodes.val n)
          · have hlt : (a - (d.comm.msgNodes.val n).bufMsg.seqNum).toNat < PO_COMM_WINDOW_SIZE := hcovers
            rw [if_pos hlt] at hloop
            obtain ⟨hsound₁, hkeeps₁, hpeer₁⟩ := Draft.freeSent_spec h hnode
            obtain ⟨hsound, hkeeps, hresults, hpeer⟩ := ih hsound₁ hjs hloop
            have hsent₁ : (d.freeSent j n).peer.sent = Function.update d.peer.sent j none := by rw [hpeer₁]
            refine ⟨hsound, hkeeps₁.trans hkeeps, ?_, ?_⟩
            · rw [hresults, List.filterMap_cons_some hsome, hsent₁, filterMap_update_of_notMem hj, List.filterMap_cons, report]
              simp only [hcovers, true_and]
              split_ifs <;> simp
            · have hbuf : uncovered a (j :: js) d.peer.sent = uncovered a js (Function.update d.peer.sent j none) := by
                funext k
                by_cases hk : k = j
                · subst hk
                  simp [uncovered, hj, hsome, hcovers]
                · simp [uncovered, hk]
              rw [hpeer, hpeer₁, hbuf]
          · have hge : ¬ (a - (d.comm.msgNodes.val n).bufMsg.seqNum).toNat < PO_COMM_WINDOW_SIZE := hcovers
            rw [if_neg hge] at hloop
            obtain ⟨hsound, hkeeps, hresults, hpeer⟩ := ih h hjs hloop
            refine ⟨hsound, hkeeps, ?_, ?_⟩
            · rw [hresults, List.filterMap_cons_some hsome, List.filterMap_cons, report]
              simp [hcovers]
            · have hbuf : uncovered a (j :: js) d.peer.sent = uncovered a js d.peer.sent := by
                funext k
                by_cases hk : k = j
                · subst hk
                  simp [uncovered, hj, hsome, hcovers]
                · simp [uncovered, hk]
              rw [hpeer, hbuf]

/-- What is reported of the datagrams is what ends with them. -/
theorem filterMap_range' {β : Type} (l : List (Option β)) (b k : Nat) (h : b + k ≤ l.length) :
    (List.range' (b + 1) k).filterMap (fun n => l[n - 1]?.join) = ((l.drop b).take k).filterMap id := by
  induction k generalizing b with
  | zero => rfl
  | succ k ih =>
      have hb : b < l.length := by omega
      rw [List.range'_succ, List.drop_eq_getElem_cons hb, List.take_succ_cons, List.filterMap_cons, List.filterMap_cons,
        ih (b + 1) (by omega), Nat.add_sub_cancel, List.getElem?_eq_getElem hb]
      rfl

/-- **The arithmetic of the window**: of datagrams within 20 of `base`, an
acknowledgement number covers those up to its own, modulo 256. -/
theorem Unacked.covers {node : MsgNode} {a : Nat} (h : Unacked sent n node) (hlow : base < n) (hhigh : n ≤ base + 20)
    (ha : base ≤ a) (ha' : a ≤ base + 20) : Covers (BitVec.ofNat 8 a) node ↔ n ≤ a := by
  unfold Covers PO_COMM_WINDOW_SIZE
  rw [h.is.seqNum]
  by_cases hle : n ≤ a
  · rw [toNat_seq_sub hle (by omega)]
    omega
  · rw [toNat_seq_sub_of_lt (by omega) (by omega)]
    omega

/-- A message is reported with its last datagram. -/
theorem Unacked.report {node : MsgNode} {a : Nat} (h : Unacked sent n node) (hlow : base < n) (hhigh : n ≤ base + 20)
    (ha : base ≤ a) (ha' : a ≤ base + 20) :
    report (BitVec.ofNat 8 a) node = if n ≤ a then (marks sent)[n - 1]?.join else none := by
  have hcovers := h.covers hlow hhigh ha ha'
  obtain ⟨s, i, hat, hm, hid⟩ := h
  obtain ⟨done, rest, hsent, hn, hi⟩ := hat
  have hat : At sent n s i := ⟨done, rest, hsent, hn, hi⟩
  have hle := s.pieces_le
  have hlast : (!node.bufMsg.has PO_COMM_FLAGS_FRAGM_EN ||
      node.bufMsg.fragmNum != 0 && !node.bufMsg.has PO_COMM_FLAGS_MORE_FRAGM) = true ↔ i + 1 = s.pieces := by
    have hzero : (s.datagram n i).fragmNum = 0 ↔ i = 0 := by
      show BitVec.ofNat 8 i = BitVec.ofNat 8 0 ↔ i = 0
      exact seq_eq_iff (by omega) (by omega)
    rw [hm, s.fragm_datagram, s.more_datagram]
    simp only [Bool.or_eq_true, Bool.not_eq_true', decide_eq_false_iff_not, Bool.and_eq_true, bne_iff_ne, ne_eq, hzero]
    omega
  have hmark : (marks sent)[n - 1]?.join = if i + 1 = s.pieces then some s.key else none := by
    rw [hat.mark]
    rfl
  unfold Transport.report
  rw [hmark]
  by_cases hna : n ≤ a
  · rw [if_pos hna]
    by_cases hend : i + 1 = s.pieces
    · rw [if_pos hend, if_pos ⟨hcovers.mpr hna, hlast.mpr hend⟩, hm, hid]
      rfl
    · rw [if_neg hend, if_neg fun h => hend (hlast.mp h.2)]
  · rw [if_neg hna, if_neg fun h => hna (hcovers.mp h.1)]

/-- What becomes of the datagrams that have been sent. -/
theorem Outgoing.acknowledge {p : Peer} {a : Nat} (h : Outgoing sent base p) (ha : base ≤ a) (ha' : a ≤ total sent) :
    Outgoing sent a { p with
        lastAckReceived := BitVec.ofNat 8 a
        sent := uncovered (BitVec.ofNat 8 a) (List.finRange PO_COMM_WINDOW_SIZE) p.sent } ∧
      (((List.finRange PO_COMM_WINDOW_SIZE).filterMap p.sent).filterMap (report (BitVec.ofNat 8 a))).Perm
        (((marks sent).take a).drop base |>.filterMap id) := by
  have hwindow : total sent ≤ base + 20 := h.window
  refine ⟨⟨h.lastMsgSent, rfl, ha', by have := h.window; omega, ?_⟩, ?_⟩
  · have hbuf : uncovered (BitVec.ofNat 8 a) (List.finRange PO_COMM_WINDOW_SIZE) p.sent =
        fun j => (p.sent j).filter fun node => !decide (Covers (BitVec.ofNat 8 a) node) := by
      funext j
      simp [uncovered]
    rw [hbuf]
    refine (h.sent.filter (T := fun n => a < n) fun n node hn hun => ?_).congr fun n => by omega
    rw [Bool.not_eq_true', decide_eq_false_iff_not, hun.covers hn.1 (by omega) ha (by omega)]
    omega
  · have hperm := h.sent.filterMap_perm (List.nodup_finRange _) (fun j => List.mem_finRange j)
      (List.nodup_range' : (List.range' (base + 1) (total sent - base)).Nodup) (fun n => by rw [List.mem_range'_1]; omega)
      (fun n node hn hun => hun.report (a := a) hn.1 (by omega) ha (by omega))
    refine hperm.trans (List.Perm.of_eq ?_)
    -- what is kept is reported in two parts: up to `a`, and behind it, where nothing ends
    have hsplit : List.range' (base + 1) (total sent - base) =
        List.range' (base + 1) (a - base) ++ List.range' (a + 1) (total sent - a) := by
      rw [show a + 1 = base + 1 + (a - base) by omega, List.range'_append_1]
      congr 1
      omega
    have hlow : (List.range' (base + 1) (a - base)).filterMap (fun n => if n ≤ a then (marks sent)[n - 1]?.join else none) =
        (List.range' (base + 1) (a - base)).filterMap (fun n => (marks sent)[n - 1]?.join) := by
      apply List.filterMap_congr
      intro n hn
      rw [List.mem_range'_1] at hn
      rw [if_pos (by omega)]
    have hhigh : (List.range' (a + 1) (total sent - a)).filterMap
        (fun n => if n ≤ a then (marks sent)[n - 1]?.join else none) = [] := by
      rw [List.filterMap_eq_nil_iff]
      intro n hn
      rw [List.mem_range'_1] at hn
      rw [if_neg (by omega)]
    rw [hsplit, List.filterMap_append, hlow, hhigh, List.append_nil,
      filterMap_range' (marks sent) base (a - base) (by rw [length_marks]; omega), List.drop_take]

/-! ## What a node does for a peer that it has sent to -/

/-- The node `x` sends the datagrams `ms` to `y`, and reports the messages `results`. -/
structure Emits (x y : AddrType) (ms : List PoRadioMsg) (results : List (Byte × Int)) (signals : List Signal) : Prop where
  datagrams : ∀ z, signals.filterMap (Signal.datagram z) = if z = y then ms else []
  events : signals.filterMap (Network.Event.ofSignal x) = results.map fun (id, msgId) => .reported x y id msgId

/-- The datagrams that are sent have not been acknowledged, and what is kept for
receiving is as it was. -/
structure Emitted (x y : AddrType) (sent : List Sent) (base : Nat) (results : List (Byte × Int)) (c c' : PoCommM)
    (signals : List Signal) : Prop where
  serves : Serves y c c'
  outgoing : Outgoing sent base (c'.peer y)
  sameIn : (c.peer y).SameIn (c'.peer y)
  emits : ∃ ms, Emits x y ms results signals ∧ ∀ m ∈ ms, ∃ n, base < n ∧ Is sent n m

variable {x : AddrType} {signals : List Signal} {hal : Hal}

theorem emits_nothing (x y : AddrType) : Emits x y [] [] [] := ⟨fun z => by simp, rfl⟩

/-- A node that does nothing sends nothing. -/
theorem Emitted.nothing (h : c.Sound []) (hout : Outgoing sent base (c.peer y)) (x : AddrType) :
    Emitted x y sent base [] c c [] :=
  ⟨.refl h y, hout, ⟨rfl, rfl, rfl, rfl⟩, [], emits_nothing x y, fun _ hm => by cases hm⟩

/-- One datagram. -/
theorem emits_sendMsg (x y : AddrType) (m : PoRadioMsg) : Emits x y [m] [] [.sendMsg y m] := by
  refine ⟨fun z => ?_, rfl⟩
  by_cases hz : z = y
  · simp [Signal.datagram, hz]
  · simp [Signal.datagram, hz, Ne.symm hz]

/-- An acknowledgement that says nothing new asks for the next datagram. -/
theorem ackRepeated_spec (x : AddrType) (h : c.Sound []) (hy : y ≠ FREE_ENTRY) (hfind : c.findAddrInfo y = some i)
    (hout : Outgoing sent base (c.peer y)) (hm : m.seqNum = (c.addrInfo i).lastAckReceived)
    (hreset : m.has PO_COMM_FLAGS_RESET = false) (hstep : c.ackArrived hal y m = (c', signals)) :
    Emitted x y sent base [] c c' signals := by
  have hnothing : Emitted x y sent base [] c c [] := .nothing h hout x
  unfold ackArrived at hstep
  rw [hfind] at hstep
  simp only [hreset, Bool.false_eq_true, if_false, if_pos hm] at hstep
  split_ifs at hstep
  · cases hstep
    exact hnothing
  · cases hslot : c.sentSlot (m.seqNum + 1) (c.addrInfo i) with
    | none =>
        rw [hslot] at hstep
        cases hstep
        exact hnothing
    | some k =>
        rw [hslot] at hstep
        dsimp only at hstep
        split_ifs at hstep
        · cases hstep
          obtain ⟨hserves, hout', hsame, n, hn, his⟩ := resend_spec h hy hfind hout hslot rfl
          refine ⟨hserves, hout', hsame, [_], emits_sendMsg x y _, fun m hm => ?_⟩
          rw [List.mem_singleton.mp hm]
          exact ⟨n, hn, his⟩
        · cases hstep
          exact hnothing

/-- An acknowledgement that says something new. -/
theorem ackAdvances_spec {a : Nat} (x : AddrType) (h : c.Sound []) (hy : y ≠ FREE_ENTRY)
    (hfind : c.findAddrInfo y = some i) (hout : Outgoing sent base (c.peer y)) (hm : m.seqNum = BitVec.ofNat 8 a)
    (hreset : m.has PO_COMM_FLAGS_RESET = false) (ha : base < a) (ha' : a ≤ total sent)
    (hstep : c.ackArrived hal y m = (c', signals)) :
    ∃ results, Emitted x y sent a results c c' signals ∧
      results.Perm (((marks sent).take a).drop base |>.filterMap id) := by
  have hwindow : total sent ≤ base + 20 := hout.window
  have hpeer := peer_of_findAddrInfo hfind
  have hlar : (c.addrInfo i).lastAckReceived = BitVec.ofNat 8 base := by
    have hlar := hout.lastAckReceived
    rwa [hpeer] at hlar
  have hlms : (c.addrInfo i).lastMsgSent = BitVec.ofNat 8 (total sent) := by
    have hlms := hout.lastMsgSent
    rwa [hpeer] at hlms
  have hne : BitVec.ofNat 8 a ≠ (c.addrInfo i).lastAckReceived := fun heq => by
    rw [hlar, seq_eq_iff (by omega) (by omega)] at heq
    omega
  -- the numbers are within 20 of `base`, so the test of the source is the one on naturals
  have hle : (BitVec.ofNat 8 a - (c.addrInfo i).lastAckReceived).toNat ≤
      ((c.addrInfo i).lastMsgSent - (c.addrInfo i).lastAckReceived).toNat := by
    rw [hlar, hlms, toNat_seq_sub ha.le (by omega), toNat_seq_sub hout.le (by omega)]
    omega
  unfold ackArrived at hstep
  rw [hfind] at hstep
  simp only [hreset, Bool.false_eq_true, if_false, hm] at hstep
  rw [if_neg hne, if_pos hle] at hstep
  generalize hinfo : { c.addrInfo i with lastAckReceived := BitVec.ofNat 8 a } = info at hstep
  cases hloop : acknowledgeLoop (BitVec.ofNat 8 a) (List.finRange PO_COMM_WINDOW_SIZE) [] ⟨c, info⟩ with
  | mk results d' =>
      rw [hloop] at hstep
      cases hstep
      obtain ⟨hsound, -⟩ := Draft.sound_self h hy hfind
      obtain ⟨hsound₁, hkeeps₁⟩ : Draft.Sound i [] ⟨c, info⟩ ∧ Draft.Keeps i ⟨c, c.addrInfo i⟩ ⟨c, info⟩ := by
        rw [← hinfo]
        exact Draft.keeps_info hsound rfl rfl rfl rfl
      have hpeer₁ : Draft.peer ⟨c, info⟩ = { c.peer y with lastAckReceived := BitVec.ofNat 8 a } := by
        rw [hpeer, ← hinfo]
        rfl
      obtain ⟨hsound', hkeeps', hresults, hpeer'⟩ := acknowledgeLoop_spec hsound₁ (List.nodup_finRange _) hloop
      obtain ⟨hserves, hwritten⟩ := (hkeeps₁.trans hkeeps').serves hy hfind hsound'
      obtain ⟨hout', hperm⟩ := hout.acknowledge ha.le ha'
      rw [hpeer₁] at hresults hpeer'
      rw [List.nil_append] at hresults
      refine ⟨results, ⟨hserves, ?_, ?_, [], ⟨fun z => ?_, ?_⟩, fun _ hm => by cases hm⟩, ?_⟩
      · show Outgoing sent a ((d'.whole i).peer y)
        rw [hwritten, hpeer']
        exact hout'
      · show (c.peer y).SameIn ((d'.whole i).peer y)
        rw [hwritten, hpeer']
        exact ⟨rfl, rfl, rfl, rfl⟩
      · rw [List.filterMap_map, ite_self, List.filterMap_eq_nil_iff]
        intro r _
        rfl
      · rw [List.filterMap_map, ← List.filterMap_eq_map]
        rfl
      · rw [hresults]
        exact hperm

/-- **An acknowledgement** of the first `a` datagrams. -/
theorem ackArrived_spec {a : Nat} (x : AddrType) (h : c.Sound []) (hy : y ≠ FREE_ENTRY) (hout : Outgoing sent base (c.peer y))
    (hm : m.seqNum = BitVec.ofNat 8 a) (hreset : m.has PO_COMM_FLAGS_RESET = false) (ha : base ≤ a) (ha' : a ≤ total sent)
    (hstep : c.ackArrived hal y m = (c', signals)) :
    ∃ results, Emitted x y sent a results c c' signals ∧
      results.Perm (((marks sent).take a).drop base |>.filterMap id) := by
  have hempty : ([] : List (Byte × Int)).Perm ((((marks sent).take base).drop base).filterMap id) := by
    rw [List.drop_eq_nil_of_le (by simp)]
    exact List.Perm.refl _
  cases hfind : c.findAddrInfo y with
  | none =>
      -- nothing has been sent to the peer
      have hbase : a = base := by
        by_contra hne
        obtain ⟨j, node, hj, -⟩ := hout.sent.slot (n := base + 1) ⟨by omega, by omega⟩
        rw [peer_of_absent hfind] at hj
        cases hj
      subst hbase
      unfold ackArrived at hstep
      rw [hfind] at hstep
      cases hstep
      exact ⟨[], .nothing h hout x, hempty⟩
  | some i =>
      obtain rfl | hlt := Nat.eq_or_lt_of_le ha
      · have hlar := hout.lastAckReceived
        rw [peer_of_findAddrInfo hfind] at hlar
        exact ⟨[], ackRepeated_spec x h hy hfind hout (hm.trans hlar.symm) hreset hstep, hempty⟩
      · exact ackAdvances_spec x h hy hfind hout hm hreset hlt ha' hstep

/-- A timer that is started again when it fires. -/
theorem msgTimerFired_spec {sqn : Byte} (x : AddrType) (h : c.Sound []) (hy : y ≠ FREE_ENTRY)
    (hout : Outgoing sent base (c.peer y)) (htimer : hal.setMsgTimer sqn = true)
    (hstep : c.msgTimerFired hal y sqn = (c', signals)) : Emitted x y sent base [] c c' signals := by
  unfold msgTimerFired at hstep
  cases hfind : c.findAddrInfo y with
  | none =>
      rw [hfind] at hstep
      cases hstep
      exact .nothing h hout x
  | some i =>
      rw [hfind] at hstep
      dsimp only at hstep
      cases hslot : c.sentSlot sqn (c.addrInfo i) with
      | none =>
          rw [hslot] at hstep
          cases hstep
          exact .nothing h hout x
      | some k =>
          rw [hslot] at hstep
          dsimp only at hstep
          rw [(sentSlot_eq_some hslot).2, if_pos htimer] at hstep
          split_ifs at hstep with hresends haccepts
          · cases hstep
            obtain ⟨hserves, hout', hsame, n, hn, his⟩ := resend_spec h hy hfind hout hslot rfl
            refine ⟨hserves, hout', hsame, [_], emits_sendMsg x y _, fun m hm => ?_⟩
            rw [List.mem_singleton.mp hm]
            exact ⟨n, hn, his⟩
          · cases hstep
            obtain ⟨hserves, hout', hsame, -⟩ := resend_spec h hy hfind hout hslot rfl
            exact ⟨hserves, hout', hsame, [], emits_nothing x y, fun _ hm => by cases hm⟩
          · cases hstep
            exact ⟨.refl h y, hout, ⟨rfl, rfl, rfl, rfl⟩, [], ⟨fun z => by simp [Signal.datagram], rfl⟩, fun _ hm => by cases hm⟩

/-! ## Messages that are sent -/

/-- Places for the datagrams of a message. -/
theorem reserve_spec {k : Nat} {buf : Slot → Option NodeIndex} {places : Option (List (NodeIndex × Slot))}
    (h : d.Sound i taken) (hreserve : reserve k buf d.comm = (places, c')) :
    Draft.Sound i taken ⟨c', d.info⟩ ∧ Draft.Keeps i d ⟨c', d.info⟩ ∧ Draft.peer ⟨c', d.info⟩ = d.peer ∧
      c'.addrInfo = d.comm.addrInfo ∧ ∀ l, places = some l → Draft.Sound i (l.map Prod.fst ++ taken) ⟨c', d.info⟩ ∧ l.length = k ∧
        (l.map Prod.snd).Nodup ∧ ∀ j ∈ l.map Prod.snd, buf j = none := by
  induction k generalizing d buf taken places with
  | zero =>
      cases hreserve
      refine ⟨h, Draft.Keeps.refl i d, rfl, rfl, fun l hl => ?_⟩
      cases hl
      exact ⟨h, rfl, List.nodup_nil, fun j hj => by cases hj⟩
  | succ k ih =>
      unfold reserve at hreserve
      cases hget : d.comm.getMsgNode with
      | none =>
          rw [hget] at hreserve
          cases hreserve
          exact ⟨h, Draft.Keeps.refl i d, rfl, rfl, fun l hl => by cases hl⟩
      | some found =>
          obtain ⟨n, c₁⟩ := found
          rw [hget] at hreserve
          obtain ⟨hsound₁, hkeeps₁, hpeer₁⟩ := Draft.getMsgNode_spec h hget
          have hentries₁ : c₁.addrInfo = d.comm.addrInfo := by
            simp only [getMsgNode, Option.map_eq_some_iff, Prod.mk.injEq, Prod.exists] at hget
            obtain ⟨_, _, -, -, rfl⟩ := hget
            rfl
          dsimp only at hreserve
          cases hslot : freeSlot buf with
          | none =>
              rw [hslot] at hreserve
              cases hreserve
              exact ⟨hsound₁.forget (List.sublist_cons_self n taken), hkeeps₁, hpeer₁, hentries₁,
                fun l hl => by cases hl⟩
          | some j =>
              rw [hslot] at hreserve
              dsimp only at hreserve
              cases hrest : reserve k (Function.update buf j (some ⟨0, by decide⟩)) c₁ with
              | mk rest c₂ =>
                  rw [hrest] at hreserve
                  cases hreserve
                  obtain ⟨hsound₂, hkeeps₂, hpeer₂, hentries₂, hplaces⟩ := ih hsound₁ hrest
                  refine ⟨hsound₂.forget (List.sublist_cons_self n taken), hkeeps₁.trans hkeeps₂, hpeer₂.trans hpeer₁,
                    hentries₂.trans hentries₁, fun l hl => ?_⟩
                  obtain ⟨l', rfl, rfl⟩ := Option.map_eq_some_iff.mp hl
                  obtain ⟨hsound, hlen, hnodup, hfree⟩ := hplaces l' rfl
                  -- the slot has been marked as used, so the rest of the places are other ones
                  have hother : ∀ j' ∈ l'.map Prod.snd, j' ≠ j ∧ buf j' = none := fun j' hj' => by
                    have hnone := hfree j' hj'
                    by_cases heq : j' = j
                    · subst heq
                      simp at hnone
                    · exact ⟨heq, by rwa [Function.update_of_ne heq] at hnone⟩
                  refine ⟨hsound.perm List.perm_middle, by simp [hlen], ?_, fun j' hj' => ?_⟩
                  · rw [List.map_cons, List.nodup_cons]
                    exact ⟨fun hmem => (hother j hmem).1 rfl, hnodup⟩
                  · rw [List.map_cons, List.mem_cons] at hj'
                    obtain rfl | hj' := hj'
                    · exact Draft.freeSlot_spec hslot
                    · exact (hother j' hj').2

/-- One datagram and more. -/
theorem Emits.cons {ms : List PoRadioMsg} {results : List (Byte × Int)} (h : Emits x y ms results signals) (m : PoRadioMsg) :
    Emits x y (m :: ms) results (.sendMsg y m :: signals) := by
  refine ⟨fun z => ?_, ?_⟩
  · rw [List.filterMap_cons, h.datagrams z]
    by_cases hz : z = y
    · simp [Signal.datagram, hz]
    · simp [Signal.datagram, hz, Ne.symm hz]
  · rw [List.filterMap_cons, h.events]
    rfl

/-- The datagrams of a message, from the `t`-th on. -/
theorem sendLoop_spec {places : List (NodeIndex × Slot)} {t : Nat} {retries : Int} (x : AddrType)
    (h : d.Sound i (places.map Prod.fst ++ taken)) (hlen : t + places.length = s.pieces)
    (hnodup : (places.map Prod.snd).Nodup) (hfree : ∀ j ∈ places.map Prod.snd, d.info.sentMsgBuf j = none)
    (hlms : d.info.lastMsgSent = BitVec.ofNat 8 (total sent + t)) (hreset : d.info.resetFlag = false)
    (hbase : base ≤ total sent) (hwindow : total sent + s.pieces ≤ base + PO_COMM_WINDOW_SIZE)
    (hN : Numbered (Unacked (sent ++ [s])) (fun n => base < n ∧ n ≤ total sent + t) d.peer.sent)
    (hloop : sendLoop hal s.id y s.msg retries s.msgId s.pieces t places d = (signals, d')) :
    d'.Sound i taken ∧ Draft.Keeps i d d' ∧ d.peer.SameIn d'.peer ∧
      d'.peer.lastMsgSent = BitVec.ofNat 8 (total sent + s.pieces) ∧ d'.peer.lastAckReceived = d.peer.lastAckReceived ∧
      Numbered (Unacked (sent ++ [s])) (fun n => base < n ∧ n ≤ total sent + s.pieces) d'.peer.sent ∧
      ∃ ms, Emits x y ms [] signals ∧ ∀ m ∈ ms, ∃ n, base < n ∧ Is (sent ++ [s]) n m := by
  -- one datagram for each place; `t` of them have been written
  induction places generalizing t d signals with
  | nil =>
      cases hloop
      rw [List.length_nil, Nat.add_zero] at hlen
      subst hlen
      exact ⟨h, Draft.Keeps.refl i _, ⟨rfl, rfl, rfl, rfl⟩, hlms, rfl, hN, [], emits_nothing x y, fun _ hm => by cases hm⟩
  | cons place places ih =>
      obtain ⟨n, j⟩ := place
      rw [List.length_cons] at hlen
      rw [List.map_cons, List.nodup_cons] at hnodup
      have hwin : total sent + s.pieces ≤ base + 20 := hwindow
      have hat : At (sent ++ [s]) (total sent + t + 1) s t := ⟨sent, [], by simp, rfl, by omega⟩
      unfold sendLoop at hloop
      have hm : fragmentMsg s.id (d.info.lastMsgSent + 1) d.info.resetFlag s.msg s.pieces t =
          s.datagram (total sent + t + 1) t := by
        rw [hlms, hreset, ← seq_succ]
        rfl
      rw [hm] at hloop
      dsimp only at hloop
      generalize hnode : MsgNode.mk (s.datagram (total sent + t + 1) t) _ _ = node at hloop
      have hun : Unacked (sent ++ [s]) (total sent + t + 1) node := ⟨s, t, hat, by rw [← hnode], by rw [← hnode]⟩
      generalize hd₁ : Draft.mk (d.comm.writeMsgNode n node) _ = d₁ at hloop
      have hcomm₁ : d₁.comm = d.comm.writeMsgNode n node := by rw [← hd₁]
      have hinfo₁ : d₁.info = { d.info with
          resetFlag := false
          lastMsgSent := d.info.lastMsgSent + 1
          sentMsgBuf := Function.update d.info.sentMsgBuf j (some n) } := by rw [← hd₁]
      have hnone : d.info.sentMsgBuf j = none := hfree j (by simp)
      obtain ⟨hsound₁, hkeeps₁, hfragm₁, hsent₁, hrecv₁⟩ := Draft.putMsgNode_spec h
        (by simp [Draft.msgHold_whole, hnone] : (d.whole i).msgHold (i, true, j) = none) hcomm₁ (by rw [hinfo₁])
        (by rw [hinfo₁]) (Draft.sentHold_update (fun _ => by rw [hcomm₁]; rfl) (by rw [hinfo₁]) (by rw [hinfo₁]))
      have hlms₁ : d₁.info.lastMsgSent = BitVec.ofNat 8 (total sent + (t + 1)) := by
        rw [hinfo₁, ← Nat.add_assoc, seq_succ, ← hlms]
      have hN₁ : Numbered (Unacked (sent ++ [s])) (fun n => base < n ∧ n ≤ total sent + (t + 1)) d₁.peer.sent := by
        rw [hsent₁, if_pos rfl]
        refine (hN.insert (by simp [Draft.peer, AddrInfo.peer, hnone]) hun fun k b hk hb hnb => ?_).congr fun n => by omega
        have heq := (seq_eq_iff (by omega) (by omega)).mp (hb.is.seqNum.symm.trans hnb.is.seqNum)
        omega
      have hsame₁ : d.peer.SameIn d₁.peer := by
        refine ⟨?_, ?_, hrecv₁, hfragm₁⟩
        · show d₁.info.lastAckSent = d.info.lastAckSent
          rw [hinfo₁]
        · show d₁.info.resetFlag = d.info.resetFlag
          rw [hinfo₁, hreset]
      have hlar₁ : d₁.peer.lastAckReceived = d.peer.lastAckReceived := by
        show d₁.info.lastAckReceived = d.info.lastAckReceived
        rw [hinfo₁]
      cases hrest : sendLoop hal s.id y s.msg retries s.msgId s.pieces (t + 1) places d₁ with
      | mk signals₁ d₂ =>
          rw [hrest] at hloop
          cases hloop
          obtain ⟨hsound, hkeeps, hsame, hlast, hlar, hN', ms, hemits, hms⟩ := ih hsound₁ (by omega) hnodup.2
            (fun j' hj' => by
              have hne : j' ≠ j := fun heq => hnodup.1 (heq ▸ hj')
              rw [hinfo₁]
              exact (Function.update_of_ne hne _ _).trans (hfree j' (List.mem_cons_of_mem _ hj')))
            hlms₁ (by rw [hinfo₁]) hN₁ hrest
          refine ⟨hsound, hkeeps₁.trans hkeeps, hsame₁.trans hsame, hlast, hlar.trans hlar₁, hN', ?_⟩
          split_ifs
          · refine ⟨_, hemits.cons _, fun m hm => ?_⟩
            obtain rfl | hm := List.mem_cons.mp hm
            · exact ⟨total sent + t + 1, by omega, s, t, hat, rfl⟩
            · exact hms m hm
          · exact ⟨ms, hemits, hms⟩

/-- It is enough to know what is kept of every peer before. -/
theorem Serves.congr {c₁ : PoCommM} (h : Serves y c₁ c') (hpeers : ∀ z ≠ FREE_ENTRY, c₁.peer z = c.peer z)
    (hmyAddr : c₁.myAddr = c.myAddr) : Serves y c c' :=
  ⟨h.sound, fun z hz hzy => (h.others z hz hzy).trans (hpeers z hz), h.myAddr.trans hmyAddr⟩

/-- The window has room for the datagrams of a message. -/
theorem numFragmentsOf_eq_some {info : AddrInfo} {k : Nat} (h : numFragmentsOf s.msg.data.length info = some k)
    (hroom : (info.lastMsgSent - info.lastAckReceived).toNat < PO_COMM_WINDOW_SIZE) :
    k = s.pieces ∧ (info.lastMsgSent - info.lastAckReceived).toNat + k ≤ PO_COMM_WINDOW_SIZE := by
  unfold numFragmentsOf at h
  unfold Sent.pieces
  dsimp only at h
  split_ifs at h with hlen hsum hle <;> simp only [Option.some.injEq] at h <;> split_ifs <;> omega

/-- The same for what is sent. -/
theorem Emitted.congr {c₁ : PoCommM} {results : List (Byte × Int)} (h : Emitted x y sent base results c₁ c' signals)
    (hy : y ≠ FREE_ENTRY) (hpeers : ∀ z ≠ FREE_ENTRY, c₁.peer z = c.peer z) (hmyAddr : c₁.myAddr = c.myAddr) :
    Emitted x y sent base results c c' signals := by
  refine ⟨h.serves.congr hpeers hmyAddr, h.outgoing, ?_, h.emits⟩
  rw [← hpeers y hy]
  exact h.sameIn

/-- A message that has been given its places is sent. -/
theorem accepted_spec {c₁ : PoCommM} {places : List (NodeIndex × Slot)} {retries : Int} (x : AddrType) (hy : y ≠ FREE_ENTRY)
    (hfind : c.findAddrInfo y = some i) (hout : Outgoing sent base (c.peer y)) (hreset : (c.peer y).resetFlag = false)
    (hsound : Draft.Sound i (places.map Prod.fst ++ []) ⟨c₁, c.addrInfo i⟩)
    (hkeeps : Draft.Keeps i ⟨c, c.addrInfo i⟩ ⟨c₁, c.addrInfo i⟩) (hpeer : Draft.peer ⟨c₁, c.addrInfo i⟩ = c.peer y)
    (hlen : places.length = s.pieces) (hnodup : (places.map Prod.snd).Nodup)
    (hfree : ∀ j ∈ places.map Prod.snd, (c.addrInfo i).sentMsgBuf j = none)
    (hroom : total sent + s.pieces ≤ base + PO_COMM_WINDOW_SIZE)
    (hloop : sendLoop hal s.id y s.msg retries s.msgId s.pieces 0 places ⟨c₁, c.addrInfo i⟩ = (signals, d')) :
    Emitted x y (sent ++ [s]) base [] c (d'.comm.setAddrInfo i d'.info) signals := by
  have hle := hout.le
  have hlms : (c.addrInfo i).lastMsgSent = BitVec.ofNat 8 (total sent) := by
    have hlms := hout.lastMsgSent
    rwa [← hpeer] at hlms
  have htotal : total (sent ++ [s]) = total sent + s.pieces := by simp
  obtain ⟨hsound', hkeeps', hsame, hlast, hlar, hN, hemits⟩ := sendLoop_spec (t := 0) x hsound
    (by rw [hlen, Nat.zero_add]) hnodup hfree hlms (by rw [← hpeer] at hreset; exact hreset) hle hroom
    (by
      rw [hpeer]
      exact hout.sent.congr_rel fun n node hn => unacked_append_iff hn.2) hloop
  obtain ⟨hserves, hwritten⟩ := (hkeeps.trans hkeeps').serves hy hfind hsound'
  rw [hpeer] at hsame hlar
  refine ⟨hserves, ?_, ?_, hemits⟩
  · show Outgoing _ base ((d'.whole i).peer y)
    rw [hwritten]
    refine ⟨by rw [htotal]; exact hlast, hlar.trans hout.lastAckReceived, by omega, by rwa [htotal], ?_⟩
    rwa [htotal]
  · show (c.peer y).SameIn ((d'.whole i).peer y)
    rw [hwritten]
    exact hsame

/-- **A message that is sent**: it is accepted if there is room for all of its
datagrams, and otherwise nothing is sent of it. -/
theorem sendMsg_spec {id msgId : Byte} {msg : PoMsg} {retries code : Int} (x : AddrType) (h : c.Sound [])
    (hy : y ≠ FREE_ENTRY) (hne : y ≠ c.myAddr) (hout : Outgoing sent base (c.peer y)) (hreset : (c.peer y).resetFlag = false)
    (hstep : c.sendMsg hal id y msg retries = some ((code, msgId), c', signals)) :
    Emitted x y (sent ++ if code = PO_COMM_OK then [⟨id, msgId, msg⟩] else []) base [] c c' signals := by
  have hrefused : ∀ {c : PoCommM} {code : Int}, code ≠ PO_COMM_OK → c.Sound [] → Outgoing sent base (c.peer y) →
      Emitted x y (sent ++ if code = PO_COMM_OK then [⟨id, msgId, msg⟩] else []) base [] c c [] :=
    fun {c code} hcode hsound hout => by
      rw [if_neg hcode, List.append_nil]
      exact .nothing hsound hout x
  unfold sendMsg at hstep
  split_ifs at hstep with hstarted
  · cases hstep
    exact hrefused (by decide) h hout
  · cases hget : c.getAddrInfo y with
    | none =>
        rw [hget] at hstep
        cases hstep
    | some found =>
        obtain ⟨i, c₁⟩ := found
        obtain ⟨hsound₁, hfind, hpeers₁, hmyAddr₁⟩ := h.getAddrInfo hy hget
        refine Emitted.congr ?_ hy hpeers₁ hmyAddr₁
        rw [← hpeers₁ y hy] at hout hreset
        obtain ⟨hdraft, hpeer⟩ := Draft.sound_self hsound₁ hy hfind
        rw [hget] at hstep
        dsimp only at hstep
        -- how full the window is, on bytes as on naturals
        have hdiff : ((c₁.addrInfo i).lastMsgSent - (c₁.addrInfo i).lastAckReceived).toNat = total sent - base := by
          have hwindow : total sent ≤ base + 20 := hout.window
          have hlms := hout.lastMsgSent
          have hlar := hout.lastAckReceived
          rw [← hpeer] at hlms hlar
          change (c₁.addrInfo i).lastMsgSent = _ at hlms
          change (c₁.addrInfo i).lastAckReceived = _ at hlar
          rw [hlms, hlar, toNat_seq_sub hout.le (by omega)]
        split_ifs at hstep with hroom
        · cases hstep
          exact hrefused (by decide) hsound₁ hout
        · cases hnum : numFragmentsOf msg.data.length (c₁.addrInfo i) with
          | none =>
              rw [hnum] at hstep
              cases hstep
              exact hrefused (by decide) hsound₁ hout
          | some k =>
              rw [hnum] at hstep
              dsimp only at hstep
              cases hreserve : reserve k (c₁.addrInfo i).sentMsgBuf c₁ with
              | mk places c₂ =>
                  rw [hreserve] at hstep
                  obtain ⟨hsound₂, hkeeps₂, hpeer₂, hentries, hplaces⟩ := reserve_spec (d := ⟨c₁, c₁.addrInfo i⟩) hdraft hreserve
                  cases places with
                  | none =>
                      -- the nodes that have been found are lost
                      cases hstep
                      have hwhole : Draft.whole i ⟨c', c₁.addrInfo i⟩ = c' := by
                        rw [← hentries]
                        exact Draft.whole_self i c'
                      obtain ⟨hserves, hwritten⟩ := hkeeps₂.serves hy hfind hsound₂
                      rw [hwhole] at hserves hwritten
                      have hsame : c'.peer y = c₁.peer y := hwritten.trans (hpeer₂.trans hpeer)
                      refine Emitted.congr (hrefused (by decide) hserves.sound (by rwa [hsame])) hy (fun z hz => ?_)
                        hserves.myAddr
                      by_cases hzy : z = y
                      · rw [hzy, hsame]
                      · exact hserves.others z hz hzy
                  | some places =>
                      obtain ⟨hsound₃, hlen, hnodup, hfree⟩ := hplaces places rfl
                      dsimp only [takeMsgId] at hstep
                      generalize hc₃ : { c₂ with
                        nextMsgId := if c₂.nextMsgId + 1 = BitVec.ofNat 8 (ID_TABLE_SIZE - 1) then 0 else c₂.nextMsgId + 1 } = c₃ at hstep
                      have hsound₄ : Draft.Sound i (places.map Prod.fst ++ []) ⟨c₃, c₁.addrInfo i⟩ := by
                        rw [← hc₃]
                        exact hsound₃.of_owns rfl (fun _ _ => rfl) rfl hsound₃.whole.msgs hsound₃.whole.fragms
                      have hkeeps₄ : Draft.Keeps i ⟨c₁, c₁.addrInfo i⟩ ⟨c₃, c₁.addrInfo i⟩ := by
                        rw [← hc₃]
                        exact ⟨hkeeps₂.addr, hkeeps₂.others, hkeeps₂.peers, hkeeps₂.len, hkeeps₂.myAddr⟩
                      have hpeer₄ : Draft.peer ⟨c₃, c₁.addrInfo i⟩ = c₁.peer y := by
                        rw [← hpeer, ← hpeer₂, ← hc₃]
                        rfl
                      cases hloop : sendLoop hal id y msg retries c₂.nextMsgId k 0 places ⟨c₃, c₁.addrInfo i⟩ with
                      | mk signals₁ d' =>
                          rw [hloop] at hstep
                          cases hstep
                          obtain ⟨hk, hfits⟩ := numFragmentsOf_eq_some (s := ⟨id, c₂.nextMsgId, msg⟩) hnum (by omega)
                          subst hk
                          have hle := hout.le
                          rw [if_pos rfl]
                          exact accepted_spec x hy hfind hout hreset hsound₄ hkeeps₄ hpeer₄ hlen hnodup hfree (by omega) hloop

end Pobicos.Transport
