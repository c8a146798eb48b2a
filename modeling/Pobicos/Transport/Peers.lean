import Pobicos.Transport.Network

/-!
# Pobicos.Transport.Peers

What the module keeps of a peer, without the nodes that it is kept in.

No node is in two buffers or in a buffer and free (`Sound`), so that a `Peer`
with messages in its buffers says the same as the entry with its indexes, and
what is done for a peer does nothing to the others (`Keeps`).
-/

namespace Pobicos.Transport

open Octets Middleware NodePool

/-- What is kept of a peer. -/
@[ext]
structure Peer where
  lastAckReceived : Byte
  lastMsgSent : Byte
  lastMsgReceived : Byte
  lastAckSent : Byte
  resetFlag : Bool
  sent : Slot → Option MsgNode
  recv : Slot → Option MsgNode
  fragm : Slot → Option PoRadioMsg

/-- The entry with the nodes that its indexes are of. -/
def AddrInfo.peer (info : AddrInfo) (c : PoCommM) : Peer where
  lastAckReceived := info.lastAckReceived
  lastMsgSent := info.lastMsgSent
  lastMsgReceived := info.lastMsgReceived
  lastAckSent := info.lastAckSent
  resetFlag := info.resetFlag
  sent := fun j => (info.sentMsgBuf j).map c.msgNodes.val
  recv := fun j => (info.recvMsgBuf j).map c.msgNodes.val
  fragm := fun j => (info.fragmMsgBuf j).map c.fragmNodes.val

/-- What is kept of a peer for sending to it, and the last acknowledgement. -/
structure Peer.Same (p p' : Peer) : Prop where
  lastAckReceived : p'.lastAckReceived = p.lastAckReceived
  lastMsgSent : p'.lastMsgSent = p.lastMsgSent
  lastAckSent : p'.lastAckSent = p.lastAckSent
  resetFlag : p'.resetFlag = p.resetFlag
  sent : p'.sent = p.sent

theorem Peer.Same.refl (p : Peer) : p.Same p := ⟨rfl, rfl, rfl, rfl, rfl⟩

theorem Peer.Same.trans {p p' p'' : Peer} (h : p.Same p') (h' : p'.Same p'') : p.Same p'' :=
  ⟨h'.lastAckReceived.trans h.lastAckReceived, h'.lastMsgSent.trans h.lastMsgSent, h'.lastAckSent.trans h.lastAckSent,
    h'.resetFlag.trans h.resetFlag, h'.sent.trans h.sent⟩

namespace PoCommM

variable {c c' : PoCommM} {i : Fin MAX_NODES} {y : AddrType} {taken : List NodeIndex}

/-- The message node in a slot of a buffer of an entry: `true` is `sentMsgBuf`. -/
def msgHold (c : PoCommM) : Fin MAX_NODES × Bool × Slot → Option NodeIndex
  | (i, true, j) => (c.addrInfo i).sentMsgBuf j
  | (i, false, j) => (c.addrInfo i).recvMsgBuf j

/-- The fragment node in a slot of an entry's buffer. -/
def fragmHold (c : PoCommM) : Fin MAX_NODES × Slot → Option NodeIndex
  | (i, j) => (c.addrInfo i).fragmMsgBuf j

/-- The invariant of the tables, while the message nodes `taken` are handed out. -/
structure Sound (taken : List NodeIndex) (c : PoCommM) : Prop where
  msgs : ∃ free, Owns c.msgNodes c.msgHold taken free
  fragms : ∃ free, Owns c.fragmNodes c.fragmHold [] free
  unused : ∀ i : Fin MAX_NODES, c.addrInfoTableLen ≤ i → c.addrInfo i = .new FREE_ENTRY
  inUse : ∀ i : Fin MAX_NODES, i < c.addrInfoTableLen → (c.addrInfo i).addr ≠ FREE_ENTRY
  unique : ∀ i j : Fin MAX_NODES, i < c.addrInfoTableLen → j < c.addrInfoTableLen →
    (c.addrInfo i).addr = (c.addrInfo j).addr → i = j

/-- What is kept of the peer `y`; of one without an entry, what a new entry has. -/
def peer (c : PoCommM) (y : AddrType) : Peer :=
  match c.findAddrInfo y with
  | some i => (c.addrInfo i).peer c
  | none => (AddrInfo.new y).peer c

/-- The entry that is found has the address. -/
theorem addr_of_findAddrInfo (h : c.findAddrInfo y = some i) : (c.addrInfo i).addr = y := by
  have hfound := List.find?_some h
  simpa using hfound

/-- All entries are searched, the unused ones too. -/
theorem findAddrInfo_eq_none : c.findAddrInfo y = none ↔ ∀ i, (c.addrInfo i).addr ≠ y := by
  simp [findAddrInfo]

/-- An entry with an address is in use: the unused ones have `FREE_ENTRY`. -/
theorem Sound.lt_of_addr (h : Sound taken c) (hy : y ≠ FREE_ENTRY) (haddr : (c.addrInfo i).addr = y) :
    i < c.addrInfoTableLen := by
  by_contra hge
  rw [h.unused i (by omega)] at haddr
  exact hy haddr.symm

/-- **Every peer has one entry**, and it is found. -/
theorem Sound.findAddrInfo (h : Sound taken c) (hy : y ≠ FREE_ENTRY) (haddr : (c.addrInfo i).addr = y) :
    c.findAddrInfo y = some i := by
  cases hfind : c.findAddrInfo y with
  | none => exact absurd haddr (findAddrInfo_eq_none.mp hfind i)
  | some k =>
      have hk := addr_of_findAddrInfo hfind
      rw [h.unique k i (h.lt_of_addr hy hk) (h.lt_of_addr hy haddr) (hk.trans haddr.symm)]

/-- A peer with an entry. -/
theorem peer_of_findAddrInfo (h : c.findAddrInfo y = some i) : c.peer y = (c.addrInfo i).peer c := by
  rw [peer, h]

/-- One that has none yet. -/
theorem peer_of_absent (h : c.findAddrInfo y = none) : c.peer y = (AddrInfo.new y).peer c := by
  rw [peer, h]

/-- `c'` has one entry more than `c`. -/
structure Enters (y : AddrType) (i : Fin MAX_NODES) (c c' : PoCommM) : Prop where
  index : i.val = c.addrInfoTableLen
  addrInfo : ∀ k, c'.addrInfo k = if k = i then .new y else c.addrInfo k
  len : c'.addrInfoTableLen = c.addrInfoTableLen + 1
  msgNodes : c'.msgNodes = c.msgNodes
  fragmNodes : c'.fragmNodes = c.fragmNodes

/-- The entry of a new peer holds no nodes, so who holds which node is the same.
-/
theorem Enters.holds (h : Enters y i c c') (hs : Sound taken c) : c'.msgHold = c.msgHold ∧ c'.fragmHold = c.fragmHold := by
  have hold : c.addrInfo i = .new FREE_ENTRY := hs.unused i (by rw [h.index])
  constructor
  · funext ⟨k, b, j⟩
    by_cases hk : k = i
    · subst hk
      cases b <;> simp [msgHold, h.addrInfo, hold, AddrInfo.new]
    · cases b <;> simp [msgHold, h.addrInfo, hk]
  · funext ⟨k, j⟩
    by_cases hk : k = i
    · subst hk
      simp [fragmHold, h.addrInfo, hold, AddrInfo.new]
    · simp [fragmHold, h.addrInfo, hk]

/-- **A new entry** keeps the tables sound. -/
theorem Enters.sound (h : Enters y i c c') (hs : Sound taken c) (hy : y ≠ FREE_ENTRY) (hnew : ∀ k, (c.addrInfo k).addr ≠ y) :
    Sound taken c' := by
  have hindex := h.index
  have hlen := h.len
  obtain ⟨hmsg, hfragm⟩ := h.holds hs
  refine ⟨?_, ?_, fun k hk => ?_, fun k hk => ?_, fun k l hk hl => ?_⟩
  · rw [hmsg, h.msgNodes]
    exact hs.msgs
  · rw [hfragm, h.fragmNodes]
    exact hs.fragms
  · have hne : k ≠ i := by
      rintro rfl
      omega
    rw [h.addrInfo, if_neg hne]
    exact hs.unused k (by omega)
  · rw [h.addrInfo]
    split_ifs with hki
    · exact hy
    · exact hs.inUse k (by have := Fin.val_ne_of_ne hki; omega)
  · rw [h.addrInfo, h.addrInfo]
    split_ifs with hki hli hli
    · exact fun _ => hki.trans hli.symm
    · exact fun haddr => absurd haddr.symm (hnew l)
    · exact fun haddr => absurd haddr (hnew k)
    · have hk' := Fin.val_ne_of_ne hki
      have hl' := Fin.val_ne_of_ne hli
      exact hs.unique k l (by omega) (by omega)

/-- It changes what is kept of nobody; the new peer has been read as a new entry
before. -/
theorem Enters.peer (h : Enters y i c c') (hs : Sound taken c) (hs' : Sound taken c') (hy : y ≠ FREE_ENTRY)
    (hnew : ∀ k, (c.addrInfo k).addr ≠ y) : ∀ z ≠ FREE_ENTRY, c'.peer z = c.peer z := by
  intro z hz
  have hpeer : ∀ info : AddrInfo, info.peer c' = info.peer c := fun info => by
    rw [AddrInfo.peer, h.msgNodes, h.fragmNodes, AddrInfo.peer]
  by_cases hzy : z = y
  · subst hzy
    have hfind := hs'.findAddrInfo hy (by rw [h.addrInfo, if_pos rfl]; rfl : (c'.addrInfo i).addr = z)
    rw [peer_of_findAddrInfo hfind, peer_of_absent (findAddrInfo_eq_none.mpr hnew), h.addrInfo, if_pos rfl]
    exact hpeer _
  · cases hfind : c.findAddrInfo z with
    | none =>
        have hnone : c'.findAddrInfo z = none := findAddrInfo_eq_none.mpr fun k => by
          rw [h.addrInfo]
          split_ifs
          · exact fun heq => hzy heq.symm
          · exact findAddrInfo_eq_none.mp hfind k
        rw [peer_of_absent hfind, peer_of_absent hnone]
        exact hpeer _
    | some k =>
        have haddr := addr_of_findAddrInfo hfind
        have hki : k ≠ i := by
          rintro rfl
          rw [hs.unused k (by rw [h.index])] at haddr
          exact hz haddr.symm
        have hsame : c'.addrInfo k = c.addrInfo k := by rw [h.addrInfo, if_neg hki]
        rw [peer_of_findAddrInfo hfind, peer_of_findAddrInfo (hs'.findAddrInfo hz (by rw [hsame, haddr])), hsame]
        exact hpeer _

/-- **A new entry** has what a peer without one had already. -/
theorem Sound.getAddrInfo (h : Sound taken c) (hy : y ≠ FREE_ENTRY) (hget : c.getAddrInfo y = some (i, c')) :
    Sound taken c' ∧ c'.findAddrInfo y = some i ∧ (∀ z ≠ FREE_ENTRY, c'.peer z = c.peer z) ∧ c'.myAddr = c.myAddr := by
  unfold PoCommM.getAddrInfo at hget
  cases hfind : c.findAddrInfo y with
  | some k =>
      rw [hfind] at hget
      cases hget
      exact ⟨h, hfind, fun _ _ => rfl, rfl⟩
  | none =>
      rw [hfind] at hget
      dsimp only at hget
      split_ifs at hget with hlen
      simp only [Option.some.injEq, Prod.mk.injEq] at hget
      obtain ⟨hi, rfl⟩ := hget
      have hnew := findAddrInfo_eq_none.mp hfind
      have henters : Enters y i c { c.setAddrInfo i (.new y) with addrInfoTableLen := c.addrInfoTableLen + 1 } := by
        refine ⟨by rw [← hi], fun k => ?_, rfl, rfl, rfl⟩
        show Function.update c.addrInfo i (.new y) k = _
        rw [Function.update_apply]
      rw [hi]
      have hs := henters.sound h hy hnew
      refine ⟨hs, hs.findAddrInfo hy ?_, henters.peer h hs hy hnew, rfl⟩
      rw [henters.addrInfo, if_pos rfl]
      rfl

/-- The entry that has been written. -/
@[simp] theorem addrInfo_setAddrInfo (i : Fin MAX_NODES) (info : AddrInfo) (c : PoCommM) :
    (c.setAddrInfo i info).addrInfo i = info := Function.update_self ..

/-- The others. -/
theorem addrInfo_setAddrInfo_of_ne {k : Fin MAX_NODES} (h : k ≠ i) (info : AddrInfo) :
    (c.setAddrInfo i info).addrInfo k = c.addrInfo k := Function.update_of_ne h ..

end PoCommM

/-! ## Drafts -/

namespace Draft

open PoCommM

variable {i : Fin MAX_NODES} {d d' d'' : Draft} {j : Slot} {n : NodeIndex} {m : PoRadioMsg}
  {taken : List NodeIndex}

/-- The module with the entry written back. -/
def whole (i : Fin MAX_NODES) (d : Draft) : PoCommM := d.comm.setAddrInfo i d.info

/-- The same of a draft, with the entry that has not been written back. -/
def peer (d : Draft) : Peer := d.info.peer d.comm

/-- The draft's own entry is the one that it has copied. -/
@[simp] theorem addrInfo_whole (i : Fin MAX_NODES) (d : Draft) : (d.whole i).addrInfo i = d.info :=
  addrInfo_setAddrInfo i d.info d.comm

/-- The others are in the table. -/
theorem addrInfo_whole_of_ne {k : Fin MAX_NODES} (h : k ≠ i) : (d.whole i).addrInfo k = d.comm.addrInfo k :=
  addrInfo_setAddrInfo_of_ne h d.info

/-- The entry is in use, and the tables are sound when it is written back. -/
structure Sound (i : Fin MAX_NODES) (taken : List NodeIndex) (d : Draft) : Prop where
  whole : (d.whole i).Sound taken
  lt : i < d.comm.addrInfoTableLen

/-- What is done for the peer of an entry does nothing to the others. -/
structure Keeps (i : Fin MAX_NODES) (d d' : Draft) : Prop where
  addr : d'.info.addr = d.info.addr
  others : ∀ k ≠ i, d'.comm.addrInfo k = d.comm.addrInfo k
  peers : ∀ k ≠ i, (d.comm.addrInfo k).peer d'.comm = (d.comm.addrInfo k).peer d.comm
  len : d'.comm.addrInfoTableLen = d.comm.addrInfoTableLen
  myAddr : d'.comm.myAddr = d.comm.myAddr

theorem Keeps.refl (i : Fin MAX_NODES) (d : Draft) : Keeps i d d :=
  ⟨rfl, fun _ _ => rfl, fun _ _ => rfl, rfl, rfl⟩

/-- One thing after another for one peer. -/
theorem Keeps.trans (h : Keeps i d d') (h' : Keeps i d' d'') : Keeps i d d'' := by
  refine ⟨h'.addr.trans h.addr, fun k hk => (h'.others k hk).trans (h.others k hk), fun k hk => ?_,
    h'.len.trans h.len, h'.myAddr.trans h.myAddr⟩
  have hpeers := h'.peers k hk
  rw [h.others k hk] at hpeers
  exact hpeers.trans (h.peers k hk)

/-- Who holds which message node, with the entry of the draft. -/
theorem msgHold_whole (i : Fin MAX_NODES) (d : Draft) (k : Fin MAX_NODES) (b : Bool) (j : Slot) :
    (d.whole i).msgHold (k, b, j) =
      if k = i then (if b then d.info.sentMsgBuf j else d.info.recvMsgBuf j) else d.comm.msgHold (k, b, j) := by
  by_cases hk : k = i
  · subst hk
    cases b <;> simp [msgHold]
  · cases b <;> simp [msgHold, addrInfo_whole_of_ne hk, hk]

/-- Who holds which fragment node. -/
theorem fragmHold_whole (i : Fin MAX_NODES) (d : Draft) (k : Fin MAX_NODES) (j : Slot) :
    (d.whole i).fragmHold (k, j) = if k = i then d.info.fragmMsgBuf j else d.comm.fragmHold (k, j) := by
  by_cases hk : k = i
  · subst hk
    simp [fragmHold]
  · simp [fragmHold, addrInfo_whole_of_ne hk, hk]

/-- The messages that have been sent, as the holder of their nodes sees them. -/
theorem sent_eq_view (i : Fin MAX_NODES) (d : Draft) (j : Slot) :
    d.peer.sent j = view d.comm.msgNodes (d.whole i).msgHold (i, true, j) := by
  simp [view, msgHold_whole, peer, AddrInfo.peer]

/-- Those that wait to be received. -/
theorem recv_eq_view (i : Fin MAX_NODES) (d : Draft) (j : Slot) :
    d.peer.recv j = view d.comm.msgNodes (d.whole i).msgHold (i, false, j) := by
  simp [view, msgHold_whole, peer, AddrInfo.peer]

/-- The fragments. -/
theorem fragm_eq_view (i : Fin MAX_NODES) (d : Draft) (j : Slot) :
    d.peer.fragm j = view d.comm.fragmNodes (d.whole i).fragmHold (i, j) := by
  simp [view, fragmHold_whole, peer, AddrInfo.peer]

/-- The tables stay sound as long as the nodes do. -/
theorem Sound.of_owns {taken' : List NodeIndex} (h : d.Sound i taken) (haddr : d'.info.addr = d.info.addr)
    (hothers : ∀ k ≠ i, d'.comm.addrInfo k = d.comm.addrInfo k)
    (hlen : d'.comm.addrInfoTableLen = d.comm.addrInfoTableLen)
    (hmsgs : ∃ free, Owns d'.comm.msgNodes (d'.whole i).msgHold taken' free)
    (hfragms : ∃ free, Owns d'.comm.fragmNodes (d'.whole i).fragmHold [] free) : d'.Sound i taken' := by
  have hsame : ∀ k ≠ i, (d'.whole i).addrInfo k = (d.whole i).addrInfo k := fun k hk => by
    rw [addrInfo_whole_of_ne hk, hothers k hk, addrInfo_whole_of_ne hk]
  have haddrs : ∀ k, ((d'.whole i).addrInfo k).addr = ((d.whole i).addrInfo k).addr := fun k => by
    by_cases hk : k = i
    · subst hk
      simp [haddr]
    · rw [hsame k hk]
  have hlen' : (d'.whole i).addrInfoTableLen = (d.whole i).addrInfoTableLen := hlen
  refine ⟨⟨hmsgs, hfragms, fun k hk => ?_, fun k hk => ?_, fun k l hk hl => ?_⟩, ?_⟩
  · have hne : k ≠ i := by
      rintro rfl
      have hlt : k.val < d'.comm.addrInfoTableLen := by rw [hlen]; exact h.lt
      exact absurd hlt (Nat.not_lt.mpr hk)
    rw [hsame k hne]
    exact h.whole.unused k (hlen' ▸ hk)
  · rw [haddrs]
    exact h.whole.inUse k (hlen' ▸ hk)
  · rw [haddrs, haddrs]
    exact h.whole.unique k l (hlen' ▸ hk) (hlen' ▸ hl)
  · rw [hlen]
    exact h.lt

/-- Message nodes and one slot with one of them have changed. -/
theorem keeps_of_msgs {taken' : List NodeIndex} {b : Bool} {q : NodePool MsgNode MAX_BUFFERED_MSGS} {x : Option MsgNode}
    (h : d.Sound i taken) (hcomm : d'.comm = { d.comm with msgNodes := q }) (haddr : d'.info.addr = d.info.addr)
    (hfragm : d'.info.fragmMsgBuf = d.info.fragmMsgBuf) (howns : ∃ free, Owns q (d'.whole i).msgHold taken' free)
    (hview : view q (d'.whole i).msgHold = Function.update (view d.comm.msgNodes (d.whole i).msgHold) (i, b, j) x) :
    d'.Sound i taken' ∧ Keeps i d d' ∧ d'.peer.fragm = d.peer.fragm ∧
      d'.peer.sent = (if b then Function.update d.peer.sent j x else d.peer.sent) ∧
      d'.peer.recv = (if b then d.peer.recv else Function.update d.peer.recv j x) := by
  have hmsgs : d'.comm.msgNodes = q := by rw [hcomm]
  have hfragms : d'.comm.fragmNodes = d.comm.fragmNodes := by rw [hcomm]
  have hothers : ∀ k, d'.comm.addrInfo k = d.comm.addrInfo k := fun k => by rw [hcomm]
  have hfragmHold : (d'.whole i).fragmHold = (d.whole i).fragmHold := by
    funext ⟨k, j⟩
    rw [fragmHold_whole, fragmHold_whole, hfragm]
    simp [fragmHold, hothers]
  -- all that is seen of the nodes changes at one key: entry, buffer and slot
  have hview' : ∀ k c j', view q (d'.whole i).msgHold (k, c, j') =
      if (k, c, j') = (i, b, j) then x else view d.comm.msgNodes (d.whole i).msgHold (k, c, j') := fun k c j' => by
    rw [hview, Function.update_apply]
  refine ⟨h.of_owns haddr (fun k _ => hothers k) (by rw [hcomm]) (by rwa [hmsgs]) ?_,
    ⟨haddr, fun k _ => hothers k, fun k hk => ?_, by rw [hcomm], by rw [hcomm]⟩, ?_, ?_, ?_⟩
  · rw [hfragms, hfragmHold]
    exact h.whole.fragms
  · have hsame : ∀ c j', (d.comm.msgHold (k, c, j')).map d'.comm.msgNodes.val =
        (d.comm.msgHold (k, c, j')).map d.comm.msgNodes.val := fun c j' => by
      have hkey := hview' k c j'
      rw [view, view, msgHold_whole, msgHold_whole, if_neg hk, if_neg hk, if_neg (by simp [hk])] at hkey
      rw [hmsgs]
      have hhold : d'.comm.msgHold (k, c, j') = d.comm.msgHold (k, c, j') := by
        cases c <;> simp [msgHold, hothers]
      rwa [hhold] at hkey
    have hsent : ∀ j', ((d.comm.addrInfo k).sentMsgBuf j').map d'.comm.msgNodes.val = _ := hsame true
    have hrecv : ∀ j', ((d.comm.addrInfo k).recvMsgBuf j').map d'.comm.msgNodes.val = _ := hsame false
    simp only [AddrInfo.peer, hfragms, hsent, hrecv]
    rfl
  · simp only [peer, AddrInfo.peer, hfragms, hfragm]
  · funext j'
    rw [sent_eq_view i d', hmsgs, hview']
    cases b with
    | true => simp [Function.update_apply, sent_eq_view i d]
    | false =>
        rw [if_neg (by simp)]
        exact (sent_eq_view i d j').symm
  · funext j'
    rw [recv_eq_view i d', hmsgs, hview']
    cases b with
    | true =>
        rw [if_neg (by simp)]
        exact (recv_eq_view i d j').symm
    | false => simp [Function.update_apply, recv_eq_view i d]

/-- Fragment nodes and one slot with one of them have changed. -/
theorem keeps_of_fragms {q : NodePool PoRadioMsg MAX_BUFFERED_MSGS} {x : Option PoRadioMsg} (h : d.Sound i taken)
    (hcomm : d'.comm = { d.comm with fragmNodes := q }) (haddr : d'.info.addr = d.info.addr)
    (hsent : d'.info.sentMsgBuf = d.info.sentMsgBuf) (hrecv : d'.info.recvMsgBuf = d.info.recvMsgBuf)
    (howns : ∃ free, Owns q (d'.whole i).fragmHold [] free)
    (hview : view q (d'.whole i).fragmHold = Function.update (view d.comm.fragmNodes (d.whole i).fragmHold) (i, j) x) :
    d'.Sound i taken ∧ Keeps i d d' ∧ d'.peer.sent = d.peer.sent ∧ d'.peer.recv = d.peer.recv ∧
      d'.peer.fragm = Function.update d.peer.fragm j x := by
  have hfragms : d'.comm.fragmNodes = q := by rw [hcomm]
  have hmsgs : d'.comm.msgNodes = d.comm.msgNodes := by rw [hcomm]
  have hothers : ∀ k, d'.comm.addrInfo k = d.comm.addrInfo k := fun k => by rw [hcomm]
  have hmsgHold : (d'.whole i).msgHold = (d.whole i).msgHold := by
    funext ⟨k, b, j⟩
    rw [msgHold_whole, msgHold_whole, hsent, hrecv]
    cases b <;> simp [msgHold, hothers]
  have hview' : ∀ k j', view q (d'.whole i).fragmHold (k, j') =
      if (k, j') = (i, j) then x else view d.comm.fragmNodes (d.whole i).fragmHold (k, j') := fun k j' => by
    rw [hview, Function.update_apply]
  refine ⟨h.of_owns haddr (fun k _ => hothers k) (by rw [hcomm]) ?_ (by rwa [hfragms]),
    ⟨haddr, fun k _ => hothers k, fun k hk => ?_, by rw [hcomm], by rw [hcomm]⟩, ?_, ?_, ?_⟩
  · rw [hmsgs, hmsgHold]
    exact h.whole.msgs
  · have hsame : ∀ j', ((d.comm.addrInfo k).fragmMsgBuf j').map d'.comm.fragmNodes.val =
        ((d.comm.addrInfo k).fragmMsgBuf j').map d.comm.fragmNodes.val := fun j' => by
      have hkey := hview' k j'
      rw [view, view, fragmHold_whole, fragmHold_whole, if_neg hk, if_neg hk, if_neg (by simp [hk]), fragmHold, fragmHold,
        hothers] at hkey
      rwa [hfragms]
    simp only [AddrInfo.peer, hmsgs, hsame]
  · simp only [peer, AddrInfo.peer, hmsgs, hsent]
  · simp only [peer, AddrInfo.peer, hmsgs, hrecv]
  · funext j'
    rw [fragm_eq_view i d', hfragms, hview']
    simp [Function.update_apply, fragm_eq_view i d]

/-- Other fields of the entry. -/
theorem keeps_info (h : d.Sound i taken) {info : AddrInfo} (haddr : info.addr = d.info.addr)
    (hsent : info.sentMsgBuf = d.info.sentMsgBuf) (hrecv : info.recvMsgBuf = d.info.recvMsgBuf)
    (hfragm : info.fragmMsgBuf = d.info.fragmMsgBuf) :
    Sound i taken ⟨d.comm, info⟩ ∧ Keeps i d ⟨d.comm, info⟩ := by
  have hmsgHold : (whole i ⟨d.comm, info⟩).msgHold = (d.whole i).msgHold := by
    funext ⟨k, b, j⟩
    rw [msgHold_whole, msgHold_whole, hsent, hrecv]
  have hfragmHold : (whole i ⟨d.comm, info⟩).fragmHold = (d.whole i).fragmHold := by
    funext ⟨k, j⟩
    rw [fragmHold_whole, fragmHold_whole, hfragm]
  refine ⟨h.of_owns haddr (fun _ _ => rfl) rfl ?_ ?_, haddr, fun _ _ => rfl, fun _ _ => rfl, rfl, rfl⟩
  · rw [hmsgHold]
    exact h.whole.msgs
  · rw [hfragmHold]
    exact h.whole.fragms

/-- A slot that is free holds nothing. -/
theorem freeSlot_spec {buf : Slot → Option NodeIndex} (h : freeSlot buf = some j) : buf j = none := by
  have hfound := List.find?_some h
  simpa using hfound

/-- A slot of the fragment buffer is written, and no other one. -/
theorem fragmHold_update {x : Option NodeIndex} (hothers : ∀ k, d'.comm.addrInfo k = d.comm.addrInfo k)
    (hbuf : d'.info.fragmMsgBuf = Function.update d.info.fragmMsgBuf j x) :
    (d'.whole i).fragmHold = Function.update (d.whole i).fragmHold (i, j) x := by
  funext ⟨k, j'⟩
  rw [Function.update_apply, fragmHold_whole, fragmHold_whole, hbuf]
  by_cases hk : k = i
  · simp [hk, Function.update_apply]
  · simp [hk, fragmHold, hothers]

/-- A slot of the send buffer. -/
theorem sentHold_update {x : Option NodeIndex} (hothers : ∀ k, d'.comm.addrInfo k = d.comm.addrInfo k)
    (hbuf : d'.info.sentMsgBuf = Function.update d.info.sentMsgBuf j x)
    (hrecv : d'.info.recvMsgBuf = d.info.recvMsgBuf) :
    (d'.whole i).msgHold = Function.update (d.whole i).msgHold (i, true, j) x := by
  funext ⟨k, b, j'⟩
  rw [Function.update_apply, msgHold_whole, msgHold_whole, hbuf, hrecv]
  by_cases hk : k = i
  · cases b <;> simp [hk, Function.update_apply]
  · cases b <;> simp [hk, msgHold, hothers]

/-- A slot of the receive buffer. -/
theorem recvHold_update {x : Option NodeIndex} (hothers : ∀ k, d'.comm.addrInfo k = d.comm.addrInfo k)
    (hbuf : d'.info.recvMsgBuf = Function.update d.info.recvMsgBuf j x)
    (hsent : d'.info.sentMsgBuf = d.info.sentMsgBuf) :
    (d'.whole i).msgHold = Function.update (d.whole i).msgHold (i, false, j) x := by
  funext ⟨k, b, j'⟩
  rw [Function.update_apply, msgHold_whole, msgHold_whole, hbuf, hsent]
  by_cases hk : k = i
  · cases b <;> simp [hk, Function.update_apply]
  · cases b <;> simp [hk, msgHold, hothers]

/-! ## What the functions do for a peer -/

theorem addToFragmMsgBuf_spec (h : d.Sound i taken) (hadd : d.addToFragmMsgBuf m = some (j, d')) :
    d'.Sound i taken ∧ Keeps i d d' ∧ d.peer.fragm j = none ∧
      d'.peer = { d.peer with fragm := Function.update d.peer.fragm j (some m) } := by
  unfold addToFragmMsgBuf at hadd
  simp only [getFragmNode, Option.bind_eq_bind, Option.bind_eq_some_iff, Option.map_eq_some_iff, Prod.exists,
    Option.some.injEq, Prod.mk.injEq] at hadd
  obtain ⟨j, hslot, n, c, ⟨n, q, hget, rfl, rfl⟩, rfl, rfl⟩ := hadd
  have hnone := freeSlot_spec hslot
  obtain ⟨free, howns⟩ := h.whole.fragms
  obtain ⟨free', -, hval, hq⟩ := howns.get hget
  have hkey : (d.whole i).fragmHold (i, j) = none := by rw [fragmHold_whole, if_pos rfl, hnone]
  have hput := hq.put (i, j) m hkey
  have hview := hq.view_put (i, j) m
  have hsame : view q (d.whole i).fragmHold = view d.comm.fragmNodes (d.whole i).fragmHold := by
    unfold NodePool.view
    rw [hval]
    rfl
  rw [hsame] at hview
  generalize hd : Draft.mk _ _ = d'
  have hcomm : d'.comm = { d.comm with fragmNodes := q.put n m } := by rw [← hd]; rfl
  have hinfo : d'.info = { d.info with fragmMsgBuf := Function.update d.info.fragmMsgBuf j (some n) } := by rw [← hd]
  have hhold : (d'.whole i).fragmHold = Function.update (d.whole i).fragmHold (i, j) (some n) :=
    fragmHold_update (fun _ => by rw [hcomm]) (by rw [hinfo])
  rw [← hhold] at hput hview
  obtain ⟨hsound, hkeeps, hsent, hrecv, hfragm⟩ := keeps_of_fragms h hcomm (by rw [hinfo]) (by rw [hinfo])
    (by rw [hinfo]) ⟨free', hput⟩ hview
  have hpeer : ∀ f : AddrInfo → Byte, f d'.info = f d'.info := fun _ => rfl
  refine ⟨hsound, hkeeps, by simp [peer, AddrInfo.peer, hnone], ?_⟩
  apply Peer.ext
  all_goals first | exact hsent | exact hrecv | exact hfragm | simp [peer, AddrInfo.peer, hinfo]

/-- Nodes that have been handed out may be lost: they are in no list then. -/
theorem Sound.forget {taken' : List NodeIndex} (h : d.Sound i taken) (hsub : taken'.Sublist taken) : d.Sound i taken' := by
  obtain ⟨free, howns⟩ := h.whole.msgs
  exact h.of_owns rfl (fun _ _ => rfl) rfl ⟨free, howns.forget hsub⟩ h.whole.fragms

/-- Their order does not matter. -/
theorem Sound.perm {taken' : List NodeIndex} (h : d.Sound i taken) (hperm : taken.Perm taken') : d.Sound i taken' := by
  obtain ⟨free, howns⟩ := h.whole.msgs
  exact h.of_owns rfl (fun _ _ => rfl) rfl ⟨free, howns.perm hperm⟩ h.whole.fragms

/-- A message node is handed out. -/
theorem getMsgNode_spec {c : PoCommM} (h : d.Sound i taken) (hget : d.comm.getMsgNode = some (n, c)) :
    Sound i (n :: taken) ⟨c, d.info⟩ ∧ Keeps i d ⟨c, d.info⟩ ∧ peer ⟨c, d.info⟩ = d.peer := by
  simp only [getMsgNode, Option.map_eq_some_iff, Prod.mk.injEq, Prod.exists] at hget
  obtain ⟨k, q, hget, hk, rfl⟩ := hget
  rw [hk] at hget
  obtain ⟨free, howns⟩ := h.whole.msgs
  obtain ⟨free', -, hval, hq⟩ := howns.get hget
  have hval : q.val = d.comm.msgNodes.val := hval
  have hsound : Sound i (n :: taken) ⟨{ d.comm with msgNodes := q }, d.info⟩ :=
    h.of_owns rfl (fun _ _ => rfl) rfl ⟨free', hq⟩ h.whole.fragms
  have hpeer : ∀ info : AddrInfo, info.peer { d.comm with msgNodes := q } = info.peer d.comm := fun info => by
    simp only [AddrInfo.peer, hval]
  exact ⟨hsound, ⟨rfl, fun _ _ => rfl, fun k _ => hpeer _, rfl, rfl⟩, hpeer d.info⟩

/-- A message node that has been handed out is written and put into a slot. -/
theorem putMsgNode_spec {b : Bool} {node : MsgNode} (h : d.Sound i (n :: taken))
    (hnone : (d.whole i).msgHold (i, b, j) = none) (hcomm : d'.comm = d.comm.writeMsgNode n node)
    (haddr : d'.info.addr = d.info.addr) (hfragm : d'.info.fragmMsgBuf = d.info.fragmMsgBuf)
    (hhold : (d'.whole i).msgHold = Function.update (d.whole i).msgHold (i, b, j) (some n)) :
    d'.Sound i taken ∧ Keeps i d d' ∧ d'.peer.fragm = d.peer.fragm ∧
      d'.peer.sent = (if b then Function.update d.peer.sent j (some node) else d.peer.sent) ∧
      d'.peer.recv = (if b then d.peer.recv else Function.update d.peer.recv j (some node)) := by
  obtain ⟨free, howns⟩ := h.whole.msgs
  have hput := howns.put (i, b, j) node hnone
  have hview := howns.view_put (i, b, j) node
  rw [← hhold] at hput hview
  exact keeps_of_msgs h hcomm haddr hfragm ⟨free, hput⟩ hview

/-- The message node of a slot is given back. -/
theorem freeMsgNode_spec {b : Bool} (h : d.Sound i taken) (hnode : (d.whole i).msgHold (i, b, j) = some n)
    (hcomm : d'.comm = d.comm.freeMsgNode n) (haddr : d'.info.addr = d.info.addr)
    (hfragm : d'.info.fragmMsgBuf = d.info.fragmMsgBuf)
    (hhold : (d'.whole i).msgHold = Function.update (d.whole i).msgHold (i, b, j) none) :
    d'.Sound i taken ∧ Keeps i d d' ∧ d'.peer.fragm = d.peer.fragm ∧
      d'.peer.sent = (if b then Function.update d.peer.sent j none else d.peer.sent) ∧
      d'.peer.recv = (if b then d.peer.recv else Function.update d.peer.recv j none) := by
  obtain ⟨free, howns⟩ := h.whole.msgs
  have hrelease := howns.release hnode
  have hview := view_release d.comm.msgNodes (d.whole i).msgHold (i, b, j) n
  rw [← hhold] at hrelease hview
  exact keeps_of_msgs h hcomm haddr hfragm ⟨_, hrelease⟩ hview

/-- **A datagram that is put into the receive buffer** is in a slot that was
free. -/
theorem addToRecvMsgBuf_spec (h : d.Sound i taken) (hadd : d.addToRecvMsgBuf m = some d') :
    d'.Sound i taken ∧ Keeps i d d' ∧ ∃ j, d.peer.recv j = none ∧
      d'.peer = { d.peer with
        recv := Function.update d.peer.recv j (some ⟨m, 0, 0⟩)
        lastMsgReceived := d'.info.lastMsgReceived } := by
  unfold addToRecvMsgBuf at hadd
  simp only [Option.bind_eq_bind, Option.bind_eq_some_iff, Prod.exists, Option.some.injEq] at hadd
  obtain ⟨j, hslot, n, c, hget, hd⟩ := hadd
  have hnone := freeSlot_spec hslot
  obtain ⟨hsound, hkeeps, hpeer⟩ := getMsgNode_spec h hget
  have hinfo : d'.info = { d.info with
      recvMsgBuf := Function.update d.info.recvMsgBuf j (some n)
      lastMsgReceived := d'.info.lastMsgReceived } := by rw [← hd]
  have hcomm : d'.comm = c.writeMsgNode n ⟨m, 0, 0⟩ := by rw [← hd]
  obtain ⟨hsound', hkeeps', hfragm, hsent, hrecv⟩ := putMsgNode_spec hsound
    (by simp [msgHold_whole, hnone] : (whole i ⟨c, d.info⟩).msgHold (i, false, j) = none) hcomm (by rw [hinfo])
    (by rw [hinfo])
    (recvHold_update (fun _ => by rw [hcomm]; rfl) (by rw [hinfo]) (by rw [hinfo]))
  rw [hpeer] at hfragm hsent hrecv
  refine ⟨hsound', hkeeps.trans hkeeps', j, by simp [peer, AddrInfo.peer, hnone], ?_⟩
  apply Peer.ext
  all_goals first | exact hsent | exact hrecv | exact hfragm | rfl | (simp only [peer, AddrInfo.peer]; rw [hinfo])

/-- **A node is given back** from the receive buffer: the slot is free, and
nothing else has changed. -/
theorem freeRecv_spec (h : d.Sound i taken) (hnode : d.info.recvMsgBuf j = some n) :
    (d.freeRecv j n).Sound i taken ∧ Keeps i d (d.freeRecv j n) ∧
      (d.freeRecv j n).peer = { d.peer with recv := Function.update d.peer.recv j none } := by
  obtain ⟨hsound, hkeeps, hfragm, hsent, hrecv⟩ := freeMsgNode_spec h
    (by simp [msgHold_whole, hnode] : (d.whole i).msgHold (i, false, j) = some n) (rfl : (d.freeRecv j n).comm = _)
    rfl rfl (recvHold_update (fun _ => rfl) rfl rfl)
  refine ⟨hsound, hkeeps, ?_⟩
  apply Peer.ext
  all_goals first | exact hsent | exact hrecv | exact hfragm | rfl

/-- From the send buffer. -/
theorem freeSent_spec (h : d.Sound i taken) (hnode : d.info.sentMsgBuf j = some n) :
    (d.freeSent j n).Sound i taken ∧ Keeps i d (d.freeSent j n) ∧
      (d.freeSent j n).peer = { d.peer with sent := Function.update d.peer.sent j none } := by
  obtain ⟨hsound, hkeeps, hfragm, hsent, hrecv⟩ := freeMsgNode_spec h
    (by simp [msgHold_whole, hnode] : (d.whole i).msgHold (i, true, j) = some n) (rfl : (d.freeSent j n).comm = _)
    rfl rfl (sentHold_update (fun _ => rfl) rfl rfl)
  refine ⟨hsound, hkeeps, ?_⟩
  apply Peer.ext
  all_goals first | exact hsent | exact hrecv | exact hfragm | rfl

/-- From the fragment buffer. -/
theorem freeFragm_spec (h : d.Sound i taken) (hnode : d.info.fragmMsgBuf j = some n) :
    (d.freeFragm j n).Sound i taken ∧ Keeps i d (d.freeFragm j n) ∧
      (d.freeFragm j n).peer = { d.peer with fragm := Function.update d.peer.fragm j none } := by
  obtain ⟨free, howns⟩ := h.whole.fragms
  have hrelease := howns.release (by simp [fragmHold_whole, hnode] : (d.whole i).fragmHold (i, j) = some n)
  have hview := view_release d.comm.fragmNodes (d.whole i).fragmHold (i, j) n
  have hhold : ((d.freeFragm j n).whole i).fragmHold = Function.update (d.whole i).fragmHold (i, j) none :=
    fragmHold_update (fun _ => rfl) rfl
  rw [← hhold] at hrelease hview
  obtain ⟨hsound, hkeeps, hsent, hrecv, hfragm⟩ := keeps_of_fragms h (rfl : (d.freeFragm j n).comm = _) rfl rfl rfl
    ⟨_, hrelease⟩ hview
  refine ⟨hsound, hkeeps, ?_⟩
  apply Peer.ext
  all_goals first | exact hsent | exact hrecv | exact hfragm | rfl

/-- The message node of a sent datagram is written again. -/
theorem rewriteSent_spec (h : d.Sound i taken) (hnode : d.info.sentMsgBuf j = some n) (node : MsgNode) :
    Sound i taken ⟨d.comm.writeMsgNode n node, d.info⟩ ∧ Keeps i d ⟨d.comm.writeMsgNode n node, d.info⟩ ∧
      peer ⟨d.comm.writeMsgNode n node, d.info⟩ = { d.peer with sent := Function.update d.peer.sent j (some node) } := by
  obtain ⟨free, howns⟩ := h.whole.msgs
  have hkey : (d.whole i).msgHold (i, true, j) = some n := by simp [msgHold_whole, hnode]
  have hwrite := howns.rewrite hkey node
  have hview := howns.view_rewrite hkey node
  obtain ⟨hsound, hkeeps, hfragm, hsent, hrecv⟩ := keeps_of_msgs h
    (rfl : (Draft.mk (d.comm.writeMsgNode n node) d.info).comm = _) rfl rfl ⟨free, hwrite⟩ hview
  refine ⟨hsound, hkeeps, ?_⟩
  apply Peer.ext
  all_goals first | exact hsent | exact hrecv | exact hfragm | rfl

/-! ## From the module to a draft and back -/

theorem whole_self (i : Fin MAX_NODES) (c : PoCommM) : whole i ⟨c, c.addrInfo i⟩ = c := by
  simp [whole, setAddrInfo]

/-- An entry is a draft of itself. -/
theorem sound_self {c : PoCommM} {y : AddrType} (h : c.Sound taken) (hy : y ≠ FREE_ENTRY)
    (hfind : c.findAddrInfo y = some i) :
    Sound i taken ⟨c, c.addrInfo i⟩ ∧ peer ⟨c, c.addrInfo i⟩ = c.peer y := by
  refine ⟨⟨by rwa [whole_self], h.lt_of_addr hy (addr_of_findAddrInfo hfind)⟩, ?_⟩
  rw [peer_of_findAddrInfo hfind]
  rfl

/-- **What is done for a peer** is what the module keeps of it afterwards, and of
the others it keeps what it kept. -/
theorem Keeps.written {c : PoCommM} {y : AddrType} {taken' : List NodeIndex} (hkeeps : Keeps i ⟨c, c.addrInfo i⟩ d')
    (hy : y ≠ FREE_ENTRY) (hfind : c.findAddrInfo y = some i) (h' : d'.Sound i taken') :
    (d'.whole i).peer y = d'.peer ∧ (∀ z ≠ FREE_ENTRY, z ≠ y → (d'.whole i).peer z = c.peer z) ∧
      (d'.whole i).myAddr = c.myAddr := by
  have hpeer : ∀ info : AddrInfo, info.peer (d'.whole i) = info.peer d'.comm := fun _ => rfl
  have haddr : d'.info.addr = y := hkeeps.addr.trans (addr_of_findAddrInfo hfind)
  refine ⟨?_, fun z hz hzy => ?_, hkeeps.myAddr⟩
  · rw [peer_of_findAddrInfo (h'.whole.findAddrInfo hy (by rw [addrInfo_whole, haddr])), addrInfo_whole]
    rfl
  · cases hfindz : c.findAddrInfo z with
    | none =>
        have hnone : (d'.whole i).findAddrInfo z = none := findAddrInfo_eq_none.mpr fun k => by
          by_cases hk : k = i
          · subst hk
            rw [addrInfo_whole, haddr]
            exact fun heq => hzy heq.symm
          · rw [addrInfo_whole_of_ne hk, hkeeps.others k hk]
            exact findAddrInfo_eq_none.mp hfindz k
        rw [peer_of_absent hfindz, peer_of_absent hnone]
        rfl
    | some k =>
        have hzk := addr_of_findAddrInfo hfindz
        have hk : k ≠ i := by
          rintro rfl
          exact hzy (hzk.symm.trans (addr_of_findAddrInfo hfind))
        have hsame : (d'.whole i).addrInfo k = c.addrInfo k := by rw [addrInfo_whole_of_ne hk, hkeeps.others k hk]
        rw [peer_of_findAddrInfo hfindz, peer_of_findAddrInfo (h'.whole.findAddrInfo hz (by rw [hsame, hzk])), hsame,
          hpeer]
        exact hkeeps.peers k hk

end Draft

namespace PoCommM

/-- The tables of a node that has just joined are sound: all nodes are free, all
entries unused. -/
theorem sound_joined (x : AddrType) : (joined x).Sound [] := by
  have hmsgHold : (joined x).msgHold = fun _ => none := by
    funext ⟨i, b, j⟩
    cases b <;> rfl
  have hfragmHold : (joined x).fragmHold = fun _ => none := rfl
  refine ⟨?_, ?_, fun _ _ => rfl, ?_, ?_⟩
  · rw [hmsgHold]
    exact ⟨_, owns_chained _⟩
  · rw [hfragmHold]
    exact ⟨_, owns_chained _⟩
  · intro i hi
    exact absurd hi (Nat.not_lt_zero _)
  · intro i _ hi
    exact absurd hi (Nat.not_lt_zero _)

/-- What is kept of a peer at first. -/
theorem peer_joined {x : AddrType} (hy : y ≠ FREE_ENTRY) : (joined x).peer y = (AddrInfo.new y).peer (joined x) :=
  peer_of_absent (findAddrInfo_eq_none.mpr fun _ heq => hy heq.symm)

/-- The tables are all that counts. -/
theorem Sound.congr (h : Sound taken c) (haddrInfo : c'.addrInfo = c.addrInfo)
    (hlen : c'.addrInfoTableLen = c.addrInfoTableLen) (hmsgs : c'.msgNodes = c.msgNodes)
    (hfragms : c'.fragmNodes = c.fragmNodes) : Sound taken c' ∧ ∀ y, c'.peer y = c.peer y := by
  have hmsgHold : c'.msgHold = c.msgHold := by
    funext ⟨i, b, j⟩
    cases b <;> simp [msgHold, haddrInfo]
  have hfragmHold : c'.fragmHold = c.fragmHold := by
    funext ⟨i, j⟩
    simp [fragmHold, haddrInfo]
  refine ⟨⟨?_, ?_, ?_, ?_, ?_⟩, fun y => ?_⟩
  · rw [hmsgs, hmsgHold]
    exact h.msgs
  · rw [hfragms, hfragmHold]
    exact h.fragms
  · rw [hlen, haddrInfo]
    exact h.unused
  · rw [hlen, haddrInfo]
    exact h.inUse
  · rw [hlen, haddrInfo]
    exact h.unique
  · have hfind : c'.findAddrInfo y = c.findAddrInfo y := by
      unfold PoCommM.findAddrInfo
      rw [haddrInfo]
    unfold PoCommM.peer AddrInfo.peer
    rw [hfind, haddrInfo, hmsgs, hfragms]

end PoCommM

end Pobicos.Transport
