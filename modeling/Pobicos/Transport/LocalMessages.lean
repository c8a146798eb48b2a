import Pobicos.Transport.InOrder

/-!
# Pobicos.Transport.LocalMessages

The messages of a node to itself.

They wait in a buffer of their own, which nothing that a node does for a peer
touches (`Leaves`), not even when it fails or resets the peer.  So on every run,
whatever arrives, is lost or removed, each of them is delivered once, in its
order, and is reported (`local_messages`).
-/

namespace Pobicos.Transport

open Octets Middleware PoCommM Network

/-! ## What is left as it is -/

namespace Draft

/-- Nothing of the module has changed but nodes, and the entry is of the same
peer. -/
structure Leaves (d d' : Draft) : Prop where
  myAddr : d'.comm.myAddr = d.comm.myAddr
  localMsgBuf : d'.comm.localMsgBuf = d.comm.localMsgBuf
  addrInfo : d'.comm.addrInfo = d.comm.addrInfo
  addr : d'.info.addr = d.info.addr

variable {α β : Type} {d d' d'' : Draft} {m : PoRadioMsg} {j : Slot} {f : α → Draft} {g : β → Draft} {r : Except Stop α}

theorem Leaves.refl (d : Draft) : d.Leaves d := ⟨rfl, rfl, rfl, rfl⟩

/-- One thing after another. -/
theorem Leaves.trans (h : d.Leaves d') (h' : d'.Leaves d'') : d.Leaves d'' :=
  ⟨h'.myAddr.trans h.myAddr, h'.localMsgBuf.trans h.localMsgBuf, h'.addrInfo.trans h.addrInfo, h'.addr.trans h.addr⟩

/-- However a computation ends, it leaves all that as it is. -/
def Ends (f : α → Draft) (d : Draft) : Except Stop α → Prop
  | .ok a => d.Leaves (f a)
  | .error (.fail c) => d.Leaves ⟨c, d.info⟩
  | .error .outside => True

/-- What is done before a computation. -/
theorem Ends.after (h : d.Leaves d') (hr : Ends f d' r) : Ends f d r := by
  obtain (c | _) | a := r
  · exact ⟨hr.myAddr.trans h.myAddr, hr.localMsgBuf.trans h.localMsgBuf, hr.addrInfo.trans h.addrInfo, rfl⟩
  · trivial
  · exact h.trans hr

/-- **Computations one after the other**: the second one starts with what the
first one has left, or does not start. -/
theorem Ends.bind {k : α → Except Stop β} (hr : Ends f d r) (hk : ∀ a, Ends g (f a) (k a)) : Ends g d (r >>= k) := by
  obtain (c | _) | a := r
  · exact hr
  · trivial
  · exact .after hr (hk a)

/-- To give a node back is nothing to all that. -/
theorem leaves_freeSent (j : Slot) (n : NodeIndex) (d : Draft) : d.Leaves (d.freeSent j n) := ⟨rfl, rfl, rfl, rfl⟩

theorem leaves_freeRecv (j : Slot) (n : NodeIndex) (d : Draft) : d.Leaves (d.freeRecv j n) := ⟨rfl, rfl, rfl, rfl⟩

theorem leaves_freeFragm (j : Slot) (n : NodeIndex) (d : Draft) : d.Leaves (d.freeFragm j n) := ⟨rfl, rfl, rfl, rfl⟩

/-- Nor is it to take one for a fragment. -/
theorem leaves_addToFragmMsgBuf (h : d.addToFragmMsgBuf m = some (j, d')) : d.Leaves d' := by
  unfold addToFragmMsgBuf at h
  cases hslot : PoCommM.freeSlot d.info.fragmMsgBuf with
  | none => simp [hslot] at h
  | some j' =>
      cases hget : d.comm.getFragmNode with
      | none => simp [hslot, hget] at h
      | some found =>
          obtain ⟨n, c⟩ := found
          simp only [hslot, hget, Option.bind_eq_bind, Option.bind_some, Option.some.injEq, Prod.mk.injEq] at h
          simp only [getFragmNode, Option.map_eq_some_iff, Prod.mk.injEq, Prod.exists] at hget
          obtain ⟨_, _, -, -, rfl⟩ := hget
          obtain ⟨-, rfl⟩ := h
          exact ⟨rfl, rfl, rfl, rfl⟩

/-- Or for a datagram that waits. -/
theorem leaves_addToRecvMsgBuf (h : d.addToRecvMsgBuf m = some d') : d.Leaves d' := by
  unfold addToRecvMsgBuf at h
  cases hslot : PoCommM.freeSlot d.info.recvMsgBuf with
  | none => simp [hslot] at h
  | some j' =>
      cases hget : d.comm.getMsgNode with
      | none => simp [hslot, hget] at h
      | some found =>
          obtain ⟨n, c⟩ := found
          simp only [hslot, hget, Option.bind_eq_bind, Option.bind_some, Option.some.injEq] at h
          simp only [getMsgNode, Option.map_eq_some_iff, Prod.mk.injEq, Prod.exists] at hget
          obtain ⟨_, _, -, -, rfl⟩ := hget
          subst h
          exact ⟨rfl, rfl, rfl, rfl⟩

/-- Giving fragments back, which ends outside the array for a slot that is not
known. -/
theorem ends_freeFragments (js : List (Option Slot)) (d : Draft) : Ends id d (freeFragments js d) := by
  induction js generalizing d with
  | nil => exact .refl d
  | cons j js ih =>
      cases j with
      | none => trivial
      | some j =>
          unfold freeFragments
          cases d.info.fragmMsgBuf j with
          | none => trivial
          | some n => exact .after (leaves_freeFragm j n d) (ih _)

/-- The search for fragments. -/
theorem ends_fragmentLoop (seq : Byte) (fuel n : Nat) (js : List (Option Slot)) (data : FlatMemory.Memory) (d : Draft) :
    Ends Prod.snd d (fragmentLoop seq fuel n js data d) := by
  induction fuel generalizing n js data with
  | zero => exact .refl d
  | succ fuel ih =>
      unfold fragmentLoop
      cases d.fragmSlot (seq + BitVec.ofNat 8 (n + 1)) (BitVec.ofNat 8 (n + 1)) with
      | none => exact .refl d
      | some found =>
          obtain ⟨j, m⟩ := found
          dsimp only
          split_ifs
          · trivial
          · exact ih _ _ _
          · exact (ends_freeFragments _ d).bind fun d => .refl d

/-- Putting a message together. -/
theorem ends_assemble (m : PoRadioMsg) (j : Option Slot) (d : Draft) : Ends Prod.snd d (d.assemble m j) := by
  unfold assemble
  split_ifs
  · exact ends_fragmentLoop _ _ _ _ _ d
  · cases d.fragmSlot (m.seqNum - m.fragmNum) 0 with
    | none => exact .refl d
    | some found => exact ends_fragmentLoop _ _ _ _ _ d

/-- With a fragment that has just come. -/
theorem ends_processFragments (m : PoRadioMsg) (newMessage : Bool) (d : Draft) :
    Ends Prod.snd d (d.processFragments m newMessage) := by
  unfold processFragments
  split_ifs
  · exact .refl d
  · cases hadd : d.addToFragmMsgBuf m with
    | none => exact .refl d
    | some found => exact .after (leaves_addToFragmMsgBuf hadd) (ends_assemble m (some found.1) found.2)
  · exact ends_assemble m none d

/-- The turn of a datagram. -/
theorem ends_take (m : PoRadioMsg) (newMessage : Bool) (arrived : Arrived) (d : Draft) :
    Ends Prod.snd d (d.take m newMessage arrived) := by
  unfold take
  split_ifs
  · exact (ends_processFragments m newMessage d).bind fun r => .refl r.2
  · exact .refl d

/-- The turns of those that have waited. -/
theorem ends_consecLoop (seq : Byte) (fuel n : Nat) (arrived : Arrived) (d : Draft) :
    Ends (fun r => r.2.2) d (consecLoop seq fuel n arrived d) := by
  induction fuel generalizing n arrived d with
  | zero => exact .refl d
  | succ fuel ih =>
      unfold consecLoop
      cases d.recvSlot (seq + BitVec.ofNat 8 (n + 1)) with
      | none => exact .refl d
      | some found =>
          obtain ⟨j, k⟩ := found
          refine (ends_take _ _ _ d).bind fun r => ?_
          exact .after (leaves_freeRecv j k r.2) (ih _ _ _)

/-- **Receiving a datagram**, in its turn, ahead of it or behind. -/
theorem ends_receive (m : PoRadioMsg) (d : Draft) : Ends (fun r => r.2.2) d (d.receive m) := by
  unfold receive
  split_ifs
  · unfold inTurn
    split_ifs
    · have hreceived : d.Leaves { d with info := { d.info with lastMsgReceived := m.seqNum } } := ⟨rfl, rfl, rfl, rfl⟩
      exact .after hreceived ((ends_take m true [] _).bind fun r => .refl r.2)
    · exact (ends_take m true [] d).bind fun r => (ends_consecLoop m.seqNum _ 0 r.1 r.2).bind fun r => .refl r.2.2
  · unfold ahead
    refine (ends_processFragments m true d).bind fun r => ?_
    obtain ⟨_, d₁⟩ := r
    dsimp only
    cases hadd : d₁.addToRecvMsgBuf m with
    | none => exact Leaves.refl d₁
    | some d₂ => exact (leaves_addToRecvMsgBuf hadd).trans ⟨rfl, rfl, rfl, rfl⟩
  · exact .refl d

end Draft

/-- What is told of a peer. -/
def Signal.About (y : AddrType) : Signal → Prop
  | .sendMsg addr _ => addr = y
  | .msgArrived _ addr _ => addr = y
  | .MsgSendresult _ addr _ _ => addr = y
  | _ => True

namespace PoCommM

/-- Nothing of the node has changed but nodes and what it has of the peer `y`. -/
structure Leaves (y : AddrType) (c c' : PoCommM) : Prop where
  myAddr : c'.myAddr = c.myAddr
  localMsgBuf : c'.localMsgBuf = c.localMsgBuf
  addr : ∀ i, (c'.addrInfo i).addr = (c.addrInfo i).addr ∨ (c'.addrInfo i).addr = y

/-- What has been done for the peer `y`, and told of it. -/
structure Works (y : AddrType) (c c' : PoCommM) (signals : List Signal) : Prop where
  leaves : Leaves y c c'
  about : ∀ s ∈ signals, s.About y

variable {c c' c'' : PoCommM} {d : Draft} {y : AddrType} {i : Fin MAX_NODES} {info info' : AddrInfo} {hal : Hal}
  {m : PoRadioMsg} {signals signals' : List Signal}

theorem Leaves.refl (y : AddrType) (c : PoCommM) : Leaves y c c := ⟨rfl, rfl, fun _ => .inl rfl⟩

/-- One thing after another, for one peer. -/
theorem Leaves.trans (h : Leaves y c c') (h' : Leaves y c' c'') : Leaves y c c'' := by
  refine ⟨h'.myAddr.trans h.myAddr, h'.localMsgBuf.trans h.localMsgBuf, fun i => ?_⟩
  obtain heq | heq := h'.addr i
  · rw [heq]
    exact h.addr i
  · exact .inr heq

theorem Works.nothing (y : AddrType) (c : PoCommM) : Works y c c [] := ⟨.refl y c, fun _ hs => by cases hs⟩

/-- What is told of it adds up. -/
theorem Works.trans (h : Works y c c' signals) (h' : Works y c' c'' signals') : Works y c c'' (signals ++ signals') :=
  ⟨h.leaves.trans h'.leaves, fun s hs => (List.mem_append.mp hs).elim (h.about s) (h'.about s)⟩

/-- A draft whose entry is not written back. -/
theorem leaves_comm (h : Draft.Leaves ⟨c, info⟩ d) : Leaves y c d.comm :=
  ⟨h.myAddr, h.localMsgBuf, fun j => .inl (by rw [h.addrInfo])⟩

/-- A draft that is written back, for the same peer. -/
theorem leaves_setAddrInfo (h : Draft.Leaves ⟨c, info⟩ d) (hinfo : info.addr = (c.addrInfo i).addr)
    (hinfo' : info'.addr = d.info.addr) : Leaves y c (d.comm.setAddrInfo i info') := by
  refine ⟨h.myAddr, h.localMsgBuf, fun j => .inl ?_⟩
  show (Function.update d.comm.addrInfo i info' j).addr = (c.addrInfo j).addr
  rw [Function.update_apply]
  split_ifs with hj
  · rw [hinfo', h.addr, hj]
    exact hinfo
  · rw [h.addrInfo]

/-- An entry is found, or made for the peer. -/
theorem leaves_getAddrInfo (h : c.getAddrInfo y = some (i, c')) : Leaves y c c' := by
  unfold getAddrInfo at h
  cases hfind : c.findAddrInfo y with
  | some k =>
      rw [hfind] at h
      cases h
      exact .refl y c
  | none =>
      rw [hfind] at h
      dsimp only at h
      split_ifs at h
      cases h
      refine ⟨rfl, rfl, fun j => ?_⟩
      show (Function.update c.addrInfo _ (.new y) j).addr = _ ∨ (Function.update c.addrInfo _ (.new y) j).addr = y
      rw [Function.update_apply]
      split_ifs
      · exact .inr rfl
      · exact .inl rfl

/-! ## Resetting -/

theorem leaves_resetLoop (js : List Slot) (aborted : List (Byte × Int)) (d : Draft) :
    d.Leaves (resetLoop js aborted d).2 := by
  induction js generalizing aborted d with
  | nil => exact .refl d
  | cons j js ih =>
      have hsent : ∀ d : Draft, d.Leaves ((d.info.sentMsgBuf j).elim d fun n => d.freeSent j n) := fun d => by
        cases d.info.sentMsgBuf j with
        | none => exact .refl d
        | some n => exact Draft.leaves_freeSent j n d
      have hrecv : ∀ d : Draft, d.Leaves ((d.info.recvMsgBuf j).elim d fun n => d.freeRecv j n) := fun d => by
        cases d.info.recvMsgBuf j with
        | none => exact .refl d
        | some n => exact Draft.leaves_freeRecv j n d
      have hfragm : ∀ d : Draft, d.Leaves ((d.info.fragmMsgBuf j).elim d fun n => d.freeFragm j n) := fun d => by
        cases d.info.fragmMsgBuf j with
        | none => exact .refl d
        | some n => exact Draft.leaves_freeFragm j n d
      unfold resetLoop
      exact (((hsent d).trans (hrecv _)).trans (hfragm _)).trans (ih _ _)

/-- **A reset** frees the nodes of a peer and tells what has been aborted. -/
theorem works_resetNode (y : AddrType) (resetFlag : Bool) (c : PoCommM) :
    Works y c (c.resetNode y resetFlag).1 (c.resetNode y resetFlag).2 := by
  unfold resetNode
  cases c.findAddrInfo y with
  | none => exact .nothing y c
  | some i =>
      dsimp only
      generalize hinfo : { c.addrInfo i with
        lastAckReceived := 0
        lastMsgSent := 0
        lastMsgReceived := 0
        lastAckSent := 0
        resetFlag := resetFlag } = info
      have hleaves := leaves_resetLoop (List.finRange PO_COMM_WINDOW_SIZE) [] ⟨c, info⟩
      cases hloop : resetLoop (List.finRange PO_COMM_WINDOW_SIZE) [] ⟨c, info⟩ with
      | mk aborted d =>
          rw [hloop] at hleaves
          refine ⟨leaves_setAddrInfo hleaves (by rw [← hinfo]) rfl, fun s hs => ?_⟩
          obtain ⟨_, -, rfl⟩ := List.mem_map.mp hs
          rfl

/-! ## Datagrams that arrive -/

theorem works_reliableArrived (h : c.reliableArrived hal y m = some (c', signals)) : Works y c c' signals := by
  unfold reliableArrived at h
  cases hget : c.getAddrInfo y with
  | none =>
      rw [hget] at h
      cases h
  | some found =>
      obtain ⟨i, c₁⟩ := found
      rw [hget] at h
      dsimp only at h
      -- a datagram may ask for a reset first
      have hreset : Works y c₁ (if m.has PO_COMM_FLAGS_RESET then c₁.resetNode y false else (c₁, [])).1
          (if m.has PO_COMM_FLAGS_RESET then c₁.resetNode y false else (c₁, [])).2 := by
        split_ifs
        · exact works_resetNode y false c₁
        · exact .nothing y c₁
      generalize (if m.has PO_COMM_FLAGS_RESET then c₁.resetNode y false else (c₁, [])) = r at h hreset
      obtain ⟨c₂, aborted⟩ := r
      dsimp only at h hreset
      have hfound : Works y c c₂ aborted := ⟨(leaves_getAddrInfo hget).trans hreset.leaves, hreset.about⟩
      have hends := Draft.ends_receive m ⟨c₂, c₂.addrInfo i⟩
      cases hreceive : Draft.receive m ⟨c₂, c₂.addrInfo i⟩ with
      | error stop =>
          rw [hreceive] at h hends
          cases stop with
          | outside => cases h
          | fail c₃ =>
              cases h
              have hfailed : Works y c₂ c₃ [] := ⟨leaves_comm hends, fun _ hs => by cases hs⟩
              exact hfound.trans (hfailed.trans (works_resetNode y true c₃))
      | ok result =>
          obtain ⟨ack, arrived, d⟩ := result
          rw [hreceive] at h hends
          dsimp only at h
          split_ifs at h
          · cases h
            refine hfound.trans ⟨leaves_setAddrInfo hends rfl rfl, fun s hs => ?_⟩
            obtain rfl | hs := List.mem_cons.mp hs
            · rfl
            · obtain ⟨_, -, rfl⟩ := List.mem_map.mp hs
              rfl
          · cases h
            have hkept : Works y c₂ d.comm [] := ⟨leaves_comm hends, fun _ hs => by cases hs⟩
            simpa using hfound.trans hkept

/-- An acknowledgement gives nodes back. -/
theorem leaves_acknowledgeLoop (ack : Byte) (js : List Slot) (results : List (Byte × Int)) (d : Draft) :
    d.Leaves (acknowledgeLoop ack js results d).2 := by
  induction js generalizing results d with
  | nil => exact .refl d
  | cons j js ih =>
      unfold acknowledgeLoop
      cases d.info.sentMsgBuf j with
      | none => exact ih results d
      | some n =>
          dsimp only
          split_ifs
          · exact (Draft.leaves_freeSent j n d).trans (ih _ _)
          · exact (Draft.leaves_freeSent j n d).trans (ih _ _)
          · exact ih results d

/-- A datagram that is sent once more. -/
theorem works_resend (n : NodeIndex) (node : MsgNode) (hsignals : ∀ s ∈ signals, ∃ m, s = .sendMsg y m) :
    Works y c (c.writeMsgNode n node) signals := by
  refine ⟨⟨rfl, rfl, fun _ => .inl rfl⟩, fun s hs => ?_⟩
  obtain ⟨m, rfl⟩ := hsignals s hs
  rfl

/-- **An acknowledgement** reports messages of the peer, or sends a datagram to
it again. -/
theorem works_ackArrived (h : c.ackArrived hal y m = (c', signals)) : Works y c c' signals := by
  unfold ackArrived at h
  cases hfind : c.findAddrInfo y with
  | none =>
      rw [hfind] at h
      cases h
      exact .nothing y c
  | some i =>
      rw [hfind] at h
      dsimp only at h
      -- a reset, a repeated acknowledgement, a new one, or one out of the window
      split_ifs at h
      · have hworks := works_resetNode y false c
        rwa [h] at hworks
      · cases h
        exact .nothing y c
      · cases hslot : c.sentSlot (m.seqNum + 1) (c.addrInfo i) with
        | none =>
            rw [hslot] at h
            cases h
            exact .nothing y c
        | some n =>
            rw [hslot] at h
            dsimp only at h
            split_ifs at h
            · cases h
              exact works_resend n _ fun s hs => ⟨_, List.mem_singleton.mp hs⟩
            · cases h
              exact .nothing y c
      · have hleaves := leaves_acknowledgeLoop m.seqNum (List.finRange PO_COMM_WINDOW_SIZE) []
          ⟨c, { c.addrInfo i with lastAckReceived := m.seqNum }⟩
        cases hloop : acknowledgeLoop m.seqNum (List.finRange PO_COMM_WINDOW_SIZE) []
            ⟨c, { c.addrInfo i with lastAckReceived := m.seqNum }⟩ with
        | mk results d =>
            rw [hloop] at h hleaves
            cases h
            refine ⟨leaves_setAddrInfo hleaves rfl rfl, fun s hs => ?_⟩
            obtain ⟨_, -, rfl⟩ := List.mem_map.mp hs
            rfl
      · cases h
        exact .nothing y c

/-- **Any datagram that arrives**, also when it fails. -/
theorem works_msgArrived (h : c.msgArrived hal y m = some (c', signals)) : Works y c c' signals := by
  obtain ⟨rest, rfl, hcases⟩ := msgArrived_cases h
  have hrest : Works y c c' rest := by
    obtain ⟨-, hreliable⟩ | ⟨-, hack⟩ | ⟨-, -, rfl, hdatagram⟩ := hcases
    · exact works_reliableArrived hreliable
    · exact works_ackArrived hack
    · refine ⟨.refl y c', fun s hs => ?_⟩
      obtain ⟨id, msg, rfl⟩ := hdatagram s hs
      trivial
  refine ⟨hrest.leaves, fun s hs => ?_⟩
  obtain rfl | hs := List.mem_cons.mp hs
  · trivial
  · exact hrest.about s hs

/-- A datagram is sent again, or the peer is given up. -/
theorem works_msgTimerFired {sqn : Byte} (h : c.msgTimerFired hal y sqn = (c', signals)) : Works y c c' signals := by
  unfold msgTimerFired at h
  cases hfind : c.findAddrInfo y with
  | none =>
      rw [hfind] at h
      cases h
      exact .nothing y c
  | some i =>
      rw [hfind] at h
      dsimp only at h
      cases hslot : c.sentSlot sqn (c.addrInfo i) with
      | none =>
          rw [hslot] at h
          cases h
          exact .nothing y c
      | some n =>
          rw [hslot] at h
          dsimp only at h
          split_ifs at h
          · cases h
            exact works_resend n _ fun s hs => ⟨_, List.mem_singleton.mp hs⟩
          · cases h
            exact works_resend n _ fun s hs => by cases hs
          · have hworks := works_resetNode y true c
            rwa [h] at hworks
          · cases h
            refine ⟨.refl y c, fun s hs => ?_⟩
            rw [List.mem_singleton.mp hs]
            trivial

/-! ## Messages that are sent -/

theorem leaves_reserve (k : Nat) (buf : Slot → Option NodeIndex) (c : PoCommM) (info : AddrInfo) :
    Draft.Leaves ⟨c, info⟩ ⟨(reserve k buf c).2, info⟩ := by
  induction k generalizing buf c with
  | zero => exact .refl _
  | succ k ih =>
      unfold reserve
      cases hget : c.getMsgNode with
      | none => exact .refl _
      | some found =>
          obtain ⟨n, c₁⟩ := found
          simp only [getMsgNode, Option.map_eq_some_iff, Prod.mk.injEq, Prod.exists] at hget
          obtain ⟨_, _, -, -, rfl⟩ := hget
          dsimp only
          cases freeSlot buf with
          | none => exact ⟨rfl, rfl, rfl, rfl⟩
          | some j =>
              refine Draft.Leaves.trans ?_ (ih (Function.update buf j (some ⟨0, by decide⟩)) _)
              exact ⟨rfl, rfl, rfl, rfl⟩

/-- The datagrams of a message go to the peer. -/
theorem works_sendLoop (hal : Hal) (id : Byte) (y : AddrType) (msg : PoMsg) (retries : Int) (msgId : Byte) (k t : Nat)
    (places : List (NodeIndex × Slot)) (d : Draft) :
    d.Leaves (sendLoop hal id y msg retries msgId k t places d).2 ∧
      ∀ s ∈ (sendLoop hal id y msg retries msgId k t places d).1, s.About y := by
  induction places generalizing t d with
  | nil => exact ⟨.refl d, fun _ hs => by cases hs⟩
  | cons place places ih =>
      obtain ⟨n, j⟩ := place
      unfold sendLoop
      dsimp only
      generalize MsgNode.mk _ _ _ = node
      refine ⟨Draft.Leaves.trans ?_ (ih _ _).1, fun s hs => ?_⟩
      · exact ⟨rfl, rfl, rfl, rfl⟩
      · split_ifs at hs
        · obtain rfl | hs := List.mem_cons.mp hs
          · rfl
          · exact (ih _ _).2 s hs
        · exact (ih _ _).2 s hs

/-- **A message to a peer**: the local buffer is not used for it. -/
theorem works_sendMsg {id msgId : Byte} {msg : PoMsg} {retries code : Int} (hne : y ≠ c.myAddr)
    (h : c.sendMsg hal id y msg retries = some ((code, msgId), c', signals)) : Works y c c' signals := by
  unfold sendMsg at h
  split_ifs at h with hstarted
  · cases h
    exact .nothing y c
  · cases hget : c.getAddrInfo y with
    | none =>
        rw [hget] at h
        cases h
    | some found =>
        obtain ⟨i, c₁⟩ := found
        have hfound : Works y c c₁ [] := ⟨leaves_getAddrInfo hget, fun _ hs => by cases hs⟩
        rw [hget] at h
        dsimp only at h
        split_ifs at h
        · cases h
          exact hfound
        · cases hnum : numFragmentsOf msg.data.length (c₁.addrInfo i) with
          | none =>
              rw [hnum] at h
              cases h
              exact hfound
          | some k =>
              rw [hnum] at h
              dsimp only at h
              have hreserved := leaves_reserve k (c₁.addrInfo i).sentMsgBuf c₁ (c₁.addrInfo i)
              cases hreserve : reserve k (c₁.addrInfo i).sentMsgBuf c₁ with
              | mk places c₂ =>
                  rw [hreserve] at h hreserved
                  dsimp only at hreserved
                  cases places with
                  | none =>
                      cases h
                      exact ⟨hfound.leaves.trans (leaves_comm hreserved), fun _ hs => by cases hs⟩
                  | some places =>
                      cases h
                      obtain ⟨hleaves, habout⟩ := works_sendLoop hal id y msg retries _ k 0 places
                        ⟨c₂.takeMsgId.2, c₁.addrInfo i⟩
                      have htaken : Draft.Leaves ⟨c₂, c₁.addrInfo i⟩ ⟨c₂.takeMsgId.2, c₁.addrInfo i⟩ :=
                        ⟨rfl, rfl, rfl, rfl⟩
                      have hplaced := (hreserved.trans htaken).trans hleaves
                      exact ⟨hfound.leaves.trans (leaves_setAddrInfo hplaced rfl rfl), habout⟩

end PoCommM

/-! ## What waits -/

/-- A message as it is seen when it is delivered. -/
def LocalMsg.content (l : LocalMsg) : Byte × List Byte := (l.ifId, l.localMsg.data)

/-- A message as it is seen when it is reported. -/
def LocalMsg.key (l : LocalMsg) : Byte × Int := (l.ifId, l.msgId)

/-- The node knows itself, does not take itself for a peer, and of the messages
to itself all that have been accepted have been delivered and reported, or wait. -/
structure Local (x : AddrType) (w : Network) (log : List Network.Event) : Prop where
  myAddr : (w.node x).myAddr = x
  unknown : ∀ i, ((w.node x).addrInfo i).addr ≠ x
  chan : ∀ m ∈ w.chan x x, m.type = PO_COMM_HDR_DATAGRAM
  delivered : ((log.filterMap (sentTo x x)).map fun (id, _, msg) => (id, msg)) =
    log.filterMap (deliveredTo x x) ++ (w.node x).localMsgBuf.toList.map LocalMsg.content
  reported : ((log.filterMap (sentTo x x)).map fun (id, msgId, _) => (id, (msgId.toNat : Int))) =
    log.filterMap (reportedTo x x) ++ (w.node x).localMsgBuf.toList.map LocalMsg.key

variable {w w₀ w' : Network} {log evs : List Network.Event} {x y z p : AddrType} {c' : PoCommM} {signals : List Signal}
  {hal : Hal}

/-- Nothing has been seen of the messages of `x` to itself. -/
theorem Local.keep (h : Local x w log) (hmyAddr : (w'.node x).myAddr = (w.node x).myAddr)
    (hlocal : (w'.node x).localMsgBuf = (w.node x).localMsgBuf) (hunknown : ∀ i, ((w'.node x).addrInfo i).addr ≠ x)
    (hchan : ∀ m ∈ w'.chan x x, m.type = PO_COMM_HDR_DATAGRAM) (hevs : Apart x x evs) : Local x w' (log ++ evs) := by
  obtain ⟨hsent, hdone, hreported⟩ := hevs.append log
  refine ⟨hmyAddr.trans h.myAddr, hunknown, hchan, ?_, ?_⟩
  · rw [hsent, hdone, hlocal]
    exact h.delivered
  · rw [hsent, hreported, hlocal]
    exact h.reported

/-- The node is as it was. -/
theorem Local.same (h : Local x w log) (hnode : w'.node x = w.node x)
    (hchan : ∀ m ∈ w'.chan x x, m.type = PO_COMM_HDR_DATAGRAM) (hevs : Apart x x evs) : Local x w' (log ++ evs) := by
  refine h.keep (by rw [hnode]) (by rw [hnode]) (fun i => ?_) hchan hevs
  rw [hnode]
  exact h.unknown i

/-- What is told of a peer is no message of `x` to itself. -/
theorem apart_of_about (hx : z = x → p ≠ x ∧ ∀ s ∈ signals, s.About p) :
    Apart x x (signals.filterMap (Network.Event.ofSignal z)) := by
  refine .of_forall fun ev hev => ?_
  obtain ⟨s, hs, hev⟩ := List.mem_filterMap.mp hev
  cases s with
  | msgArrived id addr msg =>
      cases hev
      have hne : ¬ (addr = x ∧ z = x) := fun h => (hx h.2).1 (((hx h.2).2 _ hs).symm.trans h.1)
      simp [sentTo, deliveredTo, reportedTo, hne]
  | MsgSendresult id addr msgId result =>
      dsimp only [Network.Event.ofSignal] at hev
      split_ifs at hev
      cases hev
      have hne : ¬ (z = x ∧ addr = x) := fun h => (hx h.1).1 (((hx h.1).2 _ hs).symm.trans h.2)
      simp [sentTo, deliveredTo, reportedTo, hne]
  | sendMsg addr m => cases hev
  | datagramArrived id addr msg => cases hev
  | removeNode addr => cases hev

/-- **One node does something for another one**: the messages to itself are none
of its business. -/
theorem Local.act (h : Local x w log) (hnode : w₀.node = w.node) (hchan : ∀ m ∈ w₀.chan x x, m ∈ w.chan x x)
    (hx : z = x → p ≠ x ∧ Works p (w.node x) c' signals) (hevs : Apart x x evs) :
    Local x (w₀.after z (c', signals)) (log ++ evs) := by
  by_cases hzx : z = x
  · subst hzx
    obtain ⟨hp, hworks⟩ := hx rfl
    have hnode' : (w₀.after z (c', signals)).node z = c' := by rw [node_after, if_pos rfl]
    -- nothing goes from the node to itself, as all that is sent goes to `p`
    have hnone : signals.filterMap (Signal.datagram z) = [] := by
      rw [List.filterMap_eq_nil_iff]
      intro s hs
      cases s with
      | sendMsg addr m =>
          have haddr : addr = p := hworks.about _ hs
          exact if_neg fun heq => hp (haddr.symm.trans heq)
      | msgArrived id addr msg => rfl
      | MsgSendresult id addr msgId result => rfl
      | datagramArrived id addr msg => rfl
      | removeNode addr => rfl
    refine h.keep ?_ ?_ (fun i => ?_) (fun m hm => ?_) hevs
    · rw [hnode']
      exact hworks.leaves.myAddr
    · rw [hnode']
      exact hworks.leaves.localMsgBuf
    · rw [hnode']
      obtain heq | heq := hworks.leaves.addr i
      · rw [heq]
        exact h.unknown i
      · rw [heq]
        exact hp
    · rw [chan_after, if_pos rfl, hnone, List.append_nil] at hm
      exact h.chan m (hchan m hm)
  · refine h.same ?_ (fun m hm => ?_) hevs
    · rw [node_after, if_neg (Ne.symm hzx), hnode]
    · rw [chan_after, if_neg (Ne.symm hzx)] at hm
      exact h.chan m (hchan m hm)

/-- Nothing is done. -/
theorem Local.idle (h : Local x w log) : Local x (w.after z (w.node z, [])) (log ++ []) := by
  refine h.same (node_after_self z x w []) (fun m hm => ?_) ⟨rfl, rfl, rfl⟩
  rw [chan_after, List.filterMap_nil, List.append_nil, ite_self] at hm
  exact h.chan m hm

/-! ## The moves -/

/-- The node does not find itself among its peers. -/
theorem Local.findAddrInfo (h : Local x w log) : (w.node x).findAddrInfo x = none := findAddrInfo_eq_none.mpr h.unknown

/-- **A message is sent**: one to the node itself waits in its local buffer, any
other one is not about it. -/
theorem Local.sendMsg {id : Byte} {msg : PoMsg} {retries : Int} (h : Local x w log)
    (hstep : Network.step w (.sendMsg z hal id y msg retries) = some w') :
    Local x w' (log ++ events w (.sendMsg z hal id y msg retries)) := by
  cases hsend : (w.node z).sendMsg hal id y msg retries with
  | none => simp [Network.step, call, hsend] at hstep
  | some result =>
      obtain ⟨⟨code, msgId⟩, c', signals⟩ := result
      have hw : w' = w.after z (c', signals) := by simpa [Network.step, call, hsend] using hstep.symm
      have hevs : events w (.sendMsg z hal id y msg retries) =
          (if code = PO_COMM_OK then [.sent z y id msgId msg.data] else []) ++ signals.filterMap (Network.Event.ofSignal z) := by
        simp [events, call, hsend]
      rw [hw, hevs]
      -- only a message of `x` to `x` touches the buffer
      by_cases hself : z = x ∧ y = x
      · obtain ⟨rfl, rfl⟩ := hself
        obtain ⟨rfl, ⟨hmyAddr, hentries, -, -, -⟩, hlocal⟩ := sendMsg_self h.myAddr hsend
        have hnode : (w.after y (c', [])).node y = c' := by rw [node_after, if_pos rfl]
        rw [List.filterMap_nil, List.append_nil]
        refine ⟨?_, fun i => ?_, fun m hm => ?_, ?_, ?_⟩
        · rw [hnode, hmyAddr]
          exact h.myAddr
        · rw [hnode, hentries]
          exact h.unknown i
        · rw [chan_after, List.filterMap_nil, List.append_nil, ite_self] at hm
          exact h.chan m hm
        · rw [hnode, hlocal, List.filterMap_append, List.filterMap_append, List.map_append, List.map_append, h.delivered]
          split_ifs <;> simp [sentTo, deliveredTo, LocalMsg.content]
        · rw [hnode, hlocal, List.filterMap_append, List.filterMap_append, List.map_append, List.map_append, h.reported]
          split_ifs <;> simp [sentTo, reportedTo, LocalMsg.key]
      · have hworks : z = x → y ≠ x ∧ Works y (w.node x) c' signals := fun hz => by
          have hy : y ≠ x := fun hy => hself ⟨hz, hy⟩
          rw [hz] at hsend
          exact ⟨hy, works_sendMsg (by rwa [h.myAddr]) hsend⟩
        refine h.act rfl (fun _ hm => hm) hworks ?_
        obtain ⟨hsent, hdone, hreported⟩ := (apart_of_about fun hz => ⟨(hworks hz).1, (hworks hz).2.about⟩).append
          (if code = PO_COMM_OK then [.sent z y id msgId msg.data] else [])
        refine ⟨hsent.trans ?_, hdone.trans ?_, hreported.trans ?_⟩
        · split_ifs
          · simp [sentTo, hself]
          · rfl
        · split_ifs
          · rfl
          · rfl
        · split_ifs
          · rfl
          · rfl

/-- A datagram arrives somewhere. -/
theorem Local.arrive {a b : AddrType} (h : Local x w log) (hstep : Network.step w (.arrive a b hal) = some w') :
    Local x w' (log ++ events w (.arrive a b hal)) := by
  cases hchan : w.chan a b with
  | nil => simp [Network.step, call, hchan] at hstep
  | cons m ms =>
      cases harrived : (w.node b).msgArrived hal a m with
      | none => simp [Network.step, call, hchan, harrived] at hstep
      | some result =>
          obtain ⟨c', signals⟩ := result
          have hw : w' = (w.shift a b).after b (c', signals) := by
            simpa [Network.step, call, hchan, harrived] using hstep.symm
          have hevs : events w (.arrive a b hal) = signals.filterMap (Network.Event.ofSignal b) := by
            simp [events, call, hchan, harrived]
          have htail : ∀ m ∈ (w.shift a b).chan x x, m ∈ w.chan x x := fun m hm => by
            rw [chan_shift] at hm
            split_ifs at hm with hself
            · rw [hself.1, hself.2] at *
              exact List.mem_of_mem_tail hm
            · exact hm
          rw [hw, hevs]
          by_cases hself : a = x ∧ b = x
          · -- a datagram without a promise
            obtain ⟨rfl, rfl⟩ := hself
            have hm := h.chan m (by rw [hchan]; exact List.mem_cons_self)
            obtain ⟨rest, rfl, hcases⟩ := msgArrived_cases harrived
            rw [after_cons (fun _ => rfl), List.filterMap_cons_none rfl]
            obtain ⟨hreliable, -⟩ | ⟨hack, -⟩ | ⟨-, -, rfl, hrest⟩ := hcases
            · rw [hm] at hreliable
              exact absurd hreliable (by decide)
            · rw [hm] at hack
              exact absurd hack (by decide)
            · obtain ⟨hevents, hdatagrams⟩ := unseen_of_datagrams hrest b
              rw [hevents]
              refine h.same (node_after_self b b (w.shift b b) rest) (fun m hm => ?_) ⟨rfl, rfl, rfl⟩
              rw [chan_after, hdatagrams, List.append_nil, ite_self] at hm
              exact h.chan m (htail m hm)
          · have hworks : b = x → a ≠ x ∧ Works a (w.node x) c' signals := fun hb => by
              have ha : a ≠ x := fun ha => hself ⟨ha, hb⟩
              rw [hb] at harrived
              exact ⟨ha, works_msgArrived harrived⟩
            exact h.act rfl htail hworks (apart_of_about fun hb => ⟨(hworks hb).1, (hworks hb).2.about⟩)

/-- What a node does for itself as a peer is nothing. -/
theorem Local.peer (h : Local x w log) {r : PoCommM × List Signal} (hworks : z = x → y ≠ x → Works y (w.node x) r.1 r.2)
    (hself : z = x → y = x → r = (w.node z, [])) :
    Local x (w.after z r) (log ++ r.2.filterMap (Network.Event.ofSignal z)) := by
  by_cases hzy : z = x ∧ y = x
  · rw [hself hzy.1 hzy.2]
    exact h.idle
  · obtain ⟨c', signals⟩ := r
    have hpeer : z = x → y ≠ x ∧ Works y (w.node x) c' signals := fun hz =>
      ⟨fun hy => hzy ⟨hz, hy⟩, hworks hz fun hy => hzy ⟨hz, hy⟩⟩
    exact h.act rfl (fun _ hm => hm) hpeer (apart_of_about fun hz => ⟨(hpeer hz).1, (hpeer hz).2.about⟩)

/-- A datagram without a promise may also go to the node itself, and stays one.
-/
theorem Local.sendDatagram {id : Byte} {beMsg : PoMsg} (h : Local x w log) :
    Local x (w.after z (w.node z, (PoCommM.sendDatagram hal id y beMsg).2))
      (log ++ (PoCommM.sendDatagram hal id y beMsg).2.filterMap (Network.Event.ofSignal z)) := by
  obtain ⟨htypes, hevents⟩ := sendDatagram_signals hal id z y beMsg
  generalize (PoCommM.sendDatagram hal id y beMsg).2 = signals at htypes hevents
  rw [hevents]
  refine h.same (node_after_self z x w signals) (fun m hm => ?_) ⟨rfl, rfl, rfl⟩
  rw [chan_after] at hm
  split_ifs at hm
  · exact (List.mem_append.mp hm).elim (h.chan m) (htypes x m)
  · exact h.chan m hm

/-- What is seen of the first message that waits. -/
theorem seen_local (z : AddrType) (first : Option LocalMsg) :
    let evs := (first.elim [] fun tempMsg => [Signal.MsgSendresult tempMsg.ifId z tempMsg.msgId PO_COMM_SENDRESULT_OK,
      .msgArrived tempMsg.ifId z tempMsg.localMsg.data]).filterMap (Network.Event.ofSignal z)
    evs.filterMap (sentTo z z) = [] ∧ evs.filterMap (deliveredTo z z) = first.toList.map LocalMsg.content ∧
      evs.filterMap (reportedTo z z) = first.toList.map LocalMsg.key := by
  cases first with
  | none => exact ⟨rfl, rfl, rfl⟩
  | some tempMsg =>
      have hdone : deliveredTo z z (.delivered z z tempMsg.ifId tempMsg.localMsg.data) = some tempMsg.content :=
        if_pos ⟨rfl, rfl⟩
      have hreported : reportedTo z z (.reported z z tempMsg.ifId tempMsg.msgId) = some tempMsg.key := if_pos ⟨rfl, rfl⟩
      refine ⟨rfl, ?_, ?_⟩
      · show List.filterMap (deliveredTo z z) [.reported z z tempMsg.ifId tempMsg.msgId,
          .delivered z z tempMsg.ifId tempMsg.localMsg.data] = [tempMsg.content]
        rw [List.filterMap_cons_none rfl, List.filterMap_cons_some hdone]
        rfl
      · show List.filterMap (reportedTo z z) [.reported z z tempMsg.ifId tempMsg.msgId,
          .delivered z z tempMsg.ifId tempMsg.localMsg.data] = [tempMsg.key]
        rw [List.filterMap_cons_some hreported, List.filterMap_cons_none rfl]
        rfl

/-- **A local message is delivered**: it is the first one that waits, and its
send is reported. -/
theorem Local.processLocalMsg (h : Local x w log) (hstep : (w.node z).processLocalMsg = (c', signals)) :
    Local x (w.after z (c', signals)) (log ++ signals.filterMap (Network.Event.ofSignal z)) := by
  by_cases hzx : z = x
  · subst hzx
    obtain ⟨⟨hmyAddr, hentries, -, -, -⟩, first, hwaits, hlocal⟩ := processLocalMsg_cases hstep
    have hnode : (w.after z (c', signals)).node z = c' := by rw [node_after, if_pos rfl]
    rw [h.myAddr] at hlocal
    obtain ⟨hsent, hdone, hreported'⟩ := seen_local z first
    refine ⟨?_, fun i => ?_, fun m hm => ?_, ?_, ?_⟩
    · rw [hnode, hmyAddr]
      exact h.myAddr
    · rw [hnode, hentries]
      exact h.unknown i
    · have hnone : signals.filterMap (Signal.datagram z) = [] := by
        rw [hlocal]
        cases first <;> rfl
      rw [chan_after, hnone, List.append_nil, ite_self] at hm
      exact h.chan m hm
    · have hdelivered := h.delivered
      rw [hwaits, List.map_append, ← List.append_assoc] at hdelivered
      rw [hnode, hlocal, List.filterMap_append, List.filterMap_append, hsent, hdone, List.append_nil]
      exact hdelivered
    · have hreported := h.reported
      rw [hwaits, List.map_append, ← List.append_assoc] at hreported
      rw [hnode, hlocal, List.filterMap_append, List.filterMap_append, hsent, hreported', List.append_nil]
      exact hreported
  · exact h.act (p := z) rfl (fun _ hm => hm) (fun heq => absurd heq hzx) (apart_of_about (p := z) fun heq => absurd heq hzx)

/-! ## Every run -/

theorem local_boot (hx : x ≠ FREE_ENTRY) : Local x boot [] :=
  ⟨rfl, fun _ heq => hx heq.symm, fun _ hm => absurd hm List.not_mem_nil, rfl, rfl⟩

/-- **Every move keeps it.** -/
theorem Local.step {a : Move} (h : Local x w log) (hstep : Network.step w a = some w') : Local x w' (log ++ events w a) := by
  cases a with
  | sendMsg z hal id y msg retries => exact h.sendMsg hstep
  | sendDatagram z hal id y beMsg =>
      cases hstep
      exact h.sendDatagram
  | arrive a b hal => exact h.arrive hstep
  | lose a b =>
      have hw : w' = w.shift a b := by
        cases hchan : w.chan a b with
        | nil => simp [Network.step, hchan] at hstep
        | cons m ms => simpa [Network.step, hchan] using hstep.symm
      rw [hw]
      refine h.same rfl (fun m hm => ?_) ⟨rfl, rfl, rfl⟩
      rw [chan_shift] at hm
      split_ifs at hm with hself
      · rw [← hself.1, ← hself.2] at hm
        exact h.chan m (List.mem_of_mem_tail hm)
      · exact h.chan m hm
  | msgTimerFired z hal y sqn =>
      cases hstep
      refine h.peer (y := y) (fun hz _ => ?_) fun hz hy => ?_
      · rw [hz]
        exact works_msgTimerFired rfl
      · rw [hz, hy]
        unfold PoCommM.msgTimerFired
        rw [h.findAddrInfo]
  | processLocalMsg z =>
      cases hstep
      exact h.processLocalMsg rfl
  | nodeRemoved z y =>
      cases hstep
      refine h.peer (y := y) (fun hz _ => ?_) fun hz hy => ?_
      · rw [hz]
        exact works_resetNode y true (w.node x)
      · rw [hz, hy]
        unfold PoCommM.nodeRemoved resetNode
        rw [h.findAddrInfo]

variable {as : List Move}

/-- **The messages of a node to itself are delivered once, in their order, and
reported**, on every run; what has not been delivered yet waits. -/
theorem local_messages (hrun : Lts.run Network.step boot as = some w) (hx : x ≠ FREE_ENTRY) :
    (((seen as).filterMap (sentTo x x)).map fun (id, _, msg) => (id, msg)) =
        (seen as).filterMap (deliveredTo x x) ++ (w.node x).localMsgBuf.toList.map LocalMsg.content ∧
      (((seen as).filterMap (sentTo x x)).map fun (id, msgId, _) => (id, (msgId.toNat : Int))) =
        (seen as).filterMap (reportedTo x x) ++ (w.node x).localMsgBuf.toList.map LocalMsg.key := by
  have hkeep : ∀ w log a w', Local x w log → True → Network.step w a = some w' → Local x w' (log ++ events w a) :=
    fun _ _ _ _ h _ hstep => h.step hstep
  have h := Lts.trace_induct hkeep (Lts.along_true boot as) (local_boot hx) hrun
  rw [List.nil_append] at h
  exact ⟨h.delivered, h.reported⟩

/-- Two messages of a node to itself and one to a peer that is removed. -/
def ownMessages : List Move :=
  [.sendMsg 1 willing 7 1 ⟨[0xaa], by decide⟩ 3, .sendMsg 1 willing 7 2 ⟨[0xdd], by decide⟩ 3,
    .sendMsg 1 willing 7 1 ⟨[0xcc], by decide⟩ 3, .nodeRemoved 1 2, .processLocalMsg 1]

/-- The first of two messages is delivered, the second one waits. -/
theorem local_messages_ownMessages : ∃ w, Lts.run Network.step boot ownMessages = some w ∧
    (((seen ownMessages).filterMap (sentTo 1 1)).map fun (id, _, msg) => (id, msg)) =
        (seen ownMessages).filterMap (deliveredTo 1 1) ++ (w.node 1).localMsgBuf.toList.map LocalMsg.content ∧
      (((seen ownMessages).filterMap (sentTo 1 1)).map fun (id, msgId, _) => (id, (msgId.toNat : Int))) =
        (seen ownMessages).filterMap (reportedTo 1 1) ++ (w.node 1).localMsgBuf.toList.map LocalMsg.key := by
  obtain ⟨w, hrun⟩ : ∃ w, Lts.run Network.step boot ownMessages = some w := ⟨_, rfl⟩
  exact ⟨w, hrun, local_messages hrun (by decide)⟩

end Pobicos.Transport
