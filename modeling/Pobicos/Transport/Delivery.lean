import Pobicos.Transport.Link

/-!
# Pobicos.Transport.Delivery

Whatever the order in which the nodes send, resend, receive and lose datagrams,
the messages from one node to another arrive in their order and once, and what
has been reported to the sender has arrived.

This is so as long as no node is reset and nothing is left behind in a receive
buffer (`Calm`): the module keeps datagrams twice, forgets messages that are
complete ahead of their turn, and loses track of its nodes when it cannot send
an acknowledgement.
-/

namespace Pobicos.Transport

open Octets Middleware SlidingWindow PoCommM Network

/-! ## What has been seen -/

/-- A message that `x` has accepted for `y`. -/
def sentTo (x y : AddrType) : Network.Event → Option (Byte × Byte × List Byte)
  | .sent x' y' id msgId msg => if x' = x ∧ y' = y then some (id, msgId, msg) else none
  | _ => none

/-- A message from `x` that has been delivered at `y`. -/
def deliveredTo (x y : AddrType) : Network.Event → Option (Byte × List Byte)
  | .delivered x' y' id msg => if x' = x ∧ y' = y then some (id, msg) else none
  | _ => none

/-- A message for `y` that has been reported to `x`. -/
def reportedTo (x y : AddrType) : Network.Event → Option (Byte × Int)
  | .reported x' y' id msgId => if x' = x ∧ y' = y then some (id, msgId) else none
  | _ => none

/-- The moves that keep what is promised: no node has the address of an unused
entry (`FREE_ENTRY`, `0xFFFFFFFF`) or hears itself, every reliable datagram is
received smoothly, a timer can be started again, and no node is removed.  A move
that gives a node more than `MAX_NODES` (67) peers, or that goes outside an
array, is none: `Network.step` has no result for it. -/
def Calm (w : Network) : Move → Prop
  | .sendMsg x _ _ y _ _ => x ≠ FREE_ENTRY ∧ y ≠ FREE_ENTRY
  | .sendDatagram .. => True
  | .arrive x y hal => x ≠ FREE_ENTRY ∧ y ≠ FREE_ENTRY ∧ x ≠ y ∧
      ∀ m ∈ (w.chan x y).head?, m.type = PO_COMM_HDR_RELIABLE → Smooth hal x m (w.node y)
  | .lose .. => True
  | .msgTimerFired x hal y sqn => x ≠ FREE_ENTRY ∧ y ≠ FREE_ENTRY ∧ x ≠ y ∧ hal.setMsgTimer sqn = true
  | .processLocalMsg x => x ≠ FREE_ENTRY
  | .nodeRemoved .. => False

instance (w : Network) : DecidablePred (Calm w)
  | .sendMsg .. => inferInstanceAs (Decidable (_ ∧ _))
  | .sendDatagram .. => isTrue trivial
  | .arrive .. => inferInstanceAs (Decidable (_ ∧ _ ∧ _ ∧ ∀ m ∈ _, _))
  | .lose .. => isTrue trivial
  | .msgTimerFired .. => inferInstanceAs (Decidable (_ ∧ _ ∧ _ ∧ _))
  | .processLocalMsg .. => inferInstanceAs (Decidable (_ ≠ _))
  | .nodeRemoved .. => isFalse id

/-! ## The invariant -/

/-- The datagrams of a type. -/
def ofType (type : Byte) (l : List PoRadioMsg) : List PoRadioMsg := l.filter fun m => m.type = type

/-- A message as it is seen when it is accepted. -/
def Sent.entry (s : Sent) : Byte × Byte × List Byte := (s.id, s.msgId, s.msg.data)

/-- What has been seen of the messages from `x` to `y` is what the two nodes have
of each other. -/
def Linked (x y : AddrType) (w : Network) (log : List Network.Event) : Prop :=
  ∃ sent done base e top R, log.filterMap (sentTo x y) = sent.map Sent.entry ∧
    log.filterMap (deliveredTo x y) = done.map Sent.content ∧
    Link sent done (log.filterMap (reportedTo x y)) base e top R ((w.node x).peer y) ((w.node y).peer x)
      (ofType PO_COMM_HDR_RELIABLE (w.chan x y)) (ofType PO_COMM_HDR_ACK (w.chan y x))

/-- The invariant: every node is sound and knows its address, no reset is
pending, and between any two nodes there is a link. -/
structure Inv (w : Network) (log : List Network.Event) : Prop where
  sound : ∀ x ≠ FREE_ENTRY, (w.node x).Sound []
  myAddr : ∀ x ≠ FREE_ENTRY, (w.node x).myAddr = x
  resetFlag : ∀ x ≠ FREE_ENTRY, ∀ y ≠ FREE_ENTRY, ((w.node x).peer y).resetFlag = false
  linked : ∀ x ≠ FREE_ENTRY, ∀ y ≠ FREE_ENTRY, x ≠ y → Linked x y w log

variable {w w₀ w' : Network} {log evs : List Network.Event} {x y z p : AddrType} {c' : PoCommM} {signals : List Signal}

/-- What is seen is of no messages from `x` to `y`. -/
structure Apart (x y : AddrType) (evs : List Network.Event) : Prop where
  sent : evs.filterMap (sentTo x y) = []
  delivered : evs.filterMap (deliveredTo x y) = []
  reported : evs.filterMap (reportedTo x y) = []

/-- Such events can be left out. -/
theorem Apart.append (h : Apart x y evs) (log : List Network.Event) :
    (log ++ evs).filterMap (sentTo x y) = log.filterMap (sentTo x y) ∧
      (log ++ evs).filterMap (deliveredTo x y) = log.filterMap (deliveredTo x y) ∧
      (log ++ evs).filterMap (reportedTo x y) = log.filterMap (reportedTo x y) := by
  simp [List.filterMap_append, h.sent, h.delivered, h.reported]

/-- Events of which none is of the messages from `x` to `y`. -/
theorem Apart.of_forall
    (h : ∀ ev ∈ evs, sentTo x y ev = none ∧ deliveredTo x y ev = none ∧ reportedTo x y ev = none) : Apart x y evs :=
  ⟨List.filterMap_eq_nil_iff.mpr fun ev hev => (h ev hev).1, List.filterMap_eq_nil_iff.mpr fun ev hev => (h ev hev).2.1,
    List.filterMap_eq_nil_iff.mpr fun ev hev => (h ev hev).2.2⟩

/-- What has been done was not about the messages from `x` to `y`. -/
theorem Linked.congr (h : Linked x y w log) (hevs : Apart x y evs)
    (hout : ∀ {sent base}, Outgoing sent base ((w.node x).peer y) → Outgoing sent base ((w'.node x).peer y))
    (hin : ((w.node y).peer x).SameIn ((w'.node y).peer x))
    (hdata : ofType PO_COMM_HDR_RELIABLE (w'.chan x y) = ofType PO_COMM_HDR_RELIABLE (w.chan x y))
    (hacks : ofType PO_COMM_HDR_ACK (w'.chan y x) = ofType PO_COMM_HDR_ACK (w.chan y x)) : Linked x y w' (log ++ evs) := by
  obtain ⟨sent, done, base, e, top, R, hsent, hdone, hlink⟩ := h
  obtain ⟨hsent', hdone', hreported'⟩ := hevs.append log
  refine ⟨sent, done, base, e, top, R, hsent'.trans hsent, hdone'.trans hdone, ?_⟩
  rw [hreported', hdata, hacks]
  exact hlink.congr (hout hlink.outgoing) hin

/-- Nothing has changed between two nodes. -/
theorem Linked.keep (h : Linked x y w log) (hevs : Apart x y evs) (hp : (w'.node x).peer y = (w.node x).peer y)
    (hq : (w'.node y).peer x = (w.node y).peer x)
    (hdata : ofType PO_COMM_HDR_RELIABLE (w'.chan x y) = ofType PO_COMM_HDR_RELIABLE (w.chan x y))
    (hacks : ofType PO_COMM_HDR_ACK (w'.chan y x) = ofType PO_COMM_HDR_ACK (w.chan y x)) : Linked x y w' (log ++ evs) := by
  refine h.congr hevs (fun hout => ?_) ?_ hdata hacks
  · rwa [hp]
  · rw [hq]
    exact ⟨rfl, rfl, rfl, rfl⟩

/-- Only the node that has done something has changed. -/
theorem node_after (z x : AddrType) (w : Network) (r : PoCommM × List Signal) :
    (w.after z r).node x = if x = z then r.1 else w.node x := Function.update_apply ..

/-- What it has sent is at the end of its channels. -/
theorem chan_after (z x y : AddrType) (w : Network) (r : PoCommM × List Signal) :
    (w.after z r).chan x y = if x = z then w.chan x y ++ r.2.filterMap (Signal.datagram y) else w.chan x y := by
  show Function.update w.chan z _ x y = _
  rw [Function.update_apply]
  split_ifs with h
  · rw [h]
  · rfl

/-- The first datagram of a channel is gone. -/
theorem chan_shift (x y a b : AddrType) (w : Network) :
    (w.shift x y).chan a b = if a = x ∧ b = y then (w.chan x y).tail else w.chan a b := by
  show Function.update w.chan x _ a b = _
  rw [Function.update_apply]
  split_ifs with ha hab hab
  · rw [hab.2, Function.update_self]
  · rw [Function.update_of_ne fun hb => hab ⟨ha, hb⟩, ha]
  · exact absurd hab.1 ha
  · rfl

/-- **One node does something for another one**: if the messages between the two
are as they should be, so are all others. -/
theorem Inv.act (h : Inv w log) (hz : z ≠ FREE_ENTRY) (hnode : w₀.node = w.node)
    (hchan : ∀ a b, ¬ (a = p ∧ b = z) → w₀.chan a b = w.chan a b) (hserves : Serves p (w.node z) c')
    (hreset : (c'.peer p).resetFlag = false) (hother : ∀ y, y ≠ p → signals.filterMap (Signal.datagram y) = [])
    (hevs : ∀ a b, ¬ (a = z ∧ b = p) → ¬ (a = p ∧ b = z) → Apart a b evs)
    (hto : Linked z p (w₀.after z (c', signals)) (log ++ evs))
    (hfrom : Linked p z (w₀.after z (c', signals)) (log ++ evs)) : Inv (w₀.after z (c', signals)) (log ++ evs) := by
  have hpeers : ∀ x ≠ FREE_ENTRY, ∀ y ≠ FREE_ENTRY, ¬ (x = z ∧ y = p) →
      ((w₀.after z (c', signals)).node x).peer y = (w.node x).peer y := fun x hx y hy hne => by
    rw [node_after, hnode]
    split_ifs with hxz
    · rw [hxz]
      exact hserves.others y hy fun hyp => hne ⟨hxz, hyp⟩
    · rfl
  have hchans : ∀ a b, ¬ (a = p ∧ b = z) → ¬ (a = z ∧ b = p) → (w₀.after z (c', signals)).chan a b = w.chan a b :=
    fun a b hpz hzp => by
      rw [chan_after, hchan a b hpz]
      split_ifs with haz
      · rw [hother b fun hbp => hzp ⟨haz, hbp⟩, List.append_nil]
      · rfl
  -- of the pairs of nodes only (z, p) and (p, z) are looked at, by `hto` and `hfrom`
  refine ⟨fun x hx => ?_, fun x hx => ?_, fun x hx y hy => ?_, fun x hx y hy hxy => ?_⟩
  · rw [node_after, hnode]
    split_ifs
    · exact hserves.sound
    · exact h.sound x hx
  · rw [node_after, hnode]
    split_ifs with hxz
    · rw [hxz]
      exact hserves.myAddr.trans (h.myAddr z hz)
    · exact h.myAddr x hx
  · by_cases hxy : x = z ∧ y = p
    · rw [node_after, if_pos hxy.1, hxy.2]
      exact hreset
    · rw [hpeers x hx y hy hxy]
      exact h.resetFlag x hx y hy
  · by_cases hzp : x = z ∧ y = p
    · rw [hzp.1, hzp.2]
      exact hto
    · by_cases hpz : x = p ∧ y = z
      · rw [hpz.1, hpz.2]
        exact hfrom
      · refine (h.linked x hx y hy hxy).keep (hevs x y hzp hpz) (hpeers x hx y hy hzp)
          (hpeers y hy x hx fun hyx => hpz ⟨hyx.2, hyx.1⟩) ?_ ?_
        · rw [hchans x y hpz hzp]
        · rw [hchans y x (fun hyx => hzp ⟨hyx.2, hyx.1⟩) fun hyx => hpz ⟨hyx.2, hyx.1⟩]

/-- Datagrams of a type keep their order. -/
theorem ofType_append (type : Byte) (l l' : List PoRadioMsg) : ofType type (l ++ l') = ofType type l ++ ofType type l' :=
  List.filter_append l l'

/-- Datagrams that are numbered are reliable ones. -/
theorem ofType_numbered {sent : List Sent} {base : Nat} {ms : List PoRadioMsg}
    (hms : ∀ m ∈ ms, ∃ n, base < n ∧ Is sent n m) :
    ofType PO_COMM_HDR_RELIABLE ms = ms ∧ ofType PO_COMM_HDR_ACK ms = [] := by
  have htype : ∀ m ∈ ms, m.type = PO_COMM_HDR_RELIABLE := fun m hm => by
    obtain ⟨n, -, s, i, -, rfl⟩ := hms m hm
    exact s.type_datagram n i
  refine ⟨List.filter_eq_self.mpr fun m hm => by simp [htype m hm], List.filter_eq_nil_iff.mpr fun m hm => ?_⟩
  rw [htype m hm]
  decide

/-- What a node sends to a peer is on its way to it, behind all else. -/
theorem chan_emitted {ms : List PoRadioMsg} {results : List (Byte × Int)} (hemits : Emits z p ms results signals) (c' : PoCommM)
    (w : Network) : (w.after z (c', signals)).chan z p = w.chan z p ++ ms := by
  rw [chan_after, if_pos rfl, hemits.datagrams, if_pos rfl]

/-- A node sends, and may have accepted a message. -/
theorem Inv.send {more : List Sent} (h : Inv w log) (hz : z ≠ FREE_ENTRY) (hp : p ≠ FREE_ENTRY) (hzp : z ≠ p)
    (hstep : ∀ {sent base}, Outgoing sent base ((w.node z).peer p) →
      Emitted z p (sent ++ more) base [] (w.node z) c' signals)
    (hsent : evs.filterMap (sentTo z p) = more.map Sent.entry) (hdone : evs.filterMap (deliveredTo z p) = [])
    (hreported : evs.filterMap (reportedTo z p) = []) (hevs : ∀ a b, ¬ (a = z ∧ b = p) → Apart a b evs) :
    Inv (w.after z (c', signals)) (log ++ evs) := by
  obtain ⟨sent, done, base, e, top, R, hsent', hdone', hlink⟩ := h.linked z hz p hp hzp
  obtain ⟨hserves, hout, hsame, ms, hemits, hms⟩ := hstep hlink.outgoing
  obtain ⟨hreliable, hack⟩ := ofType_numbered hms
  have hchan := chan_emitted hemits c' w
  have hback : (w.after z (c', signals)).chan p z = w.chan p z := by rw [chan_after, if_neg (Ne.symm hzp)]
  have hnode : (w.after z (c', signals)).node z = c' := by rw [node_after, if_pos rfl]
  have hnode' : (w.after z (c', signals)).node p = w.node p := by rw [node_after, if_neg (Ne.symm hzp)]
  refine h.act hz rfl (fun _ _ _ => rfl) hserves (hsame.resetFlag.trans (h.resetFlag z hz p hp))
    (fun y hy => by rw [hemits.datagrams, if_neg hy]) (fun a b hab _ => hevs a b hab) ?_ ?_
  · refine ⟨sent ++ more, done, base, e, top, R, ?_, ?_, ?_⟩
    · rw [List.filterMap_append, hsent', hsent, List.map_append]
    · rw [List.filterMap_append, hdone', hdone, List.append_nil]
    · rw [List.filterMap_append, hreported, List.append_nil, hnode, hnode', hchan, hback, ofType_append, hreliable]
      exact hlink.emit hout hms
  · refine (h.linked p hp z hz (Ne.symm hzp)).congr (hevs p z fun heq => hzp heq.1.symm) (fun hout => ?_) ?_ ?_ ?_
    · rwa [hnode']
    · rwa [hnode]
    · rw [hback]
    · rw [hchan, ofType_append, hack, List.append_nil]

/-! ## Datagrams that arrive -/

variable {m : PoRadioMsg} {ms : List PoRadioMsg} {hal : Hal}

/-- Reports of one node about one peer. -/
theorem filterMap_reported (z p : AddrType) (l : List (Byte × Int)) :
    (l.map fun (id, msgId) => Network.Event.reported z p id msgId).filterMap (reportedTo z p) = l := by
  induction l with
  | nil => rfl
  | cons r l ih => simp [reportedTo, ih]

/-- Deliveries from one peer to one node. -/
theorem filterMap_delivered (p z : AddrType) (l : List (Byte × List Byte)) :
    (l.map fun (id, msg) => Network.Event.delivered p z id msg).filterMap (deliveredTo p z) = l := by
  induction l with
  | nil => rfl
  | cons r l ih => simp [deliveredTo, ih]

/-- For other pairs of nodes they are nothing. -/
theorem apart_reported {a b : AddrType} (l : List (Byte × Int)) (hab : ¬ (a = z ∧ b = p)) :
    Apart a b (l.map fun (id, msgId) => Network.Event.reported z p id msgId) := by
  have hnot : ¬ (z = a ∧ p = b) := fun heq => hab ⟨heq.1.symm, heq.2.symm⟩
  refine .of_forall fun ev hev => ?_
  obtain ⟨r, -, rfl⟩ := List.mem_map.mp hev
  simp [sentTo, deliveredTo, reportedTo, hnot]

/-- Deliveries are nothing to other pairs either. -/
theorem apart_delivered {a b : AddrType} (l : List (Byte × List Byte)) (hab : ¬ (a = p ∧ b = z)) :
    Apart a b (l.map fun (id, msg) => Network.Event.delivered p z id msg) := by
  have hnot : ¬ (p = a ∧ z = b) := fun heq => hab ⟨heq.1.symm, heq.2.symm⟩
  refine .of_forall fun ev hev => ?_
  obtain ⟨r, -, rfl⟩ := List.mem_map.mp hev
  simp [sentTo, deliveredTo, reportedTo, hnot]

theorem ofType_cons_self (m : PoRadioMsg) (l : List PoRadioMsg) : ofType m.type (m :: l) = m :: ofType m.type l :=
  List.filter_cons_of_pos (by simp)

theorem ofType_cons_of_ne {type : Byte} (h : m.type ≠ type) (l : List PoRadioMsg) : ofType type (m :: l) = ofType type l :=
  List.filter_cons_of_neg (by simpa using h)

/-- The channel that the datagram was in. -/
theorem chan_shift_self (hchan : w.chan p z = m :: ms) : (w.shift p z).chan p z = ms := by
  rw [chan_shift, if_pos ⟨rfl, rfl⟩, hchan]
  rfl

/-- The others. -/
theorem chan_shift_of_ne {a b : AddrType} (h : ¬ (a = p ∧ b = z)) : (w.shift p z).chan a b = w.chan a b := by
  rw [chan_shift, if_neg h]

/-- An acknowledgement arrives from `p` at `z`. -/
theorem Inv.ackArrives (h : Inv w log) (hz : z ≠ FREE_ENTRY) (hp : p ≠ FREE_ENTRY) (hzp : z ≠ p)
    (hchan : w.chan p z = m :: ms) (hm : m.type = PO_COMM_HDR_ACK)
    (hstep : (w.node z).ackArrived hal p m = (c', signals)) :
    Inv ((w.shift p z).after z (c', signals)) (log ++ signals.filterMap (Network.Event.ofSignal z)) := by
  obtain ⟨sent, done, base, e, top, R, hsent, hdone, hlink⟩ := h.linked z hz p hp hzp
  have hhead : ofType PO_COMM_HDR_ACK (w.chan p z) = m :: ofType PO_COMM_HDR_ACK ms := by
    rw [hchan, ← hm, ofType_cons_self]
  rw [hhead] at hlink
  obtain ⟨a, ha, ha', hack, hacks⟩ := hlink.next_ack
  obtain ⟨results, ⟨hserves, hout, hsame, ms', hemits, hms'⟩, hresults⟩ :=
    ackArrived_spec z (h.sound z hz) hp hlink.outgoing hack.1 hack.2 ha ha' hstep
  obtain ⟨hreliable, hnoack⟩ := ofType_numbered hms'
  have hevs : signals.filterMap (Network.Event.ofSignal z) = results.map fun (id, msgId) => .reported z p id msgId := hemits.events
  have hzp' : ¬ (z = p ∧ p = z) := fun heq => hzp heq.1
  have hforth : ((w.shift p z).after z (c', signals)).chan z p = w.chan z p ++ ms' := by
    rw [chan_emitted hemits, chan_shift_of_ne hzp']
  have hback : ((w.shift p z).after z (c', signals)).chan p z = ms := by
    rw [chan_after, if_neg (Ne.symm hzp), chan_shift_self hchan]
  have hnode : ((w.shift p z).after z (c', signals)).node z = c' := by rw [node_after, if_pos rfl]
  have hnode' : ((w.shift p z).after z (c', signals)).node p = w.node p := by
    rw [node_after, if_neg (Ne.symm hzp)]
    rfl
  -- all that is seen are reports at z about p
  have hapart : ∀ a b, ¬ (a = z ∧ b = p) → Apart a b (signals.filterMap (Network.Event.ofSignal z)) := fun a b hab => by
    rw [hevs]
    exact apart_reported results hab
  refine h.act hz rfl (fun a b hab => chan_shift_of_ne hab) hserves (hsame.resetFlag.trans (h.resetFlag z hz p hp))
    (fun y hy => by rw [hemits.datagrams, if_neg hy]) (fun a b hab _ => hapart a b hab) ?_ ?_
  · have hsent' : (signals.filterMap (Network.Event.ofSignal z)).filterMap (sentTo z p) = [] := by
      rw [hevs, List.filterMap_map, List.filterMap_eq_nil_iff]
      intro r _
      rfl
    have hdone' : (signals.filterMap (Network.Event.ofSignal z)).filterMap (deliveredTo z p) = [] := by
      rw [hevs, List.filterMap_map, List.filterMap_eq_nil_iff]
      intro r _
      rfl
    have hreported' : (signals.filterMap (Network.Event.ofSignal z)).filterMap (reportedTo z p) = results := by
      rw [hevs, filterMap_reported]
    refine ⟨sent, done, a, e, top, R, ?_, ?_, ?_⟩
    · rw [List.filterMap_append, hsent', List.append_nil, hsent]
    · rw [List.filterMap_append, hdone', List.append_nil, hdone]
    · rw [List.filterMap_append, hreported', hnode, hnode', hforth, hback, ofType_append, hreliable]
      exact hlink.acknowledge ha hacks hout hms' hresults
  · refine (h.linked p hp z hz (Ne.symm hzp)).congr (hapart p z fun heq => hzp heq.1.symm) (fun hout => ?_) ?_ ?_ ?_
    · rwa [hnode']
    · rwa [hnode]
    · rw [hback, hchan, ofType_cons_of_ne]
      rw [hm]
      decide
    · rw [hforth, ofType_append, hnoack, List.append_nil]

/-- A reliable datagram arrives from `p` at `z`. -/
theorem Inv.reliableArrives (h : Inv w log) (hz : z ≠ FREE_ENTRY) (hp : p ≠ FREE_ENTRY) (hzp : z ≠ p)
    (hchan : w.chan p z = m :: ms) (hm : m.type = PO_COMM_HDR_RELIABLE) (hsmooth : Smooth hal p m (w.node z))
    (hstep : (w.node z).reliableArrived hal p m = some (c', signals)) :
    Inv ((w.shift p z).after z (c', signals)) (log ++ signals.filterMap (Network.Event.ofSignal z)) := by
  obtain ⟨sent, done, base, e, top, R, hsent, hdone, hlink⟩ := h.linked p hp z hz (Ne.symm hzp)
  have hhead : ofType PO_COMM_HDR_RELIABLE (w.chan p z) = m :: ofType PO_COMM_HDR_RELIABLE ms := by
    rw [hchan, ← hm, ofType_cons_self]
  rw [hhead] at hlink
  obtain ⟨n, his, hlow, hhigh, htotal, hdata⟩ := hlink.next_data
  obtain ⟨new, e', R', hreceived⟩ := reliableArrived_spec (h.sound z hz) hp hlink.incoming (h.resetFlag z hz p hp) his hlow
    hhigh hsmooth hstep
  have hsignals := hreceived.signals
  generalize hack : ackMsg m.ifId (BitVec.ofNat 8 e') false = ack at hsignals
  have hisack : IsAck e' ack := by
    rw [← hack]
    refine ⟨rfl, ?_⟩
    show ((PO_COMM_FLAGS_SW_ACKS ||| 0 : Byte) &&& PO_COMM_FLAGS_RESET != 0) = false
    rfl
  have hacktype : ack.type = PO_COMM_HDR_ACK := by
    rw [← hack]
    rfl
  have hdatagrams : ∀ y, signals.filterMap (Signal.datagram y) = if y = p then [ack] else [] := fun y => by
    have hnone : ((new.map Sent.content).map fun (id, msg) => Signal.msgArrived id p msg).filterMap (Signal.datagram y) = [] := by
      rw [List.filterMap_map, List.filterMap_eq_nil_iff]
      intro r _
      rfl
    rw [hsignals, List.filterMap_cons, hnone]
    by_cases hy : y = p
    · simp [Signal.datagram, hy]
    · simp [Signal.datagram, hy, Ne.symm hy]
  have hevs : signals.filterMap (Network.Event.ofSignal z) = (new.map Sent.content).map fun (id, msg) => .delivered p z id msg := by
    generalize new.map Sent.content = arrived at hsignals
    rw [hsignals, List.filterMap_cons_none rfl, List.filterMap_map, ← List.filterMap_eq_map]
    rfl
  have hzp' : ¬ (z = p ∧ p = z) := fun heq => hzp heq.1
  have hforth : ((w.shift p z).after z (c', signals)).chan z p = w.chan z p ++ [ack] := by
    rw [chan_after, if_pos rfl, hdatagrams, if_pos rfl, chan_shift_of_ne hzp']
  have hback : ((w.shift p z).after z (c', signals)).chan p z = ms := by
    rw [chan_after, if_neg (Ne.symm hzp), chan_shift_self hchan]
  have hnode : ((w.shift p z).after z (c', signals)).node z = c' := by rw [node_after, if_pos rfl]
  have hnode' : ((w.shift p z).after z (c', signals)).node p = w.node p := by
    rw [node_after, if_neg (Ne.symm hzp)]
    rfl
  -- what is sent is one acknowledgement, which is no data
  have hack₁ : ofType PO_COMM_HDR_ACK [ack] = [ack] := by rw [← hacktype, ofType_cons_self]; rfl
  have hack₂ : ofType PO_COMM_HDR_RELIABLE [ack] = [] := by
    rw [ofType_cons_of_ne]
    · rfl
    · rw [hacktype]
      decide
  -- all that is seen are deliveries from p at z
  have hapart : ∀ a b, ¬ (a = p ∧ b = z) → Apart a b (signals.filterMap (Network.Event.ofSignal z)) := fun a b hab => by
    rw [hevs]
    exact apart_delivered (new.map Sent.content) hab
  refine h.act hz rfl (fun a b hab => chan_shift_of_ne hab) hreceived.serves hreceived.resetFlag
    (fun y hy => by rw [hdatagrams, if_neg hy]) (fun a b _ hab => hapart a b hab) ?_ ?_
  · refine (h.linked z hz p hp hzp).congr (hapart z p fun heq => hzp heq.1) (fun hout => ?_) ?_ ?_ ?_
    · rw [hnode]
      exact hreceived.outgoing hout
    · rw [hnode']
      exact ⟨rfl, rfl, rfl, rfl⟩
    · rw [hforth, ofType_append, hack₂, List.append_nil]
    · rw [hback, hchan, ofType_cons_of_ne]
      rw [hm]
      decide
  · have hsent' : (signals.filterMap (Network.Event.ofSignal z)).filterMap (sentTo p z) = [] := by
      rw [hevs, List.filterMap_map, List.filterMap_eq_nil_iff]
      intro r _
      rfl
    have hreported' : (signals.filterMap (Network.Event.ofSignal z)).filterMap (reportedTo p z) = [] := by
      rw [hevs, List.filterMap_map, List.filterMap_eq_nil_iff]
      intro r _
      rfl
    have hdone' : (signals.filterMap (Network.Event.ofSignal z)).filterMap (deliveredTo p z) = new.map Sent.content := by
      rw [hevs, filterMap_delivered]
    refine ⟨sent, done ++ new, base, e', max top n, R', ?_, ?_, ?_⟩
    · rw [List.filterMap_append, hsent', List.append_nil, hsent]
    · rw [List.filterMap_append, hdone', hdone, List.map_append]
    · rw [List.filterMap_append, hreported', List.append_nil, hnode, hnode', hforth, hback, ofType_append, hack₁]
      exact hlink.receive htotal hdata hlink.outgoing hreceived.incoming hreceived.le hreceived.turn hreceived.waiting hisack

/-! ## Everything else -/

/-- Nothing is done for any peer. -/
theorem Inv.neutral (h : Inv w log)
    (hnode : ∀ x ≠ FREE_ENTRY, (w'.node x).Sound [] ∧ (w'.node x).myAddr = (w.node x).myAddr ∧
      ∀ y, (w'.node x).peer y = (w.node x).peer y)
    (hchan : ∀ a b, ofType PO_COMM_HDR_RELIABLE (w'.chan a b) = ofType PO_COMM_HDR_RELIABLE (w.chan a b) ∧
      ofType PO_COMM_HDR_ACK (w'.chan a b) = ofType PO_COMM_HDR_ACK (w.chan a b))
    (hevs : ∀ a b, a ≠ b → Apart a b evs) : Inv w' (log ++ evs) := by
  refine ⟨fun x hx => (hnode x hx).1, fun x hx => (hnode x hx).2.1.trans (h.myAddr x hx), fun x hx y hy => ?_,
    fun x hx y hy hxy => ?_⟩
  · rw [(hnode x hx).2.2 y]
    exact h.resetFlag x hx y hy
  · exact (h.linked x hx y hy hxy).keep (hevs x y hxy) ((hnode x hx).2.2 y) ((hnode y hy).2.2 x) (hchan x y).1 (hchan y x).2

/-- **A datagram is lost**: the sender has it still, if it is a reliable one, and
the next acknowledgement says what a lost one has said. -/
theorem Inv.lose (h : Inv w log) (hchan : w.chan x y = m :: ms) : Inv (w.shift x y) log := by
  refine ⟨h.sound, h.myAddr, h.resetFlag, fun a ha b hb hab => ?_⟩
  obtain ⟨sent, done, base, e, top, R, hsent, hdone, hlink⟩ := h.linked a ha b hb hab
  refine ⟨sent, done, base, e, top, R, hsent, hdone, ?_⟩
  show Link sent done _ base e top R ((w.node a).peer b) ((w.node b).peer a) _ _
  rw [chan_shift, chan_shift, hchan, List.tail_cons]
  by_cases hdata : a = x ∧ b = y
  · obtain ⟨rfl, rfl⟩ := hdata
    rw [if_pos ⟨rfl, rfl⟩, if_neg fun heq => hab heq.2]
    rw [hchan] at hlink
    by_cases hm : m.type = PO_COMM_HDR_RELIABLE
    · rw [← hm, ofType_cons_self, hm] at hlink
      exact hlink.loseData
    · rwa [ofType_cons_of_ne hm] at hlink
  · rw [if_neg hdata]
    by_cases hacks : b = x ∧ a = y
    · obtain ⟨rfl, rfl⟩ := hacks
      rw [if_pos ⟨rfl, rfl⟩]
      rw [hchan] at hlink
      by_cases hm : m.type = PO_COMM_HDR_ACK
      · rw [← hm, ofType_cons_self, hm] at hlink
        exact hlink.loseAck
      · rwa [ofType_cons_of_ne hm] at hlink
    · rwa [if_neg hacks]

/-- A signal that is no datagram changes no channel. -/
theorem after_cons {s : Signal} (hs : ∀ y, Signal.datagram y s = none) (z : AddrType) (w : Network) (c : PoCommM)
    (signals : List Signal) : w.after z (c, s :: signals) = w.after z (c, signals) := by
  have hsame : (fun y => w.chan z y ++ (s :: signals).filterMap (Signal.datagram y)) =
      fun y => w.chan z y ++ signals.filterMap (Signal.datagram y) := by
    funext y
    rw [List.filterMap_cons_none (hs y)]
  show Network.mk _ (Function.update w.chan z _) = Network.mk _ (Function.update w.chan z _)
  rw [hsame]

/-- Signals that are seen at one node only. -/
theorem apart_of_self {z : AddrType} (hself : ∀ ev ∈ evs, ∃ id msgId msg k, ev = .sent z z id msgId msg ∨
    ev = .delivered z z id msg ∨ ev = .reported z z id k) {a b : AddrType} (hab : a ≠ b) : Apart a b evs := by
  have hnot : ¬ (z = a ∧ z = b) := fun heq => hab (heq.1.symm.trans heq.2)
  refine .of_forall fun ev hev => ?_
  obtain ⟨id, msgId, msg, k, rfl | rfl | rfl⟩ := hself ev hev <;> simp [sentTo, deliveredTo, reportedTo, hnot]

/-! ## The moves -/

/-- A message of a node to itself waits in a buffer of its own. -/
theorem sendMsg_self {c : PoCommM} {id msgId : Byte} {msg : PoMsg} {retries code : Int} (hself : c.myAddr = y)
    (hstep : c.sendMsg hal id y msg retries = some ((code, msgId), c', signals)) :
    signals = [] ∧ (c'.myAddr = c.myAddr ∧ c'.addrInfo = c.addrInfo ∧ c'.addrInfoTableLen = c.addrInfoTableLen ∧
      c'.msgNodes = c.msgNodes ∧ c'.fragmNodes = c.fragmNodes) ∧
      c'.localMsgBuf.toList = c.localMsgBuf.toList ++ if code = PO_COMM_OK then [⟨id, msgId.toNat, msg⟩] else [] := by
  unfold PoCommM.sendMsg at hstep
  by_cases hstarted : c.myAddr = 0xffff
  · rw [if_pos hstarted] at hstep
    cases hstep
    exact ⟨rfl, ⟨rfl, rfl, rfl, rfl, rfl⟩, (List.append_nil _).symm⟩
  · rw [if_neg hstarted, if_pos hself.symm] at hstep
    dsimp only at hstep
    split at hstep
    · cases hstep
      exact ⟨rfl, ⟨rfl, rfl, rfl, rfl, rfl⟩, RingQueue.toList_push _⟩
    · cases hstep
      exact ⟨rfl, ⟨rfl, rfl, rfl, rfl, rfl⟩, (List.append_nil _).symm⟩

/-- **A message is sent**, to a peer or to the node itself. -/
theorem Inv.sendMsg {id : Byte} {msg : PoMsg} {retries : Int} (h : Inv w log) (hx : x ≠ FREE_ENTRY) (hy : y ≠ FREE_ENTRY)
    (hstep : Network.step w (.sendMsg x hal id y msg retries) = some w') :
    Inv w' (log ++ events w (.sendMsg x hal id y msg retries)) := by
  cases hsend : (w.node x).sendMsg hal id y msg retries with
  | none => simp [Network.step, call, hsend] at hstep
  | some result =>
      obtain ⟨⟨code, msgId⟩, c', signals⟩ := result
      have hw : w' = w.after x (c', signals) := by simpa [Network.step, call, hsend] using hstep.symm
      have hevs : events w (.sendMsg x hal id y msg retries) =
          (if code = PO_COMM_OK then [.sent x y id msgId msg.data] else []) ++ signals.filterMap (Network.Event.ofSignal x) := by
        simp [events, call, hsend]
      rw [hw, hevs]
      have hmyAddr := h.myAddr x hx
      by_cases hxy : y = x
      · -- a message to the node itself waits in its own buffer
        subst hxy
        obtain ⟨hsignals, ⟨hself, hentries, hlen, hmsgs, hfragms⟩, -⟩ := sendMsg_self hmyAddr hsend
        obtain ⟨hsound, hpeers⟩ := (h.sound y hx).congr hentries hlen hmsgs hfragms
        subst hsignals
        refine h.neutral (fun x' hx' => ?_) (fun a b => ?_) fun a b hab => ?_
        · rw [node_after]
          split_ifs with heq
          · subst heq
            exact ⟨hsound, hself, hpeers⟩
          · exact ⟨h.sound x' hx', rfl, fun _ => rfl⟩
        · rw [chan_after]
          split_ifs
          · simp
          · exact ⟨rfl, rfl⟩
        · refine apart_of_self (z := y) (fun ev hev => ?_) hab
          split_ifs at hev
          · simp at hev
            exact ⟨id, msgId, msg.data, 0, .inl hev⟩
          · simp at hev
      · obtain ⟨sent, done, base, e, top, R, -, -, hlink⟩ := h.linked x hx y hy (Ne.symm hxy)
        have hspec : ∀ {sent base}, Outgoing sent base ((w.node x).peer y) →
            Emitted x y (sent ++ if code = PO_COMM_OK then [⟨id, msgId, msg⟩] else []) base [] (w.node x) c' signals :=
          fun hout => sendMsg_spec x (h.sound x hx) hy (by rwa [hmyAddr]) hout (h.resetFlag x hx y hy) hsend
        have hnone : signals.filterMap (Network.Event.ofSignal x) = [] := by
          obtain ⟨-, -, -, ms, hemits, -⟩ := hspec hlink.outgoing
          exact hemits.events
        rw [hnone, List.append_nil]
        refine h.send hx hy (Ne.symm hxy) hspec ?_ ?_ ?_ fun a b hab => ?_
        · split_ifs
          · simp [sentTo, Sent.entry]
          · rfl
        · split_ifs
          · rfl
          · rfl
        · split_ifs
          · rfl
          · rfl
        · have hnot : ¬ (x = a ∧ y = b) := fun heq => hab ⟨heq.1.symm, heq.2.symm⟩
          split_ifs
          · refine ⟨?_, rfl, rfl⟩
            simp [sentTo, hnot]
          · exact ⟨rfl, rfl, rfl⟩

/-- A timer fires at `z` for a datagram that it has sent to `p`. -/
theorem Inv.msgTimerFired {sqn : Byte} (h : Inv w log) (hz : z ≠ FREE_ENTRY) (hp : p ≠ FREE_ENTRY) (hzp : z ≠ p)
    (htimer : hal.setMsgTimer sqn = true) (hstep : (w.node z).msgTimerFired hal p sqn = (c', signals)) :
    Inv (w.after z (c', signals)) (log ++ signals.filterMap (Network.Event.ofSignal z)) := by
  have hspec : ∀ {sent base}, Outgoing sent base ((w.node z).peer p) →
      Emitted z p (sent ++ []) base [] (w.node z) c' signals := fun {sent base} hout => by
    rw [List.append_nil]
    exact msgTimerFired_spec z (h.sound z hz) hp hout htimer hstep
  obtain ⟨sent, done, base, e, top, R, -, -, hlink⟩ := h.linked z hz p hp hzp
  have hnone : signals.filterMap (Network.Event.ofSignal z) = [] := by
    obtain ⟨-, -, -, ms, hemits, -⟩ := hspec hlink.outgoing
    exact hemits.events
  rw [hnone]
  exact h.send hz hp hzp hspec rfl rfl rfl fun a b _ => ⟨rfl, rfl, rfl⟩

/-- Every datagram is shown to the network manager, and the reliable ones and
their acknowledgements are more than that. -/
theorem msgArrived_cases {c : PoCommM} (hstep : c.msgArrived hal x m = some (c', signals)) :
    ∃ rest, signals = .datagramArrived PO_NWKMNGR_IF_ID x [] :: rest ∧
      (m.type = PO_COMM_HDR_RELIABLE ∧ c.reliableArrived hal x m = some (c', rest) ∨
        m.type = PO_COMM_HDR_ACK ∧ c.ackArrived hal x m = (c', rest) ∨
        m.type ≠ PO_COMM_HDR_RELIABLE ∧ m.type ≠ PO_COMM_HDR_ACK ∧ c' = c ∧
          ∀ s ∈ rest, ∃ id msg, s = .datagramArrived id x msg) := by
  unfold PoCommM.msgArrived at hstep
  obtain ⟨⟨c₁, rest⟩, harrived, heq⟩ := Option.map_eq_some_iff.mp hstep
  cases heq
  refine ⟨rest, rfl, ?_⟩
  split_ifs at harrived with hdatagram hshort hreliable hshort' hack hshort''
  · cases harrived
    rw [hdatagram]
    exact .inr (.inr ⟨by decide, by decide, rfl, fun s hs => ⟨_, _, List.mem_singleton.mp hs⟩⟩)
  · exact .inl ⟨hreliable, harrived⟩
  · exact .inr (.inl ⟨hack, Option.some.inj harrived⟩)
  · cases harrived
    exact .inr (.inr ⟨hreliable, hack, rfl, fun s hs => by cases hs⟩)

/-- Datagrams that are handed over are neither sent nor seen. -/
theorem unseen_of_datagrams {rest : List Signal} (hrest : ∀ s ∈ rest, ∃ id msg, s = .datagramArrived id x msg) (z : AddrType) :
    rest.filterMap (Network.Event.ofSignal z) = [] ∧ ∀ b, rest.filterMap (Signal.datagram b) = [] := by
  refine ⟨?_, fun b => ?_⟩
  · rw [List.filterMap_eq_nil_iff]
    intro s hs
    obtain ⟨id, msg, rfl⟩ := hrest s hs
    rfl
  · rw [List.filterMap_eq_nil_iff]
    intro s hs
    obtain ⟨id, msg, rfl⟩ := hrest s hs
    rfl

/-- A node that has only given signals is as it was. -/
theorem node_after_self (z x : AddrType) (w : Network) (signals : List Signal) :
    (w.after z (w.node z, signals)).node x = w.node x := by
  rw [node_after]
  split_ifs with hx
  · rw [hx]
  · rfl

/-- **A datagram arrives**: reliable ones, acknowledgements and those without a
promise. -/
theorem Inv.arrive (h : Inv w log) (hx : x ≠ FREE_ENTRY) (hy : y ≠ FREE_ENTRY) (hxy : x ≠ y)
    (hsmooth : ∀ m ∈ (w.chan x y).head?, m.type = PO_COMM_HDR_RELIABLE → Smooth hal x m (w.node y))
    (hstep : Network.step w (.arrive x y hal) = some w') : Inv w' (log ++ events w (.arrive x y hal)) := by
  cases hchan : w.chan x y with
  | nil => simp [Network.step, call, hchan] at hstep
  | cons m ms =>
      cases harrived : (w.node y).msgArrived hal x m with
      | none => simp [Network.step, call, hchan, harrived] at hstep
      | some result =>
          obtain ⟨c', signals⟩ := result
          have hw : w' = (w.shift x y).after y (c', signals) := by
            simpa [Network.step, call, hchan, harrived] using hstep.symm
          have hevs : events w (.arrive x y hal) = signals.filterMap (Network.Event.ofSignal y) := by
            simp [events, call, hchan, harrived]
          rw [hw, hevs]
          obtain ⟨rest, rfl, hcases⟩ := msgArrived_cases harrived
          rw [after_cons (fun _ => rfl), List.filterMap_cons_none rfl]
          obtain ⟨hm, hreliable⟩ | ⟨hm, hack⟩ | ⟨hreliable, hack, rfl, hrest⟩ := hcases
          · exact h.reliableArrives hy hx (Ne.symm hxy) hchan hm (hsmooth m (by rw [hchan]; rfl) hm) hreliable
          · exact h.ackArrives hy hx (Ne.symm hxy) hchan hm hack
          · -- a datagram without a promise
            obtain ⟨hevents, hdatagrams⟩ := unseen_of_datagrams hrest y
            have hchans : ∀ a b, ((w.shift x y).after y (w.node y, rest)).chan a b = (w.shift x y).chan a b :=
              fun a b => by
                rw [chan_after, hdatagrams, List.append_nil, ite_self]
            rw [hevents]
            refine h.neutral (fun z hz => ?_) (fun a b => ?_) fun a b _ => ⟨rfl, rfl, rfl⟩
            · rw [show ((w.shift x y).after y (w.node y, rest)).node z = w.node z from
                node_after_self y z (w.shift x y) rest]
              exact ⟨h.sound z hz, rfl, fun _ => rfl⟩
            · rw [hchans, chan_shift]
              split_ifs with hab
              · rw [hab.1, hab.2, hchan, ofType_cons_of_ne hreliable, ofType_cons_of_ne hack]
                exact ⟨rfl, rfl⟩
              · exact ⟨rfl, rfl⟩

/-- Datagrams without a promise, of which nothing is seen. -/
theorem sendDatagram_signals (hal : Hal) (id : Byte) (x y : AddrType) (beMsg : PoMsg) :
    (∀ b, ∀ m ∈ (PoCommM.sendDatagram hal id y beMsg).2.filterMap (Signal.datagram b), m.type = PO_COMM_HDR_DATAGRAM) ∧
      (PoCommM.sendDatagram hal id y beMsg).2.filterMap (Network.Event.ofSignal x) = [] := by
  have hsignals : ∀ s ∈ (PoCommM.sendDatagram hal id y beMsg).2, ∃ m : PoRadioMsg,
      m.type = PO_COMM_HDR_DATAGRAM ∧ s = .sendMsg y m := fun s hs => by
    unfold PoCommM.sendDatagram at hs
    dsimp only at hs
    split_ifs at hs
    · cases hs
    · exact ⟨_, rfl, List.mem_singleton.mp hs⟩
    · cases hs
  refine ⟨fun b m hm => ?_, ?_⟩
  · obtain ⟨s, hs, hdatagram⟩ := List.mem_filterMap.mp hm
    obtain ⟨m', hm', rfl⟩ := hsignals s hs
    dsimp only [Signal.datagram] at hdatagram
    split_ifs at hdatagram
    cases hdatagram
    exact hm'
  · rw [List.filterMap_eq_nil_iff]
    intro s hs
    obtain ⟨m, -, rfl⟩ := hsignals s hs
    rfl

/-- A datagram without a promise is sent; it is neither of the two types that
count. -/
theorem Inv.sendDatagram {id : Byte} {beMsg : PoMsg} (h : Inv w log) :
    Inv (w.after x (w.node x, (PoCommM.sendDatagram hal id y beMsg).2))
      (log ++ (PoCommM.sendDatagram hal id y beMsg).2.filterMap (Network.Event.ofSignal x)) := by
  obtain ⟨htypes, hevents⟩ := sendDatagram_signals hal id x y beMsg
  generalize (PoCommM.sendDatagram hal id y beMsg).2 = signals at htypes hevents
  have hnone : ∀ type ≠ PO_COMM_HDR_DATAGRAM, ∀ b, ofType type (signals.filterMap (Signal.datagram b)) = [] :=
    fun type htype b => List.filter_eq_nil_iff.mpr fun m hm => by
      rw [htypes b m hm, decide_eq_true_eq]
      exact Ne.symm htype
  rw [hevents]
  refine h.neutral (fun z hz => ?_) (fun a b => ?_) fun a b _ => ⟨rfl, rfl, rfl⟩
  · rw [node_after_self]
    exact ⟨h.sound z hz, rfl, fun _ => rfl⟩
  · rw [chan_after]
    split_ifs
    · rw [ofType_append, ofType_append, hnone _ (by decide), hnone _ (by decide), List.append_nil, List.append_nil]
      exact ⟨rfl, rfl⟩
    · exact ⟨rfl, rfl⟩

/-- The first message of a node to itself is delivered and reported. -/
theorem processLocalMsg_cases {c : PoCommM} (hstep : c.processLocalMsg = (c', signals)) :
    (c'.myAddr = c.myAddr ∧ c'.addrInfo = c.addrInfo ∧ c'.addrInfoTableLen = c.addrInfoTableLen ∧
      c'.msgNodes = c.msgNodes ∧ c'.fragmNodes = c.fragmNodes) ∧
      ∃ first : Option LocalMsg, c.localMsgBuf.toList = first.toList ++ c'.localMsgBuf.toList ∧
        signals = first.elim [] fun tempMsg =>
          [.MsgSendresult tempMsg.ifId c.myAddr tempMsg.msgId PO_COMM_SENDRESULT_OK,
            .msgArrived tempMsg.ifId c.myAddr tempMsg.localMsg.data] := by
  unfold PoCommM.processLocalMsg at hstep
  dsimp only at hstep
  split_ifs at hstep with hcount
  · cases hstep
    refine ⟨⟨rfl, rfl, rfl, rfl, rfl⟩, some (c.localMsgBuf.cell c.localMsgBuf.head), ?_, rfl⟩
    show _ = _ ++ c.localMsgBuf.pop.toList
    rw [RingQueue.toList_pop]
    exact (List.cons_head?_tail (RingQueue.head?_toList hcount)).symm
  · cases hstep
    exact ⟨⟨rfl, rfl, rfl, rfl, rfl⟩, none, rfl, rfl⟩

/-- A message to the node itself is delivered, which is nothing between two
nodes. -/
theorem Inv.processLocalMsg (h : Inv w log) (hx : x ≠ FREE_ENTRY)
    (hstep : (w.node x).processLocalMsg = (c', signals)) :
    Inv (w.after x (c', signals)) (log ++ signals.filterMap (Network.Event.ofSignal x)) := by
  obtain ⟨⟨hself, hentries, hlen, hmsgs, hfragms⟩, first, -, hlocal⟩ := processLocalMsg_cases hstep
  rw [h.myAddr x hx] at hlocal
  have hsignals : ∀ s ∈ signals, ∃ id msgId msg,
      s = .MsgSendresult id x msgId PO_COMM_SENDRESULT_OK ∨ s = .msgArrived id x msg := fun s hs => by
    rw [hlocal] at hs
    cases first with
    | none => cases hs
    | some tempMsg =>
        simp only [Option.elim_some, List.mem_cons, List.not_mem_nil, or_false] at hs
        exact ⟨_, _, _, hs⟩
  obtain ⟨hsound, hpeers⟩ := (h.sound x hx).congr hentries hlen hmsgs hfragms
  refine h.neutral (fun z hz => ?_) (fun a b => ?_) fun a b hab => apart_of_self (z := x) (fun ev hev => ?_) hab
  · rw [node_after]
    split_ifs with heq
    · rw [heq]
      exact ⟨hsound, hself, hpeers⟩
    · exact ⟨h.sound z hz, rfl, fun _ => rfl⟩
  · have hnone : signals.filterMap (Signal.datagram b) = [] := by
      rw [List.filterMap_eq_nil_iff]
      intro s hs
      obtain ⟨id, msgId, msg, rfl | rfl⟩ := hsignals s hs <;> rfl
    rw [chan_after, hnone, List.append_nil, ite_self]
    exact ⟨rfl, rfl⟩
  · obtain ⟨s, hs, hev⟩ := List.mem_filterMap.mp hev
    obtain ⟨id, msgId, msg, rfl | rfl⟩ := hsignals s hs
    · cases hev
      exact ⟨id, 0, [], msgId, .inr (.inr rfl)⟩
    · cases hev
      exact ⟨id, 0, msg, 0, .inr (.inl rfl)⟩

end Pobicos.Transport
