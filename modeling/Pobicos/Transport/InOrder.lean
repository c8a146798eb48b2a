import Pobicos.Transport.Delivery

/-!
# Pobicos.Transport.InOrder

What `PoCommM` promises on every calm run of any number of nodes.

* The messages that are delivered are the first ones of those that have been
  accepted, in their order, each of them once and with the bytes that it was sent
  with (`delivered_in_order`).
* A message that has been reported as sent has been delivered (`reported_arrived`).
* When the sender keeps nothing any more, nothing has been lost (`all_delivered`).
-/

namespace Pobicos.Transport

open Octets Middleware SlidingWindow PoCommM Network

variable {w w' : Network} {log : List Network.Event} {x y : AddrType}

/-! ## Every run -/

theorem inv_boot : Inv boot [] := by
  refine ⟨fun x _ => sound_joined x, fun _ _ => rfl, fun x _ y hy => ?_, fun x hx y hy _ => ?_⟩
  · show ((joined x).peer y).resetFlag = false
    rw [peer_joined hy]
    rfl
  · refine ⟨[], [], 0, 0, 0, fun _ => False, rfl, rfl, ?_⟩
    show Link [] [] [] 0 0 0 _ ((joined x).peer y) ((joined y).peer x) [] []
    rw [peer_joined hy, peer_joined hx]
    refine ⟨⟨rfl, rfl, Nat.le_refl 0, Nat.zero_le _, .empty fun n hn => ?_⟩,
      ⟨rfl, within_nil, Nat.le_refl 0, fun _ hn => hn.elim, .empty fun _ hn => hn, .empty fun n hn => ?_⟩,
      ⟨[], .nil, fresh_nil _ _⟩, Nat.le_refl 0, Nat.le_refl 0, fun _ hn => hn.elim, ⟨[], .nil, ?_⟩, List.Perm.refl _⟩
    · rw [total_nil] at hn
      omega
    · obtain ⟨-, -, s, r, hat, -⟩ := hn
      have hle := hat.le
      have hpos := hat.pos
      rw [total_nil] at hle
      omega
    · simp

/-- **Every calm move keeps it.** -/
theorem Inv.step {a : Move} (h : Inv w log) (hcalm : Calm w a) (hstep : Network.step w a = some w') :
    Inv w' (log ++ events w a) := by
  cases a with
  | sendMsg x hal id y msg retries => exact h.sendMsg hcalm.1 hcalm.2 hstep
  | sendDatagram x hal id y beMsg =>
      cases hstep
      exact h.sendDatagram
  | arrive x y hal =>
      obtain ⟨hx, hy, hxy, hsmooth⟩ := hcalm
      exact h.arrive hx hy hxy hsmooth hstep
  | lose x y =>
      cases hchan : w.chan x y with
      | nil => simp [Network.step, hchan] at hstep
      | cons m ms =>
          have hw : w' = w.shift x y := by simpa [Network.step, hchan] using hstep.symm
          rw [hw, show events w (.lose x y) = [] from rfl, List.append_nil]
          exact h.lose hchan
  | msgTimerFired x hal y sqn =>
      obtain ⟨hx, hy, hxy, htimer⟩ := hcalm
      cases hstep
      exact h.msgTimerFired hx hy hxy htimer rfl
  | processLocalMsg x =>
      cases hstep
      exact h.processLocalMsg hcalm rfl
  | nodeRemoved x y => exact hcalm.elim

/-! ## What is promised -/

variable {as : List Move}

/-- All that is seen on a run from the start. -/
def seen (as : List Move) : List Network.Event := Lts.trace Network.step events boot as

/-- **The invariant holds on every calm run.** -/
theorem inv_of_run (hcalm : Lts.Along Network.step Calm boot as) (hrun : Lts.run Network.step boot as = some w) :
    Inv w (seen as) := by
  have h := Lts.trace_induct (P := Inv) (fun _ _ _ _ h hcalm hstep => h.step hcalm hstep) hcalm inv_boot hrun
  rwa [List.nil_append] at h

/-- The lower layer takes every datagram, and no timer runs. -/
def willing : Hal := ⟨fun _ => true, fun _ => true, fun _ => false⟩

/-- A message in two datagrams: the first one is lost, and sent again when the
acknowledgement of the second one says so. -/
def lossy : List Move :=
  [.sendMsg 1 willing 7 2 ⟨List.replicate 50 0xaa, by decide⟩ 3, .lose 1 2, .arrive 1 2 willing, .arrive 2 1 willing,
    .arrive 1 2 willing, .arrive 2 1 willing]

/-- Losing a datagram is calm. -/
theorem calm_lossy : Lts.Along Network.step Calm boot lossy := by decide +kernel

/-- At the end everything has been acknowledged. -/
theorem settles_lossy : ∃ w, Lts.run Network.step boot lossy = some w ∧ ∀ j, ((w.node 1).peer 2).sent j = none :=
  ⟨_, rfl, by decide +kernel⟩

/-- **Messages arrive in their order, once, and as they were sent.** -/
theorem delivered_in_order (hcalm : Lts.Along Network.step Calm boot as) (hrun : Lts.run Network.step boot as = some w)
    (hx : x ≠ FREE_ENTRY) (hy : y ≠ FREE_ENTRY) (hxy : x ≠ y) :
    (seen as).filterMap (deliveredTo x y) <+:
      ((seen as).filterMap (sentTo x y)).map fun (id, _, msg) => (id, msg) := by
  obtain ⟨sent, done, base, e, top, R, hsent, hdone, hlink⟩ := (inv_of_run hcalm hrun).linked x hx y hy hxy
  rw [hsent, hdone, List.map_map]
  exact hlink.incoming.within.isPrefix.map Sent.content

theorem delivered_in_order_lossy : (seen lossy).filterMap (deliveredTo 1 2) <+:
    ((seen lossy).filterMap (sentTo 1 2)).map fun (id, _, msg) => (id, msg) := by
  obtain ⟨w, hrun, -⟩ := settles_lossy
  exact delivered_in_order calm_lossy hrun (by decide) (by decide) (by decide)

/-- What has been reported are the first messages, and all of them have been
delivered. -/
theorem Link.reported_done {sent done : List Sent} {reported : List (Byte × Int)} {base e top : Nat} {R : Nat → Prop}
    {q q' : Peer} {data acks : List PoRadioMsg} (h : Link sent done reported base e top R q q' data acks) :
    ∃ k ≤ done.length, reported.Perm ((sent.take k).map Sent.key) := by
  have hwithin := h.incoming.within
  have hbase : (marks sent).take base <+: (marks sent).take e := List.take_prefix_take_left h.base_le
  have hprefix : ((marks sent).take base).filterMap id <+: done.map Sent.key := by
    rw [← hwithin.ended]
    exact hbase.filterMap id
  generalize hk : (((marks sent).take base).filterMap id).length = k
  have hle : k ≤ done.length := by
    have hlen := hprefix.length_le
    rwa [List.length_map, hk] at hlen
  have htake : sent.take k = done.take k := by
    obtain ⟨rest, hrest⟩ := hwithin.isPrefix
    rw [← hrest, List.take_append_of_le_length hle]
  refine ⟨k, hle, h.reported.trans (List.Perm.of_eq ?_)⟩
  rw [htake, List.map_take, ← hk]
  exact List.prefix_iff_eq_take.mp hprefix

/-- **What has been reported has arrived**: the messages that `x` has been told
of are the first ones, and no more of them than have been delivered at `y`. -/
theorem reported_arrived (hcalm : Lts.Along Network.step Calm boot as) (hrun : Lts.run Network.step boot as = some w)
    (hx : x ≠ FREE_ENTRY) (hy : y ≠ FREE_ENTRY) (hxy : x ≠ y) :
    ∃ k ≤ ((seen as).filterMap (deliveredTo x y)).length,
      ((seen as).filterMap (reportedTo x y)).Perm
        ((((seen as).filterMap (sentTo x y)).take k).map fun (id, msgId, _) => (id, (msgId.toNat : Int))) := by
  obtain ⟨sent, done, base, e, top, R, hsent, hdone, hlink⟩ := (inv_of_run hcalm hrun).linked x hx y hy hxy
  obtain ⟨k, hk, hperm⟩ := hlink.reported_done
  rw [hsent, hdone, List.length_map]
  refine ⟨k, hk, ?_⟩
  rw [← List.map_take, List.map_map]
  exact hperm

theorem reported_arrived_lossy : ∃ k ≤ ((seen lossy).filterMap (deliveredTo 1 2)).length,
    ((seen lossy).filterMap (reportedTo 1 2)).Perm
      ((((seen lossy).filterMap (sentTo 1 2)).take k).map fun (id, msgId, _) => (id, (msgId.toNat : Int))) := by
  obtain ⟨w, hrun, -⟩ := settles_lossy
  exact reported_arrived calm_lossy hrun (by decide) (by decide) (by decide)

/-- A message and one in two datagrams, of which the very first datagram is lost. -/
def overtaken : List Move :=
  [.sendMsg 1 willing 7 2 ⟨[0xbb], by decide⟩ 3, .sendMsg 1 willing 7 2 ⟨List.replicate 50 0xaa, by decide⟩ 3, .lose 1 2,
    .arrive 1 2 willing, .arrive 1 2 willing, .lose 2 1, .arrive 2 1 willing, .arrive 1 2 willing, .arrive 2 1 willing]

/-- **A message that is complete ahead of its turn is dropped**, and is reported
all the same. -/
theorem reported_never_delivered : (Lts.run Network.step boot overtaken).isSome ∧
    (seen overtaken).filterMap (reportedTo 1 2) = [(7, 0), (7, 1)] ∧
    (seen overtaken).filterMap (deliveredTo 1 2) = [(7, [0xbb])] := by
  decide +kernel

/-- A sender that keeps nothing knows of everything that it has arrived. -/
theorem Link.settled {sent done : List Sent} {reported : List (Byte × Int)} {base e top : Nat} {R : Nat → Prop}
    {q q' : Peer} {data acks : List PoRadioMsg} (h : Link sent done reported base e top R q q' data acks)
    (hsent : ∀ j, q.sent j = none) : done = sent ∧ reported.Perm (sent.map Sent.key) := by
  have hbase : base = total sent := by
    have hle := h.outgoing.le
    by_contra hne
    obtain ⟨j, node, hj, -⟩ := h.outgoing.sent.slot (n := base + 1) ⟨by omega, by omega⟩
    rw [hsent j] at hj
    cases hj
  have hwithin := h.incoming.within
  have he := h.base_le
  refine ⟨?_, ?_⟩
  · obtain ⟨rest, hrest⟩ := hwithin.isPrefix
    cases rest with
    | nil => rwa [List.append_nil] at hrest
    | cons s rest =>
        have hlt := hwithin.lt s rest hrest.symm
        rw [← hrest, total_append, total_cons] at hbase
        omega
  · rw [← filterMap_marks, ← List.take_of_length_le (l := marks sent) (i := base) (by rw [length_marks, hbase])]
    exact h.reported

/-- **Nothing is lost**: when `x` keeps no datagram for `y` any more, all that it
has accepted has been delivered and reported. -/
theorem all_delivered (hcalm : Lts.Along Network.step Calm boot as) (hrun : Lts.run Network.step boot as = some w)
    (hx : x ≠ FREE_ENTRY) (hy : y ≠ FREE_ENTRY) (hxy : x ≠ y) (hsettled : ∀ j, ((w.node x).peer y).sent j = none) :
    (seen as).filterMap (deliveredTo x y) = ((seen as).filterMap (sentTo x y)).map (fun (id, _, msg) => (id, msg)) ∧
      ((seen as).filterMap (reportedTo x y)).Perm
        (((seen as).filterMap (sentTo x y)).map fun (id, msgId, _) => (id, (msgId.toNat : Int))) := by
  obtain ⟨sent, done, base, e, top, R, hsent, hdone, hlink⟩ := (inv_of_run hcalm hrun).linked x hx y hy hxy
  obtain ⟨rfl, hperm⟩ := hlink.settled hsettled
  rw [hsent, hdone, List.map_map, List.map_map]
  exact ⟨rfl, hperm⟩

theorem all_delivered_lossy :
    (seen lossy).filterMap (deliveredTo 1 2) = ((seen lossy).filterMap (sentTo 1 2)).map (fun (id, _, msg) => (id, msg)) ∧
      ((seen lossy).filterMap (reportedTo 1 2)).Perm
        (((seen lossy).filterMap (sentTo 1 2)).map fun (id, msgId, _) => (id, (msgId.toNat : Int))) := by
  obtain ⟨w, hrun, hsettled⟩ := settles_lossy
  exact all_delivered calm_lossy hrun (by decide) (by decide) (by decide) hsettled

end Pobicos.Transport
