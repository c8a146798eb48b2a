import Mathlib.Data.List.Forall2
import Pobicos.Transport.Emission
import Pobicos.Transport.Reception

/-!
# Pobicos.Transport.Link

The two ends of the messages from one node to another, and what is on its way
between them.

`Link` says how what the sender has, what the receiver has and the two channels
fit together; every lemma on it is about one thing that can happen.
-/

namespace Pobicos.Transport

open Octets Middleware SlidingWindow PoCommM

/-! ## A reliable datagram that arrives -/

/-- A reliable datagram is received without failing, is acknowledged, and does not
spoil the receive buffer. -/
def Smooth (hal : Hal) (addr : AddrType) (m : PoRadioMsg) (c : PoCommM) : Prop :=
  match c.getAddrInfo addr with
  | none => True
  | some (i, c) =>
      ¬ Draft.Spoils m ⟨c, c.addrInfo i⟩ ∧
        match Draft.receive m ⟨c, c.addrInfo i⟩ with
        | .error .outside => True
        | .error (.fail _) => False
        | .ok (ackSeqNum, _, d) => hal.accepts (ackMsg m.ifId ackSeqNum d.info.resetFlag) = true

instance (hal : Hal) (addr : AddrType) (m : PoRadioMsg) (c : PoCommM) : Decidable (Smooth hal addr m c) := by
  unfold Smooth
  cases c.getAddrInfo addr with
  | none => infer_instance
  | some found =>
      obtain ⟨i, c⟩ := found
      dsimp only
      obtain (_ | _) | ⟨ack, arrived, d⟩ := Draft.receive m ⟨c, c.addrInfo i⟩ <;> infer_instance

variable {c c' : PoCommM} {x y z : AddrType} {sent done : List Sent} {base e n top : Nat} {R : Nat → Prop}
  {m : PoRadioMsg} {signals : List Signal} {hal : Hal}

/-- The datagrams up to `e'` have been taken with the datagram number `n`, the
messages `new` have arrived, and what is kept for sending is as it was. -/
structure Received (x : AddrType) (sent done : List Sent) (e n : Nat) (R : Nat → Prop) (c c' : PoCommM) (ifId : Byte)
    (signals : List Signal) (new : List Sent) (e' : Nat) (R' : Nat → Prop) : Prop where
  serves : Serves x c c'
  outgoing : ∀ {sent base}, Outgoing sent base (c.peer x) → Outgoing sent base (c'.peer x)
  resetFlag : (c'.peer x).resetFlag = false
  incoming : Incoming sent (done ++ new) e' R' (c'.peer x)
  le : e ≤ e'
  turn : e' = e ∨ e' = n ∨ R e'
  waiting : ∀ k, R' k → R k ∨ k = n
  signals : signals = .sendMsg x (ackMsg ifId (BitVec.ofNat 8 e') false) ::
    (new.map Sent.content).map fun (id, msg) => .msgArrived id x msg

/-- **A reliable datagram that is received smoothly**: the messages that are
complete are handed up in their order, and the acknowledgement says up to where
the datagrams have been taken. -/
theorem reliableArrived_spec (h : c.Sound []) (hx : x ≠ FREE_ENTRY) (hin : Incoming sent done e R (c.peer x))
    (hreset : (c.peer x).resetFlag = false) (hm : Is sent n m) (hlow : e < n + 20) (hhigh : n ≤ e + 20)
    (hsmooth : Smooth hal x m c) (hstep : c.reliableArrived hal x m = some (c', signals)) :
    ∃ new e' R', Received x sent done e n R c c' m.ifId signals new e' R' := by
  have hflag : m.has PO_COMM_FLAGS_RESET = false := by
    obtain ⟨s, i, -, rfl⟩ := hm
    exact s.reset_datagram n i
  unfold reliableArrived at hstep
  unfold Smooth at hsmooth
  cases hget : c.getAddrInfo x with
  | none =>
      rw [hget] at hstep
      cases hstep
  | some found =>
      obtain ⟨i, c₁⟩ := found
      obtain ⟨hsound₁, hfind, hpeers₁, hmyAddr₁⟩ := h.getAddrInfo hx hget
      obtain ⟨hdraft, hpeer⟩ := Draft.sound_self hsound₁ hx hfind
      rw [hpeers₁ x hx] at hpeer
      rw [hget] at hstep hsmooth
      simp only [hflag, Bool.false_eq_true, if_false] at hstep
      obtain ⟨hspoils, haccepts⟩ := hsmooth
      cases hreceive : Draft.receive m ⟨c₁, c₁.addrInfo i⟩ with
      | error stop =>
          rw [hreceive] at hstep haccepts
          cases stop with
          | fail c₂ => exact haccepts.elim
          | outside => cases hstep
      | ok result =>
          obtain ⟨ack, arrived, d'⟩ := result
          rw [hreceive] at hstep haccepts
          dsimp only at hstep haccepts
          rw [if_pos haccepts] at hstep
          cases hstep
          rw [← hpeer] at hin hreset
          -- the entry that has been received into is written back with the acknowledgement
          obtain ⟨new, e', R', hreceives⟩ := Draft.receive_spec hdraft hin hm hlow hhigh hreceive hspoils
          have hreset' : d'.info.resetFlag = false := hreceives.same.resetFlag.trans hreset
          generalize hinfo : { d'.info with resetFlag := false, lastAckSent := ack } = info
          obtain ⟨hsound', hkeeps'⟩ : Draft.Sound i [] ⟨d'.comm, info⟩ ∧ Draft.Keeps i d' ⟨d'.comm, info⟩ := by
            rw [← hinfo]
            exact Draft.keeps_info hreceives.sound rfl rfl rfl rfl
          obtain ⟨hserves, hwritten⟩ := (hreceives.keeps.trans hkeeps').serves hx hfind hsound'
          have hpeer' : (d'.comm.setAddrInfo i info).peer x =
              { d'.peer with resetFlag := false, lastAckSent := ack } := by
            rw [← hinfo] at hwritten ⊢
            exact hwritten
          have hsame := hreceives.same
          refine ⟨new, e', R', hserves.congr hpeers₁ hmyAddr₁, fun {sent base} hout => ?_, by rw [hpeer'], ?_, hreceives.le,
            hreceives.turn, hreceives.waiting, ?_⟩
          · rw [hpeer']
            rw [← hpeer] at hout
            refine ⟨hsame.lastMsgSent.trans hout.lastMsgSent, hsame.lastAckReceived.trans hout.lastAckReceived, hout.le,
              hout.window, ?_⟩
            show Numbered _ _ d'.peer.sent
            rw [hsame.sent]
            exact hout.sent
          · rw [hpeer']
            have hin' := hreceives.incoming
            exact ⟨hin'.lastAckSent, hin'.within, hin'.le, hin'.window, hin'.recv, hin'.fragm⟩
          · rw [hreset', hreceives.acks, hreceives.arrived]
            rfl

/-! ## What is between two nodes -/

/-- An acknowledgement of the first `a` datagrams. -/
def IsAck (a : Nat) (m : PoRadioMsg) : Prop := m.seqNum = BitVec.ofNat 8 a ∧ m.has PO_COMM_FLAGS_RESET = false

/-- The messages `sent` from one node to another, of which `done` have arrived
and `reported` have been reported: what the sender `p` and the receiver `q` keep,
and what is on its way. -/
structure Link (sent done : List Sent) (reported : List (Byte × Int)) (base e top : Nat) (R : Nat → Prop) (p q : Peer)
    (data acks : List PoRadioMsg) : Prop where
  outgoing : Outgoing sent base p
  incoming : Incoming sent done e R q
  data : ∃ ns, List.Forall₂ (Is sent) ns data ∧ Fresh PO_COMM_WINDOW_SIZE top ns
  le_top : e ≤ top
  top_le : top ≤ total sent
  waiting : ∀ n, R n → n ≤ top
  acks : ∃ as, List.Forall₂ IsAck as acks ∧ (base :: (as ++ [e])).Pairwise (· ≤ ·)
  reported : reported.Perm (((marks sent).take base).filterMap id)

variable {more : List Sent} {reported results : List (Byte × Int)} {p p' q q' : Peer} {data acks ms : List PoRadioMsg}

/-- No acknowledgement is ahead of what has been taken. -/
theorem Link.base_le (h : Link sent done reported base e top R p q data acks) : base ≤ e := by
  obtain ⟨as, -, hordered⟩ := h.acks
  exact (List.pairwise_cons.mp hordered).1 e (by simp)

/-- Messages that are sent later change nothing for the receiver. -/
theorem Incoming.append (h : Incoming sent done e R p) (more : List Sent) : Incoming (sent ++ more) done e R p := by
  refine ⟨h.lastAckSent, h.within.append h.le more, ?_, fun n hn => ?_, ?_, ?_⟩
  · have hle := h.le
    simp only [total_append]
    omega
  · obtain ⟨hlow, hhigh, htotal⟩ := h.window n hn
    simp only [total_append]
    omega
  · exact h.recv.congr_rel fun n node hn => (is_append_iff (h.window n hn).2.2).symm
  · have hle : ∀ n, n ≤ e ∨ R n → n ≤ total sent := fun n hn => by
      obtain hn | hn := hn
      · exact hn.trans h.le
      · exact (h.window n hn).2.2
    refine (h.fragm.congr_rel fun n m hn => (is_append_iff (hle n hn.2.1)).symm).congr fun n => ?_
    constructor
    · intro ⟨hn, hn', s, r, hat, hmany⟩
      exact ⟨hn, hn', s, r, hat.append more, hmany⟩
    · intro ⟨hn, hn', s, r, hat, hmany⟩
      exact ⟨hn, hn', s, r, hat.of_append (hle n hn'), hmany⟩

/-- What is on its way has been sent. -/
theorem le_of_flight {ns : List Nat} (h : List.Forall₂ (Is sent) ns data) (hn : n ∈ ns) : n ≤ total sent := by
  induction h with
  | nil => cases hn
  | cons his _ ih =>
      obtain rfl | hn := List.mem_cons.mp hn
      · obtain ⟨s, i, hat, -⟩ := his
        exact hat.le
      · exact ih hn

/-- Datagrams are sent, new ones or old. -/
theorem flight_append (h : ∃ ns, List.Forall₂ (Is sent) ns data ∧ Fresh PO_COMM_WINDOW_SIZE top ns)
    (htop : top ≤ total sent) (hwindow : total sent ≤ base + PO_COMM_WINDOW_SIZE)
    (hms : ∀ m ∈ ms, ∃ n, base < n ∧ Is sent n m) :
    ∃ ns, List.Forall₂ (Is sent) ns (data ++ ms) ∧ Fresh PO_COMM_WINDOW_SIZE top ns := by
  induction ms generalizing data with
  | nil => rwa [List.append_nil]
  | cons m ms ih =>
      obtain ⟨n, hn, his⟩ := hms m List.mem_cons_self
      obtain ⟨ns, hdata, hfresh⟩ := h
      have hlast : List.Forall₂ (Is sent) (ns ++ [n]) (data ++ [m]) := List.rel_append hdata (.cons his .nil)
      rw [List.append_cons]
      exact ih ⟨ns ++ [n], hlast, hfresh.concat (by omega) fun k hk => by have := le_of_flight hdata hk; omega⟩
        fun m' hm' => hms m' (List.mem_cons_of_mem m hm')

/-- The sender has done something for the receiver, and may have accepted more messages. -/
theorem Link.emit (h : Link sent done reported base e top R p q data acks) (hout : Outgoing (sent ++ more) base p')
    (hms : ∀ m ∈ ms, ∃ n, base < n ∧ Is (sent ++ more) n m) :
    Link (sent ++ more) done reported base e top R p' q (data ++ ms) acks := by
  have htop := h.top_le
  have hbase := h.base_le
  have he := h.le_top
  refine ⟨hout, h.incoming.append more, ?_, he, by simp only [total_append]; omega, h.waiting, h.acks, ?_⟩
  · obtain ⟨ns, hdata, hfresh⟩ := h.data
    refine flight_append ⟨ns, hdata.imp fun n m his => ?_, hfresh⟩ (by simp only [total_append]; omega) hout.window hms
    obtain ⟨s, i, hat, hm⟩ := his
    exact ⟨s, i, hat.append more, hm⟩
  · rw [marks_append, List.take_append_of_le_length (by rw [length_marks]; omega)]
    exact h.reported

/-- The next acknowledgement is of datagrams that have been sent and taken. -/
theorem Link.next_ack (h : Link sent done reported base e top R p q data (m :: acks)) :
    ∃ a, base ≤ a ∧ a ≤ total sent ∧ IsAck a m ∧
      ∃ as, List.Forall₂ IsAck as acks ∧ (a :: (as ++ [e])).Pairwise (· ≤ ·) := by
  obtain ⟨as, hacks, hordered⟩ := h.acks
  cases hacks with
  | @cons a _ as _ hm hacks =>
      rw [List.cons_append, List.pairwise_cons] at hordered
      have hle := (List.pairwise_cons.mp hordered.2).1 e (by simp)
      exact ⟨a, hordered.1 a List.mem_cons_self, hle.trans (h.le_top.trans h.top_le), hm, as, hacks, hordered.2⟩

/-- An acknowledgement has arrived at the sender. -/
theorem Link.acknowledge {a : Nat} (h : Link sent done reported base e top R p q data (m :: acks)) (ha : base ≤ a)
    (hacks : ∃ as, List.Forall₂ IsAck as acks ∧ (a :: (as ++ [e])).Pairwise (· ≤ ·)) (hout : Outgoing sent a p')
    (hms : ∀ m ∈ ms, ∃ n, a < n ∧ Is sent n m) (hresults : results.Perm ((((marks sent).take a).drop base).filterMap id)) :
    Link sent done (reported ++ results) a e top R p' q (data ++ ms) acks := by
  refine ⟨hout, h.incoming, flight_append h.data h.top_le hout.window hms, h.le_top, h.top_le, h.waiting, hacks, ?_⟩
  have hsplit : (marks sent).take a = (marks sent).take base ++ ((marks sent).take a).drop base := by
    have hfirst : ((marks sent).take a).take base = (marks sent).take base := by
      rw [List.take_take, Nat.min_eq_left ha]
    rw [← hfirst, List.take_append_drop]
  rw [hsplit, List.filterMap_append]
  exact h.reported.append hresults

/-- The number of the next datagram is in the window. -/
theorem Link.next_data (h : Link sent done reported base e top R p q (m :: data) acks) :
    ∃ n, Is sent n m ∧ e < n + 20 ∧ n ≤ e + 20 ∧ n ≤ total sent ∧
      ∃ ns, List.Forall₂ (Is sent) ns data ∧ Fresh PO_COMM_WINDOW_SIZE top (n :: ns) := by
  obtain ⟨ns, hdata, hfresh⟩ := h.data
  have hbase := h.base_le
  have hwindow : total sent ≤ base + 20 := h.outgoing.window
  have htop := h.le_top
  cases hdata with
  | @cons n _ ns _ his hdata =>
      have hhead : top < n + 20 := hfresh.head
      obtain ⟨s, i, hat, hm⟩ := his
      have hle := hat.le
      exact ⟨n, ⟨s, i, hat, hm⟩, by omega, by omega, hle, ns, hdata, hfresh⟩

/-- A datagram has arrived at the receiver. -/
theorem Link.receive {new : List Sent} {e' : Nat} {R' : Nat → Prop}
    (h : Link sent done reported base e top R p q (m :: data) acks) (hn : n ≤ total sent)
    (hdata : ∃ ns, List.Forall₂ (Is sent) ns data ∧ Fresh PO_COMM_WINDOW_SIZE top (n :: ns))
    (hout : Outgoing sent base p') (hin : Incoming sent (done ++ new) e' R' q') (hle : e ≤ e')
    (hturn : e' = e ∨ e' = n ∨ R e') (hwaiting : ∀ k, R' k → R k ∨ k = n) {ack : PoRadioMsg} (hack : IsAck e' ack) :
    Link sent (done ++ new) reported base e' (max top n) R' p' q' data (acks ++ [ack]) := by
  have htop := h.le_top
  have htop' := h.top_le
  refine ⟨hout, hin, ?_, ?_, by omega, fun k hk => ?_, ?_, h.reported⟩
  · obtain ⟨ns, hdata, hfresh⟩ := hdata
    exact ⟨ns, hdata, hfresh.tail (by omega)⟩
  · obtain rfl | rfl | hR := hturn
    · omega
    · omega
    · have hle := h.waiting e' hR
      omega
  · obtain hk | rfl := hwaiting k hk
    · have hle := h.waiting k hk
      omega
    · omega
  · obtain ⟨as, hacks, hordered⟩ := h.acks
    refine ⟨as ++ [e'], List.rel_append hacks (.cons hack .nil), ?_⟩
    rw [← List.cons_append, List.pairwise_append] at hordered ⊢
    obtain ⟨hfirst, -, hlast⟩ := hordered
    refine ⟨?_, List.pairwise_singleton _ _, fun a ha b hb => ?_⟩
    · rw [← List.cons_append, List.pairwise_append]
      exact ⟨hfirst, List.pairwise_singleton _ _, fun a ha b hb => by
        rw [List.mem_singleton.mp hb]
        exact (hlast a ha e (by simp)).trans hle⟩
    · rw [List.mem_singleton.mp hb]
      rw [← List.cons_append, List.mem_append, List.mem_singleton] at ha
      obtain ha | rfl := ha
      · exact (hlast a ha e (by simp)).trans hle
      · exact Nat.le_refl _

/-- A datagram has been lost. -/
theorem Link.loseData (h : Link sent done reported base e top R p q (m :: data) acks) :
    Link sent done reported base e top R p q data acks := by
  obtain ⟨n, -, -, -, -, ns, hdata, hfresh⟩ := h.next_data
  exact ⟨h.outgoing, h.incoming, ⟨ns, hdata, hfresh.tail (.inl rfl)⟩, h.le_top, h.top_le, h.waiting, h.acks, h.reported⟩

/-- An acknowledgement has been lost. -/
theorem Link.loseAck (h : Link sent done reported base e top R p q data (m :: acks)) :
    Link sent done reported base e top R p q data acks := by
  obtain ⟨a, ha, -, -, as, hacks, hordered⟩ := h.next_ack
  refine ⟨h.outgoing, h.incoming, h.data, h.le_top, h.top_le, h.waiting, ⟨as, hacks, ?_⟩, h.reported⟩
  obtain ⟨hfirst, hrest⟩ := List.pairwise_cons.mp hordered
  exact List.pairwise_cons.mpr ⟨fun b hb => ha.trans (hfirst b hb), hrest⟩

/-- What else the two nodes keep of each other does not matter. -/
theorem Link.congr (h : Link sent done reported base e top R p q data acks) (hout : Outgoing sent base p')
    (hin : q.SameIn q') : Link sent done reported base e top R p' q' data acks := by
  have hin' := h.incoming
  refine ⟨hout, ⟨hin.lastAckSent.trans hin'.lastAckSent, hin'.within, hin'.le, hin'.window, ?_, ?_⟩, h.data, h.le_top,
    h.top_le, h.waiting, h.acks, h.reported⟩
  · rw [hin.recv]
    exact hin'.recv
  · rw [hin.fragm]
    exact hin'.fragm

end Pobicos.Transport
