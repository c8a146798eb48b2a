import Pobicos.Transport.Reassembly

/-!
# Pobicos.Transport.Reception

What a node does with the numbered datagrams of a peer: what is ahead of its turn
is kept until its turn has come.

`Incoming` is what the node has of a peer when the datagrams up to `e` have been
taken and those of `ahead` are kept, and `receive_spec` is what one more datagram
makes of it.
-/

namespace Pobicos.Transport

open Octets FlatMemory SlidingWindow PoCommM

/-! ## Datagrams that are taken -/

/-- What a message is for the node that gets it. -/
def Sent.content (s : Sent) : Byte × List Byte := (s.id, s.msg.data)

/-- The fragments behind the first `b` datagrams that have arrived. -/
def Kept (sent : List Sent) (b : Nat) (arrived : Nat → Prop) (n : Nat) : Prop :=
  b < n ∧ arrived n ∧ ∃ s r, At sent n s r ∧ 1 < s.pieces

/-- The messages `done` have been put together when the datagrams up to `e` have
been taken: those that have ended, and perhaps one more, of which some have been
taken and all others have arrived ahead of their turn. -/
inductive Reached (sent : List Sent) (ahead : Nat → Prop) (done : List Sent) (e : Nat) : Prop
  | within (h : Within sent done e)
  | early (s : Sent) (before rest : List Sent) (hdone : done = before ++ [s]) (hsent : sent = before ++ s :: rest)
      (hlt : total before < e) (hgt : e < total done) (hrest : ∀ n, e < n → n ≤ total done → ahead n)

namespace Draft

variable {i : Fin MAX_NODES} {d d' : Draft} {j : Slot} {m : PoRadioMsg} {taken : List NodeIndex}
  {sent done : List Sent} {e n : Nat} {R : Nat → Prop} {arrived arrived' : Arrived} {newMessage : Bool}

/-- What a turn has done: the messages `new` have arrived. -/
structure Takes (i : Fin MAX_NODES) (taken : List NodeIndex) (sent done new : List Sent) (R : Nat → Prop) (e : Nat)
    (arrived : Arrived) (d : Draft) (arrived' : Arrived) (d' : Draft) : Prop where
  refragments : Refragments i taken d d'
  arrived : arrived' = arrived ++ new.map Sent.content
  reached : Reached sent R (done ++ new) e
  fragm : Numbered (Is sent) (Kept sent (total (done ++ new)) fun n => n ≤ e ∨ R n) d'.peer.fragm

/-- What is kept, with the datagram that is taken. -/
theorem kept_next {s : Sent} {r : Nat} (hat : At sent (e + 1) s r) (hmany : 1 < s.pieces) (hle : total done ≤ e)
    (hnew : newMessage ↔ ¬ R (e + 1)) (n : Nat) :
    (Kept sent (total done) (fun n => n ≤ e ∨ R n) n ∨ newMessage ∧ n = e + 1) ↔
      Kept sent (total done) (fun n => n ≤ e + 1 ∨ R n) n := by
  constructor
  · rintro (⟨hn, hn', hfragmented⟩ | ⟨-, rfl⟩)
    · exact ⟨hn, hn'.imp_left fun hle => by omega, hfragmented⟩
    · exact ⟨by omega, .inl (Nat.le_refl _), s, r, hat, hmany⟩
  · rintro ⟨hn, hn', hfragmented⟩
    by_cases heq : n = e + 1
    · subst heq
      by_cases hnew' : newMessage = true
      · exact .inr ⟨hnew', rfl⟩
      · exact .inl ⟨hn, .inr (by_contra fun hnot => hnew' (hnew.mpr hnot)), hfragmented⟩
    · exact .inl ⟨hn, hn'.imp_left fun hle => by omega, hfragmented⟩

/-- The turn of a fragment. -/
theorem take_fragment {s : Sent} {rest : List Sent} {r : Nat} (h : d.Sound i taken) (hsent : sent = done ++ s :: rest)
    (hr : e = total done + r) (hlt : r < s.pieces) (hmany : 1 < s.pieces) (hR : ∀ n, R n → n ≤ e + 20)
    (hnew : newMessage ↔ ¬ R (e + 1))
    (hF : Numbered (Is sent) (Kept sent (total done) fun n => n ≤ e ∨ R n) d.peer.fragm)
    (htake : d.take (s.datagram (e + 1) r) newMessage arrived = .ok (arrived', d')) :
    ∃ new, Takes i taken sent done new R (e + 1) arrived d arrived' d' := by
  have hat : At sent (e + 1) s r := ⟨done, rest, hsent, by omega, hlt⟩
  have hle := s.pieces_le
  unfold take at htake
  rw [s.fragm_datagram, decide_eq_true hmany] at htake
  simp only [if_true] at htake
  cases hprocess : d.processFragments (s.datagram (e + 1) r) newMessage with
  | error _ =>
      rw [hprocess] at htake
      cases htake
  | ok result =>
      obtain ⟨msg, d₁⟩ := result
      rw [hprocess] at htake
      cases htake
      have hkept := kept_next (R := R) hat hmany (by omega : total done ≤ e) hnew
      -- the fragments that are kept are within 24 numbers, so that bytes tell them apart
      have hnear : ∀ r, r < s.pieces → Near (fun k => Kept sent (total done) (fun n => n ≤ e ∨ R n) k ∨ newMessage ∧ k = e + 1)
          (total done + 1 + r) := fun r hr k hk => by
        obtain ⟨hk, hk', -⟩ := (hkept k).mp hk
        have hbound : k ≤ e + 20 := by
          obtain hk' | hk' := hk'
          · omega
          · exact hR k hk'
        omega
      have hsame := processFragments_refragments h hprocess
      obtain ⟨rfl, hN, k, hk, hmissing⟩ | ⟨hall, hcompletes⟩ := processFragments_spec hsent
        (by omega) hlt hmany h hF hnear
        (fun hnew' hn => by
          obtain ⟨-, hn' | hn', -⟩ := hn
          · omega
          · exact hnew.mp hnew' hn')
        (fun _ hold => by
          obtain hn | ⟨hn, -⟩ := (hkept (e + 1)).mpr ⟨by omega, .inl (Nat.le_refl _), s, r, hat, hmany⟩
          · exact hn
          · rw [hold] at hn
            cases hn) hprocess
      · -- something is missing, so that this is not the last datagram of the message
        have hlast : r + 1 < s.pieces := by
          by_contra hge
          refine hmissing ((hkept _).mpr ⟨by omega, .inl (by omega), s, k, ⟨done, rest, hsent, by omega, hk⟩, hmany⟩)
        refine ⟨[], hsame, by simp, ?_, ?_⟩
        · rw [List.append_nil]
          exact .within (.of_place hsent (by omega : e + 1 = total done + (r + 1)) hlast)
        · rw [List.append_nil]
          exact hN.congr hkept
      · have htotal : total (done ++ [s]) = total done + s.pieces := by simp
        have hpos := s.pieces_pos
        have hcond : s.msg.data.length > 0 := by
          have hfull := s.full_of_lt 0 (by omega)
          omega
        refine ⟨[s], hsame, ?_, ?_, ?_⟩
        · rw [hcompletes.msg, if_pos hcond]
          rfl
        · by_cases hlast : r + 1 = s.pieces
          · exact .within (within_concat hsent (by omega))
          · refine .early s done rest rfl hsent (by omega) (by omega) fun n hn hn' => ?_
            obtain ⟨-, hn'' | hn'', -⟩ := (hkept _).mp (hall (n - total done - 1) (by omega))
            · omega
            · rwa [show total done + 1 + (n - total done - 1) = n by omega] at hn''
        · rw [htotal]
          refine hcompletes.fragm.congr fun n => ?_
          rw [hkept]
          constructor
          · rintro ⟨⟨hn, hn', hfragmented⟩, hout⟩
            exact ⟨by omega, hn', hfragmented⟩
          · rintro ⟨hn, hn', hfragmented⟩
            exact ⟨⟨by omega, hn', hfragmented⟩, by omega⟩

/-- The turn of a message in one datagram. -/
theorem take_whole {s : Sent} {rest : List Sent} (h : d.Sound i taken) (hsent : sent = done ++ s :: rest)
    (hr : e = total done) (hone : s.pieces = 1)
    (hF : Numbered (Is sent) (Kept sent (total done) fun n => n ≤ e ∨ R n) d.peer.fragm)
    (htake : d.take (s.datagram (e + 1) 0) newMessage arrived = .ok (arrived', d')) :
    Takes i taken sent done [s] R (e + 1) arrived d arrived' d' := by
  have hat : At sent (e + 1) s 0 := ⟨done, rest, hsent, by omega, by omega⟩
  unfold take at htake
  rw [s.fragm_datagram, decide_eq_false (by omega)] at htake
  simp only [Bool.false_eq_true, if_false] at htake
  cases htake
  refine ⟨Refragments.refl h, ?_, .within (within_concat hsent (by omega)), hF.congr fun n => ?_⟩
  · rw [s.payload_single _ hone]
    rfl
  · have htotal : total (done ++ [s]) = e + 1 := by simp; omega
    rw [htotal]
    constructor
    · rintro ⟨hn, hn', t, k, hatn, hpieces⟩
      have hne : n ≠ e + 1 := by
        rintro rfl
        obtain ⟨rfl, -⟩ := hat.unique hatn
        omega
      exact ⟨by omega, .inr (hn'.resolve_left (by omega)), t, k, hatn, hpieces⟩
    · rintro ⟨hn, hn', hfragmented⟩
      exact ⟨by omega, .inr (hn'.resolve_left (by omega)), hfragmented⟩

/-- The turn of a datagram when no message has been put together early. -/
theorem take_within (h : d.Sound i taken) (hwithin : Within sent done e) (he : e < total sent)
    (hR : ∀ n, R n → n ≤ e + 20) (hnew : newMessage ↔ ¬ R (e + 1))
    (hF : Numbered (Is sent) (Kept sent (total done) fun n => n ≤ e ∨ R n) d.peer.fragm) (hm : Is sent (e + 1) m)
    (htake : d.take m newMessage arrived = .ok (arrived', d')) :
    ∃ new, Takes i taken sent done new R (e + 1) arrived d arrived' d' := by
  obtain ⟨s, rest, r, hsent, hr, hlt⟩ := hwithin.next he
  have hat : At sent (e + 1) s r := ⟨done, rest, hsent, by omega, hlt⟩
  obtain ⟨s', r', hat', rfl⟩ := hm
  obtain ⟨rfl, rfl⟩ := hat.unique hat'
  by_cases hmany : 1 < s.pieces
  · exact take_fragment h hsent hr hlt hmany hR hnew hF htake
  · obtain rfl : r = 0 := by omega
    exact ⟨[s], take_whole h hsent hr (by omega) hF htake⟩

/-- The turn of a datagram of a message that has been put together already: it
has been kept until now, and brings nothing new. -/
theorem take_early {s : Sent} {before rest : List Sent} (h : d.Sound i taken) (hdone : done = before ++ [s])
    (hsent : sent = before ++ s :: rest) (hlt : total before < e) (hgt : e < total done)
    (hrest : ∀ n, e < n → n ≤ total done → R n) (hR : ∀ n, R n → n ≤ e + 20) (hnew : newMessage ↔ ¬ R (e + 1))
    (hF : Numbered (Is sent) (Kept sent (total done) fun n => n ≤ e ∨ R n) d.peer.fragm) (hm : Is sent (e + 1) m)
    (htake : d.take m newMessage arrived = .ok (arrived', d')) :
    Takes i taken sent done [] R (e + 1) arrived d arrived' d' := by
  have htotal : total done = total before + s.pieces := by simp [hdone]
  obtain ⟨r, rfl⟩ := Nat.exists_eq_add_of_lt hlt
  have hat : At sent (total before + r + 1 + 1) s (r + 1) := ⟨before, rest, hsent, by omega, by omega⟩
  obtain ⟨s', r', hat', rfl⟩ := hm
  obtain ⟨rfl, rfl⟩ := hat.unique hat'
  have hle := s.pieces_le
  have hmany : 1 < s.pieces := by omega
  -- it had arrived ahead of its turn
  have hold : newMessage = false := by
    by_contra hne
    exact hnew.mp (by simpa using hne) (hrest _ (by omega) (by omega))
  unfold take at htake
  rw [s.fragm_datagram, decide_eq_true hmany] at htake
  simp only [if_true] at htake
  cases hprocess : d.processFragments (s.datagram (total before + r + 1 + 1) (r + 1)) newMessage with
  | error _ =>
      rw [hprocess] at htake
      cases htake
  | ok result =>
      obtain ⟨msg, d₁⟩ := result
      rw [hprocess] at htake
      cases htake
      have hnear : ∀ k, k < s.pieces → Near (fun n => Kept sent (total done) (fun n => n ≤ total before + r + 1 ∨ R n) n ∨
          newMessage ∧ n = total before + r + 1 + 1) (total before + 1 + k) := fun k hk n hn => by
        obtain ⟨hn, hn' | hn', -⟩ | ⟨-, rfl⟩ := hn
        · omega
        · have hbound := hR n hn'
          omega
        · omega
      have hsame := processFragments_refragments h hprocess
      obtain ⟨rfl, hN, -⟩ | ⟨hall, -⟩ := processFragments_spec hsent
        (by omega : total before + r + 1 + 1 = total before + 1 + (r + 1)) (by omega) hmany h hF hnear
        (fun htrue => by rw [hold] at htrue; cases htrue) (fun hzero => by omega) hprocess
      · refine ⟨hsame, by simp, ?_, ?_⟩
        · rw [List.append_nil]
          by_cases hlast : total before + r + 1 + 1 = total done
          · rw [hlast, hdone]
            exact .within (within_concat hsent (by rw [← htotal, ← hdone]))
          · exact .early s before rest hdone hsent (by omega) (by omega) fun n hn hn' => hrest n (by omega) hn'
        · rw [List.append_nil]
          refine hN.congr fun n => ?_
          rw [hold]
          constructor
          · rintro (⟨hn, hn', hfragmented⟩ | ⟨hfalse, -⟩)
            · exact ⟨hn, hn'.imp_left fun hle => by omega, hfragmented⟩
            · cases hfalse
          · rintro ⟨hn, hn', hfragmented⟩
            exact .inl ⟨hn, .inr (hn'.resolve_left (by omega)), hfragmented⟩
      · -- the first fragment has been given back
        obtain ⟨hn, -, -⟩ | ⟨htrue, -⟩ := hall 0 (by omega)
        · omega
        · rw [hold] at htrue
          cases htrue

/-- **A datagram in its turn.** -/
theorem take_spec (h : d.Sound i taken) (hreached : Reached sent R done e) (he : e < total sent)
    (hR : ∀ n, R n → n ≤ e + 20) (hnew : newMessage ↔ ¬ R (e + 1))
    (hF : Numbered (Is sent) (Kept sent (total done) fun n => n ≤ e ∨ R n) d.peer.fragm) (hm : Is sent (e + 1) m)
    (htake : d.take m newMessage arrived = .ok (arrived', d')) :
    ∃ new, Takes i taken sent done new R (e + 1) arrived d arrived' d' := by
  cases hreached with
  | within hwithin => exact take_within h hwithin he hR hnew hF hm htake
  | early s before rest hdone hsent hlt hgt hrest =>
      exact ⟨[], take_early h hdone hsent hlt hgt hrest hR hnew hF hm htake⟩

/-! ## Datagrams that have waited -/

theorem recvSlot_eq_some {seq : Byte} {k : NodeIndex} (h : d.recvSlot seq = some (j, k)) :
    d.info.recvMsgBuf j = some k ∧ (d.comm.msgNodes.val k).bufMsg.seqNum = seq := by
  obtain ⟨l, -, hl⟩ := List.exists_of_findSome?_eq_some h
  cases hnode : d.info.recvMsgBuf l with
  | none => simp [hnode] at hl
  | some n =>
      simp only [hnode] at hl
      split_ifs at hl with hmatch
      cases hl
      exact ⟨hnode, hmatch⟩

/-- What is not found in the receive buffer is in no slot of it. -/
theorem recvSlot_eq_none {seq : Byte} {node : MsgNode} (h : d.recvSlot seq = none) (hj : d.peer.recv j = some node) :
    node.bufMsg.seqNum ≠ seq := by
  have hslot := List.findSome?_eq_none_iff.mp h j (List.mem_finRange j)
  simp only [peer, AddrInfo.peer, Option.map_eq_some_iff] at hj
  obtain ⟨n, hnode, rfl⟩ := hj
  simp only [hnode] at hslot
  split_ifs at hslot with hmatch
  exact hmatch

/-- A datagram that is kept until its turn. -/
def Waits (sent : List Sent) (n : Nat) (node : MsgNode) : Prop := Is sent n node.bufMsg

/-- Fragments are nothing to the sending side. -/
theorem Refragments.same (h : Refragments i taken d d') : d.peer.Same d'.peer := by
  rw [h.peer]
  exact ⟨rfl, rfl, rfl, rfl, rfl⟩

/-- Nor to what waits. -/
theorem Refragments.recv (h : Refragments i taken d d') : d'.peer.recv = d.peer.recv := by rw [h.peer]

/-- What has become of the entry with the datagrams up to `e`. -/
structure TakesAll (i : Fin MAX_NODES) (taken : List NodeIndex) (sent done new : List Sent) (R : Nat → Prop) (e : Nat)
    (arrived : Arrived) (d : Draft) (arrived' : Arrived) (d' : Draft) : Prop where
  sound : d'.Sound i taken
  keeps : Keeps i d d'
  same : d.peer.Same d'.peer
  arrived : arrived' = arrived ++ new.map Sent.content
  reached : Reached sent R (done ++ new) e
  recv : Numbered (Waits sent) (fun n => R n ∧ e < n) d'.peer.recv
  fragm : Numbered (Is sent) (Kept sent (total (done ++ new)) fun n => n ≤ e ∨ R n) d'.peer.fragm

/-- **The datagrams that wait** are taken as long as the next one is there; the
induction is on the fuel, which 20 waiting datagrams do not use up. -/
theorem consecLoop_spec {b fuel t t' : Nat} (h : d.Sound i taken) (hreached : Reached sent R done (b + t))
    (hR : ∀ n, R n → n ≤ b + 20 ∧ n ≤ total sent)
    (hrecv : Numbered (Waits sent) (fun n => R n ∧ b + t < n) d.peer.recv)
    (hF : Numbered (Is sent) (Kept sent (total done) fun n => n ≤ b + t ∨ R n) d.peer.fragm) (hfuel : 21 ≤ t + fuel)
    (hloop : consecLoop (BitVec.ofNat 8 b) fuel t arrived d = .ok (t', arrived', d')) :
    t ≤ t' ∧ (t < t' → R (b + t')) ∧ ¬ R (b + t' + 1) ∧
      ∃ new, TakesAll i taken sent done new R (b + t') arrived d arrived' d' := by
  induction fuel generalizing t arrived done d with
  | zero =>
      cases hloop
      refine ⟨Nat.le_refl _, fun hlt => absurd hlt (Nat.lt_irrefl _), fun hn => ?_, [], h, Keeps.refl i _, Peer.Same.refl _,
        by simp, by rwa [List.append_nil], hrecv, by rwa [List.append_nil]⟩
      have hbound := (hR _ hn).1
      omega
  | succ fuel ih =>
      unfold consecLoop at hloop
      rw [← BitVec.ofNat_add] at hloop
      cases hslot : d.recvSlot (BitVec.ofNat 8 (b + (t + 1))) with
      | none =>
          rw [hslot] at hloop
          cases hloop
          refine ⟨Nat.le_refl _, fun hlt => absurd hlt (Nat.lt_irrefl _), fun hn => ?_, [], h, Keeps.refl i _,
            Peer.Same.refl _, by simp, by rwa [List.append_nil], hrecv, by rwa [List.append_nil]⟩
          obtain ⟨j, node, hj, his⟩ := hrecv.slot ⟨hn, by omega⟩
          exact recvSlot_eq_none hslot hj his.seqNum
      | some found =>
          obtain ⟨j, k⟩ := found
          obtain ⟨hnode, hseq⟩ := recvSlot_eq_some hslot
          have hj : d.peer.recv j = some (d.comm.msgNodes.val k) := by simp [peer, AddrInfo.peer, hnode]
          -- the datagram is the next one
          obtain ⟨n, ⟨hRn, hlt⟩, his⟩ := hrecv.number hj
          have hbound := hR n hRn
          have hn : n = b + t + 1 := by
            have heq := his.seqNum.symm.trans hseq
            rw [seq_eq_iff (by omega) (by omega)] at heq
            omega
          subst hn
          rw [hslot] at hloop
          dsimp only at hloop
          cases htake : d.take (d.comm.msgNodes.val k).bufMsg false arrived with
          | error _ =>
              rw [htake] at hloop
              cases hloop
          | ok result =>
              obtain ⟨arrived₁, d₁⟩ := result
              rw [htake] at hloop
              obtain ⟨new, htakes⟩ := take_spec h hreached (by omega) (fun n hn => by have := (hR n hn).1; omega)
                (by simp [hRn]) hF his htake
              have hnode₁ : d₁.info.recvMsgBuf j = some k := by
                rw [htakes.refragments.info]
                exact hnode
              obtain ⟨hsound, hkeeps, hpeer⟩ := freeRecv_spec htakes.refragments.sound hnode₁
              have hrecv₁ := hrecv.erase hj ⟨hRn, by omega⟩ his
              rw [← htakes.refragments.recv] at hrecv₁
              have hrecv₂ : (d₁.freeRecv j k).peer.recv = Function.update d₁.peer.recv j none := by rw [hpeer]
              have hfragm₂ : (d₁.freeRecv j k).peer.fragm = d₁.peer.fragm := by rw [hpeer]
              rw [← hrecv₂] at hrecv₁
              have hF₁ := htakes.fragm
              rw [← hfragm₂] at hF₁
              obtain ⟨hle, hturn, hend, new', hall⟩ := ih hsound htakes.reached (hrecv₁.congr fun n => by
                constructor
                · rintro ⟨⟨hn, hlt⟩, hne⟩
                  exact ⟨hn, by omega⟩
                · rintro ⟨hn, hlt⟩
                  exact ⟨⟨hn, by omega⟩, by omega⟩) hF₁ (by omega) hloop
              have hsame₂ : d₁.peer.Same (d₁.freeRecv j k).peer := by
                rw [hpeer]
                exact ⟨rfl, rfl, rfl, rfl, rfl⟩
              refine ⟨by omega, fun _ => ?_, hend, new ++ new', hall.sound, (htakes.refragments.keeps.trans hkeeps).trans hall.keeps,
                (htakes.refragments.same.trans hsame₂).trans hall.same, ?_, ?_, hall.recv, ?_⟩
              · by_cases heq : t' = t + 1
                · rw [heq]
                  exact hRn
                · exact hturn (by omega)
              · rw [hall.arrived, htakes.arrived, List.map_append, List.append_assoc]
              · rw [← List.append_assoc]
                exact hall.reached
              · rw [← List.append_assoc]
                exact hall.fragm

end Draft

/-! ## A datagram that arrives -/

/-- What a node has of a peer of which the first `e` datagrams have been taken,
those of `ahead` are kept, and the messages `done` have arrived. -/
structure Incoming (sent done : List Sent) (e : Nat) (ahead : Nat → Prop) (p : Peer) : Prop where
  lastAckSent : p.lastAckSent = BitVec.ofNat 8 e
  within : Within sent done e
  le : e ≤ total sent
  window : ∀ n, ahead n → e + 1 < n ∧ n ≤ e + 20 ∧ n ≤ total sent
  recv : Numbered (Draft.Waits sent) ahead p.recv
  fragm : Numbered (Is sent) (Kept sent (total done) fun n => n ≤ e ∨ ahead n) p.fragm

namespace Draft

variable {i : Fin MAX_NODES} {d d' : Draft} {j : Slot} {m : PoRadioMsg} {taken : List NodeIndex}
  {sent done new : List Sent} {e n : Nat} {R : Nat → Prop} {arrived arrived' : Arrived} {newMessage : Bool} {ack : Byte}

/-- A datagram ahead of its turn. -/
def IsAhead (m : PoRadioMsg) (d : Draft) : Prop :=
  m.seqNum ≠ d.info.lastAckSent + 1 ∧ m.seqNum ≠ d.info.lastAckSent ∧
    (m.seqNum - d.info.lastAckSent).toNat ≤ PO_COMM_WINDOW_SIZE

/-- A datagram in its turn, after which the next one is overlooked in the receive
buffer: the node takes the buffer for empty. -/
def Overlooks (m : PoRadioMsg) (d : Draft) : Prop :=
  m.seqNum = d.info.lastAckSent + 1 ∧ d.info.lastAckSent = d.info.lastMsgReceived ∧ (d.recvSlot (m.seqNum + 1)).isSome

/-- A datagram ahead of its turn that waits already, and waits twice then. -/
def Repeats (m : PoRadioMsg) (d : Draft) : Prop := d.IsAhead m ∧ (d.recvSlot m.seqNum).isSome

/-- A datagram ahead of its turn that is the last one missing of a message,
which is put together and then forgotten. -/
def Forgets (m : PoRadioMsg) (d : Draft) : Prop :=
  d.IsAhead m ∧
    match d.processFragments m true with
    | .ok (msg, _) => msg ≠ []
    | .error _ => False

/-- A datagram after which the receive buffer is not what it should be. -/
def Spoils (m : PoRadioMsg) (d : Draft) : Prop := d.Overlooks m ∨ d.Repeats m ∨ d.Forgets m

instance : Decidable (d.IsAhead m) := inferInstanceAs (Decidable (_ ∧ _ ∧ _))

instance : Decidable (d.Overlooks m) := inferInstanceAs (Decidable (_ ∧ _ ∧ _))

instance : Decidable (d.Repeats m) := inferInstanceAs (Decidable (_ ∧ _))

instance : Decidable (d.Forgets m) := by
  unfold Forgets
  cases d.processFragments m true <;> infer_instance

instance : Decidable (d.Spoils m) := inferInstanceAs (Decidable (_ ∨ _ ∨ _))

/-- When the next datagram does not wait, only what is ahead is left. -/
theorem TakesAll.incoming (h : TakesAll i taken sent done new R e arrived d arrived' d') (he : e ≤ total sent)
    (hR : ∀ n, R n → n ≤ e + 20 ∧ n ≤ total sent) (hnext : ¬ R (e + 1)) :
    Incoming sent (done ++ new) e (fun n => R n ∧ e < n) { d'.peer with lastAckSent := BitVec.ofNat 8 e } := by
  have hahead : ∀ n, R n ∧ e < n → e + 1 < n ∧ n ≤ e + 20 ∧ n ≤ total sent := fun n hn => by
    obtain ⟨hbound, htotal⟩ := hR n hn.1
    have hne : n ≠ e + 1 := fun heq => hnext (heq ▸ hn.1)
    exact ⟨by omega, hbound, htotal⟩
  refine ⟨rfl, ?_, he, hahead, h.recv, h.fragm.congr fun n => ?_⟩
  · cases h.reached with
    | within hwithin => exact hwithin
    | early s before rest hdone hsent hlt hgt hrest =>
        have hnext := (hahead (e + 1) ⟨hrest (e + 1) (by omega) (by omega), by omega⟩).1
        omega
  · constructor
    · rintro ⟨hn, hn', hfragmented⟩
      refine ⟨hn, ?_, hfragmented⟩
      by_cases hle : n ≤ e
      · exact .inl hle
      · exact .inr ⟨hn'.resolve_left hle, by omega⟩
    · rintro ⟨hn, hn', hfragmented⟩
      exact ⟨hn, hn'.imp_right fun hR => hR.1, hfragmented⟩

/-- What the datagram number `n` has made of it. -/
structure Receives (i : Fin MAX_NODES) (taken : List NodeIndex) (sent done : List Sent) (e n : Nat) (R : Nat → Prop)
    (d : Draft) (ack : Byte) (arrived : Arrived) (d' : Draft) (new : List Sent) (e' : Nat) (R' : Nat → Prop) : Prop where
  sound : d'.Sound i taken
  keeps : Keeps i d d'
  same : d.peer.Same d'.peer
  acks : ack = BitVec.ofNat 8 e'
  arrived : arrived = new.map Sent.content
  incoming : Incoming sent (done ++ new) e' R' { d'.peer with lastAckSent := ack }
  le : e ≤ e'
  turn : e' = e ∨ e' = n ∨ R e'
  waiting : ∀ k, R' k → R k ∨ k = n

/-- **A datagram in its turn** is taken, and with it those that have waited for
it, unless the buffer is taken for empty although the next one is there. -/
theorem inTurn_spec (h : d.Sound i taken) (hin : Incoming sent done e R d.peer) (he : e < total sent) (hm : Is sent (e + 1) m)
    (hturn : d.inTurn m = .ok (ack, arrived, d'))
    (hoverlooks : d.info.lastAckSent = d.info.lastMsgReceived → d.recvSlot (m.seqNum + 1) = none) :
    ∃ new e' R', Receives i taken sent done e (e + 1) R d ack arrived d' new e' R' := by
  have hnext : ¬ R (e + 1) := fun hR => by
    have hbound := (hin.window _ hR).1
    omega
  have hR : ∀ n, R n → n ≤ e + 20 := fun n hn => (hin.window n hn).2.1
  have hrecv : Numbered (Waits sent) (fun n => R n ∧ e + 1 < n) d.peer.recv :=
    hin.recv.congr fun n => ⟨fun hn => ⟨hn, (hin.window n hn).1⟩, fun hn => hn.1⟩
  unfold inTurn at hturn
  split_ifs at hturn with hnone
  · -- nothing waits, as far as the node knows
    have hnext' : ¬ R (e + 1 + 1) := fun hR' => by
      obtain ⟨j, node, hj, his⟩ := hin.recv.slot hR'
      refine recvSlot_eq_none (hoverlooks hnone) hj ?_
      rw [his.seqNum, hm.seqNum, ← seq_succ]
    generalize hd₀ : Draft.mk d.comm { d.info with lastMsgReceived := m.seqNum } = d₀ at hturn
    obtain ⟨hsound₀, hkeeps₀⟩ : d₀.Sound i taken ∧ Keeps i d d₀ := by
      rw [← hd₀]
      exact keeps_info h rfl rfl rfl rfl
    have hsame₀ : d.peer.Same d₀.peer := by
      rw [← hd₀]
      exact ⟨rfl, rfl, rfl, rfl, rfl⟩
    have hF₀ : Numbered (Is sent) (Kept sent (total done) fun n => n ≤ e ∨ R n) d₀.peer.fragm := by
      rw [← hd₀]
      exact hin.fragm
    have hrecv₀ : Numbered (Waits sent) (fun n => R n ∧ e + 1 < n) d₀.peer.recv := by
      rw [← hd₀]
      exact hrecv
    cases htake : take m true [] d₀ with
    | error _ =>
        rw [htake] at hturn
        cases hturn
    | ok result =>
        obtain ⟨arrived₁, d₁⟩ := result
        rw [htake] at hturn
        cases hturn
        obtain ⟨new, htakes⟩ := take_spec hsound₀ (.within hin.within) he hR (by simp [hnext]) hF₀ hm htake
        have hall : TakesAll i taken sent done new R (e + 1) [] d arrived d' :=
          ⟨htakes.refragments.sound, hkeeps₀.trans htakes.refragments.keeps, hsame₀.trans htakes.refragments.same, htakes.arrived,
            htakes.reached, by rw [htakes.refragments.recv]; exact hrecv₀, htakes.fragm⟩
        rw [hm.seqNum]
        exact ⟨new, e + 1, _, hall.sound, hall.keeps, hall.same, rfl, by simpa using hall.arrived,
          hall.incoming he (fun n hn => by have := hin.window n hn; omega) hnext', by omega, by omega, fun k hk => .inl hk.1⟩
  · cases htake : d.take m true [] with
    | error _ =>
        rw [htake] at hturn
        cases hturn
    | ok result =>
        obtain ⟨arrived₁, d₁⟩ := result
        rw [htake] at hturn
        dsimp only [bind, Except.bind] at hturn
        cases hloop : consecLoop m.seqNum (PO_COMM_WINDOW_SIZE + 1) 0 arrived₁ d₁ with
        | error _ =>
            rw [hloop] at hturn
            cases hturn
        | ok result =>
            obtain ⟨t, arrived₂, d₂⟩ := result
            rw [hloop] at hturn
            cases hturn
            obtain ⟨new, htakes⟩ := take_spec h (.within hin.within) he hR (by simp [hnext]) hin.fragm hm htake
            rw [hm.seqNum] at hloop ⊢
            obtain ⟨-, hturn, hend, new', hall'⟩ := consecLoop_spec (b := e + 1) (t := 0) htakes.refragments.sound htakes.reached
              (fun n hn => by have := hin.window n hn; omega) (by rw [htakes.refragments.recv]; exact hrecv) htakes.fragm
              (by unfold PO_COMM_WINDOW_SIZE; omega) hloop
            have hall : TakesAll i taken sent done (new ++ new') R (e + 1 + t) [] d arrived₂ d₂ :=
              ⟨hall'.sound, htakes.refragments.keeps.trans hall'.keeps, htakes.refragments.same.trans hall'.same,
                by rw [hall'.arrived, htakes.arrived, List.map_append, List.append_assoc],
                by rw [← List.append_assoc]; exact hall'.reached, hall'.recv,
                by rw [← List.append_assoc]; exact hall'.fragm⟩
            have hlast : e + 1 + t ≤ total sent := by
              by_cases ht : t = 0
              · omega
              · exact (hin.window _ (hturn (by omega))).2.2
            rw [← BitVec.ofNat_add]
            refine ⟨new ++ new', e + 1 + t, _, hall.sound, hall.keeps, hall.same, rfl, by simpa using hall.arrived,
              hall.incoming hlast (fun n hn => by have := hin.window n hn; omega) hend, by omega, ?_, fun k hk => .inl hk.1⟩
            by_cases ht : t = 0
            · omega
            · exact .inr (.inr (hturn (by omega)))

/-- A fragment ahead of its turn, of a message that is not complete with it. -/
theorem processFragments_ahead {msg : List Byte} (h : d.Sound i taken) (hin : Incoming sent done e R d.peer)
    (hn : e + 1 < n) (hn' : n ≤ e + 20) (hnew : ¬ R n) (hm : Is sent n m)
    (hprocess : d.processFragments m true = .ok (msg, d')) (hmsg : msg = []) :
    Numbered (Is sent) (Kept sent (total done) fun k => k ≤ e ∨ R k ∨ k = n) d'.peer.fragm := by
  obtain ⟨s, r, hat, rfl⟩ := hm
  obtain ⟨before, rest, hsent, hnum, hr⟩ := hat
  have hat : At sent n s r := ⟨before, rest, hsent, hnum, hr⟩
  have hle := s.pieces_le
  have hwithin := hin.within
  by_cases hmany : 1 < s.pieces
  · have hkept : ∀ k, (Kept sent (total done) (fun k => k ≤ e ∨ R k) k ∨ true = true ∧ k = n) ↔
        Kept sent (total done) (fun k => k ≤ e ∨ R k ∨ k = n) k := fun k => by
      constructor
      · rintro (⟨hk, hk', hfragmented⟩ | ⟨-, rfl⟩)
        · exact ⟨hk, hk'.imp_right .inl, hfragmented⟩
        · have hdone := hwithin.le
          exact ⟨by omega, .inr (.inr rfl), s, r, hat, hmany⟩
      · rintro ⟨hk, hk' | hk' | rfl, hfragmented⟩
        · exact .inl ⟨hk, .inl hk', hfragmented⟩
        · exact .inl ⟨hk, .inr hk', hfragmented⟩
        · exact .inr ⟨rfl, rfl⟩
    have hlow : e < total done + 4 := by
      obtain ⟨t, rest', k, hsent', hk, hlt⟩ := hwithin.next (by have := hat.le; omega)
      have hle' := t.pieces_le
      omega
    have hnear : ∀ r, r < s.pieces → Near (fun k => Kept sent (total done) (fun k => k ≤ e ∨ R k) k ∨ true = true ∧ k = n)
        (total before + 1 + r) := fun r hr k hk => by
      obtain ⟨hk, hk', -⟩ := (hkept k).mp hk
      have hbound : k ≤ e + 20 := by
        obtain hk' | hk' | hk' := hk'
        · omega
        · exact (hin.window k hk').2.1
        · omega
      omega
    obtain ⟨-, hN, -⟩ | ⟨-, hcompletes⟩ := processFragments_spec hsent (by omega) hr hmany h hin.fragm hnear
      (fun _ hF => hF.2.1.elim (fun hle => by omega) hnew) (fun _ hfalse => by cases hfalse) hprocess
    · exact hN.congr hkept
    · have hfull := s.full_of_lt 0 (by omega)
      have hempty := hcompletes.msg.symm.trans hmsg
      rw [hempty] at hfull
      simp at hfull
  · unfold processFragments at hprocess
    rw [s.fragm_datagram, decide_eq_false hmany] at hprocess
    cases hprocess
    refine hin.fragm.congr fun k => ?_
    constructor
    · rintro ⟨hk, hk', hfragmented⟩
      exact ⟨hk, hk'.imp_right .inl, hfragmented⟩
    · rintro ⟨hk, hk' | hk' | rfl, t, l, hatk, hpieces⟩
      · exact ⟨hk, .inl hk', t, l, hatk, hpieces⟩
      · exact ⟨hk, .inr hk', t, l, hatk, hpieces⟩
      · obtain ⟨rfl, -⟩ := hat.unique hatk
        omega

/-- **A datagram ahead of its turn** is kept; a fragment is put with its message
as well, which is not complete by that. -/
theorem ahead_spec (h : d.Sound i taken) (hin : Incoming sent done e R d.peer) (hn : e + 1 < n) (hn' : n ≤ e + 20)
    (hm : Is sent n m) (hahead : d.ahead m = .ok (ack, arrived, d')) (hrepeats : d.recvSlot m.seqNum = none)
    (hforgets : ∀ msg d₁, d.processFragments m true = .ok (msg, d₁) → msg = []) :
    ∃ new e' R', Receives i taken sent done e n R d ack arrived d' new e' R' := by
  have htotal : n ≤ total sent := by
    obtain ⟨s, r, hat, -⟩ := hm
    exact hat.le
  unfold ahead at hahead
  cases hprocess : d.processFragments m true with
  | error _ =>
      rw [hprocess] at hahead
      cases hahead
  | ok result =>
      obtain ⟨msg, d₁⟩ := result
      rw [hprocess] at hahead
      dsimp only [bind, Except.bind] at hahead
      cases hadd : d₁.addToRecvMsgBuf m with
      | none =>
          rw [hadd] at hahead
          cases hahead
      | some d₂ =>
          rw [hadd] at hahead
          dsimp only at hahead
          have hsame₁ := processFragments_refragments h hprocess
          obtain ⟨hsound₂, hkeeps₂, j, hfree, hpeer₂⟩ := addToRecvMsgBuf_spec hsame₁.sound hadd
          rw [hsame₁.recv] at hfree
          have hrecv₂ : d₂.peer.recv = Function.update d.peer.recv j (some ⟨m, 0, 0⟩) := by rw [hpeer₂, ← hsame₁.recv]
          have hfragm₂ : d₂.peer.fragm = d₁.peer.fragm := by rw [hpeer₂]
          have hsame₂ : d₁.peer.Same d₂.peer := by
            rw [hpeer₂]
            exact ⟨rfl, rfl, rfl, rfl, rfl⟩
          cases hahead
          obtain ⟨hsound₃, hkeeps₃⟩ : Sound i taken ⟨d₂.comm, { d₂.info with lastMsgReceived := m.seqNum }⟩ ∧
              Keeps i d₂ ⟨d₂.comm, { d₂.info with lastMsgReceived := m.seqNum }⟩ :=
            keeps_info hsound₂ rfl rfl rfl rfl
          -- it has not waited there before
          have hnew : ¬ R n := fun hR => by
            obtain ⟨k, a, hk, ha⟩ := hin.recv.slot hR
            exact recvSlot_eq_none hrepeats hk (ha.seqNum.trans hm.seqNum.symm)
          have hF := processFragments_ahead h hin hn hn' hnew hm hprocess (hforgets msg d₁ hprocess)
          rw [← hfragm₂] at hF
          have hack : d₂.info.lastAckSent = BitVec.ofNat 8 e := by
            have hsame := hsame₁.same.trans hsame₂
            exact hsame.lastAckSent.trans hin.lastAckSent
          have hR' : Numbered (Waits sent) (fun k => R k ∨ k = n) d₂.peer.recv := by
            rw [hrecv₂]
            refine hin.recv.insert hfree hm fun k b hk hb hnb => ?_
            have hbound := hin.window k hk
            have hkn : k = n := (seq_eq_iff (by omega) (by omega)).mp (hb.seqNum.symm.trans hnb.seqNum)
            exact hnew (hkn ▸ hk)
          refine ⟨[], e, fun k => R k ∨ k = n, hsound₃, (hsame₁.keeps.trans hkeeps₂).trans hkeeps₃, ?_, hack, rfl, ?_,
            Nat.le_refl e, .inl rfl, fun k hk => hk⟩
          · have hsame := hsame₁.same.trans hsame₂
            exact ⟨hsame.lastAckReceived, hsame.lastMsgSent, hsame.lastAckSent, hsame.resetFlag, hsame.sent⟩
          · rw [List.append_nil]
            refine ⟨hack, hin.within, hin.le, fun k hk => ?_, hR', hF⟩
            obtain hk | rfl := hk
            · exact hin.window k hk
            · exact ⟨hn, hn', htotal⟩

/-- **A reliable datagram that arrives**: what is acknowledged is what has been
taken, and the messages that have been put together arrive in their order. -/
theorem receive_spec (h : d.Sound i taken) (hin : Incoming sent done e R d.peer) (hm : Is sent n m) (hlow : e < n + 20)
    (hhigh : n ≤ e + 20) (hreceive : d.receive m = .ok (ack, arrived, d')) (hspoils : ¬ d.Spoils m) :
    ∃ new e' R', Receives i taken sent done e n R d ack arrived d' new e' R' := by
  have hlas : d.info.lastAckSent = BitVec.ofNat 8 e := hin.lastAckSent
  -- the three tests of the source, on the numbers of the datagrams
  have hnext : m.seqNum = d.info.lastAckSent + 1 ↔ n = e + 1 := by
    rw [hm.seqNum, hlas, ← seq_succ]
    exact seq_eq_iff (by omega) (by omega)
  have hsame : m.seqNum = d.info.lastAckSent ↔ n = e := by
    rw [hm.seqNum, hlas]
    exact seq_eq_iff (by omega) (by omega)
  have hdiff : (m.seqNum - d.info.lastAckSent).toNat ≤ PO_COMM_WINDOW_SIZE ↔ e ≤ n := by
    rw [hm.seqNum, hlas]
    unfold PO_COMM_WINDOW_SIZE
    by_cases hle : e ≤ n
    · rw [toNat_seq_sub hle (by omega)]
      omega
    · rw [toNat_seq_sub_of_lt (by omega) (by omega)]
      omega
  unfold receive at hreceive
  split_ifs at hreceive with hturn hwindow
  · have hn := hnext.mp hturn
    subst hn
    have htotal : e < total sent := by
      obtain ⟨s, r, hat, -⟩ := hm
      exact hat.le
    refine inTurn_spec h hin htotal hm hreceive fun hnone => ?_
    by_contra hne
    exact hspoils (.inl ⟨hturn, hnone, Option.isSome_iff_ne_none.mpr hne⟩)
  · have hn : e + 1 < n := by
      have hle := hdiff.mp hwindow.1
      have hne : n ≠ e := fun heq => hwindow.2 (hsame.mpr heq)
      have hne' : n ≠ e + 1 := fun heq => hturn (hnext.mpr heq)
      omega
    have hahead : d.IsAhead m := ⟨hturn, hwindow.2, hwindow.1⟩
    refine ahead_spec h hin hn hhigh hm hreceive ?_ fun msg d₁ hprocess => ?_
    · by_contra hne
      exact hspoils (.inr (.inl ⟨hahead, Option.isSome_iff_ne_none.mpr hne⟩))
    · by_contra hmsg
      refine hspoils (.inr (.inr ⟨hahead, ?_⟩))
      rw [hprocess]
      exact hmsg
  · -- it has been taken before
    cases hreceive
    rw [hlas]
    refine ⟨[], e, R, h, Keeps.refl i _, Peer.Same.refl _, rfl, rfl, ?_, Nat.le_refl e, .inl rfl, fun k hk => .inl hk⟩
    rw [List.append_nil]
    exact ⟨rfl, hin.within, hin.le, hin.window, hin.recv, hin.fragm⟩

end Draft

end Pobicos.Transport
