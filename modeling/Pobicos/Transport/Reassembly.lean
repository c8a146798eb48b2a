import Pobicos.Lib.SlidingWindow
import Pobicos.Transport.Fragments

/-!
# Pobicos.Transport.Reassembly

How a node puts a message together: the fragments that have arrived are kept,
whatever their order, until none is missing of their message.

`F` are the numbers of the fragments that a node has.  `processFragments_spec`
says what becomes of one more.
-/

namespace Pobicos.Transport

open Octets FlatMemory SlidingWindow PoCommM

namespace Draft

variable {i : Fin MAX_NODES} {d d' d'' : Draft} {j : Slot} {m : PoRadioMsg} {taken : List NodeIndex}
  {sent done rest : List Sent} {s : Sent} {b n r t : Nat} {F : Nat → Prop} {seq num : Byte}

/-! ## Fragments that are kept -/

/-- Only the fragments of the peer have changed. -/
structure Refragments (i : Fin MAX_NODES) (taken : List NodeIndex) (d d' : Draft) : Prop where
  sound : d'.Sound i taken
  keeps : Keeps i d d'
  comm : d'.comm = { d.comm with fragmNodes := d'.comm.fragmNodes }
  info : d'.info = { d.info with fragmMsgBuf := d'.info.fragmMsgBuf }

theorem Refragments.refl (h : d.Sound i taken) : Refragments i taken d d := ⟨h, Keeps.refl i d, rfl, rfl⟩

/-- Several changes of fragments. -/
theorem Refragments.trans (h : Refragments i taken d d') (h' : Refragments i taken d' d'') : Refragments i taken d d'' := by
  refine ⟨h'.sound, h.keeps.trans h'.keeps, ?_, ?_⟩
  · rw [h'.comm, h.comm]
  · rw [h'.info, h.info]

/-- For a peer only the fragments have changed. -/
theorem Refragments.peer (h : Refragments i taken d d') : d'.peer = { d.peer with fragm := d'.peer.fragm } := by
  simp only [Draft.peer, AddrInfo.peer]
  rw [h.info, h.comm]

/-- A fragment is added. -/
theorem addToFragmMsgBuf_refragments (h : d.Sound i taken) (hadd : d.addToFragmMsgBuf m = some (j, d')) :
    Refragments i taken d d' := by
  obtain ⟨hsound, hkeeps, -⟩ := addToFragmMsgBuf_spec h hadd
  unfold addToFragmMsgBuf at hadd
  simp only [getFragmNode, Option.bind_eq_bind, Option.bind_eq_some_iff, Option.map_eq_some_iff, Prod.exists,
    Option.some.injEq, Prod.mk.injEq] at hadd
  obtain ⟨j, -, k, c, ⟨k, q, -, -, rfl⟩, -, rfl⟩ := hadd
  exact ⟨hsound, hkeeps, rfl, rfl⟩

/-- Fragments are given back. -/
theorem freeFragments_refragments {xs : List (Option Slot)} (h : d.Sound i taken) (hfree : freeFragments xs d = .ok d') :
    Refragments i taken d d' := by
  induction xs generalizing d with
  | nil =>
      cases hfree
      exact Refragments.refl h
  | cons x xs ih =>
      cases x with
      | none => cases hfree
      | some j =>
          unfold freeFragments at hfree
          cases hnode : d.info.fragmMsgBuf j with
          | none =>
              rw [hnode] at hfree
              cases hfree
          | some k =>
              rw [hnode] at hfree
              obtain ⟨hsound, hkeeps, -⟩ := freeFragm_spec h hnode
              have hfirst : Refragments i taken d (d.freeFragm j k) := ⟨hsound, hkeeps, rfl, rfl⟩
              exact hfirst.trans (ih hsound hfree)

/-- The search gives fragments back when none is missing, and does nothing else.
-/
theorem fragmentLoop_refragments {firstSeqNum : Byte} {fuel t : Nat} {indices : List (Option Slot)} {data : Memory}
    {msg : List Byte} (h : d.Sound i taken) (hloop : fragmentLoop firstSeqNum fuel t indices data d = .ok (msg, d')) :
    Refragments i taken d d' := by
  induction fuel generalizing t indices data with
  | zero =>
      cases hloop
      exact Refragments.refl h
  | succ fuel ih =>
      unfold fragmentLoop at hloop
      cases hslot : d.fragmSlot (firstSeqNum + BitVec.ofNat 8 (t + 1)) (BitVec.ofNat 8 (t + 1)) with
      | none =>
          rw [hslot] at hloop
          cases hloop
          exact Refragments.refl h
      | some found =>
          obtain ⟨j, m⟩ := found
          rw [hslot] at hloop
          dsimp only at hloop
          split_ifs at hloop
          · exact ih hloop
          · cases hfree : freeFragments (indices ++ [some j]) d with
            | error _ =>
                rw [hfree] at hloop
                cases hloop
            | ok d₁ =>
                rw [hfree] at hloop
                cases hloop
                exact freeFragments_refragments h hfree

/-- **Putting messages together works on the fragments only.** -/
theorem processFragments_refragments {newMessage : Bool} {msg : List Byte} (h : d.Sound i taken)
    (hprocess : d.processFragments m newMessage = .ok (msg, d')) : Refragments i taken d d' := by
  have hassemble : ∀ {x : Option Slot} {d₁ : Draft}, d₁.Sound i taken → d₁.assemble m x = .ok (msg, d') →
      Refragments i taken d₁ d' := fun {x d₁} h₁ hrest => by
    unfold assemble at hrest
    split_ifs at hrest
    · exact fragmentLoop_refragments h₁ hrest
    · split at hrest
      · exact fragmentLoop_refragments h₁ hrest
      · cases hrest
        exact Refragments.refl h₁
  unfold processFragments at hprocess
  cases hflag : m.has PO_COMM_FLAGS_FRAGM_EN with
  | false =>
      rw [hflag] at hprocess
      cases hprocess
      exact Refragments.refl h
  | true =>
      rw [hflag] at hprocess
      simp only [Bool.not_true, Bool.false_eq_true, if_false] at hprocess
      cases newMessage with
      | true =>
          cases hadd : d.addToFragmMsgBuf m with
          | none =>
              simp only [hadd, if_true] at hprocess
              cases hprocess
          | some found =>
              obtain ⟨j, d₁⟩ := found
              simp only [hadd, if_true] at hprocess
              have hfirst := addToFragmMsgBuf_refragments h hadd
              exact hfirst.trans (hassemble hfirst.sound hprocess)
      | false =>
          simp only [Bool.false_eq_true, if_false] at hprocess
          exact hassemble h hprocess

/-- What is found has the number and the place that were asked for. -/
theorem fragmSlot_eq_some (h : d.fragmSlot seq num = some (j, m)) :
    d.peer.fragm j = some m ∧ m.seqNum = seq ∧ m.fragmNum = num := by
  obtain ⟨k, -, hk⟩ := List.exists_of_findSome?_eq_some h
  cases hnode : d.info.fragmMsgBuf k with
  | none => simp [hnode] at hk
  | some n =>
      simp only [hnode] at hk
      split_ifs at hk with hmatch
      cases hk
      exact ⟨by simp [peer, AddrInfo.peer, hnode], hmatch⟩

/-- What is not found is in no slot. -/
theorem fragmSlot_eq_none (h : d.fragmSlot seq num = none) (hm : d.peer.fragm j = some m) :
    ¬ (m.seqNum = seq ∧ m.fragmNum = num) := by
  have hj := List.findSome?_eq_none_iff.mp h j (List.mem_finRange j)
  simp only [peer, AddrInfo.peer, Option.map_eq_some_iff] at hm
  obtain ⟨n, hnode, rfl⟩ := hm
  simp only [hnode] at hj
  split_ifs at hj with hmatch
  exact hmatch

/-- The numbers are less than a turn from `n`. -/
def Near (F : Nat → Prop) (n : Nat) : Prop := ∀ k, F k → k < n + 256 ∧ n < k + 256

/-- A fragment that has been found is the one that was looked for. -/
theorem fragmSlot_found (hF : Numbered (Is sent) F d.peer.fragm) (hnear : Near F n) (hat : At sent n s r)
    (h : d.fragmSlot (BitVec.ofNat 8 n) num = some (j, m)) :
    F n ∧ d.peer.fragm j = some m ∧ m = s.datagram n r := by
  obtain ⟨hm, hseq, -⟩ := fragmSlot_eq_some h
  obtain ⟨k, hk, his⟩ := hF.number hm
  obtain ⟨hlt, hgt⟩ := hnear k hk
  have hkn : k = n := (seq_eq_iff (by omega) (by omega)).mp (his.seqNum.symm.trans hseq)
  subst hkn
  obtain ⟨s', r', hat', rfl⟩ := his
  obtain ⟨rfl, rfl⟩ := hat.unique hat'
  exact ⟨hk, hm, rfl⟩

/-- One that has not been found is not there. -/
theorem fragmSlot_missing (hF : Numbered (Is sent) F d.peer.fragm) (hat : At sent n s r)
    (h : d.fragmSlot (BitVec.ofNat 8 n) (BitVec.ofNat 8 r) = none) : ¬ F n := by
  intro hn
  obtain ⟨j, m, hm, s', r', hat', rfl⟩ := hF.slot hn
  obtain ⟨rfl, rfl⟩ := hat.unique hat'
  exact fragmSlot_eq_none h hm ⟨rfl, rfl⟩

/-! ## Fragments that are given back -/

/-- The slots have the fragments from number `n` on, as far as they are known. -/
def Placed (sent : List Sent) (F : Nat → Prop) (d : Draft) : Nat → List (Option Slot) → Prop
  | _, [] => True
  | n, x :: xs => (∀ j, x = some j → ∃ m, d.peer.fragm j = some m ∧ Is sent n m ∧ F n) ∧ Placed sent F d (n + 1) xs

/-- One more slot at the end. -/
theorem placed_concat {xs : List (Option Slot)} :
    Placed sent F d n (xs ++ [some j]) ↔
      Placed sent F d n xs ∧ ∃ m, d.peer.fragm j = some m ∧ Is sent (n + xs.length) m ∧ F (n + xs.length) := by
  induction xs generalizing n with
  | nil => simp [Placed]
  | cons x xs ih => simp [Placed, ih, and_assoc, Nat.add_assoc, Nat.add_comm 1]

/-- A fragment that has been given back was not one of the others. -/
theorem Placed.erase {xs : List (Option Slot)} {k : Nat} (h : Placed sent F d n xs)
    (hF : Numbered (Is sent) F d.peer.fragm) (hj : d.peer.fragm j = some m) (hm : Is sent k m) (hk : F k) (hkn : k < n)
    (hpeer : d'.peer.fragm = Function.update d.peer.fragm j none) :
    Placed sent (fun r => F r ∧ r ≠ k) d' n xs := by
  induction xs generalizing n with
  | nil => trivial
  | cons x xs ih =>
      refine ⟨fun j' hj' => ?_, ih h.2 (by omega)⟩
      obtain ⟨m', hm', his, hn⟩ := h.1 j' hj'
      have hne : j' ≠ j := by
        rintro rfl
        rw [hj] at hm'
        cases hm'
        have heq := hF.sharp hk hn hm his
        omega
      exact ⟨m', by rwa [hpeer, Function.update_of_ne hne], his, hn, by omega⟩

/-- **The fragments of a message are given back**: those numbers are gone, and
the others stay. -/
theorem freeFragments_spec {xs : List (Option Slot)} (h : d.Sound i taken) (hF : Numbered (Is sent) F d.peer.fragm)
    (hxs : Placed sent F d n xs) (hfree : freeFragments xs d = .ok d') :
    Numbered (Is sent) (fun r => F r ∧ ¬ (n ≤ r ∧ r < n + xs.length)) d'.peer.fragm := by
  induction xs generalizing d F n with
  | nil =>
      cases hfree
      exact hF.congr fun r => by simp
  | cons x xs ih =>
      cases x with
      | none => cases hfree
      | some j =>
          obtain ⟨m, hm, his, hn⟩ := hxs.1 j rfl
          unfold freeFragments at hfree
          cases hnode : d.info.fragmMsgBuf j with
          | none =>
              rw [hnode] at hfree
              cases hfree
          | some k =>
              rw [hnode] at hfree
              obtain ⟨hsound, -, hpeer⟩ := freeFragm_spec h hnode
              have hF' := hF.erase hm hn his
              have hfragm : (d.freeFragm j k).peer.fragm = Function.update d.peer.fragm j none := by rw [hpeer]
              rw [← hfragm] at hF'
              have hN := ih hsound hF' (hxs.2.erase hF hm his hn (by omega) hfragm) hfree
              refine hN.congr fun r => ?_
              rw [List.length_cons, and_assoc]
              exact and_congr_right fun _ => by omega

/-! ## Messages that are put together -/

/-- The message has been put together and its fragments given back. -/
structure Completes (sent : List Sent) (F : Nat → Prop) (b : Nat) (s : Sent) (msg : List Byte) (d' : Draft) : Prop where
  msg : msg = s.msg.data
  fragm : Numbered (Is sent) (fun k => F k ∧ ¬ (b < k ∧ k ≤ b + s.pieces)) d'.peer.fragm

/-- A piece is written behind the ones before it. -/
theorem bytes_write_behind (mem : Memory) (a : Nat) (bs : List Byte) :
    bytes (write mem a bs) 0 (a + bs.length) = bytes mem 0 a ++ bs := by
  have hbehind := bytes_write mem a bs
  rw [bytes_add, Nat.zero_add, hbehind, bytes_of_outside (outside_write mem a bs) (by omega)]

/-- One more piece of a message. -/
theorem take_append_payload (h : t < s.pieces) :
    s.msg.data.take (t * FRAGM_LEN) ++ (s.datagram n t).payload = s.msg.data.take ((t + 1) * FRAGM_LEN) := by
  rw [s.payload_datagram n t h, Nat.add_mul, Nat.one_mul, List.take_add]

/-- **The search for the fragments of a message**, of which those up to the
`t`-th have been found and copied: one is missing, and nothing has changed, or
the message is complete. -/
theorem fragmentLoop_spec {fuel : Nat} {indices : List (Option Slot)} {data : Memory} {msg : List Byte}
    (hsent : sent = done ++ s :: rest) (h : d.Sound i taken) (hF : Numbered (Is sent) F d.peer.fragm)
    (hnear : ∀ r, r < s.pieces → Near F (total done + 1 + r)) (ht : t + 1 < s.pieces)
    (hdata : bytes data 0 ((t + 1) * FRAGM_LEN) = s.msg.data.take ((t + 1) * FRAGM_LEN))
    (hindices : Placed sent F d (total done + 1) indices) (hlen : indices.length = t + 1)
    (hfuel : s.pieces ≤ t + 1 + fuel)
    (hloop : fragmentLoop (BitVec.ofNat 8 (total done + 1)) fuel t indices data d = .ok (msg, d')) :
    (msg = [] ∧ d' = d ∧ ∃ r, t < r ∧ r < s.pieces ∧ ¬ F (total done + 1 + r)) ∨
      (∀ r, t < r → r < s.pieces → F (total done + 1 + r)) ∧
        Completes sent F (total done) s msg d' := by
  -- one fragment for each turn; four pieces at most, which the fuel is enough for
  induction fuel generalizing t indices data with
  | zero => omega
  | succ fuel ih =>
      have hat : At sent (total done + 1 + (t + 1)) s (t + 1) := ⟨done, rest, hsent, by omega, ht⟩
      have hfull := s.full_of_lt t ht
      have hfits := s.msg.fits
      unfold fragmentLoop at hloop
      rw [← BitVec.ofNat_add] at hloop
      cases hslot : d.fragmSlot (BitVec.ofNat 8 (total done + 1 + (t + 1))) (BitVec.ofNat 8 (t + 1)) with
      | none =>
          rw [hslot] at hloop
          cases hloop
          exact .inl ⟨rfl, rfl, t + 1, by omega, ht, fragmSlot_missing hF hat hslot⟩
      | some found =>
          obtain ⟨j, m⟩ := found
          obtain ⟨hn, hm, rfl⟩ := fragmSlot_found hF (hnear (t + 1) ht) hat hslot
          rw [hslot] at hloop
          dsimp only at hloop
          generalize hpiece : s.datagram (total done + 1 + (t + 1)) (t + 1) = piece at hloop hm
          have hpayload := s.payload_datagram (total done + 1 + (t + 1)) (t + 1) ht
          rw [hpiece] at hpayload
          have hplen : piece.payload.length = min FRAGM_LEN (s.msg.data.length - (t + 1) * FRAGM_LEN) := by
            rw [hpayload, List.length_take, List.length_drop]
          have hdata' : bytes (write data ((t + 1) * FRAGM_LEN) piece.payload) 0 ((t + 1) * FRAGM_LEN + piece.payload.length) =
              s.msg.data.take ((t + 1 + 1) * FRAGM_LEN) := by
            rw [bytes_write_behind, hdata, ← hpiece, take_append_payload ht]
          have hplaced : Placed sent F d (total done + 1) (indices ++ [some j]) :=
            placed_concat.mpr ⟨hindices, piece, hm, ⟨s, t + 1, by rw [hlen]; exact hat, by rw [hlen]; exact hpiece.symm⟩,
              by rwa [hlen]⟩
          have hall : ∀ r, t < r → r < t + 1 + 1 → F (total done + 1 + r) := fun r hr hr' => by
            obtain rfl : r = t + 1 := by omega
            exact hn
          rw [if_neg (by omega)] at hloop
          have hmore := s.more_datagram (total done + 1 + (t + 1)) (t + 1)
          rw [hpiece] at hmore
          by_cases hlast : t + 1 + 1 < s.pieces
          · -- the piece is full, and there is one more to come
            have hfull' := s.full_of_lt (t + 1) hlast
            have hplen' : piece.payload.length = FRAGM_LEN := by
              rw [hplen]
              unfold FRAGM_LEN at *
              omega
            rw [hmore, decide_eq_true hlast] at hloop
            obtain hnothing | ⟨hrest, hcomplete⟩ := ih hlast (by rw [← hdata', hplen', Nat.add_mul (t + 1), Nat.one_mul])
              hplaced (by simp [hlen]) (by omega) hloop
            · obtain ⟨hmsg, hd, r, hr, hr', hmissing⟩ := hnothing
              exact .inl ⟨hmsg, hd, r, by omega, hr', hmissing⟩
            · refine .inr ⟨fun r hr hr' => ?_, hcomplete⟩
              by_cases hr'' : r < t + 1 + 1
              · exact hall r hr hr''
              · exact hrest r (by omega) hr'
          · have hpieces : s.pieces = t + 1 + 1 := by omega
            rw [hmore, decide_eq_false hlast, if_neg (by simp)] at hloop
            cases hfree : freeFragments (indices ++ [some j]) d with
            | error e =>
                rw [hfree] at hloop
                cases hloop
            | ok d₁ =>
                rw [hfree] at hloop
                cases hloop
                have hN := freeFragments_spec h hF hplaced hfree
                refine .inr ⟨fun r hr hr' => hall r hr (by omega), ?_, hN.congr fun k => ?_⟩
                · have hnum : piece.fragmNum.toNat = t + 1 := by
                    have hle := s.pieces_le
                    rw [← hpiece, s.fragmNum_datagram, BitVec.toNat_ofNat]
                    omega
                  have hlong := s.length_le_pieces (by omega)
                  rw [hnum, hdata', ← hpieces, List.take_of_length_le hlong]
                · rw [List.length_append, List.length_singleton, hlen, hpieces]
                  exact and_congr_right fun _ => by omega

/-- A fragment that is new is kept. -/
theorem addToFragmMsgBuf_numbered (h : d.Sound i taken) (hF : Numbered (Is sent) F d.peer.fragm) (hat : At sent n s r)
    (hnear : Near F n) (hnew : ¬ F n) (hadd : d.addToFragmMsgBuf (s.datagram n r) = some (j, d')) :
    d'.peer.fragm j = some (s.datagram n r) ∧ Numbered (Is sent) (fun k => F k ∨ k = n) d'.peer.fragm := by
  obtain ⟨-, -, hnone, hpeer⟩ := addToFragmMsgBuf_spec h hadd
  have hfragm : d'.peer.fragm = Function.update d.peer.fragm j (some (s.datagram n r)) := by rw [hpeer]
  refine ⟨by rw [hfragm, Function.update_self], ?_⟩
  rw [hfragm]
  refine hF.insert hnone ⟨s, r, hat, rfl⟩ fun k a hk ha hna => ?_
  obtain ⟨hlt, hgt⟩ := hnear k hk
  have hkn : k = n := (seq_eq_iff (by omega) (by omega)).mp (ha.seqNum.symm.trans hna.seqNum)
  exact hnew (hkn ▸ hk)

/-- The search for the fragments of a message, from its first one on. -/
theorem assemble_spec {x : Option Slot} {msg : List Byte} (hsent : sent = done ++ s :: rest) (hr : r < s.pieces)
    (hmany : 1 < s.pieces) (h : d.Sound i taken) (hF : Numbered (Is sent) F d.peer.fragm)
    (hnear : ∀ r, r < s.pieces → Near F (total done + 1 + r)) (hkept : r = 0 → F (total done + 1))
    (hx : ∀ j, x = some j → d.peer.fragm j = some (s.datagram (total done + 1 + r) r) ∧ F (total done + 1 + r))
    (hassemble : d.assemble (s.datagram (total done + 1 + r) r) x = .ok (msg, d')) :
    (msg = [] ∧ d' = d ∧ ∃ r, r < s.pieces ∧ ¬ F (total done + 1 + r)) ∨
      (∀ r, r < s.pieces → F (total done + 1 + r)) ∧ Completes sent F (total done) s msg d' := by
  have hle := s.pieces_le
  have hzero : (s.datagram (total done + 1 + r) r).fragmNum = 0 ↔ r = 0 := by
    show BitVec.ofNat 8 r = BitVec.ofNat 8 0 ↔ r = 0
    exact seq_eq_iff (by omega) (by omega)
  have hat : At sent (total done + 1) s 0 := ⟨done, rest, hsent, rfl, by omega⟩
  -- the bytes of the first fragment
  have hdata : ∀ n, bytes (write (fun _ => 0) 0 (s.datagram n 0).payload) 0 ((0 + 1) * FRAGM_LEN) =
      s.msg.data.take ((0 + 1) * FRAGM_LEN) := fun n => by
    have hfull := s.full_of_lt 0 (by omega)
    have hlen : (s.datagram n 0).payload.length = (0 + 1) * FRAGM_LEN := by
      rw [s.payload_datagram n 0 (by omega), List.length_take, List.length_drop]
      unfold FRAGM_LEN at *
      omega
    have hwritten := bytes_write (fun _ => 0) 0 (s.datagram n 0).payload
    rw [hlen] at hwritten
    rw [hwritten, s.payload_datagram n 0 (by omega)]
    simp
  have hfrom : F (total done + 1) → (∀ r, 0 < r → r < s.pieces → F (total done + 1 + r)) →
      ∀ r, r < s.pieces → F (total done + 1 + r) := fun hfirst hrest r hr => by
    cases r with
    | zero => exact hfirst
    | succ r => exact hrest (r + 1) (by omega) hr
  unfold assemble at hassemble
  by_cases hr0 : r = 0
  · subst hr0
    rw [if_pos (hzero.mpr rfl)] at hassemble
    have hplaced : Placed sent F d (total done + 1) [x] := by
      refine ⟨fun j hj => ?_, trivial⟩
      obtain ⟨hm, hn⟩ := hx j hj
      exact ⟨_, hm, ⟨s, 0, hat, rfl⟩, hn⟩
    obtain ⟨hmsg, hd, r, -, hr, hmissing⟩ | ⟨hrest, hcompletes⟩ := fragmentLoop_spec hsent h hF hnear (t := 0) (by omega)
      (hdata _) hplaced rfl (by unfold PO_COMM_WINDOW_SIZE; omega) hassemble
    · exact .inl ⟨hmsg, hd, r, hr, hmissing⟩
    · exact .inr ⟨hfrom (hkept rfl) hrest, hcompletes⟩
  · rw [if_neg (fun heq => hr0 (hzero.mp heq)), s.seqNum_datagram, s.fragmNum_datagram, BitVec.ofNat_add,
      BitVec.add_sub_cancel] at hassemble
    cases hslot : d.fragmSlot (BitVec.ofNat 8 (total done + 1)) 0 with
    | none =>
        rw [hslot] at hassemble
        cases hassemble
        exact .inl ⟨rfl, rfl, 0, by omega, fragmSlot_missing hF hat hslot⟩
    | some found =>
        obtain ⟨j, m⟩ := found
        obtain ⟨hn, hm, rfl⟩ := fragmSlot_found hF (hnear 0 (by omega)) hat hslot
        rw [hslot] at hassemble
        have hplaced : Placed sent F d (total done + 1) [some j] := by
          refine ⟨fun j' hj' => ?_, trivial⟩
          cases hj'
          exact ⟨_, hm, ⟨s, 0, hat, rfl⟩, hn⟩
        obtain ⟨hmsg, hd, r, -, hr, hmissing⟩ | ⟨hrest, hcompletes⟩ := fragmentLoop_spec hsent h hF hnear (t := 0)
          (by omega) (hdata _) hplaced rfl (by unfold PO_COMM_WINDOW_SIZE; omega) hassemble
        · exact .inl ⟨hmsg, hd, r, hr, hmissing⟩
        · exact .inr ⟨hfrom hn hrest, hcompletes⟩

/-- **What becomes of a fragment**: it is kept if it is new, and if nothing is
missing of its message any more, the message is put together. -/
theorem processFragments_spec {newMessage : Bool} {msg : List Byte} (hsent : sent = done ++ s :: rest)
    (hn : n = total done + 1 + r) (hr : r < s.pieces) (hmany : 1 < s.pieces) (h : d.Sound i taken)
    (hF : Numbered (Is sent) F d.peer.fragm)
    (hnear : ∀ r, r < s.pieces → Near (fun k => F k ∨ newMessage ∧ k = n) (total done + 1 + r))
    (hnew : newMessage → ¬ F n) (hkept : r = 0 → newMessage = false → F n)
    (hprocess : d.processFragments (s.datagram n r) newMessage = .ok (msg, d')) :
    (msg = [] ∧ Numbered (Is sent) (fun k => F k ∨ newMessage ∧ k = n) d'.peer.fragm ∧
        ∃ r, r < s.pieces ∧ ¬ (F (total done + 1 + r) ∨ newMessage ∧ total done + 1 + r = n)) ∨
      (∀ r, r < s.pieces → F (total done + 1 + r) ∨ newMessage ∧ total done + 1 + r = n) ∧
        Completes sent (fun k => F k ∨ newMessage ∧ k = n) (total done) s msg d' := by
  have hat : At sent n s r := ⟨done, rest, hsent, by omega, hr⟩
  unfold processFragments at hprocess
  rw [s.fragm_datagram, decide_eq_true hmany] at hprocess
  simp only [Bool.not_true, Bool.false_eq_true, if_false] at hprocess
  -- a datagram that has been kept ahead of its turn is in a slot already
  cases newMessage with
  | true =>
      cases hadd : d.addToFragmMsgBuf (s.datagram n r) with
      | none =>
          simp only [hadd, if_true] at hprocess
          cases hprocess
      | some found =>
          obtain ⟨j, d₁⟩ := found
          simp only [hadd, if_true] at hprocess
          have hsound := (addToFragmMsgBuf_refragments h hadd).sound
          obtain ⟨hm, hN⟩ := addToFragmMsgBuf_numbered h hF hat
            (fun k hk => hn ▸ hnear r hr k (.inl hk)) (hnew rfl) hadd
          subst hn
          have hN : Numbered (Is sent) (fun k => F k ∨ true = true ∧ k = total done + 1 + r) d₁.peer.fragm :=
            hN.congr fun k => by simp
          obtain ⟨hmsg, hd, hmissing⟩ | ⟨hall, hcompletes⟩ := assemble_spec hsent hr hmany hsound hN hnear
            (fun hr0 => .inr ⟨rfl, by rw [hr0]⟩) (fun k hk => by cases hk; exact ⟨hm, .inr ⟨rfl, rfl⟩⟩) hprocess
          · subst hd
            exact .inl ⟨hmsg, hN, hmissing⟩
          · exact .inr ⟨hall, hcompletes⟩
  | false =>
      simp only [Bool.false_eq_true, if_false] at hprocess
      subst hn
      have hN : Numbered (Is sent) (fun k => F k ∨ false = true ∧ k = total done + 1 + r) d.peer.fragm :=
        hF.congr fun k => by simp
      obtain ⟨hmsg, hd, hmissing⟩ | ⟨hall, hcompletes⟩ := assemble_spec (x := none) hsent hr hmany h hN hnear
        (fun hr0 => by have hn := hkept hr0 rfl; rw [hr0] at hn; exact .inl hn) nofun hprocess
      · subst hd
        exact .inl ⟨hmsg, hN, hmissing⟩
      · exact .inr ⟨hall, hcompletes⟩

end Draft

end Pobicos.Transport
