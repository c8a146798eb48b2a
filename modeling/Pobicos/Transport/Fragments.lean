import Mathlib.Algebra.GroupWithZero.Nat
import Mathlib.Data.List.Infix
import Pobicos.Transport.Peers

/-!
# Pobicos.Transport.Fragments

The datagrams that a sequence of messages is put into, numbered from 1.

A message of less than 46 bytes is one datagram, and a longer one is in pieces
of 46 bytes (`payload_datagram`).  `At sent n s i` says that the `n`-th datagram
is the `i`-th of the message `s`; every number has one place (`At.unique`).
-/

namespace Pobicos.Transport

open Octets FlatMemory

/-- A message that has been accepted. -/
structure Sent where
  id : Byte
  msgId : Byte
  msg : PoMsg

namespace Sent

variable (s : Sent) (n i : Nat)

/-- How many datagrams the message is put into. -/
def pieces : Nat :=
  if s.msg.data.length < FRAGM_LEN then 1
  else s.msg.data.length / FRAGM_LEN + if s.msg.data.length % FRAGM_LEN ≠ 0 then 1 else 0

/-- The `i`-th datagram of the message, under the number `n`. -/
def datagram : PoRadioMsg := PoCommM.fragmentMsg s.id (BitVec.ofNat 8 n) false s.msg s.pieces i

/-- There is always a datagram, for an empty message too. -/
theorem pieces_pos : 0 < s.pieces := by
  unfold pieces FRAGM_LEN
  split_ifs <;> omega

/-- There are four at most. -/
theorem pieces_le : s.pieces ≤ 4 := by
  have hfits := s.msg.fits
  unfold MAX_MSG_DATA FRAGM_LEN at hfits
  unfold pieces FRAGM_LEN
  split_ifs <;> omega

/-- The pieces before the last one are full. -/
theorem full_of_lt (h : i + 1 < s.pieces) : (i + 1) * FRAGM_LEN < s.msg.data.length := by
  unfold pieces FRAGM_LEN at h
  unfold FRAGM_LEN
  split_ifs at h <;> omega

/-- The pieces have room for the message. -/
theorem length_le_pieces (h : 1 < s.pieces) : s.msg.data.length ≤ s.pieces * FRAGM_LEN := by
  unfold pieces FRAGM_LEN at *
  split_ifs at * <;> omega

/-! ## What is in a datagram -/

@[simp] theorem type_datagram : (s.datagram n i).type = PO_COMM_HDR_RELIABLE := rfl

@[simp] theorem ifId_datagram : (s.datagram n i).ifId = s.id := rfl

@[simp] theorem seqNum_datagram : (s.datagram n i).seqNum = BitVec.ofNat 8 n := rfl

@[simp] theorem fragmNum_datagram : (s.datagram n i).fragmNum = BitVec.ofNat 8 i := rfl

/-- A datagram of a message never asks for a reset. -/
theorem reset_datagram : (s.datagram n i).has PO_COMM_FLAGS_RESET = false := by
  show ((PO_COMM_FLAGS_SW_ACKS ||| 0 ||| _ : Byte) &&& PO_COMM_FLAGS_RESET != 0) = false
  split_ifs <;> rfl

/-- It is marked as a fragment if there is more than one. -/
theorem fragm_datagram : (s.datagram n i).has PO_COMM_FLAGS_FRAGM_EN = decide (1 < s.pieces) := by
  show ((PO_COMM_FLAGS_SW_ACKS ||| 0 ||| _ : Byte) &&& PO_COMM_FLAGS_FRAGM_EN != 0) = _
  split_ifs with h hi
  · rw [decide_eq_true h]
    rfl
  · rw [decide_eq_true h]
    rfl
  · rw [decide_eq_false h]
    rfl

/-- All but the last one say that more follow. -/
theorem more_datagram : (s.datagram n i).has PO_COMM_FLAGS_MORE_FRAGM = decide (i + 1 < s.pieces) := by
  show ((PO_COMM_FLAGS_SW_ACKS ||| 0 ||| _ : Byte) &&& PO_COMM_FLAGS_MORE_FRAGM != 0) = _
  have hpos := s.pieces_pos
  split_ifs with h hi
  · rw [decide_eq_true (by omega)]
    rfl
  · rw [decide_eq_false (by omega)]
    rfl
  · rw [decide_eq_false (by omega)]
    rfl

/-- **Every datagram has its 46 bytes** of the message, or what is left of it. -/
theorem payload_datagram (h : i < s.pieces) :
    (s.datagram n i).payload = (s.msg.data.drop (i * FRAGM_LEN)).take FRAGM_LEN := by
  show (s.msg.data.drop (i * FRAGM_LEN)).take _ = _
  by_cases hlast : i < s.pieces - 1
  · rw [if_pos hlast]
  · have hi : i = s.pieces - 1 := by omega
    rw [if_neg hlast, List.take_eq_take_iff, List.length_drop, hi]
    unfold pieces FRAGM_LEN
    split_ifs <;> omega

/-- A message of one piece is in its datagram. -/
theorem payload_single (h : s.pieces = 1) : (s.datagram n 0).payload = s.msg.data := by
  rw [payload_datagram s n 0 (by omega), Nat.zero_mul, List.drop_zero, List.take_of_length_le]
  unfold pieces FRAGM_LEN at h
  unfold FRAGM_LEN
  split_ifs at h <;> omega

end Sent

/-! ## Numbers -/

variable {sent more done rest : List Sent} {s s' : Sent} {m n i i' e : Nat} {a : PoRadioMsg}

/-- How many datagrams the messages are put into. -/
def total (sent : List Sent) : Nat := (sent.map Sent.pieces).sum

/-- The `n`-th datagram is the `i`-th of the message `s`. -/
def At (sent : List Sent) (n : Nat) (s : Sent) (i : Nat) : Prop :=
  ∃ done rest, sent = done ++ s :: rest ∧ n = total done + i + 1 ∧ i < s.pieces

/-- The `n`-th datagram. -/
def Is (sent : List Sent) (n : Nat) (a : PoRadioMsg) : Prop := ∃ s i, At sent n s i ∧ a = s.datagram n i

@[simp] theorem total_nil : total [] = 0 := rfl

@[simp] theorem total_append (sent more : List Sent) : total (sent ++ more) = total sent + total more := by
  simp [total]

@[simp] theorem total_cons (s : Sent) (rest : List Sent) : total (s :: rest) = s.pieces + total rest := by
  simp [total]

/-- Numbers start at 1. -/
theorem At.pos (h : At sent n s i) : 1 ≤ n := by
  obtain ⟨done, rest, -, rfl, -⟩ := h
  omega

/-- They end with the last datagram. -/
theorem At.le (h : At sent n s i) : n ≤ total sent := by
  obtain ⟨done, rest, rfl, rfl, hi⟩ := h
  simp only [total_append, total_cons]
  omega

/-- More messages do not move a datagram. -/
theorem At.append (h : At sent n s i) (more : List Sent) : At (sent ++ more) n s i := by
  obtain ⟨done, rest, rfl, hn, hi⟩ := h
  exact ⟨done, rest ++ more, by simp, hn, hi⟩

/-- A place that is not before the message `s` is in it. -/
theorem place_of_prefix {l rest' : List Sent} (heq : s :: rest = l ++ s' :: rest')
    (hn : total done + i = total (done ++ l) + i') (hi : i < s.pieces) :
    l = [] ∧ s = s' ∧ rest = rest' ∧ i = i' := by
  cases l with
  | nil =>
      rw [List.nil_append, List.cons.injEq] at heq
      exact ⟨rfl, heq.1, heq.2, by simpa using hn⟩
  | cons t l =>
      rw [List.cons_append, List.cons.injEq] at heq
      rw [← heq.1, total_append, total_cons] at hn
      omega

/-- **Every number has one place.** -/
theorem place_unique {done' rest' : List Sent} (heq : done ++ s :: rest = done' ++ s' :: rest')
    (hn : total done + i = total done' + i') (hi : i < s.pieces) (hi' : i' < s'.pieces) :
    done = done' ∧ s = s' ∧ rest = rest' ∧ i = i' := by
  obtain ⟨l, rfl, hl⟩ | ⟨l, rfl, hl⟩ := List.append_eq_append_iff.mp heq
  · obtain ⟨rfl, rfl, rfl, rfl⟩ := place_of_prefix hl hn hi
    simp
  · obtain ⟨rfl, rfl, rfl, rfl⟩ := place_of_prefix hl hn.symm hi'
    simp

/-- **A number is of one datagram.** -/
theorem At.unique (h : At sent n s i) (h' : At sent n s' i') : s = s' ∧ i = i' := by
  obtain ⟨done, rest, hsent, hn, hi⟩ := h
  obtain ⟨done', rest', hsent', hn', hi'⟩ := h'
  obtain ⟨-, hs, -, hi⟩ := place_unique (hsent.symm.trans hsent') (by omega) hi hi'
  exact ⟨hs, hi⟩

/-- **Every number up to the last one is of a datagram.** -/
theorem exists_at (hpos : 1 ≤ n) (hle : n ≤ total sent) : ∃ s i, At sent n s i := by
  induction sent generalizing n with
  | nil => simp at hle; omega
  | cons s rest ih =>
      by_cases hn : n ≤ s.pieces
      · exact ⟨s, n - 1, [], rest, rfl, by simp; omega, by omega⟩
      · rw [total_cons] at hle
        obtain ⟨s', i, done, rest', rfl, hn', hi⟩ := ih (n := n - s.pieces) (by omega) (by omega)
        exact ⟨s', i, s :: done, rest', rfl, by simp; omega, hi⟩

/-- A number that had been given is of the old messages. -/
theorem At.of_append (h : At (sent ++ more) n s i) (hn : n ≤ total sent) : At sent n s i := by
  obtain ⟨s', i', hat⟩ := exists_at h.pos hn
  obtain ⟨rfl, rfl⟩ := h.unique (hat.append more)
  exact hat

/-- So its datagram is the same one, whatever is sent later. -/
theorem is_append_iff (hn : n ≤ total sent) : Is (sent ++ more) n a ↔ Is sent n a := by
  constructor
  · intro ⟨s, i, hat, ha⟩
    exact ⟨s, i, hat.of_append hn, ha⟩
  · intro ⟨s, i, hat, ha⟩
    exact ⟨s, i, hat.append more, ha⟩

/-- The number on a datagram is its number modulo 256. -/
theorem Is.seqNum (h : Is sent n a) : a.seqNum = BitVec.ofNat 8 n := by
  obtain ⟨s, i, -, rfl⟩ := h
  exact s.seqNum_datagram n i

/-! ## Where a number is -/

/-- The messages `done` are in the first `e` datagrams, and the next one is not
with its last. -/
structure Within (sent done : List Sent) (e : Nat) : Prop where
  isPrefix : done <+: sent
  le : total done ≤ e
  lt : ∀ s rest, sent = done ++ s :: rest → e < total done + s.pieces

/-- Where the next datagram is: in the first message that has not ended. -/
theorem Within.next (h : Within sent done e) (he : e < total sent) :
    ∃ s rest i, sent = done ++ s :: rest ∧ e = total done + i ∧ i < s.pieces := by
  obtain ⟨rest, hrest⟩ := h.isPrefix
  have hle := h.le
  cases rest with
  | nil =>
      rw [List.append_nil] at hrest
      rw [hrest] at hle
      omega
  | cons s rest =>
      have hlt := h.lt s rest hrest.symm
      exact ⟨s, rest, e - total done, hrest.symm, by omega, by omega⟩

/-- Nothing has been taken. -/
theorem within_nil : Within sent [] 0 := by
  refine ⟨List.nil_prefix, Nat.le_refl 0, fun s rest _ => ?_⟩
  have hpos := s.pieces_pos
  simpa using hpos

/-- More messages do not change where a number is that has been given. -/
theorem Within.append (h : Within sent done e) (he : e ≤ total sent) (more : List Sent) : Within (sent ++ more) done e := by
  refine ⟨h.isPrefix.trans (List.prefix_append sent more), h.le, fun s rest heq => ?_⟩
  obtain ⟨rest', hrest'⟩ := h.isPrefix
  cases rest' with
  | nil =>
      rw [List.append_nil] at hrest'
      have hpos := s.pieces_pos
      rw [hrest']
      omega
  | cons t rest' =>
      rw [← hrest', List.append_assoc, List.append_cancel_left_eq, List.cons_append, List.cons.injEq] at heq
      rw [← heq.1]
      exact h.lt t rest' hrest'.symm

/-- A message with its last datagram. -/
theorem within_concat (h : sent = done ++ s :: rest) (he : e = total done + s.pieces) : Within sent (done ++ [s]) e := by
  refine ⟨⟨rest, by rw [h, List.append_assoc]; rfl⟩, by simp [he], fun t rest' _ => ?_⟩
  have hpos := t.pieces_pos
  simp [he, hpos]

/-- A datagram that is not the last one of its message ends none. -/
theorem Within.of_place (h : sent = done ++ s :: rest) (he : e = total done + i) (hi : i < s.pieces) : Within sent done e := by
  refine ⟨⟨s :: rest, h.symm⟩, by omega, fun t rest' heq => ?_⟩
  rw [h, List.append_cancel_left_eq, List.cons.injEq] at heq
  rw [← heq.1]
  omega

/-! ## The ends of the messages -/

/-- A message as the sender of it knows it. -/
def Sent.key (s : Sent) : Byte × Int := (s.id, s.msgId.toNat)

/-- For every datagram the message that it is the last one of. -/
def marks (sent : List Sent) : List (Option (Byte × Int)) :=
  sent.flatMap fun s => List.replicate (s.pieces - 1) none ++ [some s.key]

/-- Message by message. -/
theorem marks_cons (s : Sent) (rest : List Sent) :
    marks (s :: rest) = (List.replicate (s.pieces - 1) none ++ [some s.key]) ++ marks rest := rfl

/-- There is a mark for each datagram. -/
@[simp] theorem length_marks (sent : List Sent) : (marks sent).length = total sent := by
  induction sent with
  | nil => rfl
  | cons s rest ih =>
      have hpos := s.pieces_pos
      rw [marks_cons, List.length_append, ih, total_cons, List.length_append, List.length_replicate, List.length_singleton]
      omega

theorem marks_append (sent more : List Sent) : marks (sent ++ more) = marks sent ++ marks more :=
  List.flatMap_append

/-- Every message ends once, in the order of the messages. -/
theorem filterMap_marks (sent : List Sent) : (marks sent).filterMap id = sent.map Sent.key := by
  induction sent with
  | nil => rfl
  | cons s rest ih =>
      have hnone : (List.replicate (s.pieces - 1) (none : Option (Byte × Int))).filterMap id = [] := by
        rw [List.filterMap_eq_nil_iff]
        intro x hx
        exact List.eq_of_mem_replicate hx
      rw [marks_cons, List.filterMap_append, List.filterMap_append, hnone, ih]
      rfl

/-- The mark of a datagram tells whether it is the last one of its message. -/
theorem At.mark (h : At sent n s i) : (marks sent)[n - 1]? = some (if i + 1 = s.pieces then some s.key else none) := by
  obtain ⟨done, rest, rfl, rfl, hi⟩ := h
  have hlen : i < (List.replicate (s.pieces - 1) none ++ [some s.key]).length := by simp; omega
  rw [marks_append, List.getElem?_append_right (by simp), length_marks, marks_cons,
    show total done + i + 1 - 1 - total done = i by omega, List.getElem?_append_left hlen, List.getElem?_append]
  by_cases hlast : i + 1 = s.pieces
  · rw [if_pos hlast, if_neg (by simp; omega)]
    simp [show i - (s.pieces - 1) = 0 by omega]
  · rw [if_neg hlast, if_pos (by simp; omega), List.getElem?_replicate, if_pos (by omega)]

/-- **The messages that have ended** with the `e`-th datagram. -/
theorem Within.ended (h : Within sent done e) : ((marks sent).take e).filterMap id = done.map Sent.key := by
  obtain ⟨rest, rfl⟩ := h.isPrefix
  have hle := h.le
  rw [marks_append, List.take_append, length_marks, List.take_of_length_le (by simpa using hle), List.filterMap_append,
    filterMap_marks]
  cases rest with
  | nil => simp [marks]
  | cons s rest =>
      have hlt := h.lt s rest rfl
      have hnone : ((marks (s :: rest)).take (e - total done)).filterMap id = [] := by
        rw [marks_cons, List.append_assoc, List.take_append_of_le_length (by simp; omega), List.filterMap_eq_nil_iff]
        intro x hx
        exact List.eq_of_mem_replicate (List.mem_of_mem_take hx)
      rw [hnone, List.append_nil]

end Pobicos.Transport
