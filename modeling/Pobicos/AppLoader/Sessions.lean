import Pobicos.AppLoader.UartThreads

/-!
# Pobicos.AppLoader.Sessions

The loader as its user and the node see it: one call after the other, each of
them to its end.  A label is a call, and what it receives and sends are events.
An exception ends the process, and with it the run.

What `packetReceived` does depends on what a packet reports (`notification`);
`packetReceived_alone` says what that is for each report, and `step_cases` what
any call does.  `run_call` says that a call is what the threads of `UartThreads`
do when only the one that makes it goes on.
-/

namespace Pobicos.AppLoader

open Nio Octets Threads

/-! ## What the node reports -/

inductive Notification
  | uploadFinished
  | readyForData
  | uploadError
  | started
  | rootAgentStarted (id : List Byte)
  | startError
  | killed
  | killError
  deriving DecidableEq, Repr

/-- The notification in a control packet of one byte, except `0x0A`. -/
def controlNotification (b : Byte) : Option Notification :=
  if b = 0x02 then some .uploadFinished
  else if b = 0x03 then some .readyForData
  else if b = 0x07 then some .started
  else if b = 0x04 then some .uploadError
  else if b = 0x08 then some .startError
  else if b = 0x0B then some .killError
  else none

/-- What a packet reports, as `packetReceived` reads it: `0x0A` is looked for on
any channel and in a packet of any length, everything else on channel `0x01`. -/
def notification (channel : Byte) (payload : List Byte) : Option Notification :=
  if payload.head? = some 0x0A then some .killed
  else if channel = 0x01 ∧ payload.length = 1 then payload.head?.bind controlNotification
  else if channel = 0x01 ∧ payload.length = 5 ∧ payload.head? = some 0x07 then
    some (.rootAgentStarted (payload.drop 1))
  else none

/-! ## Calls to their end -/

theorem deref_eq_ok {α : Type} {o : Option α} {a : α} : deref o = .ok a ↔ o = some a := by
  cases o <;> simp [deref]

section
variable {f g : PoAppPillLoader} {out : List (List Byte)}

/-- A call on `con` that does not depend on which thread it is. -/
theorem con_alone {α : Type} {k : Call α} {a : α} :
    (Prog.ofExcept (deref f.con) >>= fun _ => k).alone f = .ok (g, out, a) ↔
      f.con ≠ none ∧ k.alone f = .ok (g, out, a) := by
  simp only [Prog.alone_ofExcept_bind, deref_eq_ok, Option.ne_none_iff_exists', exists_and_right]

theorem conSendPacket_alone (channel : Byte) {payload : List Byte} (h : payload.length ≤ MAX_PAYLOAD_LEN)
    {u : Unit} : (conSendPacket channel payload).alone f = .ok (g, out, u) ↔
      f.con ≠ none ∧ g = f ∧ out = [packetBytes (channel, payload)] := by
  rw [conSendPacket, Prog.alone_read_bind, con_alone, sendPacket_eq channel h]
  exact and_congr_right fun _ => Prog.alone_writeAll

theorem conCancel_alone {u : Unit} :
    conCancel.alone f = .ok (g, out, u) ↔ ∃ con, f.con = some con ∧ g = f.interrupt con ∧ out = [] := by
  rw [conCancel, Prog.alone_read_bind, Prog.alone_ofExcept_bind]
  simp only [deref_eq_ok, Prog.alone_modify]

theorem startApp_alone {u : Unit} :
    startApp.alone f = .ok (g, out, u) ↔
      f.con ≠ none ∧ g = { f with APP_STATE := .RUNNING } ∧ out = [packetBytes (0x01, [0x06])] := by
  have hlen : [(0x06 : Byte)].length ≤ MAX_PAYLOAD_LEN := by decide
  rw [startApp, Prog.alone_bind]
  simp only [sendAppStartPacket, conSendPacket_alone 0x01 hlen, Prog.alone_modify]
  constructor
  · rintro ⟨_, _, _, _, ⟨hcon, rfl, rfl⟩, ⟨rfl, rfl⟩, rfl⟩
    exact ⟨hcon, rfl, rfl⟩
  · rintro ⟨hcon, rfl, rfl⟩
    exact ⟨f, _, (), [], ⟨hcon, rfl, rfl⟩, ⟨rfl, rfl⟩, rfl⟩

theorem intArrayGet_eq_ok {a : List JInt} {i x : JInt} :
    intArrayGet a i = .ok x ↔ 0 ≤ i.toInt ∧ a[i.toNat]? = some x := by
  rw [intArrayGet]
  split
  · next hneg => exact ⟨fun h => (nomatch h), fun h => absurd h.1 (by omega)⟩
  · next hneg =>
      split
      · next y hy => simp only [Except.ok.injEq, hy, Option.some.injEq, and_iff_right (Int.not_lt.mp hneg)]
      · next hy => simp [hy]

/-- The size in the first four bytes, little-endian. -/
def headerSize (bundle : List JInt) : JInt := ofBE 32 ((bundle.take 4).map fun x => x.setWidth 8).reverse

theorem byteArrayToInt_four (a b c d : Byte) : byteArrayToInt [a, b, c, d] 0 = .ok (ofBE 32 [d, c, b, a]) := by
  have hrange : List.range 4 = [0, 1, 2, 3] := rfl
  have hsum : 0#32 + a.setWidth 32 <<< (0 * 8) + b.setWidth 32 <<< (1 * 8) + c.setWidth 32 <<< (2 * 8) +
      d.setWidth 32 <<< (3 * 8) = ofBE 32 [d, c, b, a] := by
    have ha := a.isLt
    have hb := b.isLt
    have hc := c.isLt
    have hd := d.isLt
    apply BitVec.eq_of_toNat_eq
    simp only [ofBE, beNat, List.foldl_cons, List.foldl_nil, BitVec.toNat_add, BitVec.toNat_shiftLeft,
      BitVec.toNat_setWidth, BitVec.toNat_ofNat, Nat.shiftLeft_eq]
    omega
  rw [← hsum, byteArrayToInt, hrange]
  rfl

theorem byteArrayToInt_take {bundle : List JInt} (h : 4 ≤ bundle.length) :
    byteArrayToInt ((bundle.take 4).map fun x => x.setWidth 8) 0 = .ok (headerSize bundle) := by
  match bundle, h with
  | _ :: _ :: _ :: _ :: _, _ => exact byteArrayToInt_four _ _ _ _

/-- The reads of the header, one after the other. -/
theorem header_eq_ok {bundle xs : List JInt} :
    ([0, 1, 2, 3].mapM fun i => intArrayGet bundle i) = .ok xs ↔ 4 ≤ bundle.length ∧ xs = bundle.take 4 := by
  match bundle with
  | a :: b :: c :: d :: rest =>
      have hread : ([0, 1, 2, 3].mapM fun i => intArrayGet (a :: b :: c :: d :: rest) i) = .ok [a, b, c, d] := rfl
      rw [hread]
      simp [eq_comm]
  | [a, b, c] => exact ⟨fun h => (nomatch h), fun h => absurd h.1 (by simp)⟩
  | [a, b] => exact ⟨fun h => (nomatch h), fun h => absurd h.1 (by simp)⟩
  | [a] => exact ⟨fun h => (nomatch h), fun h => absurd h.1 (by simp)⟩
  | [] => exact ⟨fun h => (nomatch h), fun h => absurd h.1 (by simp)⟩

theorem retrieveBundleSize_alone {u : Unit} :
    retrieveBundleSize.alone f = .ok (g, out, u) ↔
      4 ≤ f.androidAppBundle.length ∧ g = { f with bundleSize := headerSize f.androidAppBundle } ∧ out = [] := by
  rw [retrieveBundleSize, Prog.alone_read_bind, Prog.alone_ofExcept_bind]
  simp only [header_eq_ok, Prog.alone_ofExcept_bind, Prog.alone_modify]
  constructor
  · rintro ⟨_, ⟨hlen, rfl⟩, size, hsize, rfl, rfl⟩
    cases (byteArrayToInt_take hlen).symm.trans hsize
    exact ⟨hlen, rfl, rfl⟩
  · rintro ⟨hlen, rfl, rfl⟩
    exact ⟨_, ⟨hlen, rfl⟩, _, byteArrayToInt_take hlen, rfl, rfl⟩

/-- What a load does: nothing while an application runs, else it asks the node
for an upload. -/
def Loaded (f g : PoAppPillLoader) (out : List (List Byte)) : Prop :=
  (f.APP_STATE = .RUNNING ∧ g = f ∧ out = []) ∨
    (f.APP_STATE ≠ .RUNNING ∧ 4 ≤ f.androidAppBundle.length ∧
      g = { f.newPoUART with bundleSize := headerSize f.androidAppBundle } ∧ out = [packetBytes (0x01, [0x01])])

theorem loadAndStartApp_alone {u : Unit} : loadAndStartApp.alone f = .ok (g, out, u) ↔ Loaded f g out := by
  rw [loadAndStartApp, Prog.alone_read_bind, Loaded]
  by_cases hstate : f.APP_STATE = .RUNNING
  · rw [if_pos hstate]
    simp only [hstate, ne_eq, not_true_eq_false, false_and, or_false, true_and]
    exact Prog.alone_skip
  · have hlen : [(0x01 : Byte)].length ≤ MAX_PAYLOAD_LEN := by decide
    rw [if_neg hstate, Prog.alone_modify_bind, Prog.alone_bind]
    simp only [retrieveBundleSize_alone, sendFirstPacket, conSendPacket_alone 0x01 hlen]
    constructor
    · rintro ⟨_, _, _, _, ⟨hlen, rfl, rfl⟩, ⟨-, rfl, rfl⟩, rfl⟩
      exact Or.inr ⟨hstate, hlen, rfl, rfl⟩
    · rintro (⟨hrunning, -⟩ | ⟨-, hlen, rfl, rfl⟩)
      · exact absurd hrunning hstate
      · exact ⟨_, [], (), _, ⟨hlen, rfl, rfl⟩, ⟨Option.some_ne_none _, rfl, rfl⟩, rfl⟩

/-- What a kill does: nothing while no application runs, else it asks the node
to kill the one with the latest id. -/
def Killed (f g : PoAppPillLoader) (out : List (List Byte)) : Prop :=
  (f.APP_STATE = .IDLE ∧ g = f ∧ out = []) ∨
    (f.APP_STATE = .RUNNING ∧ 4 ≤ f.rootAgentID.length ∧
      g = { f.newPoUART with hostsRootAgent := false, APP_STATE := .IDLE } ∧
      out = [packetBytes (0x01, 0x09 :: f.rootAgentID.take 4)])

theorem sendKillPacket_alone {payload : List Byte} (hlen : payload.length ≤ MAX_PAYLOAD_LEN)
    (hstate : f.APP_STATE = .RUNNING) {u : Unit} :
    (sendKillPacket payload).alone f = .ok (g, out, u) ↔ f.con ≠ none ∧
      g = { f with hostsRootAgent := false, APP_STATE := .IDLE } ∧ out = [packetBytes (0x01, payload)] := by
  rw [sendKillPacket, Prog.alone_read_bind, if_pos hstate, Prog.alone_modify_bind, Prog.alone_bind]
  simp only [conSendPacket_alone 0x01 hlen, Prog.alone_modify]
  constructor
  · rintro ⟨_, _, _, _, ⟨hcon, rfl, rfl⟩, ⟨rfl, rfl⟩, rfl⟩
    exact ⟨hcon, rfl, rfl⟩
  · rintro ⟨hcon, rfl, rfl⟩
    exact ⟨_, _, (), [], ⟨hcon, rfl, rfl⟩, ⟨rfl, rfl⟩, rfl⟩

theorem killRunningApp_alone {u : Unit} : killRunningApp.alone f = .ok (g, out, u) ↔ Killed f g out := by
  rw [killRunningApp, Prog.alone_read_bind, Killed]
  cases hstate : f.APP_STATE with
  | IDLE =>
      simp only [↓reduceIte, true_and, reduceCtorEq, false_and, or_false]
      exact Prog.alone_skip
  | RUNNING =>
      simp only [reduceCtorEq, ↓reduceIte, false_and, false_or, true_and, Prog.alone_modify_bind,
        Prog.alone_ofExcept_bind, arrayGetRange_eq_ok (Nat.zero_le _), List.drop_zero, Nat.zero_add]
      have hlen : (0x09 :: f.rootAgentID.take 4).length ≤ MAX_PAYLOAD_LEN := by
        rw [List.length_cons, List.length_take, MAX_PAYLOAD_LEN]
        omega
      have hkill : (sendKillPacket (0x09 :: f.rootAgentID.take 4)).alone f.newPoUART = .ok (g, out, u) ↔ _ :=
        (sendKillPacket_alone (f := f.newPoUART) hlen hstate).trans (and_iff_right (Option.some_ne_none _))
      constructor
      · rintro ⟨_, ⟨hid, rfl⟩, h⟩
        exact ⟨hid, hkill.mp h⟩
      · rintro ⟨hid, h⟩
        exact ⟨_, ⟨hid, rfl⟩, hkill.mpr h⟩

/-- The next data packet and how many of its bytes are of the bundle. -/
def nextData (f : PoAppPillLoader) : Except Throwable (List Byte × Nat) :=
  fillData f (List.replicate MAX_PAYLOAD_LEN 0) 0 MAX_PAYLOAD_LEN

/-- One turn of the loop: a byte of the bundle is stored, or it ends. -/
theorem fillData_succ {data : List Byte} {i n : Nat} {r : List Byte × Nat} (h : fillData f data i (n + 1) = .ok r) :
    ((BitVec.ofNat 32 i + f.offset).slt f.bundleSize = true ∧ ∃ x,
        intArrayGet f.androidAppBundle (BitVec.ofNat 32 i + f.offset) = .ok x ∧
        fillData f (data.set i (x.setWidth 8)) (i + 1) n = .ok r) ∨
      (¬ (BitVec.ofNat 32 i + f.offset).slt f.bundleSize = true ∧ r = (data, i)) := by
  rw [fillData] at h
  split at h
  · next hlt =>
      refine Or.inl ⟨hlt, ?_⟩
      cases hx : intArrayGet f.androidAppBundle (BitVec.ofNat 32 i + f.offset) with
      | error e =>
          rw [hx] at h
          cases h
      | ok x =>
          rw [hx] at h
          change (arraySet data i (x.setWidth 8) >>= fun data => fillData f data (i + 1) n) = _ at h
          rw [arraySet] at h
          split at h
          · exact ⟨x, rfl, h⟩
          · cases h
  · next hge => exact Or.inr ⟨hge, (Except.ok.inj h).symm⟩

theorem length_fillData {data : List Byte} {i n : Nat} {r : List Byte × Nat} (h : fillData f data i n = .ok r) :
    r.1.length = data.length := by
  induction n generalizing data i with
  | zero =>
      cases h
      rfl
  | succ n ih =>
      obtain ⟨-, x, -, hrest⟩ | ⟨-, rfl⟩ := fillData_succ h
      · exact (ih hrest).trans List.length_set
      · rfl

theorem length_nextData {r : List Byte × Nat} (h : nextData f = .ok r) : r.1.length = MAX_PAYLOAD_LEN :=
  (length_fillData h).trans (List.length_replicate ..)

theorem exists_intArrayGet_iff {a : List JInt} {i : JInt} :
    (∃ x, intArrayGet a i = .ok x) ↔ 0 ≤ i.toInt ∧ i.toInt < a.length := by
  have hlt : (∃ x, a[i.toNat]? = some x) ↔ i.toNat < a.length := by
    rw [← Option.isSome_iff_exists, Option.isSome_iff_ne_none, Ne, List.getElem?_eq_none_iff, Nat.not_le]
  simp only [intArrayGet_eq_ok, exists_and_left, hlt]
  refine and_congr_right fun hpos => ?_
  have hcond := BitVec.toInt_eq_toNat_cond i
  split at hcond <;> omega

/-- Every index of the bundle that the loop comes to is in range, when it goes
from `i` on for `n` turns. -/
def Within (f : PoAppPillLoader) (i n : Nat) : Prop :=
  ∀ k < n, (∀ j ≤ k, (BitVec.ofNat 32 (i + j) + f.offset).slt f.bundleSize = true) →
    0 ≤ (BitVec.ofNat 32 (i + k) + f.offset).toInt ∧
      (BitVec.ofNat 32 (i + k) + f.offset).toInt < f.androidAppBundle.length

instance decidableWithin (f : PoAppPillLoader) (i n : Nat) : Decidable (Within f i n) :=
  inferInstanceAs (Decidable (∀ k < n, _ → _))

theorem within_of_not_slt {i : Nat} (h : ¬ (BitVec.ofNat 32 i + f.offset).slt f.bundleSize = true) (n : Nat) :
    Within f i n := by
  intro k _ hall
  exact absurd (hall 0 (Nat.zero_le k)) h

theorem within_succ {i : Nat} (h : (BitVec.ofNat 32 i + f.offset).slt f.bundleSize = true) (n : Nat) :
    Within f i (n + 1) ↔ (0 ≤ (BitVec.ofNat 32 i + f.offset).toInt ∧
      (BitVec.ofNat 32 i + f.offset).toInt < f.androidAppBundle.length) ∧ Within f (i + 1) n := by
  constructor
  · intro hwithin
    refine ⟨hwithin 0 (Nat.succ_pos n) fun j hj => ?_, fun k hk hall => ?_⟩
    · rw [Nat.le_zero.mp hj]
      exact h
    · rw [Nat.add_right_comm]
      refine hwithin (k + 1) (Nat.succ_lt_succ hk) fun j hj => ?_
      cases j with
      | zero => exact h
      | succ j =>
          have hj' := hall j (Nat.le_of_succ_le_succ hj)
          rwa [Nat.add_right_comm] at hj'
  · rintro ⟨hfirst, hrest⟩ k hk hall
    cases k with
    | zero => exact hfirst
    | succ k =>
        have hk' := hrest k (Nat.lt_of_succ_lt_succ hk) fun j hj => by
          rw [Nat.add_right_comm]
          exact hall (j + 1) (Nat.succ_le_succ hj)
        rwa [Nat.add_right_comm] at hk'

/-- **The loop** ends without an exception exactly if no index of the bundle is
out of range. -/
theorem exists_fillData_iff {data : List Byte} {i n : Nat} (hdata : data.length = i + n) :
    (∃ r, fillData f data i n = .ok r) ↔ Within f i n := by
  induction n generalizing data i with
  | zero => exact iff_of_true ⟨_, rfl⟩ fun k hk => absurd hk (Nat.not_lt_zero k)
  | succ n ih =>
      by_cases hlt : (BitVec.ofNat 32 i + f.offset).slt f.bundleSize = true
      · have hset (x : Byte) : (data.set i x).length = i + 1 + n := by
          rw [List.length_set]
          omega
        rw [within_succ hlt, ← exists_intArrayGet_iff]
        constructor
        · rintro ⟨r, hr⟩
          obtain ⟨-, x, hx, hrest⟩ | ⟨hge, -⟩ := fillData_succ hr
          · exact ⟨⟨x, hx⟩, (ih (hset _)).mp ⟨r, hrest⟩⟩
          · exact absurd hlt hge
        · rintro ⟨⟨x, hx⟩, hrest⟩
          obtain ⟨r, hr⟩ := (ih (hset (x.setWidth 8))).mpr hrest
          have hstore : arraySet data i (x.setWidth 8) = .ok (data.set i (x.setWidth 8)) :=
            arraySet_of_lt (by omega) _
          refine ⟨r, ?_⟩
          rw [fillData, if_pos hlt, hx]
          simp only [bind, Except.bind, hstore, hr]
      · refine iff_of_true ?_ (within_of_not_slt hlt _)
        rw [fillData, if_neg hlt]
        exact ⟨_, rfl⟩

/-- A data packet can be made exactly if its bytes can be read. -/
theorem exists_nextData_iff : (∃ r, nextData f = .ok r) ↔ Within f 0 MAX_PAYLOAD_LEN :=
  exists_fillData_iff (by rw [List.length_replicate, Nat.zero_add])

/-- What a notification does, and what it is answered with.  The errors `0x04`,
`0x08` and `0x0B` are only logged. -/
def Handled (f : PoAppPillLoader) : Option Notification → PoAppPillLoader → List (List Byte) → Prop
  | none, g, out => g = f ∧ out = []
  | some .uploadFinished, g, out =>
      f.con ≠ none ∧ g = { f with offset := 0, APP_STATE := .RUNNING } ∧ out = [packetBytes (0x01, [0x06])]
  | some .readyForData, g, out =>
      f.con ≠ none ∧ ∃ data i, nextData f = .ok (data, i) ∧
        g = { f with offset := f.offset + BitVec.ofNat 32 i } ∧ out = [packetBytes (0x02, data)]
  | some .uploadError, g, out => g = f ∧ out = []
  | some .started, g, out => ∃ con, f.con = some con ∧ g = f.interrupt con ∧ out = []
  | some (.rootAgentStarted id), g, out =>
      ∃ con, f.con = some con ∧
        g = PoAppPillLoader.interrupt { f with hostsRootAgent := true, rootAgentID := id } con ∧ out = []
  | some .startError, g, out => g = f ∧ out = []
  | some .killed, g, out =>
      ∃ con, f.con = some con ∧ g = PoAppPillLoader.interrupt { f with hostsRootAgent := false } con ∧ out = []
  | some .killError, g, out => g = f ∧ out = []

/-- Only the end of an upload and the readiness for data are answered. -/
theorem Handled.answered {n : Option Notification} (h : Handled f n g out) :
    out = [] ∨ (n = some .uploadFinished ∧ out = [packetBytes (0x01, [0x06])]) ∨
      (n = some .readyForData ∧ ∃ data, out = [packetBytes (0x02, data)]) := by
  cases n with
  | none => exact Or.inl h.2
  | some n =>
      cases n with
      | uploadFinished => exact Or.inr (Or.inl ⟨rfl, h.2.2⟩)
      | readyForData =>
          obtain ⟨-, data, i, -, -, hout⟩ := h
          exact Or.inr (Or.inr ⟨rfl, data, hout⟩)
      | uploadError => exact Or.inl h.2
      | started =>
          obtain ⟨con, -, -, hout⟩ := h
          exact Or.inl hout
      | rootAgentStarted id =>
          obtain ⟨con, -, -, hout⟩ := h
          exact Or.inl hout
      | startError => exact Or.inl h.2
      | killed =>
          obtain ⟨con, -, -, hout⟩ := h
          exact Or.inl hout
      | killError => exact Or.inl h.2

/-- A notification leaves `con` as it is. -/
theorem Handled.con {n : Option Notification} (h : Handled f n g out) : g.con = f.con := by
  cases n with
  | none => rw [h.1]
  | some n =>
      cases n with
      | uploadFinished => rw [h.2.1]
      | readyForData =>
          obtain ⟨-, data, i, -, rfl, -⟩ := h
          rfl
      | uploadError => rw [h.1]
      | started =>
          obtain ⟨con, -, rfl, -⟩ := h
          rfl
      | rootAgentStarted id =>
          obtain ⟨con, -, rfl, -⟩ := h
          rfl
      | startError => rw [h.1]
      | killed =>
          obtain ⟨con, -, rfl, -⟩ := h
          rfl
      | killError => rw [h.1]

/-- Only the end of an upload changes `APP_STATE`. -/
theorem Handled.state {n : Option Notification} (h : Handled f n g out) (hfinished : n ≠ some .uploadFinished) :
    g.APP_STATE = f.APP_STATE := by
  cases n with
  | none => rw [h.1]
  | some n =>
      cases n with
      | uploadFinished => exact absurd rfl hfinished
      | readyForData =>
          obtain ⟨-, data, i, -, rfl, -⟩ := h
          rfl
      | uploadError => rw [h.1]
      | started =>
          obtain ⟨con, -, rfl, -⟩ := h
          rfl
      | rootAgentStarted id =>
          obtain ⟨con, -, rfl, -⟩ := h
          rfl
      | startError => rw [h.1]
      | killed =>
          obtain ⟨con, -, rfl, -⟩ := h
          rfl
      | killError => rw [h.1]

/-- **What can be handled**: with a `con`, everything, but for data that cannot
be read. -/
theorem exists_handled_iff {n : Option Notification} (hcon : f.con ≠ none) :
    (∃ g out, Handled f n g out) ↔ (n = some .readyForData → ∃ r, nextData f = .ok r) := by
  obtain ⟨con, hsome⟩ := Option.ne_none_iff_exists'.mp hcon
  by_cases hready : n = some .readyForData
  · subst hready
    constructor
    · rintro ⟨g, out, -, data, i, hdata, -⟩ -
      exact ⟨(data, i), hdata⟩
    · intro h
      obtain ⟨⟨data, i⟩, hdata⟩ := h rfl
      exact ⟨_, _, hcon, data, i, hdata, rfl, rfl⟩
  · refine iff_of_true ?_ fun h => absurd h hready
    cases n with
    | none => exact ⟨f, [], rfl, rfl⟩
    | some n =>
        cases n with
        | uploadFinished => exact ⟨_, _, hcon, rfl, rfl⟩
        | readyForData => exact absurd rfl hready
        | uploadError => exact ⟨f, [], rfl, rfl⟩
        | started => exact ⟨_, [], con, hsome, rfl, rfl⟩
        | rootAgentStarted id => exact ⟨_, [], con, hsome, rfl, rfl⟩
        | startError => exact ⟨f, [], rfl, rfl⟩
        | killed => exact ⟨_, [], con, hsome, rfl, rfl⟩
        | killError => exact ⟨f, [], rfl, rfl⟩

theorem conGetMaxPayloadLen_alone {n : Nat} :
    conGetMaxPayloadLen.alone f = .ok (g, out, n) ↔ f.con ≠ none ∧ g = f ∧ out = [] ∧ n = MAX_PAYLOAD_LEN := by
  rw [conGetMaxPayloadLen, Prog.alone_read_bind, con_alone]
  exact and_congr_right fun _ => Prog.alone_pure

theorem sendNextData_alone {u : Unit} :
    sendNextData.alone f = .ok (g, out, u) ↔ Handled f (some .readyForData) g out := by
  rw [sendNextData, Prog.alone_bind]
  simp only [conGetMaxPayloadLen_alone, Prog.alone_read_bind, Prog.alone_ofExcept_bind]
  constructor
  · rintro ⟨_, _, _, _, ⟨hcon, rfl, rfl, rfl⟩, ⟨⟨data, i⟩, hdata, hsend⟩, rfl⟩
    have hlen : data.length ≤ MAX_PAYLOAD_LEN := Nat.le_of_eq (length_nextData hdata)
    obtain ⟨-, rfl, rfl⟩ := (conSendPacket_alone 0x02 hlen).mp hsend
    exact ⟨hcon, data, i, hdata, rfl, rfl⟩
  · rintro ⟨hcon, data, i, hdata, rfl, rfl⟩
    have hlen : data.length ≤ MAX_PAYLOAD_LEN := Nat.le_of_eq (length_nextData hdata)
    exact ⟨f, [], _, _, ⟨hcon, rfl, rfl, rfl⟩, ⟨(data, i), hdata,
      (conSendPacket_alone 0x02 hlen).mpr ⟨hcon, rfl, rfl⟩⟩, rfl⟩

/-- A control packet of one byte. -/
theorem controlPacket_alone (b : Byte) {u : Unit} :
    (controlPacket b).alone f = .ok (g, out, u) ↔ Handled f (controlNotification b) g out := by
  rw [controlPacket, controlNotification]
  split
  · rw [Prog.alone_modify_bind, startApp_alone]
    rfl
  · split
    · exact sendNextData_alone
    · split
      · exact conCancel_alone
      · have hlogged : Handled f (if b = 0x04 then some .uploadError else if b = 0x08 then some .startError
            else if b = 0x0B then some .killError else none) g out ↔ g = f ∧ out = [] := by
          split
          · rfl
          · split
            · rfl
            · split <;> rfl
        exact Prog.alone_skip.trans hlogged.symm

theorem rootAgentStarted_alone {payload : List Byte} (hlen : payload.length = 5) {u : Unit} :
    (rootAgentStarted payload).alone f = .ok (g, out, u) ↔ Handled f (some (.rootAgentStarted (payload.drop 1))) g out := by
  have hid : arrayGetRange payload 1 4 = .ok (payload.drop 1) := by
    rw [arrayGetRange_of_le (by omega), List.take_of_length_le]
    rw [List.length_drop]
    omega
  rw [rootAgentStarted, Prog.alone_modify_bind, hid, Prog.alone_ofExcept_bind]
  simp only [Except.ok.injEq, exists_eq_left', Prog.alone_modify_bind, conCancel_alone]
  rfl

theorem controlReceived_alone (channel : Byte) {b : Byte} (bs : List Byte) (hb : b ≠ 0x0A) {u : Unit} :
    (controlReceived channel (b :: bs)).alone f = .ok (g, out, u) ↔
      Handled f (notification channel (b :: bs)) g out := by
  have hget : arrayGet (b :: bs) 0 = .ok b := rfl
  have hhead : (b :: bs).head? = some b := rfl
  rw [controlReceived, notification, hget, hhead, if_neg (fun h => hb (Option.some.inj h))]
  split
  · rw [Prog.alone_ofExcept_bind]
    simp only [Except.ok.injEq, exists_eq_left']
    exact controlPacket_alone b
  · split
    · next hlen =>
        rw [Prog.alone_ofExcept_bind]
        simp only [Except.ok.injEq, exists_eq_left', hlen, true_and, Option.some.injEq]
        split
        · exact rootAgentStarted_alone hlen.2
        · exact Prog.alone_skip
    · next hlen =>
        rw [if_neg (fun h => hlen ⟨h.1, h.2.1⟩)]
        exact Prog.alone_skip

/-- The first `if` of `packetReceived` passes over `0x0A`. -/
theorem controlReceived_killed (channel : Byte) (bs : List Byte) {u : Unit} :
    (controlReceived channel (0x0A :: bs)).alone f = .ok (g, out, u) ↔ Handled f none g out := by
  have hget : arrayGet (0x0A :: bs) 0 = .ok 0x0A := rfl
  rw [controlReceived, hget]
  split
  · exact Prog.alone_skip
  · split <;> exact Prog.alone_skip

theorem killedReceived_alone (b : Byte) (bs : List Byte) {u : Unit} :
    (killedReceived (b :: bs)).alone f = .ok (g, out, u) ↔
      Handled f (if b = 0x0A then some .killed else none) g out := by
  have hget : arrayGet (b :: bs) 0 = .ok b := rfl
  rw [killedReceived, hget, Prog.alone_ofExcept_bind]
  simp only [Except.ok.injEq, exists_eq_left']
  split
  · rw [Prog.alone_modify_bind, conCancel_alone]
    rfl
  · exact Prog.alone_skip

/-- **A notification** is handled as what it reports; a packet must not be
empty. -/
theorem packetReceived_alone (channel : Byte) (payload : List Byte) {u : Unit} :
    (packetReceived channel payload).alone f = .ok (g, out, u) ↔
      payload ≠ [] ∧ Handled f (notification channel payload) g out := by
  rw [packetReceived, Prog.alone_bind]
  cases payload with
  | nil =>
      refine iff_of_false ?_ fun h => h.1 rfl
      rintro ⟨_, _, _, _, -, hkilled, -⟩
      cases hkilled
  | cons b bs =>
      rw [and_iff_right (List.cons_ne_nil b bs)]
      simp only [killedReceived_alone]
      by_cases hb : b = 0x0A
      · subst hb
        simp only [controlReceived_killed]
        constructor
        · rintro ⟨_, _, _, _, ⟨rfl, rfl⟩, hkilled, rfl⟩
          exact hkilled
        · exact fun h => ⟨f, [], (), out, ⟨rfl, rfl⟩, h, rfl⟩
      · simp only [controlReceived_alone channel bs hb, if_neg hb]
        constructor
        · rintro ⟨_, _, _, _, hhandled, ⟨rfl, rfl⟩, rfl⟩
          rwa [List.append_nil]
        · exact fun h => ⟨g, out, (), [], h, ⟨rfl, rfl⟩, (List.append_nil out).symm⟩

/-- What a button does: nothing when `app_status` is already what it is to be,
else what is below it. -/
def Pressed (status : Bool) (P : PoAppPillLoader → PoAppPillLoader → List (List Byte) → Prop)
    (f g : PoAppPillLoader) (out : List (List Byte)) : Prop :=
  if f.app_status = status then g = f ∧ out = []
  else ∃ g', P f g' out ∧ g = { g' with app_status := status }

theorem pressed_alone (status : Bool) {call : Call Unit} {P : PoAppPillLoader → PoAppPillLoader → List (List Byte) → Prop}
    (hcall : ∀ {g out u}, call.alone f = .ok (g, out, u) ↔ P f g out) {u : Unit} :
    ((if f.app_status = !status then do
        call
        Prog.modify fun f => { f with app_status := status }
      else pure () : Call Unit).alone f = .ok (g, out, u)) ↔ Pressed status P f g out := by
  rw [Pressed]
  by_cases hstatus : f.app_status = status
  · have hne : f.app_status ≠ !status := by simp [hstatus]
    rw [if_neg hne, if_pos hstatus]
    exact Prog.alone_skip
  · rw [if_pos (Bool.eq_not_of_ne hstatus), if_neg hstatus, Prog.alone_bind]
    simp only [hcall, Prog.alone_modify]
    constructor
    · rintro ⟨g', _, _, _, h, ⟨rfl, rfl⟩, rfl⟩
      exact ⟨g', by rwa [List.append_nil], rfl⟩
    · rintro ⟨g', h, rfl⟩
      exact ⟨g', out, (), [], h, ⟨rfl, rfl⟩, (List.append_nil out).symm⟩

theorem startButton_alone {u : Unit} : startButton.alone f = .ok (g, out, u) ↔ Pressed true Loaded f g out := by
  rw [startButton, Prog.alone_read_bind]
  exact pressed_alone true loadAndStartApp_alone

theorem killButton_alone {u : Unit} : killButton.alone f = .ok (g, out, u) ↔ Pressed false Killed f g out := by
  rw [killButton, Prog.alone_read_bind]
  exact pressed_alone false killRunningApp_alone

end

/-! ## Runs -/

/-- The calls: of the user, of the buttons, and of the threads that read the
packets of the node. -/
inductive Act
  | loadAndStartApp
  | killRunningApp
  | startButton
  | killButton
  | packetReceived (channel : Byte) (payload : List Byte)
  deriving DecidableEq, Repr

/-- A packet of the node that is passed on, or the bytes of a packet that is
sent to it. -/
inductive Event
  | received (channel : Byte) (payload : List Byte)
  | sent (packet : List Byte)
  deriving DecidableEq, Repr

namespace Session

def call : Act → Call Unit
  | .loadAndStartApp => AppLoader.loadAndStartApp
  | .killRunningApp => AppLoader.killRunningApp
  | .startButton => AppLoader.startButton
  | .killButton => AppLoader.killButton
  | .packetReceived channel payload => AppLoader.packetReceived channel payload

/-- One call, unless it throws. -/
def step (f : PoAppPillLoader) (a : Act) : Option PoAppPillLoader :=
  match (call a).alone f with
  | .ok (g, _, _) => some g
  | .error _ => none

/-- The packets that it sends. -/
def sent (f : PoAppPillLoader) (a : Act) : List (List Byte) :=
  match (call a).alone f with
  | .ok (_, out, _) => out
  | .error _ => []

def received : Act → List Event
  | .loadAndStartApp => []
  | .killRunningApp => []
  | .startButton => []
  | .killButton => []
  | .packetReceived channel payload => [.received channel payload]

/-- What it receives, and then what it sends. -/
def events (f : PoAppPillLoader) (a : Act) : List Event := received a ++ (sent f a).map .sent

/-- What a call does. -/
def Does (f : PoAppPillLoader) : Act → PoAppPillLoader → List (List Byte) → Prop
  | .loadAndStartApp => Loaded f
  | .killRunningApp => Killed f
  | .startButton => Pressed true Loaded f
  | .killButton => Pressed false Killed f
  | .packetReceived channel payload => fun g out => payload ≠ [] ∧ Handled f (notification channel payload) g out

theorem call_alone (f : PoAppPillLoader) (a : Act) {g : PoAppPillLoader} {out : List (List Byte)} {u : Unit} :
    (call a).alone f = .ok (g, out, u) ↔ Does f a g out := by
  cases a with
  | loadAndStartApp => exact loadAndStartApp_alone
  | killRunningApp => exact killRunningApp_alone
  | startButton => exact startButton_alone
  | killButton => exact killButton_alone
  | packetReceived channel payload => exact packetReceived_alone channel payload

/-- **Step lemma**: a step is a call that does what it is for. -/
theorem step_eq_some {f g : PoAppPillLoader} {a : Act} : step f a = some g ↔ Does f a g (sent f a) := by
  rw [← call_alone (u := ()), step, sent]
  cases h : (call a).alone f with
  | error e => simp
  | ok r => simp [Prod.ext_iff]

/-- What a call does, it does in a step. -/
theorem step_of_does {f g : PoAppPillLoader} {a : Act} {out : List (List Byte)} (h : Does f a g out) :
    step f a = some g ∧ sent f a = out := by
  have halone := (call_alone f a (u := ())).mpr h
  rw [step, sent, halone]
  exact ⟨rfl, rfl⟩

/-- The call asks the node for an upload. -/
def Loads (f : PoAppPillLoader) : Act → Prop
  | .loadAndStartApp => f.APP_STATE ≠ .RUNNING
  | .killRunningApp => False
  | .startButton => f.app_status = false ∧ f.APP_STATE ≠ .RUNNING
  | .killButton => False
  | .packetReceived _ _ => False

instance decidableLoads (f : PoAppPillLoader) : (a : Act) → Decidable (Loads f a)
  | .loadAndStartApp => inferInstanceAs (Decidable (f.APP_STATE ≠ .RUNNING))
  | .killRunningApp => inferInstanceAs (Decidable False)
  | .startButton => inferInstanceAs (Decidable (f.app_status = false ∧ f.APP_STATE ≠ .RUNNING))
  | .killButton => inferInstanceAs (Decidable False)
  | .packetReceived _ _ => inferInstanceAs (Decidable False)

/-- What a call of the user does, but for `app_status`: nothing, a load or a
kill. -/
def Moves (f : PoAppPillLoader) (a : Act) (g : PoAppPillLoader) (out : List (List Byte)) : Prop :=
  (g = f ∧ out = []) ∨
    (Loads f a ∧ g = { f.newPoUART with bundleSize := headerSize f.androidAppBundle } ∧
      out = [packetBytes (0x01, [0x01])]) ∨
    (f.APP_STATE = .RUNNING ∧ g = { f.newPoUART with hostsRootAgent := false, APP_STATE := .IDLE } ∧
      out = [packetBytes (0x01, 0x09 :: f.rootAgentID.take 4)])

theorem moves_of_loaded {f g : PoAppPillLoader} {a : Act} {out : List (List Byte)} (h : Loaded f g out)
    (hloads : f.APP_STATE ≠ .RUNNING → Loads f a) : Moves f a g out := by
  obtain ⟨-, hg, hout⟩ | ⟨hstate, -, hg, hout⟩ := h
  · exact Or.inl ⟨hg, hout⟩
  · exact Or.inr (Or.inl ⟨hloads hstate, hg, hout⟩)

theorem moves_of_killed {f g : PoAppPillLoader} {out : List (List Byte)} (h : Killed f g out) (a : Act) :
    Moves f a g out := by
  obtain ⟨-, hg, hout⟩ | ⟨hstate, -, hg, hout⟩ := h
  · exact Or.inl ⟨hg, hout⟩
  · exact Or.inr (Or.inr ⟨hstate, hg, hout⟩)

/-- A button, if what is below it moves. -/
theorem moves_of_pressed {f g : PoAppPillLoader} {a : Act} {status : Bool} {out : List (List Byte)}
    {P : PoAppPillLoader → PoAppPillLoader → List (List Byte) → Prop} (h : Pressed status P f g out)
    (hP : ∀ g', f.app_status ≠ status → P f g' out → Moves f a g' out) :
    ∃ g' status', g = { g' with app_status := status' } ∧ Moves f a g' out := by
  rw [Pressed] at h
  split at h
  · exact ⟨g, g.app_status, rfl, Or.inl h⟩
  · next hstatus =>
      obtain ⟨g', hg', rfl⟩ := h
      exact ⟨g', status, rfl, hP g' hstatus hg'⟩

/-- **The steps**: a notification is handled, or a call of the user moves the
loader; a button also sets `app_status`. -/
theorem step_cases {f g : PoAppPillLoader} {a : Act} (h : step f a = some g) :
    (∃ channel payload, a = .packetReceived channel payload ∧
        Handled f (notification channel payload) g (sent f a)) ∨
      (received a = [] ∧ ∃ g' status, g = { g' with app_status := status } ∧ Moves f a g' (sent f a)) := by
  have hdoes := step_eq_some.mp h
  cases a with
  | loadAndStartApp => exact Or.inr ⟨rfl, g, g.app_status, rfl, moves_of_loaded hdoes id⟩
  | killRunningApp => exact Or.inr ⟨rfl, g, g.app_status, rfl, moves_of_killed hdoes _⟩
  | startButton =>
      refine Or.inr ⟨rfl, moves_of_pressed hdoes ?_⟩
      exact fun g' hstatus hloaded =>
        moves_of_loaded hloaded fun hstate => ⟨Bool.eq_false_iff.mpr hstatus, hstate⟩
  | killButton => exact Or.inr ⟨rfl, moves_of_pressed hdoes fun g' _ hkilled => moves_of_killed hkilled _⟩
  | packetReceived channel payload => exact Or.inl ⟨channel, payload, rfl, hdoes.2⟩

theorem call_safe (f : PoAppPillLoader) (a : Act) : (call a).Safe (fun _ _ => True) IsPacket f := by
  cases a with
  | loadAndStartApp => exact loadAndStartApp_safe (fun _ _ _ _ => trivial) fun _ => trivial
  | killRunningApp => exact killRunningApp_safe (fun _ _ _ _ => trivial) fun _ => trivial
  | startButton => exact startButton_safe (fun _ _ _ _ => trivial) fun _ _ => trivial
  | killButton => exact killButton_safe (fun _ _ _ _ => trivial) fun _ _ => trivial
  | packetReceived channel payload =>
      exact packetReceived_safe (fun _ _ _ _ => trivial) (fun _ _ => trivial) channel payload f

theorem run_offers (k : Who) (n : Nat) (w : World) :
    Lts.run AppLoader.step w (List.replicate n (.offer k)) = Lts.run Pool.offer w (List.replicate n k) := by
  induction n generalizing w with
  | zero => rfl
  | succ n ih =>
      rw [List.replicate_succ, List.replicate_succ, Lts.run_cons, Lts.run_cons]
      exact Option.bind_congr fun u _ => ih u

/-- **A call that is not interrupted** is what the threads do when only the one
that makes it goes on. -/
theorem run_call {w : World} {a : Act} {g : PoAppPillLoader} {k : Who} (hk : w.threads k = none)
    (h : step w.shared a = some g) :
    ∃ u n, w.enter k (call a) = some u ∧
      Lts.run AppLoader.step u (List.replicate n (.offer k)) =
        some ⟨g, w.threads, w.queue ++ (sent w.shared a).flatten, w.written ++ sent w.shared a⟩ := by
  have halone := (call_alone w.shared a (u := ())).mpr (step_eq_some.mp h)
  have hpackets := ((call_safe w.shared a).alone (fun _ => trivial) (fun _ _ _ _ _ => trivial) halone).2
  have hout : ∀ items ∈ sent w.shared a, items ≠ [] := by
    rintro _ hmem rfl
    exact absurd (hpackets [] hmem).one_lt_length (by decide)
  obtain ⟨u, n, henter, hrun⟩ := Pool.run_offer_alone hk hout halone
  exact ⟨u, n, henter, (run_offers k n u).trans hrun⟩

end Session

end Pobicos.AppLoader
