import Pobicos.Lib.Cells
import Pobicos.Middleware.VirtualFilter

/-!
# Pobicos.Middleware.FilterBounds

`SubDatagram.msgArrived` of `PoCommVirtualFilterM.nc`, with an account of the
bytes of the datagram it touches.

The footer is looked for four bytes before the end, by a length that the sender
has chosen, and a datagram that is too long is passed up all the same.
`safe_iff` says which datagrams are handled inside their bytes.
-/

namespace Pobicos.Middleware

open Octets Cells

namespace VirtualFilter

/-- `data[i]`, or what is in memory beside the array. -/
def byteAt (beside : Int → Byte) (m : PoMsg) (i : Int) : Byte := (getByte m.data i).getD (beside i)

/-- A computation on a datagram that keeps account of the indices of `data`. -/
abbrev Handler := Access Int PoMsg

namespace Handler

variable (beside : Int → Byte)

/-- `BEMsg->data[i]`. -/
def readData (i : Int) : Handler Byte := Access.load i fun m => byteAt beside m i

/-- `BEMsg->len`. -/
def readLen : Handler Byte := Access.observe PoMsg.len

/-- `BEMsg->data[PO_COMM_HDR_TYPE] -= 3`. -/
def subType : Handler Unit := do
  let _ ← readData beside PO_COMM_HDR_TYPE
  Access.store PO_COMM_HDR_TYPE fun m =>
    { m with data := m.data.modify PO_COMM_HDR_TYPE (· - 3), length_data := by simp [m.length_data] }

/-- `BEMsg->len -= 4`. -/
def subLen : Handler Unit := Access.modify fun m => { m with len := m.len - 4 }

/-- `signal PoDatagramTransportI.msgArrived(addr, hops, BEMsg)`. -/
def signalArrived (addr : AddrType) (hops : Int) : Handler (Option Arrival) :=
  Access.observe fun m => some ⟨addr, hops, m⟩

/-- `addr == PO_COMM_GATEWAY_ADDR && IS_MSG_VIRTUAL(BEMsg->data[PO_COMM_HDR_TYPE])`. -/
def virtualFrom (addr : AddrType) : Handler Bool :=
  if addr.toNat = PO_COMM_GATEWAY_ADDR then do
    let type ← readData beside PO_COMM_HDR_TYPE
    pure (decide (IS_MSG_VIRTUAL type.toNat))
  else pure false

/-- The condition of the `else if`. -/
def overGateway (addr myAddr : AddrType) : Handler Bool := do
  let fromGateway ← virtualFrom beside addr
  if fromGateway = true then pure true else virtualFrom beside myAddr

/-- The loop that prints the first `n` bytes. -/
def printData : Nat → Handler Unit
  | 0 => pure ()
  | n + 1 => do
      printData n
      let _ ← readData beside n
      pure ()

/-- The type and the footer are taken off: the source and the destination. -/
def takeFooter : Handler (AddrType × AddrType) := do
  subType beside
  let len ← readLen
  let s₁ ← readData beside (len.toNat - 4)
  let s₀ ← readData beside (len.toNat - 3)
  let d₁ ← readData beside (len.toNat - 2)
  let d₀ ← readData beside (len.toNat - 1)
  subLen
  pure (joinAddr s₁ s₀, joinAddr d₁ d₀)

/-- What follows in the body of the `else if`. -/
def passUp (myAddr : AddrType) (hops : Int) (source dest : AddrType) : Handler (Option Arrival) :=
  if dest ≠ myAddr ∧ dest.toNat ≠ PO_BROADCAST_ADDR then do
    let len ← readLen
    printData beside len.toNat
    pure none
  else signalArrived source hops

/-- The body of the `else if`. -/
def turnBack (myAddr : AddrType) (hops : Int) : Handler (Option Arrival) := do
  let (source, dest) ← takeFooter beside
  passUp beside myAddr hops source dest

/-- `SubDatagram.msgArrived(addr, hops, BEMsg)`: what it signals, if anything. -/
def msgArrived (f : VirtualFilter) (addr : AddrType) (hops : Int) : Handler (Option Arrival) := do
  let len ← readLen
  if len.toNat > PO_COMM_VIRTUAL_FILTER_MAX_PAYLOAD_LEN + 4 then signalArrived addr hops
  else do
    let isOver ← overGateway beside addr f.myAddr
    if isOver = true then turnBack beside f.myAddr hops else signalArrived addr hops

end Handler

/-- The datagram is handled inside its bytes, its length does not wrap, and what
is signalled is not too long. -/
structure Safe (beside : Int → Byte) (f : VirtualFilter) (addr : AddrType) (hops : Int) (m : PoMsg) : Prop where
  cells : ∀ i ∈ (Handler.msgArrived beside f addr hops m).cells, 0 ≤ i ∧ i < m.len.toNat
  len : (Handler.msgArrived beside f addr hops m).state.len.toNat ≤ m.len.toNat
  signalled : ∀ a ∈ (Handler.msgArrived beside f addr hops m).result,
    a.msg.len.toNat ≤ PO_COMM_VIRTUAL_FILTER_MAX_PAYLOAD_LEN + 4

/-- The datagram is not too long, and one that comes from the gateway, or comes
to it, has a type, and a footer if the type is a virtual one. -/
def Handles (f : VirtualFilter) (addr : AddrType) (m : PoMsg) : Prop :=
  m.len.toNat ≤ PO_COMM_VIRTUAL_FILTER_MAX_PAYLOAD_LEN + 4 ∧
    (addr.toNat = PO_COMM_GATEWAY_ADDR ∨ f.myAddr.toNat = PO_COMM_GATEWAY_ADDR →
      1 ≤ m.len.toNat ∧ ∀ type ∈ m.data[PO_COMM_HDR_TYPE]?, IS_MSG_VIRTUAL type.toNat → 4 ≤ m.len.toNat)

instance (f : VirtualFilter) (addr : AddrType) (m : PoMsg) : Decidable (Handles f addr m) :=
  inferInstanceAs (Decidable (_ ∧ _))

/-! ## The parts of the handler -/

section
variable {beside : Int → Byte} {f : VirtualFilter} {addr myAddr : AddrType} {hops : Int} {m : PoMsg}

namespace Handler

theorem virtualFrom_run (beside : Int → Byte) (addr : AddrType) (m : PoMsg) :
    virtualFrom beside addr m =
      if addr.toNat = PO_COMM_GATEWAY_ADDR then
        ⟨decide (IS_MSG_VIRTUAL (byteAt beside m PO_COMM_HDR_TYPE).toNat), m, [0]⟩
      else ⟨false, m, []⟩ := by
  rw [virtualFrom, Access.ite_run]
  rfl

/-- The condition looks at the type, if the gateway has to do with it. -/
theorem overGateway_spec (beside : Int → Byte) (addr myAddr : AddrType) (m : PoMsg) :
    (overGateway beside addr myAddr m).state = m ∧
      ((overGateway beside addr myAddr m).result = true ↔
        (addr.toNat = PO_COMM_GATEWAY_ADDR ∨ myAddr.toNat = PO_COMM_GATEWAY_ADDR) ∧
          IS_MSG_VIRTUAL (byteAt beside m PO_COMM_HDR_TYPE).toNat) ∧
      (∀ i ∈ (overGateway beside addr myAddr m).cells, i = 0) ∧
      (0 ∈ (overGateway beside addr myAddr m).cells ↔
        addr.toNat = PO_COMM_GATEWAY_ADDR ∨ myAddr.toNat = PO_COMM_GATEWAY_ADDR) := by
  rw [overGateway, Access.bind_run, virtualFrom_run, Access.ite_run]
  by_cases haddr : addr.toNat = PO_COMM_GATEWAY_ADDR <;>
    by_cases hmy : myAddr.toNat = PO_COMM_GATEWAY_ADDR <;>
      by_cases hvirtual : IS_MSG_VIRTUAL (byteAt beside m PO_COMM_HDR_TYPE).toNat <;>
        simp [haddr, hmy, hvirtual, virtualFrom_run]

theorem printData_run (beside : Int → Byte) (n : Nat) (m : PoMsg) :
    printData beside n m = ⟨(), m, (List.range n).map fun i : Nat => (i : Int)⟩ := by
  induction n with
  | zero => rfl
  | succ n ih =>
      rw [printData, Access.bind_run, ih, List.range_succ, List.map_append]
      simp [readData]

/-- **The footer**: the type and the four bytes before the end. -/
theorem takeFooter_spec (beside : Int → Byte) (m : PoMsg) :
    (takeFooter beside m).state.len = m.len - 4 ∧
      (takeFooter beside m).cells = [0, 0, (m.len.toNat - 4 : Int), (m.len.toNat - 3 : Int),
        (m.len.toNat - 2 : Int), (m.len.toNat - 1 : Int)] := ⟨rfl, rfl⟩

/-- What follows: the bytes of what is left are printed, or it is passed up. -/
theorem passUp_spec (beside : Int → Byte) (myAddr : AddrType) (hops : Int) (source dest : AddrType) (m : PoMsg) :
    (passUp beside myAddr hops source dest m).state = m ∧
      (∀ a ∈ (passUp beside myAddr hops source dest m).result, a.msg = m) ∧
      ∀ i ∈ (passUp beside myAddr hops source dest m).cells, 0 ≤ i ∧ i < m.len.toNat := by
  rw [passUp, Access.ite_run]
  split
  · rw [Access.bind_run, readLen, Access.observe_run, Access.bind_run, printData_run]
    refine ⟨rfl, by simp, fun i hi => ?_⟩
    simp only [Access.pure_run, List.nil_append, List.append_nil, List.mem_map, List.mem_range] at hi
    obtain ⟨n, hn, rfl⟩ := hi
    omega
  · refine ⟨rfl, fun a ha => ?_, by simp [signalArrived]⟩
    cases ha
    rfl

/-- **The body** of the `else if`. -/
theorem turnBack_spec (beside : Int → Byte) (myAddr : AddrType) (hops : Int) (m : PoMsg) :
    (turnBack beside myAddr hops m).state.len = m.len - 4 ∧
      (∀ a ∈ (turnBack beside myAddr hops m).result, a.msg.len = m.len - 4) ∧
      (m.len.toNat - 4 : Int) ∈ (turnBack beside myAddr hops m).cells ∧
      ∀ i ∈ (turnBack beside myAddr hops m).cells, i = 0 ∨ (m.len.toNat - 4 : Int) ≤ i ∧ i < m.len.toNat ∨
        0 ≤ i ∧ i < (m.len - 4).toNat := by
  obtain ⟨hlen, hcells⟩ := takeFooter_spec beside m
  rw [turnBack, Access.bind_run, hcells]
  obtain ⟨hstate, hresult, hprinted⟩ := passUp_spec beside myAddr hops (takeFooter beside m).result.1
    (takeFooter beside m).result.2 (takeFooter beside m).state
  rw [hlen] at hprinted
  refine ⟨?_, fun a ha => ?_, by simp, fun i hi => ?_⟩
  · simp only [hstate, hlen]
  · rw [hresult a ha, hlen]
  · obtain hfooter | hrest := List.mem_append.mp hi
    · simp only [List.mem_cons, List.not_mem_nil, or_false] at hfooter
      omega
    · exact Or.inr (Or.inr (hprinted i hrest))

/-- **The handler**: a datagram that is too long is passed up, and so is one
that is not turned back. -/
theorem msgArrived_spec (beside : Int → Byte) (f : VirtualFilter) (addr : AddrType) (hops : Int) (m : PoMsg) :
    msgArrived beside f addr hops m =
      if m.len.toNat > PO_COMM_VIRTUAL_FILTER_MAX_PAYLOAD_LEN + 4 then ⟨some ⟨addr, hops, m⟩, m, []⟩
      else if (overGateway beside addr f.myAddr m).result = true then
        ⟨(turnBack beside f.myAddr hops m).result, (turnBack beside f.myAddr hops m).state,
          (overGateway beside addr f.myAddr m).cells ++ (turnBack beside f.myAddr hops m).cells⟩
      else ⟨some ⟨addr, hops, m⟩, m, (overGateway beside addr f.myAddr m).cells⟩ := by
  obtain ⟨hstate, -⟩ := overGateway_spec beside addr f.myAddr m
  rw [msgArrived, readLen, Access.bind_run, Access.observe_run, Access.ite_run]
  split
  · rfl
  · rw [Access.bind_run, hstate, Access.ite_run]
    split
    · rfl
    · simp [signalArrived]

end Handler

theorem byteAt_of_getByte {i : Int} {b : Byte} (h : getByte m.data i = some b) : byteAt beside m i = b := by
  rw [byteAt, h]
  rfl

/-- The footer, when it is in the array. -/
theorem takeFooter_result {s₁ s₀ d₁ d₀ : Byte}
    (hs₁ : getByte (m.data.modify PO_COMM_HDR_TYPE (· - 3)) (m.len.toNat - 4) = some s₁)
    (hs₀ : getByte (m.data.modify PO_COMM_HDR_TYPE (· - 3)) (m.len.toNat - 3) = some s₀)
    (hd₁ : getByte (m.data.modify PO_COMM_HDR_TYPE (· - 3)) (m.len.toNat - 2) = some d₁)
    (hd₀ : getByte (m.data.modify PO_COMM_HDR_TYPE (· - 3)) (m.len.toNat - 1) = some d₀) :
    (Handler.takeFooter beside m).result = (joinAddr s₁ s₀, joinAddr d₁ d₀) := by
  let typed : PoMsg :=
    { m with data := m.data.modify PO_COMM_HDR_TYPE (· - 3), length_data := by simp [m.length_data] }
  have hbyte : ∀ {i b}, getByte typed.data i = some b → byteAt beside typed i = b := byteAt_of_getByte
  rw [← hbyte hs₁, ← hbyte hs₀, ← hbyte hd₁, ← hbyte hd₀]
  rfl

/-- **It is the handler of the module**, where that reads inside the array. -/
theorem msgArrived_result {r : Option Arrival} (h : f.msgArrived addr hops m = some r) :
    (Handler.msgArrived beside f addr hops m).result = r := by
  obtain ⟨-, hover, -, -⟩ := Handler.overGateway_spec beside addr f.myAddr m
  rw [Handler.msgArrived_spec]
  unfold VirtualFilter.msgArrived at h
  split at h
  · next hlong =>
      rw [if_pos hlong]
      exact Option.some.inj h
  · next hshort =>
      rw [if_neg hshort]
      obtain ⟨type, htype, h⟩ := Option.bind_eq_some_iff.mp h
      rw [byteAt_of_getByte htype, or_and_right] at hover
      split at h
      · next hback =>
          rw [if_pos (hover.mpr hback)]
          obtain ⟨s₁, hs₁, h⟩ := Option.bind_eq_some_iff.mp h
          obtain ⟨s₀, hs₀, h⟩ := Option.bind_eq_some_iff.mp h
          obtain ⟨d₁, hd₁, h⟩ := Option.bind_eq_some_iff.mp h
          obtain ⟨d₀, hd₀, h⟩ := Option.bind_eq_some_iff.mp h
          have hfooter : (Handler.takeFooter beside m).result = _ := takeFooter_result hs₁ hs₀ hd₁ hd₀
          rw [Handler.turnBack, Access.bind_run, hfooter]
          change (Handler.passUp beside f.myAddr hops (joinAddr s₁ s₀) (joinAddr d₁ d₀) _).result = r
          rw [Handler.passUp, Access.ite_run]
          simp only at h
          split at h
          · next hother =>
              rw [if_pos hother]
              exact Option.some.inj h
          · next hmine =>
              rw [if_neg hmine]
              exact Option.some.inj h
      · next hplain =>
          rw [if_neg (mt hover.mp hplain)]
          exact Option.some.inj h

/-- The type is in the array. -/
theorem getElem?_type (beside : Int → Byte) (m : PoMsg) :
    m.data[PO_COMM_HDR_TYPE]? = some (byteAt beside m PO_COMM_HDR_TYPE) := by
  have hlt : PO_COMM_HDR_TYPE < m.data.length := by
    rw [m.length_data]
    decide
  have hget : getByte m.data PO_COMM_HDR_TYPE = m.data[PO_COMM_HDR_TYPE]? := rfl
  rw [byteAt, hget, List.getElem?_eq_getElem hlt]
  rfl

/-- **A datagram over the gateway** is handled inside its bytes exactly if it has
a footer. -/
theorem turnBack_inside_iff (beside : Int → Byte) (myAddr : AddrType) (hops : Int) (m : PoMsg) :
    (∀ i ∈ (Handler.turnBack beside myAddr hops m).cells, 0 ≤ i ∧ i < m.len.toNat) ↔ 4 ≤ m.len.toNat := by
  obtain ⟨-, -, hfirst, hcells⟩ := Handler.turnBack_spec beside myAddr hops m
  constructor
  · intro h
    have hneg := (h _ hfirst).1
    omega
  · intro hlen i hi
    have hsub : (m.len - 4).toNat = m.len.toNat - 4 := BitVec.toNat_sub_of_le hlen
    obtain hzero | hfooter | hrest := hcells i hi
    · omega
    · omega
    · omega

/-- A datagram that is too long is passed up as it is. -/
theorem not_safe_of_long (hlong : m.len.toNat > PO_COMM_VIRTUAL_FILTER_MAX_PAYLOAD_LEN + 4) :
    ¬ Safe beside f addr hops m := by
  intro h
  have hspec := Handler.msgArrived_spec beside f addr hops m
  rw [if_pos hlong] at hspec
  have hsignalled := h.signalled
  rw [hspec] at hsignalled
  exact absurd hlong (Nat.not_lt.mpr (hsignalled _ rfl))

/-- One that is turned back has to have a footer. -/
theorem safe_turnBack_iff (hshort : ¬ m.len.toNat > PO_COMM_VIRTUAL_FILTER_MAX_PAYLOAD_LEN + 4)
    (hback : (Handler.overGateway beside addr f.myAddr m).result = true) :
    Safe beside f addr hops m ↔ 4 ≤ m.len.toNat := by
  have hspec := Handler.msgArrived_spec beside f addr hops m
  rw [if_neg hshort, if_pos hback] at hspec
  obtain ⟨-, -, hzero, -⟩ := Handler.overGateway_spec beside addr f.myAddr m
  obtain ⟨hlen, hresult, -, -⟩ := Handler.turnBack_spec beside f.myAddr hops m
  have hinside := turnBack_inside_iff beside f.myAddr hops m
  constructor
  · intro h
    have hcells := h.cells
    rw [hspec] at hcells
    exact hinside.mp fun i hi => hcells i (List.mem_append_right _ hi)
  · intro hfour
    have hsub : (m.len - 4).toNat = m.len.toNat - 4 := BitVec.toNat_sub_of_le hfour
    refine ⟨?_, ?_, ?_⟩ <;> rw [hspec]
    · intro i hi
      obtain hlook | hi := List.mem_append.mp hi
      · rw [hzero i hlook]
        omega
      · exact hinside.mpr hfour i hi
    · simp only [hlen]
      omega
    · intro a ha
      rw [hresult a ha]
      omega

/-- Of one that is not, only the type is looked at. -/
theorem safe_plain_iff (hshort : ¬ m.len.toNat > PO_COMM_VIRTUAL_FILTER_MAX_PAYLOAD_LEN + 4)
    (hplain : ¬ (Handler.overGateway beside addr f.myAddr m).result = true) :
    Safe beside f addr hops m ↔
      (addr.toNat = PO_COMM_GATEWAY_ADDR ∨ f.myAddr.toNat = PO_COMM_GATEWAY_ADDR → 1 ≤ m.len.toNat) := by
  have hspec := Handler.msgArrived_spec beside f addr hops m
  rw [if_neg hshort, if_neg hplain] at hspec
  obtain ⟨-, -, hzero, hlooked⟩ := Handler.overGateway_spec beside addr f.myAddr m
  constructor
  · intro h hgateway
    have hcells := h.cells
    rw [hspec] at hcells
    have hfirst := (hcells 0 (hlooked.mpr hgateway)).2
    omega
  · intro h
    refine ⟨?_, ?_, ?_⟩ <;> rw [hspec]
    · intro i hi
      have hi0 := hzero i hi
      subst hi0
      have hpos := h (hlooked.mp hi)
      omega
    · intro a ha
      cases ha
      exact Nat.not_lt.mp hshort

end

/-- **Bounds**: the filter handles a datagram inside its bytes, without a wrap of
its length, and signals nothing that is too long, exactly if the datagram is not
too long and has the type and the footer that are taken from it. -/
theorem safe_iff (beside : Int → Byte) (f : VirtualFilter) (addr : AddrType) (hops : Int) (m : PoMsg) :
    Safe beside f addr hops m ↔ Handles f addr m := by
  obtain ⟨-, hover, -, -⟩ := Handler.overGateway_spec beside addr f.myAddr m
  have htype : (∀ type ∈ m.data[PO_COMM_HDR_TYPE]?, IS_MSG_VIRTUAL type.toNat → 4 ≤ m.len.toNat) ↔
      (IS_MSG_VIRTUAL (byteAt beside m PO_COMM_HDR_TYPE).toNat → 4 ≤ m.len.toNat) := by
    rw [getElem?_type beside]
    simp
  rw [Handles, htype]
  by_cases hlong : m.len.toNat > PO_COMM_VIRTUAL_FILTER_MAX_PAYLOAD_LEN + 4
  · exact iff_of_false (not_safe_of_long hlong) fun h => absurd hlong (Nat.not_lt.mpr h.1)
  · rw [and_iff_right (Nat.not_lt.mp hlong)]
    by_cases hback : (Handler.overGateway beside addr f.myAddr m).result = true
    · obtain ⟨hgateway, hvirtual⟩ := hover.mp hback
      rw [safe_turnBack_iff hlong hback]
      constructor
      · intro hfour _
        exact ⟨Nat.le_trans (by decide) hfour, fun _ => hfour⟩
      · intro h
        exact (h hgateway).2 hvirtual
    · have hplain : addr.toNat = PO_COMM_GATEWAY_ADDR ∨ f.myAddr.toNat = PO_COMM_GATEWAY_ADDR →
          ¬ IS_MSG_VIRTUAL (byteAt beside m PO_COMM_HDR_TYPE).toNat :=
        fun hgateway hvirtual => hback (hover.mpr ⟨hgateway, hvirtual⟩)
      rw [safe_plain_iff hlong hback]
      constructor
      · intro h hgateway
        exact ⟨h hgateway, fun hvirtual => absurd hvirtual (hplain hgateway)⟩
      · intro h hgateway
        exact (h hgateway).1

/-- A datagram of two bytes with a virtual type. -/
def twoBytes : PoMsg where
  len := 2
  data := [3, 7] ++ List.replicate 182 0
  length_data := by
    rw [List.length_append, List.length_replicate]
    rfl

/-- From the gateway, its footer is looked for before the array. -/
theorem footer_missing :
    ¬ ∀ (beside : Int → Byte) (f : VirtualFilter) (addr : AddrType) (hops : Int) (m : PoMsg),
      m.len.toNat ≤ MAX_RADIO_MSG_DATA → Safe beside f addr hops m := by
  intro h
  have hcells := (h (fun _ => 0) ⟨5⟩ 0 1 twoBytes (by decide)).cells (-2)
  exact absurd (hcells (by decide)).1 (by decide)

end VirtualFilter

end Pobicos.Middleware
