import Pobicos.Middleware.HWComm
import Mathlib.Tactic.IntervalCases

/-!
# Pobicos.Middleware.VirtualFilter

`PoCommVirtualFilterM.nc`: the filter between the datagram transport and the
layers above it, for traffic over the gateway.

A message to a virtual address, or to all, is given another type and a footer
with its source and destination.  A datagram that comes from the gateway, or
comes to it, and has such a type is turned back; any other is passed up as it
is.  So what a node sends to all nodes arrives at the gateway
(`gateway_transparent`), and not at the other nodes (`peer_not_transparent`).
-/

namespace Pobicos.Middleware

open Octets

def PO_COMM_VIRTUAL_FILTER_MAX_PAYLOAD_LEN : Nat := 51

/-! ## Messages -/

/-- `PoRadioMsg`: a length and room for the data of a datagram. -/
structure PoRadioMsg where
  len : Byte
  data : List Byte
  length_data : data.length = MAX_RADIO_MSG_DATA

/-- `memcpy(&tempMsg, BEMsg, sizeof(PoRadioMsg))`. -/
def PoMsg.toRadioMsg (beMsg : PoMsg) : PoRadioMsg where
  len := beMsg.len
  data := beMsg.data.take MAX_RADIO_MSG_DATA
  length_data := by
    rw [List.length_take, beMsg.length_data]
    rfl

/-- A write to `data[i]`. -/
def PoRadioMsg.set (m : PoRadioMsg) (i : Nat) (b : Byte) : PoRadioMsg :=
  ⟨m.len, m.data.set i b, (List.length_set ..).trans m.length_data⟩

/-- `data[PO_COMM_HDR_TYPE] += n`. -/
def PoRadioMsg.addType (m : PoRadioMsg) (n : Byte) : PoRadioMsg :=
  ⟨m.len, m.data.modify PO_COMM_HDR_TYPE (· + n), (List.length_modify ..).trans m.length_data⟩

/-- The message as it is in the memory of the layer that receives it. -/
structure PoMsg.Carries (m : PoMsg) (r : PoRadioMsg) : Prop where
  len : m.len = r.len
  data : m.payload = r.data.take r.len.toNat

/-! ## The filter -/

/-- The variable of the module. -/
structure VirtualFilter where
  myAddr : AddrType

/-- A call of `SubDatagram.sendMsg`. -/
structure SubSend where
  addr : AddrType
  hops : Int
  msg : PoRadioMsg

/-- An event `PoDatagramTransportI.msgArrived`. -/
structure Arrival where
  addr : AddrType
  hops : Int
  msg : PoMsg

namespace VirtualFilter

/-- The two bytes of an address in the footer. -/
def addrHigh (addr : AddrType) : Byte := ((addr &&& 0xff00) >>> 8).setWidth 8

def addrLow (addr : AddrType) : Byte := (addr &&& 0x00ff).setWidth 8

/-- The address made of two bytes of the footer. -/
def joinAddr (hi lo : Byte) : AddrType := hi.setWidth 32 <<< 8 ||| lo.setWidth 32

/-- The virtual type and the virtual footer. -/
def extend (tempMsg : PoRadioMsg) (myAddr addr : AddrType) : PoRadioMsg :=
  let len := tempMsg.len.toNat
  let r := ((((tempMsg.addType 3).set len (addrHigh myAddr)).set (len + 1) (addrLow myAddr)).set
    (len + 2) (addrHigh addr)).set (len + 3) (addrLow addr)
  { r with len := r.len + 4 }

/-- `PoDatagramTransportI.sendMsg(addr, hops, beMsg)`: the code that it returns,
or the call whose code it returns.  `network` is the address that
`getMyNetworkAddr` finds, if it returns `PO_COMM_OK`. -/
def sendMsg (f : VirtualFilter) (network : Option AddrType) (addr : AddrType) (hops : Int) (beMsg : PoMsg) :
    VirtualFilter × (Int ⊕ SubSend) :=
  match if f.myAddr = 0xffff then network else some f.myAddr with
  | none => (f, .inl PO_COMM_NOT_STARTED)
  | some myAddr =>
      (⟨myAddr⟩,
        if beMsg.len.toNat > PO_COMM_VIRTUAL_FILTER_MAX_PAYLOAD_LEN then .inl PO_COMM_MSG_TOO_LARGE
        else if IS_ADDR_VIRTUAL addr.toNat ∨ addr.toNat = PO_BROADCAST_ADDR then
          if addr.toNat ≠ PO_BROADCAST_ADDR then
            .inr ⟨BitVec.ofNat 32 PO_COMM_GATEWAY_ADDR, hops, extend beMsg.toRadioMsg myAddr addr⟩
          else .inr ⟨addr, hops, extend beMsg.toRadioMsg myAddr addr⟩
        else .inr ⟨addr, hops, beMsg.toRadioMsg⟩)

/-- `data[i]`, inside the array. -/
def getByte (data : List Byte) (i : Int) : Option Byte := if 0 ≤ i then data[i.toNat]? else none

/-- `PoNetworkMngrI.joined(addr)`. -/
def joined (_ : VirtualFilter) (addr : AddrType) : VirtualFilter := ⟨addr⟩

/-- `SubDatagram.msgArrived(addr, hops, beMsg)`: what it signals, if anything;
`none` if it reads outside the array. -/
def msgArrived (f : VirtualFilter) (addr : AddrType) (hops : Int) (beMsg : PoMsg) :
    Option (Option Arrival) :=
  if beMsg.len.toNat > PO_COMM_VIRTUAL_FILTER_MAX_PAYLOAD_LEN + 4 then some (some ⟨addr, hops, beMsg⟩)
  else do
    let type ← getByte beMsg.data PO_COMM_HDR_TYPE
    if (addr.toNat = PO_COMM_GATEWAY_ADDR ∧ IS_MSG_VIRTUAL type.toNat) ∨
        (f.myAddr.toNat = PO_COMM_GATEWAY_ADDR ∧ IS_MSG_VIRTUAL type.toNat) then do
      let data := beMsg.data.modify PO_COMM_HDR_TYPE (· - 3)
      let len : Int := beMsg.len.toNat
      let source := joinAddr (← getByte data (len - 4)) (← getByte data (len - 3))
      let dest := joinAddr (← getByte data (len - 2)) (← getByte data (len - 1))
      if dest ≠ f.myAddr ∧ dest.toNat ≠ PO_BROADCAST_ADDR then some none
      else
        some (some ⟨source, hops,
          ⟨beMsg.len - 4, data, (List.length_modify ..).trans beMsg.length_data⟩⟩)
    else some (some ⟨addr, hops, beMsg⟩)

end VirtualFilter

/-! ## Transparency -/

open VirtualFilter

/-- The address a sender knows itself by. -/
def VirtualFilter.Knows (tx : VirtualFilter) (network : Option AddrType) (src : AddrType) : Prop :=
  (if tx.myAddr = 0xffff then network else some tx.myAddr) = some src

instance (tx : VirtualFilter) (network : Option AddrType) (src : AddrType) :
    Decidable (tx.Knows network src) := inferInstanceAs (Decidable (_ = _))

/-- A message that `tx` sends to `dst` goes out to `dst`, and `rx`, when it
arrives there from `src`, signals the same message with this source. -/
def Transparent (tx : VirtualFilter) (network : Option AddrType) (src dst : AddrType) (rx : VirtualFilter)
    (msg : PoMsg) : Prop :=
  ∀ hops hops' : Int, ∃ sub, (tx.sendMsg network dst hops msg).2 = .inr sub ∧ sub.addr = dst ∧
    ∀ m : PoMsg, m.Carries sub.msg → ∃ m' : PoMsg,
      rx.msgArrived src hops' m = some (some ⟨src, hops', m'⟩) ∧ m'.len = msg.len ∧
        m'.payload = msg.payload

variable {tx rx : VirtualFilter} {network : Option AddrType} {src dst addr : AddrType} {msg m : PoMsg}
  {hops : Int}

/-! ## Encoding -/

/-- **An address of 16 bits** is what its two bytes make. -/
theorem joinAddr_high_low {x : AddrType} (h : x.toNat < 2 ^ 16) : joinAddr (addrHigh x) (addrLow x) = x := by
  apply BitVec.eq_of_getLsbD_eq
  intro i hi
  have hhigh : 16 ≤ i → x.getLsbD i = false := by
    intro h16
    refine Nat.testBit_lt_two_pow (Nat.lt_of_lt_of_le h ?_)
    exact Nat.pow_le_pow_right (by decide) h16
  interval_cases i <;> simp_all [joinAddr, addrHigh, addrLow]

/-- What the extended message is, byte for byte. -/
theorem getElem?_extend {r : PoRadioMsg} (h : r.len.toNat ≤ PO_COMM_VIRTUAL_FILTER_MAX_PAYLOAD_LEN)
    (src dst : AddrType) :
    (extend r src dst).len.toNat = r.len.toNat + 4 ∧
      (∀ j, j < r.len.toNat → (extend r src dst).data[j]? =
        if j = 0 then r.data[j]?.map (· + 3) else r.data[j]?) ∧
      (extend r src dst).data[r.len.toNat]? = some (addrHigh src) ∧
      (extend r src dst).data[r.len.toNat + 1]? = some (addrLow src) ∧
      (extend r src dst).data[r.len.toNat + 2]? = some (addrHigh dst) ∧
      (extend r src dst).data[r.len.toNat + 3]? = some (addrLow dst) := by
  have hdata := r.length_data
  rw [MAX_RADIO_MSG_DATA] at hdata
  rw [PO_COMM_VIRTUAL_FILTER_MAX_PAYLOAD_LEN] at h
  refine ⟨?_, fun j hj => ?_, ?_, ?_, ?_, ?_⟩
  · rw [extend]
    simp only [PoRadioMsg.set, PoRadioMsg.addType, BitVec.toNat_add]
    have hfour : (4 : Byte).toNat = 4 := rfl
    rw [hfour]
    omega
  · simp only [extend, PoRadioMsg.set, PoRadioMsg.addType, List.getElem?_set, List.getElem?_modify]
    rw [if_neg (by omega), if_neg (by omega), if_neg (by omega), if_neg (by omega), PO_COMM_HDR_TYPE]
    by_cases hzero : j = 0
    · simp [hzero]
    · simp [hzero, Ne.symm hzero]
  all_goals simp only [extend, PoRadioMsg.set, PoRadioMsg.addType, List.getElem?_set, List.length_set,
    List.length_modify, hdata]
  · rw [if_neg (by omega), if_neg (by omega), if_neg (by omega), if_pos trivial, if_pos (by omega)]
  · rw [if_neg (by omega), if_neg (by omega), if_pos trivial, if_pos (by omega)]
  · rw [if_neg (by omega), if_pos trivial, if_pos (by omega)]
  · rw [if_pos trivial, if_pos (by omega)]

/-! ## Decoding -/

/-- A byte of a received message that is within its length. -/
theorem PoMsg.Carries.getElem? {r : PoRadioMsg} (h : m.Carries r) {j : Nat} (hj : j < r.len.toNat) :
    m.data[j]? = r.data[j]? := by
  have hlen := h.len
  have hdata := congrArg (fun bs : List Byte => bs[j]?) h.data
  simp only [PoMsg.payload, hlen, List.getElem?_take, if_pos hj] at hdata
  exact hdata

/-- What the receiver of the extended message `msg` has. -/
structure Extended (msg : PoMsg) (src dst : AddrType) (m : PoMsg) : Prop where
  len : m.len.toNat = msg.len.toNat + 4
  body : ∀ j, j < msg.len.toNat → m.data[j]? = if j = 0 then msg.data[j]?.map (· + 3) else msg.data[j]?
  sourceHigh : m.data[msg.len.toNat]? = some (addrHigh src)
  sourceLow : m.data[msg.len.toNat + 1]? = some (addrLow src)
  destHigh : m.data[msg.len.toNat + 2]? = some (addrHigh dst)
  destLow : m.data[msg.len.toNat + 3]? = some (addrLow dst)

theorem PoMsg.Carries.extended (hmax : msg.len.toNat ≤ PO_COMM_VIRTUAL_FILTER_MAX_PAYLOAD_LEN)
    (hm : m.Carries (extend msg.toRadioMsg src dst)) : Extended msg src dst m := by
  obtain ⟨hlen, hbody, h0, h1, h2, h3⟩ := getElem?_extend (r := msg.toRadioMsg) hmax src dst
  have hrlen : msg.toRadioMsg.len.toNat = msg.len.toNat := rfl
  rw [hrlen] at hlen hbody h0 h1 h2 h3
  have hcopy : ∀ j, j < msg.len.toNat → msg.toRadioMsg.data[j]? = msg.data[j]? := by
    intro j hj
    rw [PO_COMM_VIRTUAL_FILTER_MAX_PAYLOAD_LEN] at hmax
    refine List.getElem?_take_of_lt ?_
    rw [MAX_RADIO_MSG_DATA]
    omega
  have hget : ∀ j, j < msg.len.toNat + 4 → m.data[j]? = (extend msg.toRadioMsg src dst).data[j]? := by
    intro j hj
    exact hm.getElem? (by rwa [hlen])
  refine ⟨by rw [hm.len, hlen], fun j hj => ?_, ?_, ?_, ?_, ?_⟩
  · rw [hget j (by omega), hbody j hj, hcopy j hj]
  · rw [hget _ (by omega), h0]
  · rw [hget _ (by omega), h1]
  · rw [hget _ (by omega), h2]
  · rw [hget _ (by omega), h3]

/-- A byte of the footer, behind the type that has been turned back. -/
theorem getByte_footer {k : Nat} {b : Byte} (hpos : 1 ≤ msg.len.toNat)
    (hlen : m.len.toNat = msg.len.toNat + 4) (hb : m.data[msg.len.toNat + k]? = some b) {i : Int}
    (hi : i = msg.len.toNat + k) :
    getByte (m.data.modify PO_COMM_HDR_TYPE (· - 3)) i = some b := by
  have hidx : i.toNat = msg.len.toNat + k := by omega
  have hne : ¬ PO_COMM_HDR_TYPE = msg.len.toNat + k := by
    intro heq
    have hzero : PO_COMM_HDR_TYPE = 0 := rfl
    omega
  rw [getByte, if_pos (by omega), hidx, List.getElem?_modify, hb]
  simp [hne]

theorem virtual_add_three {type : Byte} (h : type.toNat < 3) : IS_MSG_VIRTUAL (type + 3).toNat := by
  have hthree : (3 : Byte).toNat = 3 := rfl
  rw [BitVec.toNat_add, hthree, IS_MSG_VIRTUAL, PO_COMM_HDR_VIRTUAL_DATAGRAM,
    PO_COMM_HDR_VIRTUAL_RELIABLE, PO_COMM_HDR_VIRTUAL_ACK]
  omega

/-- The bytes of the message, when the type has been turned back. -/
theorem Extended.body_back (h : Extended msg src dst m) {j : Nat} (hj : j < msg.len.toNat) :
    (m.data.modify PO_COMM_HDR_TYPE (· - 3))[j]? = msg.data[j]? := by
  rw [List.getElem?_modify, h.body j hj, PO_COMM_HDR_TYPE]
  by_cases hzero : j = 0
  · subst hzero
    cases msg.data[0]? with
    | none => rfl
    | some b => exact congrArg some (BitVec.add_sub_cancel b 3)
  · simp [hzero, Ne.symm hzero]

/-- **An extended message** that comes from the gateway, or comes to it, is
turned back. -/
theorem Extended.msgArrived {type : Byte} (h : Extended msg src dst m) (hpos : 1 ≤ msg.len.toNat)
    (hmax : msg.len.toNat ≤ PO_COMM_VIRTUAL_FILTER_MAX_PAYLOAD_LEN)
    (htype : msg.data[0]? = some type) (hreal : type.toNat < 3)
    (hsrc : src.toNat < 2 ^ 16) (hdst : dst.toNat < 2 ^ 16)
    (hgateway : addr.toNat = PO_COMM_GATEWAY_ADDR ∨ rx.myAddr.toNat = PO_COMM_GATEWAY_ADDR)
    (hfor : dst = rx.myAddr ∨ dst.toNat = PO_BROADCAST_ADDR) :
    ∃ m' : PoMsg, rx.msgArrived addr hops m = some (some ⟨src, hops, m'⟩) ∧ m'.len = msg.len ∧
      m'.payload = msg.payload := by
  have hlen := h.len
  have hshort : ¬ m.len.toNat > PO_COMM_VIRTUAL_FILTER_MAX_PAYLOAD_LEN + 4 := by omega
  have hhdr : getByte m.data PO_COMM_HDR_TYPE = some (type + 3) := by
    have hzero := h.body 0 hpos
    rw [if_pos rfl, htype] at hzero
    exact hzero
  have hback : (addr.toNat = PO_COMM_GATEWAY_ADDR ∧ IS_MSG_VIRTUAL (type + 3).toNat) ∨
      (rx.myAddr.toNat = PO_COMM_GATEWAY_ADDR ∧ IS_MSG_VIRTUAL (type + 3).toNat) :=
    hgateway.imp (fun h => ⟨h, virtual_add_three hreal⟩) fun h => ⟨h, virtual_add_three hreal⟩
  have haccept : ¬ (dst ≠ rx.myAddr ∧ dst.toNat ≠ PO_BROADCAST_ADDR) := by
    rintro ⟨hme, hall⟩
    exact hfor.elim hme hall
  have h0 := getByte_footer (k := 0) (i := (m.len.toNat : Int) - 4) hpos hlen h.sourceHigh (by omega)
  have h1 := getByte_footer (i := (m.len.toNat : Int) - 3) hpos hlen h.sourceLow (by omega)
  have h2 := getByte_footer (i := (m.len.toNat : Int) - 2) hpos hlen h.destHigh (by omega)
  have h3 := getByte_footer (i := (m.len.toNat : Int) - 1) hpos hlen h.destLow (by omega)
  have hmlen : m.len - 4 = msg.len := by
    apply BitVec.eq_of_toNat_eq
    have hfour : (4 : Byte).toNat = 4 := rfl
    have hlt := m.len.isLt
    rw [BitVec.toNat_sub, hfour]
    omega
  refine ⟨⟨m.len - 4, m.data.modify PO_COMM_HDR_TYPE (· - 3),
    (List.length_modify ..).trans m.length_data⟩, ?_, hmlen, ?_⟩
  · simp only [VirtualFilter.msgArrived, if_neg hshort, hhdr, h0, h1, h2, h3, joinAddr_high_low hsrc,
      joinAddr_high_low hdst, bind, Option.bind, if_pos hback, if_neg haccept]
  · rw [PoMsg.payload, PoMsg.payload]
    simp only [hmlen]
    apply List.ext_getElem?
    intro j
    rw [List.getElem?_take, List.getElem?_take]
    by_cases hj : j < msg.len.toNat
    · rw [if_pos hj, if_pos hj, h.body_back hj]
    · rw [if_neg hj, if_neg hj]

/-- Any other datagram is passed up as it is. -/
theorem msgArrived_of_ne (haddr : addr.toNat ≠ PO_COMM_GATEWAY_ADDR)
    (hme : rx.myAddr.toNat ≠ PO_COMM_GATEWAY_ADDR) :
    rx.msgArrived addr hops m = some (some ⟨addr, hops, m⟩) := by
  have hnot : ∀ type : Byte, ¬ ((addr.toNat = PO_COMM_GATEWAY_ADDR ∧ IS_MSG_VIRTUAL type.toNat) ∨
      (rx.myAddr.toNat = PO_COMM_GATEWAY_ADDR ∧ IS_MSG_VIRTUAL type.toNat)) := by
    rintro type (⟨h, -⟩ | ⟨h, -⟩)
    · exact haddr h
    · exact hme h
  unfold VirtualFilter.msgArrived
  split
  · rfl
  · have hdata := m.length_data
    obtain ⟨type, htype⟩ : ∃ type, m.data[0]? = some type := ⟨_, List.getElem?_eq_getElem (by omega)⟩
    have hhdr : getByte m.data PO_COMM_HDR_TYPE = some type := htype
    simp only [hhdr, bind, Option.bind, if_neg (hnot _)]

/-! ## The ends of a link -/

/-- **A message over the gateway** goes out extended. -/
theorem sendMsg_extend (hknows : tx.Knows network src)
    (hmax : msg.len.toNat ≤ PO_COMM_VIRTUAL_FILTER_MAX_PAYLOAD_LEN)
    (hdst : dst.toNat = PO_COMM_GATEWAY_ADDR ∨ dst.toNat = PO_BROADCAST_ADDR) :
    (tx.sendMsg network dst hops msg).2 = .inr ⟨dst, hops, extend msg.toRadioMsg src dst⟩ := by
  have hover : IS_ADDR_VIRTUAL dst.toNat ∨ dst.toNat = PO_BROADCAST_ADDR := hdst.imp_left Or.inr
  simp only [VirtualFilter.Knows] at hknows
  simp only [VirtualFilter.sendMsg, hknows, if_neg (Nat.not_lt.mpr hmax), if_pos hover]
  split
  · next hne =>
    have hgateway : dst = BitVec.ofNat 32 PO_COMM_GATEWAY_ADDR := by
      apply BitVec.eq_of_toNat_eq
      exact hdst.resolve_right hne
    rw [hgateway]
  · rfl

/-- **Transparency of the gateway link**: from a node to the gateway, from a
node to all and so to the gateway, and from the gateway to all, a message
arrives as it was sent, and the datagram is not too long for the layer below. -/
theorem gateway_transparent {a : AddrType} (ha : 1 ≤ a.toNat ∧ a.toNat ≤ 0xFFFE)
    (hlen : 1 ≤ msg.len.toNat ∧ msg.len.toNat ≤ 51) {type : Byte} (htype : msg.data[0]? = some type)
    (hreal : type.toNat < 3) (hknows : tx.Knows network src)
    (hlink : src = a ∧ (dst.toNat = PO_COMM_GATEWAY_ADDR ∨ dst.toNat = PO_BROADCAST_ADDR) ∧
        rx.myAddr.toNat = PO_COMM_GATEWAY_ADDR ∨
      src.toNat = PO_COMM_GATEWAY_ADDR ∧ dst.toNat = PO_BROADCAST_ADDR ∧ rx.myAddr = a) :
    Transparent tx network src dst rx msg ∧
      ∀ hops sub, (tx.sendMsg network dst hops msg).2 = .inr sub →
        sub.msg.len.toNat ≤ PO_HW_COMM_MAX_PAYLOAD_LEN ∧ sub.msg.len.toNat ≤ MAX_RADIO_MSG_DATA := by
  have hgw : PO_COMM_GATEWAY_ADDR = 0 := rfl
  have hbc : PO_BROADCAST_ADDR = 0xffff := rfl
  have hout : dst.toNat = PO_COMM_GATEWAY_ADDR ∨ dst.toNat = PO_BROADCAST_ADDR := by
    obtain ⟨-, hdst, -⟩ | ⟨-, hdst, -⟩ := hlink
    · exact hdst
    · exact Or.inr hdst
  have hsend : ∀ hops, (tx.sendMsg network dst hops msg).2 =
      .inr ⟨dst, hops, extend msg.toRadioMsg src dst⟩ := fun _ => sendMsg_extend hknows hlen.2 hout
  constructor
  · intro hops hops'
    refine ⟨_, hsend hops, rfl, fun m hm => ?_⟩
    refine (hm.extended hlen.2).msgArrived hlen.1 hlen.2 htype hreal ?_ ?_ ?_ ?_
    · obtain ⟨rfl, -⟩ | ⟨hsrc, -⟩ := hlink <;> omega
    · omega
    · exact hlink.symm.imp (fun h => h.1) fun h => h.2.2
    · obtain ⟨-, hdst | hdst, hrx⟩ | ⟨-, hdst, -⟩ := hlink
      · exact Or.inl (BitVec.eq_of_toNat_eq (by omega))
      · exact Or.inr hdst
      · exact Or.inr hdst
  · intro hops sub hsub
    rw [hsend hops] at hsub
    cases hsub
    obtain ⟨hext, -⟩ := getElem?_extend (r := msg.toRadioMsg) hlen.2 src dst
    have hrlen : msg.toRadioMsg.len.toNat = msg.len.toNat := rfl
    rw [PO_HW_COMM_MAX_PAYLOAD_LEN, MAX_RADIO_MSG_DATA]
    simp only [hext, hrlen]
    omega

/-! ## Peers -/

/-- A message in memory as a layer above receives it. -/
def PoRadioMsg.toPoMsg (r : PoRadioMsg) : PoMsg where
  len := r.len
  data := r.data ++ List.replicate (4 * 46 - MAX_RADIO_MSG_DATA) 0
  length_data := by
    rw [List.length_append, r.length_data, List.length_replicate]
    rfl

theorem PoRadioMsg.carries_toPoMsg {r : PoRadioMsg} (h : r.len.toNat ≤ MAX_RADIO_MSG_DATA) :
    r.toPoMsg.Carries r := by
  refine ⟨rfl, ?_⟩
  have hfit : r.len.toNat ≤ r.data.length := by rwa [r.length_data]
  exact List.take_append_of_le_length hfit

/-- **A message to all** arrives at another node with a type and a length that
are not its own. -/
theorem peer_arrival {a : AddrType} (hknows : tx.Knows network a) (ha : a.toNat ≠ PO_COMM_GATEWAY_ADDR)
    (hb : rx.myAddr.toNat ≠ PO_COMM_GATEWAY_ADDR) (hpos : 1 ≤ msg.len.toNat)
    (hmax : msg.len.toNat ≤ PO_COMM_VIRTUAL_FILTER_MAX_PAYLOAD_LEN) (hops hops' : Int) :
    (tx.sendMsg network 0xffff hops msg).2 = .inr ⟨0xffff, hops, extend msg.toRadioMsg a 0xffff⟩ ∧
      ∀ m : PoMsg, m.Carries (extend msg.toRadioMsg a 0xffff) →
        rx.msgArrived a hops' m = some (some ⟨a, hops', m⟩) ∧ m.len.toNat = msg.len.toNat + 4 ∧
          m.data[0]? = msg.data[0]?.map (· + 3) := by
  refine ⟨sendMsg_extend hknows hmax (Or.inr rfl), fun m hm => ⟨msgArrived_of_ne ha hb, ?_, ?_⟩⟩
  · exact (hm.extended hmax).len
  · rw [(hm.extended hmax).body 0 hpos, if_pos rfl]

/-- What a transparent message to all would have to be. -/
theorem not_transparent_of_ne {a : AddrType} (hknows : tx.Knows network a)
    (ha : a.toNat ≠ PO_COMM_GATEWAY_ADDR) (hb : rx.myAddr.toNat ≠ PO_COMM_GATEWAY_ADDR)
    (hlen : 1 ≤ msg.len.toNat ∧ msg.len.toNat ≤ 51) : ¬ Transparent tx network a 0xffff rx msg := by
  intro h
  obtain ⟨sub, hsub, -, harrive⟩ := h 0 0
  obtain ⟨hsend, hpeer⟩ := peer_arrival hknows ha hb hlen.1 hlen.2 0 0
  rw [hsend] at hsub
  cases hsub
  have hfit : (extend msg.toRadioMsg a 0xffff).len.toNat ≤ MAX_RADIO_MSG_DATA := by
    obtain ⟨hext, -⟩ := getElem?_extend (r := msg.toRadioMsg) hlen.2 a 0xffff
    have hrlen : msg.toRadioMsg.len.toNat = msg.len.toNat := rfl
    rw [hext, hrlen, MAX_RADIO_MSG_DATA]
    omega
  obtain ⟨m', hm', hsame, -⟩ := harrive _ (PoRadioMsg.carries_toPoMsg hfit)
  obtain ⟨harrival, hlonger, -⟩ := hpeer _ (PoRadioMsg.carries_toPoMsg hfit)
  rw [harrival] at hm'
  cases hm'
  rw [hsame] at hlonger
  omega

/-- **No message to all is transparent between two nodes** other than the
gateway. -/
theorem peer_not_transparent {a b : AddrType} (ha : a.toNat ≠ PO_COMM_GATEWAY_ADDR)
    (hb : b.toNat ≠ PO_COMM_GATEWAY_ADDR) (hlen : 1 ≤ msg.len.toNat ∧ msg.len.toNat ≤ 51)
    (hknows : tx.Knows network a) (hrx : rx.myAddr = b) :
    ¬ Transparent tx network a 0xffff rx msg := by
  subst hrx
  exact not_transparent_of_ne hknows ha hb hlen

/-- A datagram of three bytes. -/
def threeBytes : PoMsg where
  len := 3
  data := [0, 7, 9] ++ List.replicate 181 0
  length_data := by
    rw [List.length_append, List.length_replicate]
    rfl

/-- It comes to the gateway from the node `0x1234`, which sends it to all. -/
theorem gateway_transparent_three :
    Transparent ⟨0x1234⟩ none 0x1234 0xffff ⟨0⟩ threeBytes ∧
      ∀ hops sub, (VirtualFilter.sendMsg ⟨0x1234⟩ none 0xffff hops threeBytes).2 = .inr sub →
        sub.msg.len.toNat ≤ PO_HW_COMM_MAX_PAYLOAD_LEN ∧ sub.msg.len.toNat ≤ MAX_RADIO_MSG_DATA :=
  gateway_transparent (a := 0x1234) (by decide) (by decide) (show threeBytes.data[0]? = some 0 from rfl)
    (by decide) (by decide) (by decide)

/-- It does not come to the node `0x0002`. -/
theorem peer_not_transparent_three : ¬ Transparent ⟨0x1234⟩ none 0x1234 0xffff ⟨0x0002⟩ threeBytes :=
  peer_not_transparent (a := 0x1234) (b := 0x0002) (by decide) (by decide) (by decide) (by decide) (by decide)

/-- What comes there is a message of type 3 and 7 bytes. -/
theorem broadcast_changed :
    ¬ Transparent ⟨1⟩ none 1 0xffff ⟨2⟩ threeBytes ∧
      ∀ m : PoMsg, m.Carries (extend threeBytes.toRadioMsg 1 0xffff) →
        VirtualFilter.msgArrived ⟨2⟩ 1 0 m = some (some ⟨1, 0, m⟩) ∧ m.len.toNat = 7 ∧ m.data[0]? = some 3 := by
  refine ⟨not_transparent_of_ne (by decide) (by decide) (by decide) (by decide), fun m hm => ?_⟩
  have hext : Extended threeBytes 1 0xffff m := hm.extended (by decide)
  refine ⟨msgArrived_of_ne (by decide) (by decide), hext.len, ?_⟩
  rw [hext.body 0 (by decide)]
  rfl

end Pobicos.Middleware
