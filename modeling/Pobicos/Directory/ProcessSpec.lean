import Pobicos.Directory.ReadSpec

/-!
# Pobicos.Directory.ProcessSpec

What `RequestHandler.process` does with the frame `read` has taken.

A `REGISTRY_REQ` long enough for the fields it is read for is answered by
`answer`, the decision `process` makes once the fields are decoded; a
`POBICOS_MSG` long enough for a location trailer is set up for forwarding
(`forwarding`); a frame of any other type is left alone (`settle`).  A frame
too short for its type (`Short`) makes `process` throw, and no other frame does
(`process_short`, `process_holding`).
-/

namespace Pobicos.Directory.RequestHandler

open Nio Octets Framing NetworkMsg Serialization

/-! ## Registration requests -/

/-- The bytes of a `REGISTRY_REQ` that are read for a client whose socket is
registered, and for one whose socket is not. -/
def REQ_LEN_KNOWN : Nat := LON_OFFSET + 8
def REQ_LEN_NEW : Nat := ADDR_OFFSET + 6

def reqLat (body : List Byte) : JDouble := ofBE 64 ((body.drop LAT_OFFSET).take 8)
def reqLon (body : List Byte) : JDouble := ofBE 64 ((body.drop LON_OFFSET).take 8)
def reqAddr (body : List Byte) : JChar := ofBE 16 ((body.drop ADDR_OFFSET).take 2)
def reqSeed (body : List Byte) : JInt := ofBE 32 ((body.drop (ADDR_OFFSET + 2)).take 4)

/-- The reply frames. -/
def failReply : Frame := .empty REG_REPLY_FAIL
def pongReply : Frame := .empty REG_REPLY_PONG
def welcomeReply (addr : JChar) (seed : JInt) : Frame :=
  ⟨REG_REPLY_WELCOME, toBE 2 addr ++ toBE 4 seed, by simp⟩

/-- The registration of `node` is older than the threshold at time `now`. -/
def expired (now : JLong) (node : NodeInfo) : Bool := TIME_THRESHOLD_MS.slt (now - node.lastSeen)

/-- The decision on a decoded `REGISTRY_REQ` received on socket `s`: the
registry afterwards and the reply. -/
def answer (clock : Nat → JLong) (r : Registry) (s : SocketId) (body : List Byte) : Registry × Frame :=
  match r.isRegistedSock s with
  | some i => (r.modify i fun n => n.refresh (reqLat body) (reqLon body) (clock 0), pongReply)
  | none =>
      if reqSeed body = 0 ∧ reqAddr body = 0 then
        let (n, r') := NodeInfo.new r s (reqLat body) (reqLon body) (clock 0) (clock 1)
        (r'.add n, welcomeReply n.poNodeAddr n.seed)
      else
        match r.isRegistered (reqAddr body) (reqSeed body) with
        | none => (r, failReply)
        | some i =>
            if expired (clock 0) (r.reg.get i) then (r.remove (r.reg.get i).sock, failReply)
            else
              (r.modify i fun n => n.refresh (reqLat body) (reqLon body) (clock 1), pongReply)

theorem regReply_eq (flag len : Byte) (body : List Byte) :
    regReply flag len body = .ok (.wrap (flag :: len :: body)) := by
  have hput : (ByteBuffer.allocate (HEADER_LEN + body.length)).putAll [[flag], [len], body] =
      .ok (.full (flag :: len :: body)) := by
    rw [ByteBuffer.putAll_allocate (by simp [HEADER_LEN]; omega)]
    simp
  have hreg : regReply flag len body =
      (ByteBuffer.allocate (HEADER_LEN + body.length)).putAll [[flag], [len], body] >>=
        fun out => .ok out.rewind := by
    simp only [ByteBuffer.putAll_cons, bind_assoc]
    rfl
  rw [hreg, hput]
  rfl

/-- The decoders on the fields of a request. -/
private theorem byteArrayToChar_drop {body : List Byte} {k : Nat} (h : k + 2 ≤ body.length) :
    byteArrayToChar ((body.drop k).take 2) = .ok (ofBE 16 ((body.drop k).take 2)) := by
  have hlen : ((body.drop k).take 2).length = 2 := by
    rw [List.length_take, List.length_drop]
    omega
  obtain ⟨hi, lo, hpair⟩ := List.length_eq_two.mp hlen
  rw [hpair, byteArrayToChar_pair, ofBE_pair]

private theorem byteArrayToInt_drop {body : List Byte} {k : Nat} (h : k + 4 ≤ body.length) :
    byteArrayToInt ((body.drop k).take 4) = .ok (ofBE 32 ((body.drop k).take 4)) := by
  have hlen : ((body.drop k).take 4).length = 4 := by
    rw [List.length_take, List.length_drop]
    omega
  match hq : (body.drop k).take 4, hlen with
  | [b0, b1, b2, b3], _ => rw [byteArrayToInt_quad]

variable {clock : Nat → JLong} {r : Registry} {h : RequestHandler} {body : List Byte}

/-- The fields that every request has. -/
theorem location_reads (hlen : REQ_LEN_KNOWN ≤ body.length) :
    (arrayGetRange body LAT_OFFSET 8 = .ok ((body.drop LAT_OFFSET).take 8) ∧
      arrayGetRange body LON_OFFSET 8 = .ok ((body.drop LON_OFFSET).take 8)) ∧
    (ByteBuffer.full body).getDouble (LAT_OFFSET : Nat) = .ok (reqLat body) ∧
      (ByteBuffer.full body).getDouble (LON_OFFSET : Nat) = .ok (reqLon body) := by
  simp only [REQ_LEN_KNOWN, LON_OFFSET] at hlen
  refine ⟨⟨arrayGetRange_of_le ?_, arrayGetRange_of_le ?_⟩, ByteBuffer.getBE_of_le ?_, ByteBuffer.getBE_of_le ?_⟩
  · simp only [LAT_OFFSET]
    omega
  · simp only [LON_OFFSET]
    omega
  · simp only [ByteBuffer.array_full, LAT_OFFSET]
    omega
  · simp only [ByteBuffer.array_full, LON_OFFSET]
    omega

/-- **A long enough request is answered.** -/
theorem processRegistryReq_eq (hp : h.payload = some (.full body))
    (hlen : REQ_LEN_KNOWN ≤ body.length)
    (hnew : r.isRegistedSock h.sock = none → REQ_LEN_NEW ≤ body.length) :
    processRegistryReq clock r h =
      .ok ((answer clock r h.sock body).1,
        (h.setOp .sendRegMsg).setOutMsg (.wrap (answer clock r h.sock body).2.bytes)) := by
  obtain ⟨⟨hlat, hlon⟩, hglat, hglon⟩ := location_reads hlen
  rw [processRegistryReq]
  simp only [setOp_payload, setOp_sock, hp, deref_some, bind, Except.bind, ByteBuffer.array_full,
    hlat, hlon, hglat, hglon, answer]
  cases hreg : r.isRegistedSock h.sock with
  | some i => simp only [regReply_eq]; rfl
  | none =>
      have hlen' := hnew hreg
      simp only [REQ_LEN_NEW, ADDR_OFFSET] at hlen'
      have had : arrayGetRange body ADDR_OFFSET 2 = .ok ((body.drop ADDR_OFFSET).take 2) :=
        arrayGetRange_of_le (by simp only [ADDR_OFFSET]; omega)
      have hsd : arrayGetRange body (ADDR_OFFSET + 2) 4 =
          .ok ((body.drop (ADDR_OFFSET + 2)).take 4) :=
        arrayGetRange_of_le (by simp only [ADDR_OFFSET]; omega)
      have haddr : byteArrayToChar ((body.drop ADDR_OFFSET).take 2) = .ok (reqAddr body) :=
        byteArrayToChar_drop (by simp only [ADDR_OFFSET]; omega)
      have hseed : byteArrayToInt ((body.drop (ADDR_OFFSET + 2)).take 4) = .ok (reqSeed body) :=
        byteArrayToInt_drop (by simp only [ADDR_OFFSET]; omega)
      simp only [had, hsd, haddr, hseed, regReply_eq]
      by_cases hfirst : reqSeed body = 0 ∧ reqAddr body = 0
      · rw [if_pos hfirst, if_pos hfirst]
        rfl
      · rw [if_neg hfirst, if_neg hfirst]
        cases hid : r.isRegistered (reqAddr body) (reqSeed body) with
        | none => rfl
        | some i =>
            cases he : TIME_THRESHOLD_MS.slt (clock 0 - (r.reg.get i).lastSeen) with
            | true =>
                simp only [expired, he, if_true]
                rfl
            | false =>
                simp only [expired, he, Bool.false_eq_true, if_false]
                rfl

/-- The request is a first-time registration of the socket. -/
def FirstTime (r : Registry) (s : SocketId) (body : List Byte) : Prop :=
  r.isRegistedSock s = none ∧ reqSeed body = 0 ∧ reqAddr body = 0

instance {s : SocketId} : Decidable (FirstTime r s body) := by
  unfold FirstTime
  infer_instance

/-- The seed a newcomer is given. -/
def newSeed (clock : Nat → JLong) : JInt := Random.nextInt (Random.init (clock 1))

/-- A first-time registration is welcomed with a new record. -/
theorem answer_firstTime {s : SocketId} (clock : Nat → JLong) (hf : FirstTime r s body) :
    answer clock r s body =
      (⟨r.reg ++ [⟨r.getAddr.1, reqLat body, reqLon body, newSeed clock, s, clock 0⟩], r.addr + 1⟩,
        welcomeReply r.getAddr.1 (newSeed clock)) := by
  obtain ⟨hnone, hzero⟩ := hf
  rw [answer, hnone]
  simp only [hzero, and_self, if_true]
  rfl

/-- A welcome carries an address and a seed, any other reply nothing. -/
theorem length_reply (clock : Nat → JLong) (r : Registry) (s : SocketId) (body : List Byte) :
    (answer clock r s body).2.bytes.length = if FirstTime r s body then 8 else 2 := by
  by_cases hf : FirstTime r s body
  · rw [if_pos hf, answer_firstTime clock hf, Frame.length_bytes, welcomeReply]
    simp
  · rw [if_neg hf, answer]
    cases hreg : r.isRegistedSock s with
    | some i => rfl
    | none =>
        have hne : ¬ (reqSeed body = 0 ∧ reqAddr body = 0) := fun h => hf ⟨hreg, h⟩
        simp only [if_neg hne]
        cases r.isRegistered (reqAddr body) (reqSeed body) with
        | none => rfl
        | some i =>
            simp only
            split <;> rfl

/-- A request too short for its longitude is never answered. -/
theorem processRegistryReq_short (hp : h.payload = some (.full body))
    (hlen : body.length < REQ_LEN_KNOWN) :
    processRegistryReq clock r h = .error .indexOutOfBounds := by
  simp only [REQ_LEN_KNOWN, LON_OFFSET] at hlen
  rw [processRegistryReq]
  simp only [setOp_payload, hp, deref_some, bind, Except.bind, ByteBuffer.array_full]
  by_cases h1 : LAT_OFFSET + 8 ≤ body.length
  · have hlat : arrayGetRange body LAT_OFFSET 8 = .ok ((body.drop LAT_OFFSET).take 8) :=
      arrayGetRange_of_le h1
    have hlon : arrayGetRange body LON_OFFSET 8 = .error .indexOutOfBounds :=
      arrayGetRange_of_lt (by simp only [LAT_OFFSET, LON_OFFSET] at *; omega)
        (by simp only [LON_OFFSET]; omega)
    simp only [hlat, hlon]
  · have hlat : arrayGetRange body LAT_OFFSET 8 = .error .indexOutOfBounds := by
      by_cases h0 : LAT_OFFSET ≤ body.length
      · exact arrayGetRange_of_lt h0 (by omega)
      · rw [arrayGetRange, arrayGet_of_le (by omega)]
        rfl
    simp only [hlat]

/-- Nor is a request of an unregistered socket too short for its seed. -/
theorem processRegistryReq_short_new (hp : h.payload = some (.full body))
    (hreg : r.isRegistedSock h.sock = none) (hlen : body.length < REQ_LEN_NEW) :
    processRegistryReq clock r h = .error .indexOutOfBounds := by
  by_cases hk : body.length < REQ_LEN_KNOWN
  · exact processRegistryReq_short hp hk
  · obtain ⟨⟨hlat, hlon⟩, hglat, hglon⟩ := location_reads (Nat.le_of_not_lt hk)
    simp only [REQ_LEN_NEW, REQ_LEN_KNOWN, LON_OFFSET, ADDR_OFFSET] at hlen hk
    rw [processRegistryReq]
    simp only [setOp_payload, setOp_sock, hp, deref_some, bind, Except.bind, ByteBuffer.array_full,
      hlat, hlon, hglat, hglon, hreg]
    by_cases h2 : ADDR_OFFSET + 2 ≤ body.length
    · have had : arrayGetRange body ADDR_OFFSET 2 = .ok ((body.drop ADDR_OFFSET).take 2) :=
        arrayGetRange_of_le h2
      have hsd : arrayGetRange body (ADDR_OFFSET + 2) 4 = .error .indexOutOfBounds :=
        arrayGetRange_of_lt h2 (by simp only [ADDR_OFFSET]; omega)
      simp only [had, hsd]
    · have had : arrayGetRange body ADDR_OFFSET 2 = .error .indexOutOfBounds :=
        arrayGetRange_of_lt (by simp only [ADDR_OFFSET]; omega) (by omega)
      simp only [had]

/-! ## POBICOS messages -/

/-- Radius, latitude and longitude in the last 18 bytes of a frame. -/
def trailerOf (bs : List Byte) : JChar × JDouble × JDouble :=
  (ofBE 16 ((bs.drop (bs.length - 18)).take 2), ofBE 64 ((bs.drop (bs.length - 16)).take 8),
    ofBE 64 ((bs.drop (bs.length - 8)).take 8))

/-- A message of 16 bytes has the trailer behind its header. -/
theorem le_length_bytes {f : Frame} (h : 16 ≤ f.body.length) : 18 ≤ (ByteBuffer.wrap f.bytes).array.length := by
  rw [ByteBuffer.array_wrap, Frame.length_bytes]
  omega

theorem trailer_of_le {out : ByteBuffer} (hlen : 18 ≤ out.array.length) :
    trailer out = .ok (trailerOf out.array) := by
  have e18 : (out.capacity : Int) - 18 = ((out.array.length - 18 : Nat) : Int) := by
    rw [ByteBuffer.capacity]
    omega
  have e16 : (out.capacity : Int) - 16 = ((out.array.length - 16 : Nat) : Int) := by
    rw [ByteBuffer.capacity]
    omega
  have e8 : (out.capacity : Int) - 8 = ((out.array.length - 8 : Nat) : Int) := by
    rw [ByteBuffer.capacity]
    omega
  have hrad : out.getChar ((out.array.length - 18 : Nat) : Int) = .ok (trailerOf out.array).1 :=
    ByteBuffer.getBE_of_le (by omega)
  have hlat : out.getDouble ((out.array.length - 16 : Nat) : Int) = .ok (trailerOf out.array).2.1 :=
    ByteBuffer.getBE_of_le (by omega)
  have hlon : out.getDouble ((out.array.length - 8 : Nat) : Int) = .ok (trailerOf out.array).2.2 :=
    ByteBuffer.getBE_of_le (by omega)
  simp only [trailer, e18, e16, e8, hrad, hlat, hlon, bind, Except.bind]

theorem trailer_of_lt {out : ByteBuffer} (hlen : out.array.length < 18) :
    trailer out = .error .indexOutOfBounds := by
  have hrad : out.getChar ((out.capacity : Int) - 18) = .error .indexOutOfBounds :=
    ByteBuffer.getBE_of_neg (by rw [ByteBuffer.capacity]; omega)
  simp only [trailer, hrad, bind, Except.bind]

theorem byteArrayToAscii_of_lt {bs : List Byte} {i j : Nat} (hij : i ≤ j) (hlen : j < bs.length) :
    byteArrayToAscii bs i j = .ok () := by
  rw [byteArrayToAscii, arrayGetRange_of_le (by omega)]
  rfl

/-- Either a slice is printed, or the access that throws is out of bounds. -/
theorem byteArrayToAscii_cases (bs : List Byte) (i j : Nat) :
    byteArrayToAscii bs i j = .ok () ∨ byteArrayToAscii bs i j = .error .indexOutOfBounds := by
  rw [byteArrayToAscii]
  by_cases h1 : i + (j + 1 - i) ≤ bs.length
  · rw [arrayGetRange_of_le h1]
    exact Or.inl rfl
  · by_cases h2 : i ≤ bs.length
    · rw [arrayGetRange_of_lt h2 (by omega)]
      exact Or.inr rfl
    · obtain hz | ⟨m, hm⟩ : j + 1 - i = 0 ∨ ∃ m, j + 1 - i = m + 1 := by
        cases j + 1 - i with
        | zero => exact Or.inl rfl
        | succ m => exact Or.inr ⟨m, rfl⟩
      · rw [hz]
        exact Or.inl rfl
      · rw [hm, arrayGetRange, arrayGet_of_le (by omega)]
        exact Or.inr rfl

/-- The handler once `process` has set up the frame `f` for forwarding. -/
def forwarding (h : RequestHandler) (f : Frame) : RequestHandler :=
  (((h.holding f).setOp .sendPoMsg).setOutMsg (.wrap f.bytes)).takeLocation (trailerOf f.bytes)

/-- Header and payload put one after the other are the frame. -/
private theorem put_frame (f : Frame) :
    ∃ out, (ByteBuffer.allocate (2 + f.body.length)).put [f.tag, f.lengthByte] = .ok out ∧
      out.put f.body = .ok (.full f.bytes) := by
  have hall : (ByteBuffer.allocate (2 + f.body.length)).putAll [[f.tag, f.lengthByte], f.body] =
      .ok (.full f.bytes) := by
    rw [ByteBuffer.putAll_allocate (by simp; omega)]
    simp [Frame.bytes]
  rw [ByteBuffer.putAll_cons] at hall
  cases hput : (ByteBuffer.allocate (2 + f.body.length)).put [f.tag, f.lengthByte] with
  | error x =>
      rw [hput] at hall
      cases hall
  | ok out =>
      rw [hput] at hall
      exact ⟨out, rfl, (out.putAll_singleton f.body).symm.trans hall⟩

variable {cfg : Config} {f : Frame}

/-- Up to the trailer, the frame has been copied and its addresses printed. -/
private theorem processPobicosMsg_trailer :
    processPobicosMsg cfg clock r (h.holding f) (.full [f.tag, f.lengthByte]) =
      (if cfg.verbose then (do byteArrayToAscii f.bytes 2 3; byteArrayToAscii f.bytes 4 5)
        else .ok ()).bind fun _ => (trailer (.wrap f.bytes)).bind fun t =>
          .ok (seen clock r h.sock,
            (((h.holding f).setOp .sendPoMsg).setOutMsg (.wrap f.bytes)).takeLocation t) := by
  obtain ⟨out, hhead, hbody⟩ := put_frame f
  have hcap : (ByteBuffer.full [f.tag, f.lengthByte]).capacity + (ByteBuffer.full f.body).capacity =
      2 + f.body.length := rfl
  have hpay : ((h.holding f).setOp .sendPoMsg).payload = some (.full f.body) := rfl
  rw [processPobicosMsg]
  simp only [hpay, deref_some, hcap, bind, Except.bind, ByteBuffer.array_full, hhead, hbody]
  cases cfg.verbose with
  | false => rfl
  | true =>
      simp only [if_true, ByteBuffer.rewind_full, ByteBuffer.array_wrap]
      cases byteArrayToAscii f.bytes 2 3 <;> rfl

/-- **A long enough message is set up for forwarding.** -/
theorem processPobicosMsg_eq (hlen : 16 ≤ f.body.length) :
    processPobicosMsg cfg clock r (h.holding f) (.full [f.tag, f.lengthByte]) =
      .ok (seen clock r h.sock, h.forwarding f) := by
  have h23 : byteArrayToAscii f.bytes 2 3 = .ok () :=
    byteArrayToAscii_of_lt (by omega) (by rw [Frame.length_bytes]; omega)
  have h45 : byteArrayToAscii f.bytes 4 5 = .ok () :=
    byteArrayToAscii_of_lt (by omega) (by rw [Frame.length_bytes]; omega)
  have htr : trailer (.wrap f.bytes) = .ok (trailerOf f.bytes) :=
    trailer_of_le (le_length_bytes hlen)
  rw [processPobicosMsg_trailer, h23, h45, htr]
  cases cfg.verbose <;> rfl

/-- A message too short for the trailer is not set up: whatever is printed of
it, an access is out of bounds. -/
theorem processPobicosMsg_short (hlen : f.body.length < 16) :
    processPobicosMsg cfg clock r (h.holding f) (.full [f.tag, f.lengthByte]) =
      .error .indexOutOfBounds := by
  have htr : trailer (.wrap f.bytes) = .error .indexOutOfBounds :=
    trailer_of_lt (by rw [ByteBuffer.array_wrap, Frame.length_bytes]; omega)
  rw [processPobicosMsg_trailer, htr]
  cases cfg.verbose with
  | false => rfl
  | true =>
      obtain h23 | h23 := byteArrayToAscii_cases f.bytes 2 3
      · obtain h45 | h45 := byteArrayToAscii_cases f.bytes 4 5
        · rw [h23, h45]
          rfl
        · rw [h23, h45]
          rfl
      · rw [h23]
        rfl

/-! ## Any frame -/

/-- The frame is too short for the fields that are read of a frame of its type
received on socket `s`. -/
def Short (r : Registry) (s : SocketId) (f : Frame) : Prop :=
  (f.tag = REGISTRY_REQ ∧ (f.body.length < REQ_LEN_KNOWN ∨
    (r.isRegistedSock s = none ∧ f.body.length < REQ_LEN_NEW))) ∨
  (f.tag = POBICOS_MSG ∧ f.body.length < 16)

instance {s : SocketId} : Decidable (Short r s f) := by
  unfold Short
  infer_instance

/-- A request with all its fields is not short for anyone. -/
theorem not_short_of_len {s : SocketId} (htag : f.tag = REGISTRY_REQ)
    (hlen : REQ_LEN_NEW ≤ f.body.length) : ¬ Short r s f := by
  rintro (⟨-, hlt | ⟨-, hlt⟩⟩ | ⟨hmsg, -⟩)
  · simp only [REQ_LEN_KNOWN, REQ_LEN_NEW, LON_OFFSET, ADDR_OFFSET] at hlt hlen
    omega
  · omega
  · rw [htag] at hmsg
    cases hmsg

/-- A message with a trailer is not short. -/
theorem not_short_of_pobicosMsg {s : SocketId} (htag : f.tag = POBICOS_MSG) (hlen : 16 ≤ f.body.length) :
    ¬ Short r s f := by
  rintro (⟨hreq, -⟩ | ⟨-, hlt⟩)
  · rw [htag] at hreq
    cases hreq
  · omega

/-- A message that is not short has room for a trailer. -/
theorem len_of_not_short {s : SocketId} (htag : f.tag = POBICOS_MSG) (hlong : ¬ Short r s f) :
    16 ≤ f.body.length := by
  by_contra hlt
  exact hlong (Or.inr ⟨htag, by omega⟩)

/-- Registry and handler once `process` is done with the frame `f`. -/
def settle (clock : Nat → JLong) (r : Registry) (h : RequestHandler) (f : Frame) :
    Registry × RequestHandler :=
  if f.tag = REGISTRY_REQ then
    ((answer clock r h.sock f.body).1,
      ((h.holding f).setOp .sendRegMsg).setOutMsg (.wrap (answer clock r h.sock f.body).2.bytes))
  else if f.tag = POBICOS_MSG then (seen clock r h.sock, h.forwarding f)
  else (r, h.holding f)

/-- Nothing read, nothing processed. -/
theorem process_unread : process cfg clock r h.unread = .ok (r, h.unread) := rfl

private theorem process_eq_branch :
    process cfg clock r (h.holding f) =
      if f.tag = REGISTRY_REQ then processRegistryReq clock r (h.holding f)
      else if f.tag = POBICOS_MSG then
        processPobicosMsg cfg clock r (h.holding f) (.full [f.tag, f.lengthByte])
      else .ok (r, h.holding f) := rfl

/-- **A frame long enough for its type is processed**, whatever the handler
has left over from earlier frames. -/
theorem process_holding (cfg : Config) (clock : Nat → JLong) (hs : ¬ Short r h.sock f) :
    process cfg clock r (h.holding f) = .ok (settle clock r h f) := by
  rw [process_eq_branch, settle]
  by_cases hreq : f.tag = REGISTRY_REQ
  · have hlen : REQ_LEN_KNOWN ≤ f.body.length := by
      by_contra hlt
      exact hs (Or.inl ⟨hreq, Or.inl (by omega)⟩)
    have hnew : r.isRegistedSock h.sock = none → REQ_LEN_NEW ≤ f.body.length := by
      intro hnone
      by_contra hlt
      exact hs (Or.inl ⟨hreq, Or.inr ⟨hnone, by omega⟩⟩)
    rw [if_pos hreq, if_pos hreq]
    exact processRegistryReq_eq rfl hlen hnew
  · rw [if_neg hreq, if_neg hreq]
    by_cases hmsg : f.tag = POBICOS_MSG
    · rw [if_pos hmsg, if_pos hmsg]
      exact processPobicosMsg_eq (len_of_not_short hmsg hs)
    · rw [if_neg hmsg, if_neg hmsg]

/-- **A frame too short for its type makes `process` throw.** -/
theorem process_short (hs : Short r h.sock f) :
    process cfg clock r (h.holding f) = .error .indexOutOfBounds := by
  rw [process_eq_branch]
  obtain ⟨hreq, hlen | ⟨hnone, hlen⟩⟩ | ⟨hmsg, hlen⟩ := hs
  · rw [if_pos hreq]
    exact processRegistryReq_short rfl hlen
  · rw [if_pos hreq]
    exact processRegistryReq_short_new rfl hnone hlen
  · have hreq : f.tag ≠ REGISTRY_REQ := by
      rw [hmsg]
      decide
    rw [if_neg hreq, if_pos hmsg]
    exact processPobicosMsg_short hlen

end Pobicos.Directory.RequestHandler
