import Pobicos.Client.EventHandlerThread
import Pobicos.Client.ReadTask

/-!
# Pobicos.Client.ReadLoop

The loop of `PoConnMgrReadTask.run`, over the turns of `ReadTask`.

On a stream of whole frames the loop does to every frame it takes what `react`
says, whatever the segmentation (`run_eq_react_take`, `run_eq_react`).  A turn
reallocates the payload only for a frame that has one; `delivers_iff` says
which streams the thread survives and delivers nevertheless.
-/

namespace Pobicos.Client

open Nio Octets Framing NetworkMsg Serialization

namespace ReadTask

/-- The loop of `run`: the effects of its turns.  It ends with the first turn
that does not end normally, and at `cancel()`, which the thread calls on
itself. -/
def run (t : ReadTask) (c : Channel) : List (List ReadEvt) → List Effect
  | [] => []
  | es :: turns =>
      match t.turn c es with
      | (.ret, u) => u.effects ++ if .fail ∈ u.effects then [] else run u.task u.chan turns
      | (_, u) => u.effects

/-- What the thread does to frames it takes one after the other; a reaction
that throws ends it. -/
def react (t : ReadTask) : List Frame → List Effect
  | [] => []
  | f :: fs =>
      match (t.took f).handle f.body.length with
      | .error _ => []
      | .ok effects => effects ++ if .fail ∈ effects then [] else react (t.took f).clear fs

variable {t : ReadTask} {c : Channel}

/-- The rest of a run once a turn has taken the frame `f`. -/
theorem run_of_finish {f : Frame} {rest : List Byte} {es : List ReadEvt}
    (h : t.turn c es = finish (t.took f) f.body.length { c with inp := rest })
    (turns : List (List ReadEvt)) :
    run t c (es :: turns) =
      match (t.took f).handle f.body.length with
      | .error _ => []
      | .ok effects =>
          effects ++ if .fail ∈ effects then [] else run (t.took f).clear { c with inp := rest } turns := by
  rw [run, h, finish]
  cases (t.took f).handle f.body.length <;> rfl

/-- **Any segmentation**: a run over a stream of frames has reacted to some
first ones of them. -/
theorem run_eq_react_take {fs : List Frame} (ht : Ready t) (hinp : c.inp = encode fs)
    (turns : List (List ReadEvt)) : ∃ k, run t c turns = react t (fs.take k) := by
  induction turns generalizing t c fs with
  | nil => exact ⟨0, by rw [List.take_zero, run, react]⟩
  | cons es turns ih =>
      obtain hnone | ⟨f, rest, hcut, htook⟩ | ⟨u, hthrow, heff⟩ | ⟨u, hspin, heff⟩ :=
        turn_cases ht c es
      · obtain ⟨k, hk⟩ := ih ht hinp
        exact ⟨k, by simp [run, hnone, hk]⟩
      · obtain ⟨hs, rfl, rfl⟩ : ∃ hs, fs = f :: hs ∧ rest = encode hs := by
          rw [hinp] at hcut
          have hhead : encode [f] ++ rest = encode fs := by rw [encode_singleton, hcut]
          exact exists_of_encode_append hhead
        obtain ⟨k, hk⟩ := ih (t := (t.took f).clear) (c := { c with inp := encode hs })
          (Ready.took t f) rfl
        refine ⟨k + 1, ?_⟩
        rw [run_of_finish htook, List.take_succ_cons, react]
        cases (t.took f).handle f.body.length with
        | error x => rfl
        | ok effects => simp only [hk]
      · exact ⟨0, by simp [run, hthrow, heff, react]⟩
      · exact ⟨0, by simp [run, hspin, heff, react]⟩

/-- **The whole stream**: a run with a turn for every frame reacts to all of
them. -/
theorem run_eq_react {fs : List Frame} (ht : Ready t) (ho : c.isOpen = true)
    (hinp : c.inp = encode fs) {turns : List (List ReadEvt)} (hfeeds : ∀ es ∈ turns, Feeds es)
    (hlen : fs.length ≤ turns.length) : run t c turns = react t fs := by
  induction fs generalizing t c turns with
  | nil =>
      obtain ⟨k, hk⟩ := run_eq_react_take ht hinp turns
      rw [hk, List.take_nil]
  | cons f fs ih =>
      cases turns with
      | nil => simp at hlen
      | cons es turns =>
          obtain ⟨hp, hcalls⟩ := hfeeds es List.mem_cons_self
          have hbytes := f.length_bytes_le
          have htook := turn_frame ht ho (show c.inp = f.bytes ++ encode fs from hinp) hp (by omega)
          rw [run_of_finish htook, react]
          cases (t.took f).handle f.body.length with
          | error x => rfl
          | ok effects =>
              have hrest := ih (t := (t.took f).clear) (c := { c with inp := encode fs })
                (Ready.took t f) ho rfl (fun es hes => hfeeds es (List.mem_cons_of_mem _ hes))
                (by simpa using hlen)
              simp only [hrest]

/-! ## The reaction to one frame -/

/-- The payload at hand once `f` has been read: an empty frame leaves the last
one. -/
def payloadAt (held : List Byte) (f : Frame) : List Byte := if f.body = [] then held else f.body

/-- `held` is what is in the payload buffer, if there is one. -/
def Holds (t : ReadTask) (held : List Byte) : Prop :=
  if held = [] then t.payload = none else ∃ b, t.payload = some b ∧ b.array = held

variable {held : List Byte} {f : Frame}

theorem Holds.new : Holds .new [] := rfl

theorem Holds.took (h : Holds t held) (f : Frame) : Holds (t.took f) (payloadAt held f) := by
  by_cases hbody : f.body = []
  · simpa [Holds, ReadTask.took, payloadAt, hbody] using h
  · simp [Holds, ReadTask.took, payloadAt, hbody]

theorem Holds.clear (h : Holds t held) : Holds t.clear held := by
  by_cases hheld : held = []
  · simp only [Holds, hheld, if_true] at h ⊢
    rw [ReadTask.clear, h]
    rfl
  · simp only [Holds, hheld, if_false] at h ⊢
    obtain ⟨b, hb, harray⟩ := h
    refine ⟨b.rewind, ?_, harray⟩
    rw [ReadTask.clear, hb]
    rfl

/-- `handle` once `f` has been read. -/
theorem handle_took (t : ReadTask) (f : Frame) :
    (t.took f).handle f.body.length =
      if f.tag = REG_REPLY_WELCOME then do
        let payload ← deref (t.took f).payload
        let addr ← arrayGetRange payload.array 0 2
        let seed ← arrayGetRange payload.array 2 4
        let a ← byteArrayToChar addr
        let s ← byteArrayToInt seed
        .ok [.welcome a s]
      else if f.tag = REG_REPLY_FAIL then .ok [.fail]
      else if f.tag = REG_REPLY_PONG then .ok [.pong]
      else if f.tag = POBICOS_MSG then do
        let payload ← deref (t.took f).payload
        .ok [.packetRx ⟨f.tag, f.lengthByte, payload.array⟩]
      else .ok [] := rfl

/-- A message is handed on with the payload at hand. -/
theorem handle_message (h : Holds (t.took f) (payloadAt held f)) (htag : f.tag = POBICOS_MSG)
    (hne : payloadAt held f ≠ []) :
    (t.took f).handle f.body.length = .ok [.packetRx ⟨f.tag, f.lengthByte, payloadAt held f⟩] := by
  simp only [Holds, hne, if_false] at h
  obtain ⟨b, hb, harray⟩ := h
  rw [handle_took, hb, ← harray, htag]
  rfl

/-- Without one the thread ends. -/
theorem handle_message_null (h : Holds (t.took f) (payloadAt held f)) (htag : f.tag = POBICOS_MSG)
    (hnil : payloadAt held f = []) : ∃ x, (t.took f).handle f.body.length = .error x := by
  simp only [Holds, hnil, if_true] at h
  exact ⟨.nullPointer, by rw [handle_took, h, htag]; rfl⟩

/-- A WELCOME is decoded from the first six bytes of the payload buffer. -/
theorem handle_welcome_buffer {b : ByteBuffer} (hb : (t.took f).payload = some b) (htag : f.tag = REG_REPLY_WELCOME)
    (hlen : 6 ≤ b.array.length) :
    ∃ a s, byteArrayToChar (b.array.take 2) = .ok a ∧ byteArrayToInt ((b.array.drop 2).take 4) = .ok s ∧
      (t.took f).handle f.body.length = .ok [.welcome a s] := by
  have haddr : arrayGetRange b.array 0 2 = .ok (b.array.take 2) := by
    rw [arrayGetRange_of_le (by omega), List.drop_zero]
  have hseed : arrayGetRange b.array 2 4 = .ok ((b.array.drop 2).take 4) := arrayGetRange_of_le (by omega)
  obtain ⟨a, ha⟩ : ∃ a, byteArrayToChar (b.array.take 2) = .ok a := by
    obtain ⟨b0, b1, hpair⟩ := List.length_eq_two.mp (List.length_take_of_le (l := b.array) (i := 2) (by omega))
    exact ⟨_, by rw [hpair, byteArrayToChar_pair]⟩
  obtain ⟨s, hs⟩ : ∃ s, byteArrayToInt ((b.array.drop 2).take 4) = .ok s := by
    match hquad : (b.array.drop 2).take 4, List.length_take_of_le
      (l := b.array.drop 2) (i := 4) (by rw [List.length_drop]; omega) with
    | [b0, b1, b2, b3], _ => exact ⟨_, byteArrayToInt_quad b0 b1 b2 b3⟩
  refine ⟨a, s, ha, hs, ?_⟩
  rw [handle_took, hb, if_pos htag]
  simp only [deref_some, haddr, hseed, ha, hs, bind, Except.bind]

/-- From a shorter one it throws. -/
theorem handle_welcome_buffer_short {b : ByteBuffer} (hb : (t.took f).payload = some b)
    (htag : f.tag = REG_REPLY_WELCOME) (hlen : b.array.length < 6) :
    (t.took f).handle f.body.length = .error .indexOutOfBounds := by
  rw [handle_took, hb, if_pos htag]
  by_cases hshort : b.array.length < 2
  · have haddr := arrayGetRange_of_lt (a := b.array) (i := 0) (n := 2) (by omega) (by omega)
    simp only [deref_some, haddr, bind, Except.bind]
  · have haddr := arrayGetRange_of_le (a := b.array) (i := 0) (n := 2) (by omega)
    have hseed := arrayGetRange_of_lt (a := b.array) (i := 2) (n := 4) (by omega) (by omega)
    simp only [deref_some, haddr, hseed, bind, Except.bind]

/-- A WELCOME is decoded from the first six bytes of the payload at hand. -/
theorem handle_welcome (h : Holds (t.took f) (payloadAt held f)) (htag : f.tag = REG_REPLY_WELCOME)
    (hlen : 6 ≤ (payloadAt held f).length) :
    ∃ a s, byteArrayToChar ((payloadAt held f).take 2) = .ok a ∧
      byteArrayToInt (((payloadAt held f).drop 2).take 4) = .ok s ∧
      (t.took f).handle f.body.length = .ok [.welcome a s] := by
  have hne : payloadAt held f ≠ [] := by
    intro hnil
    simp [hnil] at hlen
  simp only [Holds, hne, if_false] at h
  obtain ⟨b, hb, harray⟩ := h
  rw [← harray] at hlen ⊢
  exact handle_welcome_buffer hb htag hlen

/-- From a shorter payload it throws. -/
theorem handle_welcome_short (h : Holds (t.took f) (payloadAt held f))
    (htag : f.tag = REG_REPLY_WELCOME) (hlen : (payloadAt held f).length < 6) :
    ∃ x, (t.took f).handle f.body.length = .error x := by
  by_cases hnil : payloadAt held f = []
  · simp only [Holds, hnil, if_true] at h
    exact ⟨.nullPointer, by rw [handle_took, h, htag]; rfl⟩
  · simp only [Holds, hnil, if_false] at h
    obtain ⟨b, hb, harray⟩ := h
    rw [← harray] at hlen
    exact ⟨_, handle_welcome_buffer_short hb htag hlen⟩

/-- Any other frame but a FAIL does not reach the queue, nor end the thread. -/
theorem handle_other (t : ReadTask) (hmessage : f.tag ≠ POBICOS_MSG)
    (hwelcome : f.tag ≠ REG_REPLY_WELCOME) (hfail : f.tag ≠ REG_REPLY_FAIL) :
    (t.took f).handle f.body.length = .ok [] ∨ (t.took f).handle f.body.length = .ok [.pong] := by
  rw [handle_took, if_neg hwelcome, if_neg hfail, if_neg hmessage]
  by_cases hpong : f.tag = REG_REPLY_PONG
  · exact Or.inr (if_pos hpong)
  · exact Or.inl (if_neg hpong)

/-! ## What reaches the queue -/

/-- The messages the effects put into the event queue. -/
def packets (effects : List Effect) : List NetworkMsg :=
  effects.filterMap fun
    | .packetRx msg => some msg
    | _ => none

/-- The frames the thread receives: at a REG_REPLY_FAIL it stops itself. -/
def received (fs : List Frame) : List Frame := fs.takeWhile (·.tag ≠ REG_REPLY_FAIL)

/-- What should be queued: one message for each POBICOS_MSG, with its own
payload. -/
def messages (fs : List Frame) : List NetworkMsg :=
  ((received fs).filter (·.tag = POBICOS_MSG)).map rxPacket

/-- Every POBICOS_MSG received has a payload, and when a WELCOME is received
with less than six bytes at hand there is none behind it. -/
structure Deliverable (held : List Byte) (fs : List Frame) : Prop where
  nonempty : ∀ f ∈ received fs, f.tag = POBICOS_MSG → f.body ≠ []
  welcomed : ∀ pre f post, received fs = pre ++ f :: post → f.tag = REG_REPLY_WELCOME →
    ((pre ++ [f]).foldl payloadAt held).length < 6 → ∀ g ∈ post, g.tag ≠ POBICOS_MSG

theorem received_cons_of_ne (hne : f.tag ≠ REG_REPLY_FAIL) (fs : List Frame) :
    received (f :: fs) = f :: received fs := List.takeWhile_cons_of_pos (by simpa using hne)

theorem received_cons_fail (hfail : f.tag = REG_REPLY_FAIL) (fs : List Frame) :
    received (f :: fs) = [] := List.takeWhile_cons_of_neg (by simpa using hfail)

/-- A message in front is queued first. -/
theorem messages_cons_message (htag : f.tag = POBICOS_MSG) (fs : List Frame) :
    messages (f :: fs) = rxPacket f :: messages fs := by
  have hne : f.tag ≠ REG_REPLY_FAIL := by
    rw [htag]
    decide
  rw [messages, received_cons_of_ne hne, List.filter_cons_of_pos (by simpa using htag)]
  rfl

/-- Any other frame in front of a FAIL is not queued. -/
theorem messages_cons_of_ne (hmessage : f.tag ≠ POBICOS_MSG) (hfail : f.tag ≠ REG_REPLY_FAIL)
    (fs : List Frame) : messages (f :: fs) = messages fs := by
  rw [messages, received_cons_of_ne hfail, List.filter_cons_of_neg (by simpa using hmessage)]
  rfl

theorem messages_eq_nil_iff {fs : List Frame} :
    messages fs = [] ↔ ∀ g ∈ received fs, g.tag ≠ POBICOS_MSG := by
  simp [messages, List.filter_eq_nil_iff]

theorem Deliverable.nil : Deliverable held [] :=
  ⟨fun f hf => (nomatch hf), fun pre f post h => by cases pre <;> cases h⟩

/-- There is nothing to deliver. -/
theorem Deliverable.of_messages {fs : List Frame} (h : messages fs = []) : Deliverable held fs := by
  rw [messages_eq_nil_iff] at h
  refine ⟨fun f hf htag => absurd htag (h f hf), fun pre f post hsplit _ _ g hg => h g ?_⟩
  rw [hsplit]
  exact List.mem_append_right pre (List.mem_cons_of_mem f hg)

/-- What it takes to deliver a frame and those behind it. -/
theorem deliverable_cons (hfail : f.tag ≠ REG_REPLY_FAIL) (fs : List Frame) :
    Deliverable held (f :: fs) ↔ (f.tag = POBICOS_MSG → f.body ≠ []) ∧
      (f.tag = REG_REPLY_WELCOME → (payloadAt held f).length < 6 → messages fs = []) ∧
      Deliverable (payloadAt held f) fs := by
  have hreceived := received_cons_of_ne hfail fs
  constructor
  · rintro ⟨hnonempty, hwelcomed⟩
    rw [hreceived] at hnonempty hwelcomed
    refine ⟨hnonempty f List.mem_cons_self, fun htag hlen => ?_, ?_, ?_⟩
    · rw [messages_eq_nil_iff]
      exact hwelcomed [] f (received fs) rfl htag hlen
    · exact fun g hg => hnonempty g (List.mem_cons_of_mem f hg)
    · intro pre g post hsplit
      exact hwelcomed (f :: pre) g post (by rw [hsplit]; rfl)
  · rintro ⟨hmessage, hwelcome, hrest⟩
    constructor
    · intro g hg
      rw [hreceived, List.mem_cons] at hg
      obtain rfl | hg := hg
      · exact hmessage
      · exact hrest.nonempty g hg
    · intro pre g post hsplit htag hlen
      rw [hreceived] at hsplit
      cases pre with
      | nil =>
          obtain ⟨rfl, rfl⟩ := List.cons.inj hsplit
          exact messages_eq_nil_iff.mp (hwelcome htag hlen)
      | cons p pre =>
          obtain ⟨rfl, htail⟩ := List.cons.inj hsplit
          exact hrest.welcomed pre g post htail htag hlen

theorem deliverable_fail (hfail : f.tag = REG_REPLY_FAIL) (fs : List Frame) :
    Deliverable held (f :: fs) := by
  have hreceived := received_cons_fail hfail fs
  constructor
  · intro g hg
    rw [hreceived] at hg
    cases hg
  · intro pre g post hsplit
    rw [hreceived] at hsplit
    cases pre <;> cases hsplit

/-- The reaction to a frame whose handling does not throw. -/
theorem packets_react_cons {effects : List Effect} (hok : (t.took f).handle f.body.length = .ok effects)
    (hgoes : .fail ∉ effects) (fs : List Frame) :
    packets (react t (f :: fs)) = packets effects ++ packets (react (t.took f).clear fs) := by
  simp [react, hok, hgoes, packets]

theorem packets_react_error {x : Throwable} (herr : (t.took f).handle f.body.length = .error x)
    (fs : List Frame) : packets (react t (f :: fs)) = [] := by
  simp [react, herr, packets]

/-- **What the thread queues** is what it should exactly when the stream is
deliverable; the induction carries the payload at hand. -/
theorem packets_react (ht : Holds t held) (fs : List Frame) :
    packets (react t fs) = messages fs ↔ Deliverable held fs := by
  induction fs generalizing t held with
  | nil => exact iff_of_true rfl .nil
  | cons f fs ih =>
      have htook := ht.took f
      have hrest := ih htook.clear
      by_cases hfail : f.tag = REG_REPLY_FAIL
      · have hok : (t.took f).handle f.body.length = .ok [.fail] := by
          rw [handle_took, hfail]
          rfl
        refine iff_of_true ?_ (deliverable_fail hfail fs)
        simp [react, hok, packets, messages, received_cons_fail hfail]
      rw [deliverable_cons hfail]
      by_cases hmessage : f.tag = POBICOS_MSG
      · have hwelcome : f.tag ≠ REG_REPLY_WELCOME := by
          rw [hmessage]
          decide
        rw [messages_cons_message hmessage]
        by_cases hnil : payloadAt held f = []
        · obtain ⟨x, herr⟩ := handle_message_null htook hmessage hnil
          have hempty : f.body = [] := by
            unfold payloadAt at hnil
            split at hnil <;> assumption
          rw [packets_react_error herr]
          exact iff_of_false (by simp) fun h => h.1 hmessage hempty
        · rw [packets_react_cons (handle_message htook hmessage hnil) (by simp)]
          have hown : (⟨f.tag, f.lengthByte, payloadAt held f⟩ : NetworkMsg) = rxPacket f ↔
              f.body ≠ [] := by
            simp only [rxPacket, NetworkMsg.mk.injEq, true_and]
            unfold payloadAt at hnil ⊢
            split <;> simp_all
          show _ :: packets _ = _ ↔ _
          rw [List.cons.injEq, hown, hrest]
          exact ⟨fun h => ⟨fun _ => h.1, fun htag => absurd htag hwelcome, h.2⟩,
            fun h => ⟨h.1 hmessage, h.2.2⟩⟩
      · rw [messages_cons_of_ne hmessage hfail]
        by_cases hwelcome : f.tag = REG_REPLY_WELCOME
        · by_cases hlen : 6 ≤ (payloadAt held f).length
          · obtain ⟨a, s, -, -, hok⟩ := handle_welcome htook hwelcome hlen
            rw [packets_react_cons hok (by simp)]
            show packets _ = _ ↔ _
            simp [hrest, hmessage, Nat.not_lt_of_le hlen]
          · obtain ⟨x, herr⟩ := handle_welcome_short htook hwelcome (by omega)
            rw [packets_react_error herr, eq_comm]
            refine ⟨fun h => ⟨fun htag => absurd htag hmessage, fun _ _ => h, .of_messages h⟩, ?_⟩
            exact fun h => h.2.1 hwelcome (by omega)
        · have hpackets : packets (react t (f :: fs)) = packets (react (t.took f).clear fs) := by
            obtain hok | hok := handle_other t hmessage hwelcome hfail <;>
              exact packets_react_cons hok (by simp) fs
          rw [hpackets, hrest]
          simp [hmessage, hwelcome]

/-- A stream cut after some frames delivers no other messages. -/
theorem messages_take_prefix (fs : List Frame) (k : Nat) : messages (fs.take k) <+: messages fs := by
  induction fs generalizing k with
  | nil => simp
  | cons f fs ih =>
      cases k with
      | zero => exact List.nil_prefix
      | succ k =>
          rw [List.take_succ_cons]
          by_cases hfail : f.tag = REG_REPLY_FAIL
          · simp [messages, received_cons_fail hfail]
          · by_cases hmessage : f.tag = POBICOS_MSG
            · rw [messages_cons_message hmessage, messages_cons_message hmessage]
              exact List.cons_prefix_cons.mpr ⟨rfl, ih k⟩
            · rw [messages_cons_of_ne hmessage hfail, messages_cons_of_ne hmessage hfail]
              exact ih k

theorem Deliverable.take {fs : List Frame} (h : Deliverable held fs) (k : Nat) :
    Deliverable held (fs.take k) := by
  induction fs generalizing held k with
  | nil => simpa using h
  | cons f fs ih =>
      cases k with
      | zero => exact .nil
      | succ k =>
          rw [List.take_succ_cons]
          by_cases hfail : f.tag = REG_REPLY_FAIL
          · exact deliverable_fail hfail _
          · rw [deliverable_cons hfail] at h ⊢
            obtain ⟨hmessage, hwelcome, hrest⟩ := h
            refine ⟨hmessage, fun htag hlen => ?_, ih hrest k⟩
            have hfront := messages_take_prefix fs k
            rw [hwelcome htag hlen] at hfront
            exact List.prefix_nil.mp hfront

/-! ## Delivery -/

/-- Over a stream of the frames `fs` the thread queues the message of each
POBICOS_MSG and no other, in order: never more than that, and all of it once
the stream has been read. -/
structure Delivers (fs : List Frame) : Prop where
  ordered : ∀ (c : Channel) turns, c.inp = encode fs → packets (run .new c turns) <+: messages fs
  complete : ∀ (c : Channel) turns, c.isOpen = true → c.inp = encode fs →
    (∀ es ∈ turns, Feeds es) → fs.length ≤ turns.length → packets (run .new c turns) = messages fs

/-- **Which streams are delivered**: those whose messages have a payload, and
on which no WELCOME in front of a message finds less than six bytes. -/
theorem delivers_iff (fs : List Frame) : Delivers fs ↔ Deliverable [] fs := by
  constructor
  · intro h
    have hfeeds := feeds_replicate fs.length
    have hall := h.complete ⟨true, encode fs, []⟩ _ rfl rfl hfeeds
      (Nat.le_of_eq List.length_replicate.symm)
    rw [run_eq_react .new rfl (show _ = encode fs from rfl) hfeeds (Nat.le_of_eq List.length_replicate.symm)] at hall
    exact (packets_react .new fs).mp hall
  · intro h
    constructor
    · intro c turns hinp
      obtain ⟨k, hk⟩ := run_eq_react_take .new hinp turns
      rw [hk, (packets_react .new _).mpr (h.take k)]
      exact messages_take_prefix fs k
    · intro c turns ho hinp hfeeds hlen
      rw [run_eq_react .new ho hinp hfeeds hlen]
      exact (packets_react .new fs).mpr h

/-- A message, and one without a payload. -/
def staleFrames : List Frame := [⟨POBICOS_MSG, [0, 1, 0, 2, 0], by decide⟩, .empty POBICOS_MSG]

/-- The second one is queued with the payload of the first. -/
theorem stale_payload_delivered :
    packets (run .new ⟨true, encode staleFrames, []⟩
      [List.replicate 7 (.ready 7), List.replicate 2 (.ready 2)]) =
      [⟨POBICOS_MSG, 5, [0, 1, 0, 2, 0]⟩, ⟨POBICOS_MSG, 0, [0, 1, 0, 2, 0]⟩] ∧
    messages staleFrames = [⟨POBICOS_MSG, 5, [0, 1, 0, 2, 0]⟩, ⟨POBICOS_MSG, 0, []⟩] ∧
    ¬ Delivers staleFrames := by
  have hqueued : packets (run .new ⟨true, encode staleFrames, []⟩
      [List.replicate 7 (.ready 7), List.replicate 2 (.ready 2)]) =
      [⟨POBICOS_MSG, 5, [0, 1, 0, 2, 0]⟩, ⟨POBICOS_MSG, 0, [0, 1, 0, 2, 0]⟩] := by decide
  have hshould : messages staleFrames =
      [⟨POBICOS_MSG, 5, [0, 1, 0, 2, 0]⟩, ⟨POBICOS_MSG, 0, []⟩] := by decide
  refine ⟨hqueued, hshould, fun h => ?_⟩
  have hfront := h.ordered ⟨true, encode staleFrames, []⟩
    [List.replicate 7 (.ready 7), List.replicate 2 (.ready 2)] rfl
  rw [hqueued, hshould] at hfront
  exact absurd (hfront.eq_of_length rfl) (by decide)

end ReadTask

end Pobicos.Client
