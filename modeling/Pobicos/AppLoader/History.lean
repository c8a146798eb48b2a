import Pobicos.AppLoader.Sessions

/-!
# Pobicos.AppLoader.History

What the packets say: which start and kill packets have been sent, and what the
node has answered.

The node answers every start packet with a `0x07` or a `0x08`, in their order,
and every kill packet with a `0x0A` or a `0x0B`, all on channel `0x01`.  A packet
with `0x0A` on another channel is no report of the node, though `packetReceived`
takes it for one.
-/

namespace Pobicos.AppLoader

open Nio Octets Threads

/-! ## Packets -/

/-- A start packet. -/
def IsStart (packet : List Byte) : Prop := packet.head? = some 0x01 ∧ packet[2]? = some 0x06

/-- A kill packet. -/
def IsKill (packet : List Byte) : Prop := packet.head? = some 0x01 ∧ packet[2]? = some 0x09

instance decidableIsStart (packet : List Byte) : Decidable (IsStart packet) :=
  inferInstanceAs (Decidable (packet.head? = some 0x01 ∧ packet[2]? = some 0x06))

instance decidableIsKill (packet : List Byte) : Decidable (IsKill packet) :=
  inferInstanceAs (Decidable (packet.head? = some 0x01 ∧ packet[2]? = some 0x09))

/-- What `sendAppStartPacket` sends. -/
theorem isStart_start : IsStart (packetBytes (0x01, [0x06])) := by decide

/-- A start is no kill. -/
theorem not_isKill_start : ¬ IsKill (packetBytes (0x01, [0x06])) := by decide

/-- The first packet of an upload is no request of these. -/
theorem not_isStart_startUpload : ¬ IsStart (packetBytes (0x01, [0x01])) := by decide

theorem not_isKill_startUpload : ¬ IsKill (packetBytes (0x01, [0x01])) := by decide

/-- Data goes out on channel `0x02`, whatever it is. -/
theorem head_data (data : List Byte) : (packetBytes (0x02, data)).head? ≠ some 0x01 := by simp [packetBytes]

/-- So it is no kill. -/
theorem not_isKill_data (data : List Byte) : ¬ IsKill (packetBytes (0x02, data)) := fun h => head_data data h.1

/-- Nor a start. -/
theorem not_isStart_data (data : List Byte) : ¬ IsStart (packetBytes (0x02, data)) := fun h => head_data data h.1

/-- What `sendKillPacket` sends, with any id. -/
theorem isKill_kill (id : List Byte) : IsKill (packetBytes (0x01, 0x09 :: id)) := ⟨rfl, rfl⟩

/-- A kill is no start. -/
theorem not_isStart_kill (id : List Byte) : ¬ IsStart (packetBytes (0x01, 0x09 :: id)) := by
  rintro ⟨-, hsix⟩
  exact absurd (Option.some.inj hsix) (by decide)

/-- The id that comes with a notification of a start. -/
def Notification.id? : Notification → Option (List Byte)
  | .uploadFinished => none
  | .readyForData => none
  | .uploadError => none
  | .started => none
  | .rootAgentStarted id => some id
  | .startError => none
  | .killed => none
  | .killError => none

/-- The id is the last four of five bytes. -/
theorem length_id {channel : Byte} {payload id : List Byte}
    (h : notification channel payload = some (.rootAgentStarted id)) : id.length = 4 := by
  rw [notification] at h
  split at h
  · cases h
  · split at h
    · obtain ⟨b, -, hb⟩ := Option.bind_eq_some_iff.mp h
      rw [controlNotification] at hb
      split_ifs at hb <;> cases hb
    · split at h
      · next hlen =>
          cases h
          rw [List.length_drop, hlen.2.1]
      · cases h

/-- What the node reports: it sends its notifications on channel `0x01`. -/
def report (channel : Byte) (payload : List Byte) : Option Notification :=
  if channel = 0x01 then notification channel payload else none

/-- Elsewhere only `0x0A` is read as a notification. -/
theorem notification_of_channel_ne {channel : Byte} (h : channel ≠ 0x01) (payload : List Byte) :
    notification channel payload = if payload.head? = some 0x0A then some .killed else none := by
  rw [notification, if_neg (c := channel = 0x01 ∧ payload.length = 1) fun hc => h hc.1,
    if_neg (c := channel = 0x01 ∧ payload.length = 5 ∧ payload.head? = some 0x07) fun hc => h hc.1]

/-! ## The history -/

/-- Whether the latest outcome leaves a root agent on the node; the numbers of
start and kill packets that have not been answered; and the id that has come for
the latest start packet. -/
structure History where
  hosts : Bool
  awaitingStart : Nat
  awaitingKill : Nat
  startedId : Option (List Byte)
  deriving DecidableEq, Repr

namespace History

def init : History := ⟨false, 0, 0, none⟩

/-- No request is awaiting an answer. -/
def Settled (r : History) : Prop := r.awaitingStart = 0 ∧ r.awaitingKill = 0

instance decidableSettled (r : History) : Decidable r.Settled :=
  inferInstanceAs (Decidable (r.awaitingStart = 0 ∧ r.awaitingKill = 0))

/-- What the node reports.  An id is that of the latest start packet if no start
packet is left without an answer; after a kill error the node hosts what it
did. -/
def notified (r : History) : Option Notification → History
  | none => r
  | some .uploadFinished => r
  | some .readyForData => r
  | some .uploadError => r
  | some .started => { r with hosts := true, awaitingStart := r.awaitingStart - 1 }
  | some (.rootAgentStarted id) =>
      { r with
        hosts := true
        awaitingStart := r.awaitingStart - 1
        startedId := if r.awaitingStart ≤ 1 then some id else none }
  | some .startError => { r with hosts := false, awaitingStart := r.awaitingStart - 1 }
  | some .killed => { r with hosts := false, awaitingKill := r.awaitingKill - 1 }
  | some .killError => { r with awaitingKill := r.awaitingKill - 1 }

/-- A packet that comes or is sent. -/
def next (r : History) : Event → History
  | .received channel payload => r.notified (report channel payload)
  | .sent packet =>
      if IsStart packet then { r with awaitingStart := r.awaitingStart + 1, startedId := none }
      else if IsKill packet then { r with awaitingKill := r.awaitingKill + 1 }
      else r

variable (r : History)

/-- A start packet awaits its answer, and no id has come for it. -/
theorem next_start : r.next (.sent (packetBytes (0x01, [0x06]))) =
    { r with awaitingStart := r.awaitingStart + 1, startedId := none } := rfl

/-- A kill packet awaits its answer. -/
theorem next_kill (id : List Byte) : r.next (.sent (packetBytes (0x01, 0x09 :: id))) =
    { r with awaitingKill := r.awaitingKill + 1 } := by
  rw [next, if_neg (not_isStart_kill id), if_pos (isKill_kill id)]

/-- Any other packet is no request. -/
theorem next_other {packet : List Byte} (hstart : ¬ IsStart packet) (hkill : ¬ IsKill packet) :
    r.next (.sent packet) = r := by
  rw [next, if_neg hstart, if_neg hkill]

end History

/-- What the events so far say. -/
def history (events : List Event) : History := events.foldl History.next History.init

/-- One event more. -/
theorem history_concat (es : List Event) (e : Event) : history (es ++ [e]) = (history es).next e := by
  rw [history, List.foldl_append]
  rfl

end Pobicos.AppLoader
