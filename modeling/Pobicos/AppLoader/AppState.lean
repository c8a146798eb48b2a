import Pobicos.AppLoader.History

/-!
# Pobicos.AppLoader.AppState

What the client thinks of the application, and what the node has reported.

`isAppRunning()` and `hostsRootAgent()` read two flags.  `startApp` sets the
first one and `sendKillPacket` clears both when they ask; of the answers, a start
with an id sets the second flag, a `0x0A` on any channel clears it, and the
errors are only logged.

So the flags say which request is the latest one (`StartLatest`) and whether its
id has come (`IdLatest`), in every run (`tracks_run`), and not what the node has
answered.  `always_agreed_iff` says which notifications may come when for the two
to agree whenever everything is answered.
-/

namespace Pobicos.AppLoader

open Nio Octets Threads

/-- `isAppRunning()`. -/
def PoAppPillLoader.isAppRunning (f : PoAppPillLoader) : Bool := f.APP_STATE == .RUNNING

/-! ## The latest of the packets -/

namespace Event

/-- A start packet is sent. -/
def Starts : Event → Prop
  | .received _ _ => False
  | .sent packet => IsStart packet

/-- A kill packet is sent. -/
def Kills : Event → Prop
  | .received _ _ => False
  | .sent packet => IsKill packet

/-- An id comes. -/
def Identifies : Event → Prop
  | .received channel payload => ((notification channel payload).bind Notification.id?).isSome = true
  | .sent _ => False

/-- A `0x0A` comes, on whatever channel. -/
def SeemsKilled : Event → Prop
  | .received channel payload => notification channel payload = some .killed
  | .sent _ => False

instance decidableStarts : (e : Event) → Decidable e.Starts
  | .received _ _ => inferInstanceAs (Decidable False)
  | .sent packet => inferInstanceAs (Decidable (IsStart packet))

instance decidableKills : (e : Event) → Decidable e.Kills
  | .received _ _ => inferInstanceAs (Decidable False)
  | .sent packet => inferInstanceAs (Decidable (IsKill packet))

instance decidableIdentifies : (e : Event) → Decidable e.Identifies
  | .received channel payload =>
      inferInstanceAs (Decidable (((notification channel payload).bind Notification.id?).isSome = true))
  | .sent _ => inferInstanceAs (Decidable False)

instance decidableSeemsKilled : (e : Event) → Decidable e.SeemsKilled
  | .received channel payload => inferInstanceAs (Decidable (notification channel payload = some .killed))
  | .sent _ => inferInstanceAs (Decidable False)

end Event

/-- A start packet has been sent, and no kill packet after it. -/
def StartLatest (es : List Event) : Prop := Lts.Since Event.Starts Event.Kills es

/-- An id has come, and neither has a kill packet been sent nor a `0x0A` come
after it. -/
def IdLatest (es : List Event) : Prop := Lts.Since Event.Identifies (fun e => e.Kills ∨ e.SeemsKilled) es

instance decidableStartLatest (es : List Event) : Decidable (StartLatest es) :=
  inferInstanceAs (Decidable (Lts.Since Event.Starts Event.Kills es))

instance decidableIdLatest (es : List Event) : Decidable (IdLatest es) :=
  inferInstanceAs (Decidable (Lts.Since Event.Identifies (fun e => e.Kills ∨ e.SeemsKilled) es))

section
variable {es : List Event} {channel : Byte} {payload packet : List Byte}

theorem startLatest_received : StartLatest (es ++ [.received channel payload]) ↔ StartLatest es := by
  rw [StartLatest, Lts.since_concat]
  exact (or_iff_right id).trans (and_iff_left id)

theorem startLatest_sent (hkill : ¬ IsKill packet) :
    StartLatest (es ++ [.sent packet]) ↔ IsStart packet ∨ StartLatest es := by
  rw [StartLatest, Lts.since_concat]
  exact or_congr_right (and_iff_left hkill)

theorem not_startLatest_kill (id : List Byte) : ¬ StartLatest (es ++ [.sent (packetBytes (0x01, 0x09 :: id))]) := by
  rw [StartLatest, Lts.since_concat]
  rintro (hstart | ⟨-, hkill⟩)
  · exact not_isStart_kill id hstart
  · exact hkill (isKill_kill id)

theorem idLatest_received : IdLatest (es ++ [.received channel payload]) ↔
    ((notification channel payload).bind Notification.id?).isSome = true ∨
      (IdLatest es ∧ notification channel payload ≠ some .killed) := by
  rw [IdLatest, Lts.since_concat]
  exact or_congr_right (and_congr_right fun _ => not_congr (or_iff_right id))

theorem idLatest_sent (hkill : ¬ IsKill packet) : IdLatest (es ++ [.sent packet]) ↔ IdLatest es := by
  rw [IdLatest, Lts.since_concat]
  exact (or_iff_right id).trans (and_iff_left (not_or.mpr ⟨hkill, id⟩))

theorem not_idLatest_kill (id : List Byte) : ¬ IdLatest (es ++ [.sent (packetBytes (0x01, 0x09 :: id))]) := by
  rw [IdLatest, Lts.since_concat]
  rintro (hid | ⟨-, hkill⟩)
  · exact hid
  · exact hkill (Or.inl (isKill_kill id))

end

/-! ## When a notification may come -/

/-- When no request is awaiting an answer, the latest one is a start, and its id
has come, exactly if the node hosts a root agent. -/
def Consistent (es : List Event) : Prop :=
  (history es).Settled →
    (StartLatest es ↔ (history es).hosts = true) ∧ (IdLatest es ↔ (history es).hosts = true)

/-- When a notification may come: it depends on the latest of the packets, and
on what the node has answered before only for a kill error and for a `0x0A` that
the node has not sent. -/
def Fits (es : List Event) (channel : Byte) : Option Notification → Prop
  | none => True
  | some .uploadFinished => True
  | some .readyForData => True
  | some .uploadError => True
  | some .started => StartLatest es ∧ IdLatest es
  | some (.rootAgentStarted _) => StartLatest es
  | some .startError => ¬ StartLatest es ∧ ¬ IdLatest es
  | some .killed => if channel = 0x01 then ¬ StartLatest es else (history es).hosts = false
  | some .killError =>
      if (history es).hosts then StartLatest es ∧ IdLatest es else ¬ StartLatest es ∧ ¬ IdLatest es

instance decidableFits (es : List Event) (channel : Byte) : (n : Option Notification) → Decidable (Fits es channel n)
  | none => inferInstanceAs (Decidable True)
  | some .uploadFinished => inferInstanceAs (Decidable True)
  | some .readyForData => inferInstanceAs (Decidable True)
  | some .uploadError => inferInstanceAs (Decidable True)
  | some .started => inferInstanceAs (Decidable (StartLatest es ∧ IdLatest es))
  | some (.rootAgentStarted _) => inferInstanceAs (Decidable (StartLatest es))
  | some .startError => inferInstanceAs (Decidable (¬ StartLatest es ∧ ¬ IdLatest es))
  | some .killed =>
      inferInstanceAs (Decidable (if channel = 0x01 then ¬ StartLatest es else (history es).hosts = false))
  | some .killError =>
      inferInstanceAs (Decidable
        (if (history es).hosts then StartLatest es ∧ IdLatest es else ¬ StartLatest es ∧ ¬ IdLatest es))

section
variable {es : List Event}

/-- A start packet awaits its answer. -/
theorem consistent_start (es : List Event) : Consistent (es ++ [.sent (packetBytes (0x01, [0x06]))]) := by
  rw [Consistent, history_concat, History.next_start]
  exact fun hsettled => absurd hsettled.1 (Nat.succ_ne_zero _)

/-- So does a kill packet. -/
theorem consistent_kill (es : List Event) (id : List Byte) :
    Consistent (es ++ [.sent (packetBytes (0x01, 0x09 :: id))]) := by
  rw [Consistent, history_concat, History.next_kill]
  exact fun hsettled => absurd hsettled.2 (Nat.succ_ne_zero _)

/-- Any other packet is nothing to the history and the flags. -/
theorem consistent_other {packet : List Byte} (hstart : ¬ IsStart packet) (hkill : ¬ IsKill packet) :
    Consistent (es ++ [.sent packet]) ↔ Consistent es := by
  rw [Consistent, history_concat, History.next_other _ hstart hkill, startLatest_sent hkill, or_iff_right hstart,
    idLatest_sent hkill]
  rfl

/-- **A notification** keeps the agreement exactly if it fits. -/
theorem Consistent.received (h : Consistent es) (channel : Byte) (payload : List Byte) :
    Consistent (es ++ [.received channel payload]) ↔
      ((history (es ++ [.received channel payload])).Settled → Fits es channel (notification channel payload)) := by
  rw [Consistent, startLatest_received, idLatest_received, history_concat, History.next]
  by_cases hchannel : channel = 0x01
  · rw [report, if_pos hchannel]
    cases notification channel payload with
    | none => simpa [Fits, History.notified, Consistent] using h
    | some n =>
        cases n with
        | uploadFinished => simpa [Fits, History.notified, Notification.id?, Consistent] using h
        | readyForData => simpa [Fits, History.notified, Notification.id?, Consistent] using h
        | uploadError => simpa [Fits, History.notified, Notification.id?, Consistent] using h
        | started => simp [Fits, History.notified, Notification.id?]
        | rootAgentStarted id => simp [Fits, History.notified, Notification.id?]
        | startError => simp [Fits, History.notified, Notification.id?]
        | killed => simp [Fits, History.notified, Notification.id?, hchannel]
        | killError =>
            cases hhosts : (history es).hosts with
            | false => simp [Fits, History.notified, Notification.id?, hhosts]
            | true => simp [Fits, History.notified, Notification.id?, hhosts]
  · -- the node has reported nothing, and only a `0x0A` is taken for a report
    rw [report, if_neg hchannel, notification_of_channel_ne hchannel, History.notified]
    split_ifs
    · constructor
      · intro hafter hsettled
        rw [Fits, if_neg hchannel]
        have hnone := (hafter hsettled).2
        simpa [Notification.id?] using hnone
      · intro hfits hsettled
        have hhosts := hfits hsettled
        rw [Fits, if_neg hchannel] at hhosts
        refine ⟨(h hsettled).1, ?_⟩
        simp [Notification.id?, hhosts]
    · simpa [Fits, Consistent] using h

end

/-! ## The flags -/

/-- The flags are what the packets say. -/
def Tracks (f : PoAppPillLoader) (es : List Event) : Prop :=
  (f.isAppRunning = true ↔ StartLatest es) ∧ (f.hostsRootAgent = true ↔ IdLatest es)

/-- When no request is awaiting an answer, both flags say what the node has
reported. -/
def Agreed (p : PoAppPillLoader × List Event) : Prop :=
  (history p.2).Settled →
    p.1.isAppRunning = (history p.2).hosts ∧ p.1.hostsRootAgent = (history p.2).hosts

instance decidableAgreed (p : PoAppPillLoader × List Event) : Decidable (Agreed p) :=
  inferInstanceAs (Decidable ((history p.2).Settled →
    p.1.isAppRunning = (history p.2).hosts ∧ p.1.hostsRootAgent = (history p.2).hosts))

/-- A notification after which no request is awaiting an answer comes when it
may. -/
def AnswersFit (p : PoAppPillLoader × List Event) : Act → Prop
  | .loadAndStartApp => True
  | .killRunningApp => True
  | .startButton => True
  | .killButton => True
  | .packetReceived channel payload =>
      (history (p.2 ++ [.received channel payload])).Settled → Fits p.2 channel (notification channel payload)

instance decidableAnswersFit (p : PoAppPillLoader × List Event) : (a : Act) → Decidable (AnswersFit p a)
  | .loadAndStartApp => inferInstanceAs (Decidable True)
  | .killRunningApp => inferInstanceAs (Decidable True)
  | .startButton => inferInstanceAs (Decidable True)
  | .killButton => inferInstanceAs (Decidable True)
  | .packetReceived channel payload =>
      inferInstanceAs (Decidable ((history (p.2 ++ [.received channel payload])).Settled →
        Fits p.2 channel (notification channel payload)))

section
variable {f g : PoAppPillLoader} {es : List Event}

theorem Tracks.keep (h : Tracks f es) (hstate : g.APP_STATE = f.APP_STATE)
    (hhosts : g.hostsRootAgent = f.hostsRootAgent) : Tracks g es := by
  rw [Tracks, PoAppPillLoader.isAppRunning, hstate, hhosts]
  exact h

/-- A packet that is no request. -/
theorem Tracks.other (h : Tracks f es) {packet : List Byte} (hstart : ¬ IsStart packet) (hkill : ¬ IsKill packet) :
    Tracks f (es ++ [.sent packet]) := by
  rw [Tracks, startLatest_sent hkill, or_iff_right hstart, idLatest_sent hkill]
  exact h

/-- A kill packet clears both flags. -/
theorem tracks_kill (es : List Event) (id : List Byte) (hstate : g.APP_STATE = .IDLE) (hhosts : g.hostsRootAgent = false) :
    Tracks g (es ++ [.sent (packetBytes (0x01, 0x09 :: id))]) := by
  rw [Tracks, PoAppPillLoader.isAppRunning, hstate, hhosts]
  exact ⟨iff_of_false (by decide) (not_startLatest_kill id), iff_of_false (by decide) (not_idLatest_kill id)⟩

/-- **A notification** changes the flags as it changes the latest packets. -/
theorem Tracks.handled (h : Tracks f es) {channel : Byte} {payload : List Byte} {out : List (List Byte)}
    (hn : Handled f (notification channel payload) g out) :
    Tracks g (es ++ [.received channel payload] ++ out.map .sent) := by
  have hreceived : StartLatest (es ++ [.received channel payload]) ↔ f.isAppRunning = true :=
    startLatest_received.trans h.1.symm
  have hid : IdLatest (es ++ [.received channel payload]) ↔ _ := idLatest_received
  rw [← h.2] at hid
  cases hreport : notification channel payload with
  | none =>
      rw [hreport] at hn hid
      obtain ⟨rfl, rfl⟩ := hn
      rw [List.map_nil, List.append_nil]
      exact ⟨hreceived.symm, by simp [hid]⟩
  | some n =>
      rw [hreport] at hn hid
      cases n with
      | uploadFinished =>
          obtain ⟨-, rfl, rfl⟩ := hn
          rw [List.map_singleton, Tracks, startLatest_sent not_isKill_start, idLatest_sent not_isKill_start, hid]
          exact ⟨iff_of_true rfl (Or.inl isStart_start), by simp [Notification.id?]⟩
      | readyForData =>
          obtain ⟨-, data, j, -, rfl, rfl⟩ := hn
          rw [List.map_singleton]
          refine Tracks.other ⟨hreceived.symm, ?_⟩ (not_isStart_data data) (not_isKill_data data)
          simp [hid, Notification.id?]
      | uploadError =>
          obtain ⟨rfl, rfl⟩ := hn
          rw [List.map_nil, List.append_nil]
          exact ⟨hreceived.symm, by simp [hid, Notification.id?]⟩
      | started =>
          obtain ⟨con, -, rfl, rfl⟩ := hn
          rw [List.map_nil, List.append_nil]
          refine Tracks.keep (f := f) ⟨hreceived.symm, ?_⟩ rfl rfl
          simp [hid, Notification.id?]
      | rootAgentStarted id =>
          obtain ⟨con, -, rfl, rfl⟩ := hn
          rw [List.map_nil, List.append_nil]
          exact ⟨hreceived.symm, iff_of_true rfl (hid.mpr (Or.inl rfl))⟩
      | startError =>
          obtain ⟨rfl, rfl⟩ := hn
          rw [List.map_nil, List.append_nil]
          exact ⟨hreceived.symm, by simp [hid, Notification.id?]⟩
      | killed =>
          obtain ⟨con, -, rfl, rfl⟩ := hn
          rw [List.map_nil, List.append_nil]
          refine ⟨hreceived.symm, iff_of_false Bool.false_ne_true ?_⟩
          simp [hid, Notification.id?]
      | killError =>
          obtain ⟨rfl, rfl⟩ := hn
          rw [List.map_nil, List.append_nil]
          exact ⟨hreceived.symm, by simp [hid, Notification.id?]⟩

/-- Its answer, if there is one, is a start or data. -/
theorem Consistent.handled (h : Consistent es) {channel : Byte} {payload : List Byte} {out : List (List Byte)}
    (hn : Handled f (notification channel payload) g out) :
    Consistent (es ++ [.received channel payload] ++ out.map .sent) ↔
      ((history (es ++ [.received channel payload])).Settled → Fits es channel (notification channel payload)) := by
  obtain rfl | ⟨hfinished, rfl⟩ | ⟨-, data, rfl⟩ := hn.answered
  · rw [List.map_nil, List.append_nil]
    exact h.received channel payload
  · rw [List.map_singleton, hfinished]
    exact iff_of_true (consistent_start _) fun _ => trivial
  · rw [List.map_singleton, consistent_other (not_isStart_data data) (not_isKill_data data)]
    exact h.received channel payload

end

theorem Tracks.agreed_iff {p : PoAppPillLoader × List Event} (h : Tracks p.1 p.2) : Agreed p ↔ Consistent p.2 := by
  refine forall_congr' fun _ => and_congr ?_ ?_
  · rw [← h.1]
    exact Bool.eq_iff_iff
  · rw [← h.2]
    exact Bool.eq_iff_iff

/-- **Step lemma**: the flags go on being what the packets say. -/
theorem tracks_step {p q : PoAppPillLoader × List Event} {a : Act} (h : Tracks p.1 p.2)
    (hstep : Lts.logged Session.step Session.events p a = some q) : Tracks q.1 q.2 := by
  obtain ⟨hstep, hlog⟩ := Lts.logged_eq_some.mp hstep
  rw [← hlog, Session.events, ← List.append_assoc]
  obtain ⟨channel, payload, rfl, hhandled⟩ | ⟨hreceived, g', status, hg, hcase⟩ := Session.step_cases hstep
  · exact h.handled hhandled
  · rw [hreceived, List.append_nil, hg]
    obtain ⟨rfl, hsent⟩ | ⟨-, rfl, hsent⟩ | ⟨-, rfl, hsent⟩ := hcase
    · rw [hsent, List.map_nil, List.append_nil]
      exact h.keep rfl rfl
    · rw [hsent, List.map_singleton]
      exact (h.keep rfl rfl).other not_isStart_startUpload not_isKill_startUpload
    · rw [hsent, List.map_singleton]
      exact tracks_kill _ _ rfl rfl

/-- **Step lemma**: agreement is kept exactly when a notification comes when it
may. -/
theorem consistent_step {p q : PoAppPillLoader × List Event} {a : Act} (h : Consistent p.2)
    (hstep : Lts.logged Session.step Session.events p a = some q) : Consistent q.2 ↔ AnswersFit p a := by
  obtain ⟨hstep, hlog⟩ := Lts.logged_eq_some.mp hstep
  rw [← hlog, Session.events, ← List.append_assoc]
  obtain ⟨channel, payload, rfl, hhandled⟩ | ⟨hreceived, g', status, -, hcase⟩ := Session.step_cases hstep
  · exact h.handled hhandled
  · have hfit : AnswersFit p a := by
      cases a with
      | packetReceived channel payload => cases hreceived
      | loadAndStartApp => trivial
      | killRunningApp => trivial
      | startButton => trivial
      | killButton => trivial
    refine iff_of_true ?_ hfit
    rw [hreceived, List.append_nil]
    obtain ⟨-, hsent⟩ | ⟨-, -, hsent⟩ | ⟨-, -, hsent⟩ := hcase
    · rw [hsent, List.map_nil, List.append_nil]
      exact h
    · rw [hsent, List.map_singleton]
      exact (consistent_other not_isStart_startUpload not_isKill_startUpload).mpr h
    · rw [hsent, List.map_singleton]
      exact consistent_kill _ _

theorem tracks_init (bundle : List JInt) : Tracks (PoAppPillLoader.init bundle) [] :=
  ⟨iff_of_false Bool.false_ne_true Lts.not_since_nil, iff_of_false Bool.false_ne_true Lts.not_since_nil⟩

/-- **The flags**, in every run: `isAppRunning()` says that the latest request is
a start, `hostsRootAgent()` that an id has come since. -/
theorem tracks_run (bundle : List JInt) {as : List Act} {f : PoAppPillLoader}
    (hrun : Lts.run Session.step (PoAppPillLoader.init bundle) as = some f) :
    Tracks f (Lts.trace Session.step Session.events (PoAppPillLoader.init bundle) as) :=
  Lts.run_invariant (P := fun p => Tracks p.1 p.2) (fun _ _ _ h hstep => tracks_step h hstep)
    (tracks_init bundle) (Lts.run_logged hrun)

/-- **The state of the application**: both flags are what the node has reported,
in every state of a run in which no request is awaiting an answer, exactly when
every notification that leaves none awaiting comes when it may. -/
theorem always_agreed_iff (bundle : List JInt) {as : List Act} {f : PoAppPillLoader}
    (hrun : Lts.run Session.step (PoAppPillLoader.init bundle) as = some f) :
    Lts.Always (Lts.logged Session.step Session.events) Agreed (PoAppPillLoader.init bundle, []) as ↔
      Lts.Along (Lts.logged Session.step Session.events) AnswersFit (PoAppPillLoader.init bundle, []) as := by
  have hagreed : ∀ p : PoAppPillLoader × List Event, Tracks p.1 p.2 ∧ Consistent p.2 → Agreed p :=
    fun p h => h.1.agreed_iff.mpr h.2
  refine Lts.always_iff_along hagreed ?_ ?_ ?_ (Lts.run_logged hrun)
  · intro p a q h hfit hstep
    exact ⟨tracks_step h.1 hstep, (consistent_step h.2 hstep).mpr hfit⟩
  · intro p a q h hq hstep
    exact (consistent_step h.2 hstep).mp ((tracks_step h.1 hstep).agreed_iff.mp hq)
  · exact ⟨tracks_init bundle, fun _ =>
      ⟨iff_of_false Lts.not_since_nil Bool.false_ne_true, iff_of_false Lts.not_since_nil Bool.false_ne_true⟩⟩

/-- An application is uploaded, starts, and is killed. -/
def startedAndKilled : List Act :=
  [.startButton, .packetReceived 0x01 [0x03], .packetReceived 0x01 [0x02],
    .packetReceived 0x01 [0x07, 0xA, 0xB, 0xC, 0xD], .killButton, .packetReceived 0x01 [0x0A, 0xA, 0xB, 0xC, 0xD]]

theorem always_agreed_startedAndKilled :
    Lts.Always (Lts.logged Session.step Session.events) Agreed (PoAppPillLoader.init [4, 0, 0, 0], []) startedAndKilled :=
  (always_agreed_iff [4, 0, 0, 0]
    (Option.some_get (by decide +kernel :
      (Lts.run Session.step (PoAppPillLoader.init [4, 0, 0, 0]) startedAndKilled).isSome = true)).symm).mpr
    (by decide +kernel)

/-- The upload is finished, and the node cannot start the application. -/
def startFailed : List Act :=
  [.startButton, .packetReceived 0x01 [0x03], .packetReceived 0x01 [0x02], .packetReceived 0x01 [0x08]]

/-- The client still takes the application to be running. -/
theorem start_error_running :
    ¬ ∀ (bundle : List JInt) (as : List Act) (f : PoAppPillLoader),
      Lts.run Session.step (PoAppPillLoader.init bundle) as = some f →
        Agreed (f, Lts.trace Session.step Session.events (PoAppPillLoader.init bundle) as) := by
  intro h
  have hrun := (Option.some_get (by decide +kernel :
    (Lts.run Session.step (PoAppPillLoader.init [4, 0, 0, 0]) startFailed).isSome = true)).symm
  exact absurd (h [4, 0, 0, 0] startFailed _ hrun) (by decide +kernel)

end Pobicos.AppLoader
