import Pobicos.AppLoader.History

/-!
# Pobicos.AppLoader.KillTarget

Which application a kill packet names.

`rootAgentID` is overwritten by every notification with an id and never cleared,
and `APP_STATE`, which lets a kill through, is set with the start packet, before
any id has come.  `always_targets_iff` says when every kill packet names the
application that the latest start packet has started.
-/

namespace Pobicos.AppLoader

open Nio Octets Threads

/-! ## Which application -/

/-- The id that has come for the latest start packet. -/
def startedId (events : List Event) : Option (List Byte) := (history events).startedId

/-- A kill packet names the application that has been started. -/
def Targets (pre : List Event) : Event → Prop
  | .received _ _ => True
  | .sent packet =>
      IsKill packet → ∃ id, startedId pre = some id ∧ id.length = 4 ∧ packet = packetBytes (0x01, 0x09 :: id)

/-- The call sends a kill packet. -/
def Kills (f : PoAppPillLoader) : Act → Prop
  | .loadAndStartApp => False
  | .killRunningApp => f.APP_STATE = .RUNNING
  | .startButton => False
  | .killButton => f.app_status = true ∧ f.APP_STATE = .RUNNING
  | .packetReceived _ _ => False

instance decidableKills (f : PoAppPillLoader) : (a : Act) → Decidable (Kills f a)
  | .loadAndStartApp => inferInstanceAs (Decidable False)
  | .killRunningApp => inferInstanceAs (Decidable (f.APP_STATE = .RUNNING))
  | .startButton => inferInstanceAs (Decidable False)
  | .killButton => inferInstanceAs (Decidable (f.app_status = true ∧ f.APP_STATE = .RUNNING))
  | .packetReceived _ _ => inferInstanceAs (Decidable False)

/-- A kill is asked for when the id of the application has come. -/
def Identified (p : PoAppPillLoader × List Event) (a : Act) : Prop := Kills p.1 a → startedId p.2 ≠ none

instance decidableIdentified (p : PoAppPillLoader × List Event) (a : Act) : Decidable (Identified p a) :=
  inferInstanceAs (Decidable (Kills p.1 a → startedId p.2 ≠ none))

/-! ## The id -/

/-- `rootAgentID` is the id of the application, if that has come. -/
def Named (f : PoAppPillLoader) (id? : Option (List Byte)) : Prop :=
  ∀ id ∈ id?, f.rootAgentID = id ∧ id.length = 4

section
variable {f g : PoAppPillLoader} {id? : Option (List Byte)} {pre : List Event}

theorem Named.keep (h : Named f id?) (hid : g.rootAgentID = f.rootAgentID) : Named g id? := by
  rw [Named, hid]
  exact h

theorem startedId_start (pre : List Event) : startedId (pre ++ [.sent (packetBytes (0x01, [0x06]))]) = none := by
  rw [startedId, history_concat, History.next_start]

/-- Only a start packet and a notification with an id change it. -/
theorem startedId_sent {packet : List Byte} (hstart : ¬ IsStart packet) :
    startedId (pre ++ [.sent packet]) = startedId pre := by
  rw [startedId, history_concat, History.next, if_neg hstart]
  split_ifs
  · rfl
  · rfl

theorem startedId_received {channel : Byte} {payload : List Byte}
    (hid : ∀ id, notification channel payload ≠ some (.rootAgentStarted id)) :
    startedId (pre ++ [.received channel payload]) = startedId pre := by
  rw [startedId, history_concat, History.next, report]
  split_ifs
  · cases hreport : notification channel payload with
    | none => rfl
    | some n =>
        cases n with
        | rootAgentStarted id => exact absurd hreport (hid id)
        | _ => rfl
  · rfl

/-- An id is that of the latest start packet, or of none. -/
theorem startedId_rootAgentStarted {channel : Byte} {payload id : List Byte}
    (hid : notification channel payload = some (.rootAgentStarted id)) :
    startedId (pre ++ [.received channel payload]) ∈ [none, some id] := by
  rw [startedId, history_concat, History.next, report, hid]
  by_cases hchannel : channel = 0x01
  · rw [if_pos hchannel, History.notified]
    dsimp only
    split_ifs
    · exact List.mem_cons_of_mem _ List.mem_cons_self
    · exact List.mem_cons_self
  · rw [notification_of_channel_ne hchannel] at hid
    split_ifs at hid
    cases hid

/-- **A notification** with an id changes both; a start packet that answers one
leaves no id. -/
theorem Named.handled (h : Named f (startedId pre)) {channel : Byte} {payload : List Byte} {out : List (List Byte)}
    (hn : Handled f (notification channel payload) g out) :
    Named g (startedId (pre ++ [.received channel payload] ++ out.map .sent)) := by
  have hkept : (∀ id, notification channel payload ≠ some (.rootAgentStarted id)) →
      Named f (startedId (pre ++ [.received channel payload])) := fun hid => by
    rwa [startedId_received hid]
  cases hreport : notification channel payload with
  | none =>
      rw [hreport] at hn hkept
      obtain ⟨rfl, rfl⟩ := hn
      rw [List.map_nil, List.append_nil]
      exact hkept fun id hid => by cases hid
  | some n =>
      rw [hreport] at hn hkept
      cases n with
      | uploadFinished =>
          obtain ⟨-, rfl, rfl⟩ := hn
          rw [List.map_singleton, startedId_start]
          exact fun id hid => absurd hid (Option.not_mem_none id)
      | readyForData =>
          obtain ⟨-, data, j, -, rfl, rfl⟩ := hn
          rw [List.map_singleton, startedId_sent (not_isStart_data data)]
          exact (hkept fun id hid => by cases hid).keep rfl
      | uploadError =>
          obtain ⟨rfl, rfl⟩ := hn
          rw [List.map_nil, List.append_nil]
          exact hkept fun id hid => by cases hid
      | started =>
          obtain ⟨con, -, rfl, rfl⟩ := hn
          rw [List.map_nil, List.append_nil]
          exact (hkept fun id hid => by cases hid).keep rfl
      | rootAgentStarted id =>
          obtain ⟨con, -, rfl, rfl⟩ := hn
          rw [List.map_nil, List.append_nil]
          have hid : startedId (pre ++ [.received channel payload]) ∈ [none, some id] :=
            startedId_rootAgentStarted hreport
          obtain hnone | hsome := List.mem_pair.mp hid
          · rw [hnone]
            exact fun id' hid' => absurd hid' (Option.not_mem_none id')
          · rw [hsome]
            rintro id' ⟨⟩
            exact ⟨rfl, length_id hreport⟩
      | startError =>
          obtain ⟨rfl, rfl⟩ := hn
          rw [List.map_nil, List.append_nil]
          exact hkept fun id hid => by cases hid
      | killed =>
          obtain ⟨con, -, rfl, rfl⟩ := hn
          rw [List.map_nil, List.append_nil]
          exact (hkept fun id hid => by cases hid).keep rfl
      | killError =>
          obtain ⟨rfl, rfl⟩ := hn
          rw [List.map_nil, List.append_nil]
          exact hkept fun id hid => by cases hid

/-- A kill packet with `rootAgentID`. -/
theorem Named.targets_iff (h : Named f (startedId pre)) :
    Targets pre (.sent (packetBytes (0x01, 0x09 :: f.rootAgentID.take 4))) ↔ startedId pre ≠ none := by
  rw [Option.ne_none_iff_exists']
  constructor
  · intro htargets
    obtain ⟨id, hid, -⟩ := htargets ⟨rfl, rfl⟩
    exact ⟨id, hid⟩
  · rintro ⟨id, hid⟩ -
    obtain ⟨hroot, hlen⟩ := h id hid
    refine ⟨id, hid, hlen, ?_⟩
    rw [hroot, List.take_of_length_le (Nat.le_of_eq hlen)]

end

/-! ## Runs -/

theorem not_isKill_of_nothing {out : List (List Byte)} (hout : out = []) : ∀ packet ∈ out, ¬ IsKill packet := by
  rw [hout]
  exact fun packet hmem => absurd hmem List.not_mem_nil

theorem not_isKill_of_one {out : List (List Byte)} {packet : List Byte} (hout : out = [packet])
    (h : ¬ IsKill packet) : ∀ packet ∈ out, ¬ IsKill packet := by
  intro packet' hmem
  rw [hout] at hmem
  rwa [List.mem_singleton.mp hmem]

theorem not_isKill_of_loaded {f g : PoAppPillLoader} {out : List (List Byte)} (h : Loaded f g out) :
    ∀ packet ∈ out, ¬ IsKill packet := by
  obtain ⟨-, -, hout⟩ | ⟨-, -, -, hout⟩ := h
  · exact not_isKill_of_nothing hout
  · exact not_isKill_of_one hout not_isKill_startUpload

/-- **What is sent**: a call that kills sends a kill packet with `rootAgentID`,
and no other one sends a kill packet. -/
theorem kills_cases {f g : PoAppPillLoader} {a : Act} (h : Session.step f a = some g) :
    (Kills f a ∧ Session.received a = [] ∧
        Session.sent f a = [packetBytes (0x01, 0x09 :: f.rootAgentID.take 4)]) ∨
      (¬ Kills f a ∧ ∀ packet ∈ Session.sent f a, ¬ IsKill packet) := by
  have hdoes := Session.step_eq_some.mp h
  cases a with
  | loadAndStartApp => exact Or.inr ⟨id, not_isKill_of_loaded hdoes⟩
  | killRunningApp =>
      obtain ⟨hidle, -, hout⟩ | ⟨hrunning, -, -, hout⟩ := hdoes
      · exact Or.inr ⟨fun hrunning => STATE.noConfusion (hidle.symm.trans hrunning), not_isKill_of_nothing hout⟩
      · exact Or.inl ⟨hrunning, rfl, hout⟩
  | startButton =>
      refine Or.inr ⟨id, ?_⟩
      rw [Session.Does, Pressed] at hdoes
      split at hdoes
      · exact not_isKill_of_nothing hdoes.2
      · obtain ⟨g', hloaded, -⟩ := hdoes
        exact not_isKill_of_loaded hloaded
  | killButton =>
      rw [Session.Does, Pressed] at hdoes
      split at hdoes
      · next hstatus =>
          exact Or.inr ⟨fun hkills => Bool.noConfusion (hstatus.symm.trans hkills.1), not_isKill_of_nothing hdoes.2⟩
      · next hstatus =>
          obtain ⟨g', ⟨hidle, -, hout⟩ | ⟨hrunning, -, -, hout⟩, -⟩ := hdoes
          · exact Or.inr ⟨fun hkills => STATE.noConfusion (hidle.symm.trans hkills.2), not_isKill_of_nothing hout⟩
          · exact Or.inl ⟨⟨by simpa using hstatus, hrunning⟩, rfl, hout⟩
  | packetReceived channel payload =>
      refine Or.inr ⟨id, ?_⟩
      obtain hout | ⟨-, hout⟩ | ⟨-, data, hout⟩ := hdoes.2.answered
      · exact not_isKill_of_nothing hout
      · exact not_isKill_of_one hout not_isKill_start
      · exact not_isKill_of_one hout (not_isKill_data data)

/-- What the theorem below rests on. -/
structure Aimed (p : PoAppPillLoader × List Event) : Prop where
  each : Lts.Each Targets p.2
  named : Named p.1 (startedId p.2)

section
variable {p q : PoAppPillLoader × List Event} {a : Act}

theorem named_step (h : Named p.1 (startedId p.2))
    (hstep : Lts.logged Session.step Session.events p a = some q) : Named q.1 (startedId q.2) := by
  obtain ⟨hstep, hlog⟩ := Lts.logged_eq_some.mp hstep
  rw [← hlog, Session.events, ← List.append_assoc]
  obtain ⟨channel, payload, rfl, hhandled⟩ | ⟨hreceived, g', status, hg, hcase⟩ := Session.step_cases hstep
  · exact h.handled hhandled
  · rw [hreceived, List.append_nil, hg]
    obtain ⟨rfl, hsent⟩ | ⟨-, rfl, hsent⟩ | ⟨-, rfl, hsent⟩ := hcase
    · rw [hsent, List.map_nil, List.append_nil]
      exact h.keep rfl
    · rw [hsent, List.map_singleton, startedId_sent not_isStart_startUpload]
      exact h.keep rfl
    · rw [hsent, List.map_singleton, startedId_sent (not_isStart_kill _)]
      exact h.keep rfl

/-- **Step lemma**: a kill that is asked for too early is the only thing that
goes wrong. -/
theorem each_step (h : Aimed p) (hstep : Lts.logged Session.step Session.events p a = some q) :
    Lts.Each Targets q.2 ↔ Identified p a := by
  obtain ⟨hstep, hlog⟩ := Lts.logged_eq_some.mp hstep
  rw [← hlog, Session.events]
  obtain ⟨hkills, hreceived, hsent⟩ | ⟨hkills, hsent⟩ := kills_cases hstep
  · rw [hreceived, List.nil_append, hsent, List.map_singleton, Identified, ← h.named.targets_iff]
    constructor
    · exact fun heach _ => heach p.2 _ [] rfl
    · exact fun htargets => h.each.concat (htargets hkills)
  · refine iff_of_true (h.each.append_of_forall fun e he pre => ?_) fun hyes => absurd hyes hkills
    obtain hreceived | hmem := List.mem_append.mp he
    · cases a with
      | packetReceived channel payload =>
          rw [List.mem_singleton.mp hreceived]
          trivial
      | _ => cases hreceived
    · obtain ⟨packet, hpacket, rfl⟩ := List.mem_map.mp hmem
      exact fun hkill => absurd hkill (hsent packet hpacket)

end

/-- **The kills**: every kill packet names the application that the latest start
packet has started exactly if no kill is asked for before its id has come. -/
theorem always_targets_iff (bundle : List JInt) {as : List Act} {f : PoAppPillLoader}
    (hrun : Lts.run Session.step (PoAppPillLoader.init bundle) as = some f) :
    Lts.Always (Lts.logged Session.step Session.events) (fun p => Lts.Each Targets p.2)
        (PoAppPillLoader.init bundle, []) as ↔
      Lts.Along (Lts.logged Session.step Session.events) Identified (PoAppPillLoader.init bundle, []) as := by
  refine Lts.always_iff_along (fun p (h : Aimed p) => h.each) ?_ ?_ ?_ (Lts.run_logged hrun)
  · exact fun p a q h hok hstep => ⟨(each_step h hstep).mpr hok, named_step h.named hstep⟩
  · exact fun p a q h heach hstep => (each_step h hstep).mp heach
  · exact ⟨Lts.each_nil, fun id hid => absurd hid (Option.not_mem_none id)⟩

/-- Two applications are started and killed, each with its own id. -/
def twoKills : List Act :=
  [.startButton, .packetReceived 0x01 [0x02], .packetReceived 0x01 [0x07, 1, 2, 3, 4], .killButton,
    .packetReceived 0x01 [0x0A], .startButton, .packetReceived 0x01 [0x02],
    .packetReceived 0x01 [0x07, 5, 6, 7, 8], .killButton]

theorem always_targets_twoKills :
    Lts.Always (Lts.logged Session.step Session.events) (fun p => Lts.Each Targets p.2)
      (PoAppPillLoader.init [4, 0, 0, 0], []) twoKills :=
  (always_targets_iff [4, 0, 0, 0]
    (Option.some_get (by decide +kernel :
      (Lts.run Session.step (PoAppPillLoader.init [4, 0, 0, 0]) twoKills).isSome = true)).symm).mpr
    (by decide +kernel)

/-- The second application is killed before its id has come. -/
def killedEarly : List Act :=
  [.startButton, .packetReceived 0x01 [0x02], .packetReceived 0x01 [0x07, 1, 2, 3, 4], .killButton,
    .packetReceived 0x01 [0x0A], .startButton, .packetReceived 0x01 [0x02], .killButton]

theorem stale_id_killed :
    ¬ ∀ (bundle : List JInt) (as : List Act) (f : PoAppPillLoader),
      Lts.run Session.step (PoAppPillLoader.init bundle) as = some f →
        Lts.Each Targets (Lts.trace Session.step Session.events (PoAppPillLoader.init bundle) as) := by
  intro h
  have hrun := (Option.some_get (by decide +kernel :
    (Lts.run Session.step (PoAppPillLoader.init [4, 0, 0, 0]) killedEarly).isSome = true)).symm
  obtain ⟨id, hid, -⟩ := h [4, 0, 0, 0] killedEarly _ hrun
    (Lts.trace Session.step Session.events (PoAppPillLoader.init [4, 0, 0, 0]) killedEarly.dropLast)
    (.sent (packetBytes (0x01, [0x09, 1, 2, 3, 4]))) [] (by decide +kernel) (by decide)
  have hnone : startedId (Lts.trace Session.step Session.events (PoAppPillLoader.init [4, 0, 0, 0])
      killedEarly.dropLast) = none := by decide +kernel
  rw [hnone] at hid
  cases hid

end Pobicos.AppLoader
