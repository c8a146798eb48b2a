import Pobicos.AppLoader.PoAppPillLoader
import Pobicos.Lib.Lts

/-!
# Pobicos.AppLoader.UartThreads

The loader with its threads: the UI thread, on which the buttons of `PoMainA`
run, and the threads of the `PoUART`s, which pass the packets of the node to
`packetReceived`.

A label is one thread going on: a button is pressed, a thread takes the last
byte of a packet from the queue of the node, it calls `packetReceived`, or a
thread that is in `sendUARTBytes` offers its next byte.  An exception ends the
process, and with it the run.

Every load and every kill creates a thread and forgets the one before:
`always_oneReader_iff` says when there is at most one that reads, and
`always_wholePackets_iff` when the packets on the event queue are whole.
-/

namespace Pobicos.AppLoader

open Nio Octets Threads

/-! ## Runs -/

/-- The UI thread, or the thread of a `PoUART`. -/
inductive Who
  | ui
  | uart (i : Nat)
  deriving DecidableEq, Repr

/-- The fields, the threads that are in `sendUARTBytes`, and the bytes of all
`PoUARTByteRx` events so far. -/
abbrev World := Pool Who PoAppPillLoader Throwable Byte

inductive Action
  | start
  | kill
  | take (i : Nat) (channel : Byte) (payload : List Byte)
  | handle (i : Nat)
  | offer (k : Who)
  deriving DecidableEq, Repr

/-- Thread `i` has a packet to pass on, or has passed it on. -/
def PoAppPillLoader.setPacket (f : PoAppPillLoader) (i : Nat) (packet : Option (Byte × List Byte)) :
    PoAppPillLoader :=
  { f with threads := f.threads.modify i fun t => { t with packet := packet } }

/-- One thread goes on.  A thread takes bytes as long as it is not interrupted;
a packet that it has taken it passes on in any case. -/
def step (w : World) : Action → Option World
  | .start => w.enter .ui startButton
  | .kill => w.enter .ui killButton
  | .take i channel payload =>
      match w.shared.threads[i]?, w.threads (.uart i) with
      | some ⟨false, none⟩, none => some { w with shared := w.shared.setPacket i (some (channel, payload)) }
      | _, _ => none
  | .handle i =>
      match w.shared.threads[i]? with
      | some ⟨_, some (channel, payload)⟩ =>
          Pool.enter { w with shared := w.shared.setPacket i none } (.uart i)
            (packetReceived channel payload)
      | _ => none
  | .offer k => w.offer k

/-- The client before anything is pressed. -/
def boot (androidAppBundle : List JInt) : World := Pool.init (PoAppPillLoader.init androidAppBundle)

/-- The label creates a `PoUART`. -/
def Creates (w : World) : Action → Prop
  | .start => w.shared.app_status = false ∧ w.shared.APP_STATE ≠ .RUNNING
  | .kill => w.shared.app_status = true ∧ w.shared.APP_STATE ≠ .IDLE
  | .take _ _ _ => False
  | .handle _ => False
  | .offer _ => False

instance decidableCreates (w : World) : (a : Action) → Decidable (Creates w a)
  | .start => inferInstanceAs (Decidable (w.shared.app_status = false ∧ w.shared.APP_STATE ≠ .RUNNING))
  | .kill => inferInstanceAs (Decidable (w.shared.app_status = true ∧ w.shared.APP_STATE ≠ .IDLE))
  | .take _ _ _ => inferInstanceAs (Decidable False)
  | .handle _ => inferInstanceAs (Decidable False)
  | .offer _ => inferInstanceAs (Decidable False)

/-- What a step does to the pool: a call begins, on fields that may differ in
the packet of its thread, or a thread takes a packet, or goes on. -/
theorem step_eq_some {w u : World} {a : Action} (h : step w a = some u) :
    (a = .start ∧ w.enter .ui startButton = some u) ∨
      (a = .kill ∧ w.enter .ui killButton = some u) ∨
      (∃ i channel payload, a = .take i channel payload ∧
        u = { w with shared := w.shared.setPacket i (some (channel, payload)) }) ∨
      (∃ i channel payload, a = .handle i ∧
        Pool.enter { w with shared := w.shared.setPacket i none } (.uart i)
          (packetReceived channel payload) = some u) ∨
      ∃ k, a = .offer k ∧ w.offer k = some u := by
  cases a with
  | start => exact Or.inl ⟨rfl, h⟩
  | kill => exact Or.inr (Or.inl ⟨rfl, h⟩)
  | take i channel payload =>
      rw [step] at h
      split at h
      · exact Or.inr (Or.inr (Or.inl ⟨i, channel, payload, rfl, (Option.some.inj h).symm⟩))
      · cases h
  | handle i =>
      rw [step] at h
      split at h
      · next channel payload _ =>
          exact Or.inr (Or.inr (Or.inr (Or.inl ⟨i, channel, payload, rfl, h⟩)))
      · cases h
  | offer k => exact Or.inr (Or.inr (Or.inr (Or.inr ⟨k, rfl, h⟩)))

/-- **Step lemma**: what holds of the assignments of the calls holds of every
step, and every array on the event queue is a packet. -/
theorem step_safe {G : PoAppPillLoader → PoAppPillLoader → Prop} (hrefl : ∀ f, G f f)
    (htrans : ∀ f g h, G f g → G g h → G f h)
    (hkeep : ∀ f g : PoAppPillLoader, g.con = f.con → g.threads = f.threads → G f g)
    (hcancel : ∀ (f : PoAppPillLoader) (i : Nat), G f (f.interrupt i))
    (hpacket : ∀ (f : PoAppPillLoader) (i : Nat) packet, G f (f.setPacket i packet))
    {w u : World} {a : Action} (hw : w.Safe G IsPacket) (hnew : Creates w a → G w.shared w.shared.newPoUART)
    (h : step w a = some u) : G w.shared u.shared ∧ u.Safe G IsPacket := by
  obtain ⟨rfl, hstep⟩ | ⟨rfl, hstep⟩ | ⟨i, channel, payload, rfl, rfl⟩ |
    ⟨i, channel, payload, rfl, hstep⟩ | ⟨k, rfl, hstep⟩ := step_eq_some h
  · exact hw.enter hrefl htrans (startButton_safe hkeep fun h₁ h₂ => hnew ⟨h₁, h₂⟩) hstep
  · exact hw.enter hrefl htrans (killButton_safe hkeep fun h₁ h₂ => hnew ⟨h₁, h₂⟩) hstep
  · exact ⟨hpacket _ _ _, hw.written, hw.writing⟩
  · have hw' : Pool.Safe G IsPacket { w with shared := w.shared.setPacket i none } :=
      ⟨hw.written, hw.writing⟩
    obtain ⟨hG, hu⟩ := hw'.enter hrefl htrans (packetReceived_safe hkeep hcancel channel payload _) hstep
    exact ⟨htrans _ _ _ (hpacket _ _ _) hG, hu⟩
  · exact hw.offer hrefl htrans hstep

/-! ## One thread that reads -/

instance decidableLive (f : PoAppPillLoader) (i : Nat) : Decidable (f.Live i) :=
  inferInstanceAs (Decidable (∃ t ∈ f.threads[i]?, t.interrupted = false))

/-- At most one thread has been started and not been cancelled. -/
def OneReader (w : World) : Prop := ∀ i j, w.shared.Live i → w.shared.Live j → i = j

/-- When a `PoUART` is created, the one before has been cancelled. -/
def CancelledFirst (w : World) (a : Action) : Prop :=
  Creates w a → ∀ i ∈ w.shared.con, ¬ w.shared.Live i

instance decidableCancelledFirst (w : World) (a : Action) : Decidable (CancelledFirst w a) :=
  inferInstanceAs (Decidable (Creates w a → ∀ i ∈ w.shared.con, ¬ w.shared.Live i))

namespace PoAppPillLoader

/-- Only the latest thread is not cancelled. -/
def CurrentOnly (f : PoAppPillLoader) : Prop := ∀ i, f.Live i → f.con = some i

/-- A change to one thread that takes back no interrupt. -/
theorem Live.of_modify {f g : PoAppPillLoader} {i j : Nat} {m : PoUART → PoUART}
    (hg : g.threads = f.threads.modify i m) (hm : ∀ t, (m t).interrupted = false → t.interrupted = false)
    (h : g.Live j) : f.Live j := by
  obtain ⟨t, ht, hlive⟩ := h
  rw [hg, List.getElem?_modify] at ht
  obtain ⟨t', ht', rfl⟩ := Option.map_eq_some_iff.mp ht
  refine ⟨t', ht', ?_⟩
  split at hlive
  · exact hm t' hlive
  · exact hlive

theorem CurrentOnly.keep {f g : PoAppPillLoader} (hf : f.CurrentOnly) (hcon : g.con = f.con)
    (hthreads : g.threads = f.threads) : g.CurrentOnly := by
  intro i hi
  rw [Live, hthreads] at hi
  rw [hcon]
  exact hf i hi

theorem CurrentOnly.interrupt {f : PoAppPillLoader} (hf : f.CurrentOnly) (i : Nat) :
    (f.interrupt i).CurrentOnly := fun j hj => hf j (hj.of_modify rfl fun _ h => Bool.noConfusion h)

theorem CurrentOnly.setPacket {f : PoAppPillLoader} (hf : f.CurrentOnly) (i : Nat)
    (packet : Option (Byte × List Byte)) : (f.setPacket i packet).CurrentOnly :=
  fun j hj => hf j (hj.of_modify (m := fun t => { t with packet := packet }) rfl fun _ h => h)

theorem live_newPoUART {f : PoAppPillLoader} {i : Nat} :
    f.newPoUART.Live i ↔ f.Live i ∨ i = f.threads.length := by
  rw [Live, Live, newPoUART]
  obtain hlt | rfl | hgt := Nat.lt_trichotomy i f.threads.length
  · rw [List.getElem?_append_left hlt]
    exact ⟨Or.inl, fun h => h.resolve_right (Nat.ne_of_lt hlt)⟩
  · rw [List.getElem?_concat_length]
    exact iff_of_true ⟨_, rfl, rfl⟩ (Or.inr rfl)
  · have hnone : (f.threads ++ [⟨false, none⟩])[i]? = none := by
      apply List.getElem?_eq_none
      rw [List.length_append]
      exact hgt
    have hold : f.threads[i]? = none := List.getElem?_eq_none (Nat.le_of_lt hgt)
    simp [hnone, hold, Nat.ne_of_gt hgt]

theorem CurrentOnly.newPoUART {f : PoAppPillLoader} (hf : f.CurrentOnly) (hcon : ∀ i ∈ f.con, ¬ f.Live i) :
    f.newPoUART.CurrentOnly := by
  intro i hi
  obtain hold | rfl := live_newPoUART.mp hi
  · exact absurd hold (hcon i (hf i hold))
  · rfl

end PoAppPillLoader

/-- A start that creates a thread, from there on. -/
theorem startButton_next {f : PoAppPillLoader} (hstatus : f.app_status = false)
    (hstate : f.APP_STATE ≠ .RUNNING) :
    startButton.next f = ((do
      retrieveBundleSize
      sendFirstPacket : Call Unit) >>= fun _ =>
        Prog.modify fun f => { f with app_status := true }).next f.newPoUART := by
  change (if f.app_status = false then _ else _ : Call Unit).next f = _
  rw [if_pos hstatus]
  change ((if f.APP_STATE = .RUNNING then _ else _ : Call Unit).bind _).next f = _
  rw [if_neg hstate]
  rfl

/-- A kill that creates a thread, from there on. -/
theorem killButton_next {f : PoAppPillLoader} (hstatus : f.app_status = true)
    (hstate : f.APP_STATE ≠ .IDLE) :
    killButton.next f = ((do
      let id ← Prog.ofExcept (arrayGetRange f.rootAgentID 0 4)
      sendKillPacket (0x09 :: id) : Call Unit) >>= fun _ =>
        Prog.modify fun f => { f with app_status := false }).next f.newPoUART := by
  change (if f.app_status = true then _ else _ : Call Unit).next f = _
  rw [if_pos hstatus]
  change ((if f.APP_STATE = .IDLE then _ else _ : Call Unit).bind _).next f = _
  rw [if_neg hstate]
  rfl

/-- A program that assigns no threads, up to its next byte. -/
theorem threads_of_next {p : Call Unit} {f g : PoAppPillLoader}
    {q : Option (Writing PoAppPillLoader Throwable Byte)}
    (hp : p.Safe (fun f g => g.threads = f.threads) IsPacket f) (h : p.next f = .ok (g, q)) :
    g.threads = f.threads := by
  have hrefl : ∀ f : PoAppPillLoader, f.threads = f.threads := fun _ => rfl
  have htrans : ∀ f g h : PoAppPillLoader, g.threads = f.threads → h.threads = g.threads →
      h.threads = f.threads := fun _ _ _ h₁ h₂ => h₂.trans h₁
  exact (hp.next hrefl htrans h).1

/-- What a step that creates a thread does to the threads. -/
theorem threads_of_creates {w u : World} {a : Action} (ha : Creates w a) (h : step w a = some u) :
    u.shared.threads = w.shared.newPoUART.threads := by
  have hkeep : ∀ f g : PoAppPillLoader, g.con = f.con → g.threads = f.threads → g.threads = f.threads :=
    fun _ _ _ h => h
  cases a with
  | start =>
      obtain ⟨f, q, -, hnext, rfl⟩ := Pool.enter_eq_some h
      rw [startButton_next ha.1 ha.2] at hnext
      refine threads_of_next (Prog.Safe.bind ?_ ?_) hnext
      · exact (retrieveBundleSize_safe hkeep _).bind fun _ g => conSendPacket_safe _ _ g
      · exact fun _ g => Prog.safe_modify.mpr rfl
  | kill =>
      obtain ⟨f, q, -, hnext, rfl⟩ := Pool.enter_eq_some h
      rw [killButton_next ha.1 ha.2] at hnext
      refine threads_of_next (Prog.Safe.bind ?_ ?_) hnext
      · exact Prog.safe_ofExcept_bind.mpr fun id _ => sendKillPacket_safe hkeep _ _
      · exact fun _ g => Prog.safe_modify.mpr rfl
  | take i channel payload => exact absurd ha id
  | handle i => exact absurd ha id
  | offer k => exact absurd ha id

/-- What holds of the loader in every state of a run whose new threads find the
one before cancelled. -/
structure Current (w : World) : Prop where
  only : w.shared.CurrentOnly
  safe : w.Safe (fun f g => f.CurrentOnly → g.CurrentOnly) IsPacket

theorem current_boot (androidAppBundle : List JInt) : Current (boot androidAppBundle) := by
  refine ⟨?_, Pool.safe_init _⟩
  rintro i ⟨t, ht, -⟩
  cases ht

theorem Current.oneReader {w : World} (hw : Current w) : OneReader w := by
  intro i j hi hj
  exact Option.some.inj ((hw.only i hi).symm.trans (hw.only j hj))

/-- A step whose new thread finds the one before cancelled. -/
theorem Current.step {w u : World} {a : Action} (hw : Current w) (ha : CancelledFirst w a)
    (h : step w a = some u) : Current u := by
  have hnew : Creates w a → w.shared.CurrentOnly → w.shared.newPoUART.CurrentOnly :=
    fun hcreates honly => honly.newPoUART (ha hcreates)
  obtain ⟨honly, hsafe⟩ := step_safe (fun _ hf => hf) (fun _ _ _ h₁ h₂ hf => h₂ (h₁ hf))
    (fun _ _ hcon hthreads hf => hf.keep hcon hthreads) (fun _ i hf => hf.interrupt i)
    (fun _ i packet hf => hf.setPacket i packet) hw.safe hnew h
  exact ⟨honly hw.only, hsafe⟩

/-- A new thread beside one that reads. -/
theorem cancelledFirst_of_oneReader {w u : World} {a : Action} (hu : OneReader u)
    (h : step w a = some u) : CancelledFirst w a := by
  intro hcreates i hcon hi
  have hlive : ∀ j, w.shared.newPoUART.Live j → u.shared.Live j := by
    intro j hj
    rwa [PoAppPillLoader.Live, threads_of_creates hcreates h]
  have hold : u.shared.Live i := hlive i (PoAppPillLoader.live_newPoUART.mpr (Or.inl hi))
  have hnew : u.shared.Live w.shared.threads.length :=
    hlive _ (PoAppPillLoader.live_newPoUART.mpr (Or.inr rfl))
  have heq := hu _ _ hold hnew
  subst heq
  obtain ⟨t, ht, -⟩ := hi
  rw [Option.mem_def, List.getElem?_eq_none (Nat.le_refl _)] at ht
  cases ht

/-- **One reader**: in a run there is at most one thread that has been started
and not been cancelled at any time, exactly if every load and every kill finds
the thread before cancelled. -/
theorem always_oneReader_iff (androidAppBundle : List JInt) {as : List Action} {w : World}
    (hrun : Lts.run step (boot androidAppBundle) as = some w) :
    Lts.Always step OneReader (boot androidAppBundle) as ↔
      Lts.Along step CancelledFirst (boot androidAppBundle) as := by
  have hkeep : ∀ s a t, Current s → CancelledFirst s a → step s a = some t → Current t :=
    fun _ _ _ hs ha h => hs.step ha h
  have hbreak : ∀ s a t, Current s → OneReader t → step s a = some t → CancelledFirst s a :=
    fun _ _ _ _ ht h => cancelledFirst_of_oneReader ht h
  exact Lts.always_iff_along (fun _ hs => hs.oneReader) hkeep hbreak (current_boot androidAppBundle) hrun

/-- An application is uploaded and started, the node says which one it is, and
it is killed. -/
theorem always_oneReader_session :
    Lts.Always step OneReader (boot [8, 0, 0, 0, 1, 2, 3, 4])
      ([Action.start] ++ List.replicate 3 (Action.offer .ui) ++
        [Action.take 0 1 [0x02], .handle 0] ++ List.replicate 3 (Action.offer (.uart 0)) ++
        [Action.take 0 1 [0x07, 1, 2, 3, 4], .handle 0, .kill] ++ List.replicate 7 (Action.offer .ui) ++
        [Action.take 1 1 [0x0A], .handle 1]) :=
  (always_oneReader_iff _ (Option.some_get (by decide +kernel)).symm).mpr (by decide +kernel)

/-- The kill button is pressed after the upload, before the node has said that
the application has started: the thread of the upload is not cancelled. -/
theorem two_readers :
    let as : List Action := [Action.start] ++ List.replicate 3 (Action.offer .ui) ++
      [Action.take 0 1 [0x02], .handle 0] ++ List.replicate 3 (Action.offer (.uart 0)) ++ [.kill]
    (∃ w, Lts.run step (boot [8, 0, 0, 0, 1, 2, 3, 4]) as = some w ∧
        w.shared.Live 0 ∧ w.shared.Live 1) ∧
      ¬ Lts.Always step OneReader (boot [8, 0, 0, 0, 1, 2, 3, 4]) as := by
  intro as
  have hthreads : (Lts.run step (boot [8, 0, 0, 0, 1, 2, 3, 4]) as).map (fun w => w.shared.threads) =
      some [⟨false, none⟩, ⟨false, none⟩] := by decide +kernel
  obtain ⟨w, hrun, hw⟩ := Option.map_eq_some_iff.mp hthreads
  have hfirst : w.shared.Live 0 := ⟨⟨false, none⟩, by rw [hw]; rfl, rfl⟩
  have hsecond : w.shared.Live 1 := ⟨⟨false, none⟩, by rw [hw]; rfl, rfl⟩
  refine ⟨⟨w, hrun, hfirst, hsecond⟩, ?_⟩
  intro hall
  exact absurd (hall as List.prefix_rfl w hrun 0 1 hfirst hsecond) Nat.zero_ne_one

/-! ## Whole packets -/

/-- The event queue holds whole packets, and then the bytes so far of at most
one that a thread is still sending. -/
structure WholePackets (w : World) : Prop where
  unmixed : w.Unmixed
  written : ∀ bytes ∈ w.written, IsPacket bytes
  writing : ∀ k, ∀ p ∈ w.threads k, IsPacket p.items

/-- A thread that offers the first byte of a packet does so when no thread is in
the middle of one. -/
def FirstAlone (w : World) : Action → Prop
  | .offer k => Pool.FirstAlone w k
  | .start => True
  | .kill => True
  | .take _ _ _ => True
  | .handle _ => True

/-- What holds of the pool in every state of a run in which no packet begins in
the middle of another. -/
structure Whole (w : World) : Prop where
  unmixed : w.Unmixed
  safe : w.Safe (fun _ _ => True) IsPacket

theorem whole_boot (androidAppBundle : List JInt) : Whole (boot androidAppBundle) :=
  ⟨Pool.unmixed_init _, Pool.safe_init _⟩

theorem Whole.wholePackets {w : World} (hw : Whole w) : WholePackets w :=
  ⟨hw.unmixed, hw.safe.written, fun k p hp => (hw.safe.writing k p hp).1⟩

/-- A step that begins no packet in the middle of another. -/
theorem Whole.step {w u : World} {a : Action} (hw : Whole w) (ha : FirstAlone w a) (h : step w a = some u) :
    Whole u := by
  have hsafe : u.Safe (fun _ _ => True) IsPacket :=
    (step_safe (fun _ => trivial) (fun _ _ _ _ _ => trivial) (fun _ _ _ _ => trivial)
      (fun _ _ => trivial) (fun _ _ _ => trivial) hw.safe (fun _ => trivial) h).2
  refine ⟨?_, hsafe⟩
  obtain ⟨rfl, hstep⟩ | ⟨rfl, hstep⟩ | ⟨i, channel, payload, rfl, rfl⟩ |
    ⟨i, channel, payload, rfl, hstep⟩ | ⟨k, rfl, hstep⟩ := step_eq_some h
  · exact hw.unmixed.enter hstep
  · exact hw.unmixed.enter hstep
  · exact hw.unmixed
  · have hset : Pool.Unmixed { w with shared := w.shared.setPacket i none } := hw.unmixed
    exact hset.enter hstep
  · exact hw.unmixed.offer ha hstep

/-- A packet that begins in the middle of another. -/
theorem firstAlone_of_wholePackets {w u : World} {a : Action} (hw : Whole w) (hu : WholePackets u)
    (h : step w a = some u) : FirstAlone w a := by
  cases a with
  | start => trivial
  | kill => trivial
  | take i channel payload => trivial
  | handle i => trivial
  | offer k =>
      have hlen : ∀ p ∈ w.threads k, 1 < p.items.length :=
        fun p hp => (hw.safe.writing k p hp).1.one_lt_length
      exact hu.unmixed.first_alone hlen h

/-- **Whole packets**: the bytes on the event queue are whole packets and the
bytes so far of at most one more in every state of a run, exactly if no thread
begins a packet while another one is in the middle of one. -/
theorem always_wholePackets_iff (androidAppBundle : List JInt) {as : List Action} {w : World}
    (hrun : Lts.run step (boot androidAppBundle) as = some w) :
    Lts.Always step WholePackets (boot androidAppBundle) as ↔
      Lts.Along step FirstAlone (boot androidAppBundle) as := by
  have hkeep : ∀ s a t, Whole s → FirstAlone s a → step s a = some t → Whole t :=
    fun _ _ _ hs ha h => hs.step ha h
  have hbreak : ∀ s a t, Whole s → WholePackets t → step s a = some t → FirstAlone s a :=
    fun _ _ _ hs ht h => firstAlone_of_wholePackets hs ht h
  exact Lts.always_iff_along (fun _ hs => hs.wholePackets) hkeep hbreak (whole_boot androidAppBundle) hrun

/-- The first packet of an upload. -/
theorem always_wholePackets_start :
    Lts.Always step WholePackets (boot [8, 0, 0, 0, 1, 2, 3, 4])
      [.start, .offer .ui, .offer .ui, .offer .ui] := by
  refine (always_wholePackets_iff _ (Option.some_get (by decide +kernel)).symm).mpr ?_
  refine ⟨trivial, ?_⟩
  rintro t ⟨⟩
  refine ⟨Pool.FirstAlone.of_idle fun j hj => Function.update_of_ne hj _ _, ?_⟩
  rintro t ⟨⟩
  refine ⟨fun p hp hi => ?_, ?_⟩
  · cases hp
    cases hi
  rintro t ⟨⟩
  refine ⟨fun p hp hi => ?_, fun _ _ => trivial⟩
  cases hp
  cases hi

/-- While the first data packet is sent, the kill button is pressed, which only
clears the status, and the start button again. -/
theorem upload_in_upload :
    let as : List Action := [Action.start] ++ List.replicate 3 (Action.offer .ui) ++
      [Action.take 0 1 [0x03], .handle 0, .offer (.uart 0), .kill, .start] ++
      List.replicate 3 (Action.offer .ui) ++ List.replicate 28 (Action.offer (.uart 0))
    (Lts.run step (boot [8, 0, 0, 0, 1, 2, 3, 4]) as).map (fun w => w.queue) =
        some ([1, 1, 1] ++ [2] ++ [1, 1, 1] ++ [27, 8, 0, 0, 0, 1, 2, 3, 4] ++ List.replicate 19 0) ∧
      ¬ Lts.Always step WholePackets (boot [8, 0, 0, 0, 1, 2, 3, 4]) as := by
  intro as
  refine ⟨by decide +kernel, ?_⟩
  intro hall
  have htwo : (Lts.run step (boot [8, 0, 0, 0, 1, 2, 3, 4]) (as.take 10)).map
      (fun w => ((w.threads .ui).map Writing.i, (w.threads (.uart 0)).map Writing.i)) =
        some (some 1, some 1) := by decide +kernel
  obtain ⟨w, hrun, hw⟩ := Option.map_eq_some_iff.mp htwo
  obtain ⟨p, hp, hpi⟩ := Option.map_eq_some_iff.mp (congrArg Prod.fst hw)
  obtain ⟨q, hq, hqi⟩ := Option.map_eq_some_iff.mp (congrArg Prod.snd hw)
  have hui : w.PartWay .ui := ⟨p, hp, by omega⟩
  have huart : w.PartWay (.uart 0) := ⟨q, hq, by omega⟩
  exact Who.noConfusion ((hall _ (List.take_prefix 10 as) w hrun).unmixed.eq_of_partWay hui huart)

end Pobicos.AppLoader
