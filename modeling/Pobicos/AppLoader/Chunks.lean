import Pobicos.AppLoader.Upload

/-!
# Pobicos.AppLoader.Chunks

One upload session: how far it comes with the notifications that the node is
ready for data, and that nothing in it is read outside the bundle.

`Upload` says what a data packet is if it is sent; here the header announces no
more than there is, and `upload_chunks` says that every one of them is sent.
-/

namespace Pobicos.AppLoader

open Nio Octets Threads

section
variable {f g : PoAppPillLoader}

/-- **A data packet** can be made as long as the header announces no more than
there is. -/
theorem exists_nextData (hsize : f.bundleSize = headerSize f.androidAppBundle)
    (hfit : imageSize f.androidAppBundle ≤ f.androidAppBundle.length) {m : Nat}
    (hoffset : f.offset = BitVec.ofNat 32 (min m (imageSize f.androidAppBundle))) :
    ∃ r, nextData f = .ok r := by
  rw [exists_nextData_iff]
  rintro k - hall
  -- The last index that the loop comes to is below the size.
  have hlt := hall k (Nat.le_refl k)
  have hindex : min m (imageSize f.androidAppBundle) + k ≤ imageSize f.androidAppBundle := by
    induction k with
    | zero => exact Nat.min_le_right _ _
    | succ k ih =>
        have hk := hall k (Nat.le_succ k)
        have hle := ih (fun j hj => hall j (Nat.le_succ_of_le hj)) hk
        rw [Nat.zero_add] at hk
        exact (more_iff hsize hoffset hle).mp hk
  rw [Nat.zero_add] at hlt ⊢
  have hlt' := (more_iff hsize hoffset hindex).mp hlt
  rw [hoffset, (index_eq hindex).2]
  omega

end

/-! ## A session -/

/-- A call during an upload: no other one is asked for, and a packet is not
empty and does not report the end. -/
def DuringUpload (f : PoAppPillLoader) : Act → Prop
  | .loadAndStartApp => ¬ Session.Loads f .loadAndStartApp
  | .killRunningApp => True
  | .startButton => ¬ Session.Loads f .startButton
  | .killButton => True
  | .packetReceived channel payload => payload ≠ [] ∧ notification channel payload ≠ some .uploadFinished

instance decidableDuringUpload (f : PoAppPillLoader) : (a : Act) → Decidable (DuringUpload f a)
  | .loadAndStartApp => inferInstanceAs (Decidable (¬ Session.Loads f .loadAndStartApp))
  | .killRunningApp => inferInstanceAs (Decidable True)
  | .startButton => inferInstanceAs (Decidable (¬ Session.Loads f .startButton))
  | .killButton => inferInstanceAs (Decidable True)
  | .packetReceived channel payload =>
      inferInstanceAs (Decidable (payload ≠ [] ∧ notification channel payload ≠ some .uploadFinished))

/-- The node reports that it is ready for data. -/
def ready : Act → Bool
  | .loadAndStartApp => false
  | .killRunningApp => false
  | .startButton => false
  | .killButton => false
  | .packetReceived channel payload => notification channel payload = some .readyForData

/-- The data packets with the given payloads. -/
def dataPackets (payloads : List (List Byte)) : List (List Byte) :=
  payloads.map fun data => packetBytes (0x02, data)

/-- A session is open, and the bytes `bs` have been sent in it. -/
structure Open (bundle : List JInt) (bs : List Byte) (f : PoAppPillLoader) : Prop where
  con : f.con ≠ none
  idle : f.APP_STATE = .IDLE
  uploading : Uploading bundle f ⟨[], some bs⟩

/-- The calls `as` lead from `f` to `g` in an open session, and send one data
packet for every notification of readiness. -/
structure Sends (bundle : List JInt) (bs : List Byte) (f : PoAppPillLoader) (as : List Act) (g : PoAppPillLoader)
    (payloads : List (List Byte)) : Prop where
  run : Lts.run Session.step f as = some g
  trace : Lts.trace Session.step Session.sent f as = dataPackets payloads
  opened : Open bundle (bs ++ payloads.flatten) g
  count : payloads.length = as.countP ready
  lengths : ∀ data ∈ payloads, data.length = MAX_PAYLOAD_LEN

section
variable {bundle : List JInt} {bs : List Byte} {f g : PoAppPillLoader} {a : Act}

/-- The state of the loader is one of two. -/
theorem idle_of_ne (h : f.APP_STATE ≠ .RUNNING) : f.APP_STATE = .IDLE := by
  cases hstate : f.APP_STATE with
  | RUNNING => exact absurd hstate h
  | IDLE => rfl

/-- A new `PoUART`, the size of the bundle, and `offset` at zero. -/
theorem open_loaded (hoffset : f.offset = 0) (status : Bool) (hidle : f.APP_STATE = .IDLE) :
    Open f.androidAppBundle []
      { f.newPoUART with bundleSize := headerSize f.androidAppBundle, app_status := status } := by
  refine ⟨Option.some_ne_none _, hidle, rfl, fun _ hbs => absurd hbs List.not_mem_nil, ?_⟩
  rintro bs ⟨⟩
  refine ⟨agrees_nil _, rfl, ?_⟩
  rw [List.length_nil, Nat.zero_min]
  exact hoffset

/-- **A load** opens a session, if it finds `offset` at zero. -/
theorem open_of_loads (hloads : Session.Loads f a) (hheader : 4 ≤ f.androidAppBundle.length)
    (hoffset : f.offset = 0) :
    ∃ g, Session.step f a = some g ∧ Session.sent f a = [packetBytes (0x01, [0x01])] ∧
      Open f.androidAppBundle [] g := by
  have hloaded (hstate : f.APP_STATE ≠ .RUNNING) : Loaded f
      { f.newPoUART with bundleSize := headerSize f.androidAppBundle } [packetBytes (0x01, [0x01])] :=
    Or.inr ⟨hstate, hheader, rfl, rfl⟩
  cases a with
  | loadAndStartApp =>
      obtain ⟨hstep, hsent⟩ := Session.step_of_does (a := .loadAndStartApp) (hloaded hloads)
      exact ⟨_, hstep, hsent, open_loaded hoffset f.app_status (idle_of_ne hloads)⟩
  | killRunningApp => exact absurd hloads id
  | startButton =>
      obtain ⟨hstatus, hstate⟩ := hloads
      have hpressed : Pressed true Loaded f
          { f.newPoUART with bundleSize := headerSize f.androidAppBundle, app_status := true }
          [packetBytes (0x01, [0x01])] := by
        rw [Pressed, if_neg (by simp [hstatus])]
        exact ⟨_, hloaded hstate, rfl⟩
      obtain ⟨hstep, hsent⟩ := Session.step_of_does (a := .startButton) hpressed
      exact ⟨_, hstep, hsent, open_loaded hoffset true (idle_of_ne hstate)⟩
  | killButton => exact absurd hloads id
  | packetReceived channel payload => exact absurd hloads id

/-- A call of the user that opens no session does nothing but set `app_status`. -/
theorem Open.user (h : Open bundle bs f) (ha : DuringUpload f a) (hreceived : Session.received a = []) :
    ∃ status, Session.step f a = some { f with app_status := status } ∧ Session.sent f a = [] := by
  have hrunning : f.APP_STATE ≠ .RUNNING := by simp [h.idle]
  have hkilled : Killed f f [] := Or.inl ⟨h.idle, rfl, rfl⟩
  cases a with
  | loadAndStartApp => exact absurd hrunning ha
  | killRunningApp => exact ⟨f.app_status, Session.step_of_does (a := .killRunningApp) hkilled⟩
  | startButton =>
      have hstatus : f.app_status = true := by
        by_contra hne
        exact ha ⟨Bool.eq_false_iff.mpr hne, hrunning⟩
      have hpressed : Pressed true Loaded f f [] := by
        rw [Pressed, if_pos hstatus]
        exact ⟨rfl, rfl⟩
      exact ⟨f.app_status, Session.step_of_does (a := .startButton) hpressed⟩
  | killButton =>
      have hpressed : Pressed false Killed f { f with app_status := false } [] := by
        rw [Pressed]
        split
        · next hstatus =>
            rw [← hstatus]
            exact ⟨rfl, rfl⟩
        · exact ⟨f, hkilled, rfl⟩
      exact ⟨false, Session.step_of_does (a := .killButton) hpressed⟩
  | packetReceived channel payload => exact absurd hreceived (List.cons_ne_nil _ _)

/-- A call that sends nothing. -/
theorem Open.sends_nothing (h : Open bundle bs g) (hstep : Session.step f a = some g)
    (hsent : Session.sent f a = []) (hready : ready a = false) : Sends bundle bs f [a] g [] where
  run := Lts.run_of_step hstep
  trace := (Lts.trace_singleton f a).trans hsent
  opened := by rwa [List.flatten_nil, List.append_nil]
  count := by simp [hready]
  lengths _ hmem := absurd hmem List.not_mem_nil

/-- A call that sends one data packet. -/
theorem Open.sends_data {data : List Byte} (h : Open bundle (bs ++ data) g) (hstep : Session.step f a = some g)
    (hsent : Session.sent f a = [packetBytes (0x02, data)]) (hready : ready a = true)
    (hlen : data.length = MAX_PAYLOAD_LEN) : Sends bundle bs f [a] g [data] where
  run := Lts.run_of_step hstep
  trace := (Lts.trace_singleton f a).trans hsent
  opened := by rwa [List.flatten_singleton]
  count := by simp [hready]
  lengths data' hmem := by rwa [List.mem_singleton.mp hmem]

/-- What is sent in one part of a session and in the next. -/
theorem Sends.append {h : PoAppPillLoader} {as as' : List Act} {payloads payloads' : List (List Byte)}
    (hfirst : Sends bundle bs f as g payloads) (hrest : Sends bundle (bs ++ payloads.flatten) g as' h payloads') :
    Sends bundle bs f (as ++ as') h (payloads ++ payloads') where
  run := by rw [Lts.run_append, hfirst.run, Option.bind_some, hrest.run]
  trace := by
    rw [Lts.trace_append as' hfirst.run, hfirst.trace, hrest.trace, dataPackets, dataPackets, dataPackets,
      List.map_append]
  opened := by
    rw [List.flatten_append, ← List.append_assoc]
    exact hrest.opened
  count := by rw [List.length_append, hfirst.count, hrest.count, List.countP_append]
  lengths data hmem := (List.mem_append.mp hmem).elim (hfirst.lengths data) (hrest.lengths data)

/-- A notification: only the readiness for data is answered. -/
theorem Open.notified (h : Open bundle bs f) (hfit : imageSize bundle ≤ bundle.length) {channel : Byte}
    {payload : List Byte} (hne : payload ≠ [])
    (hfinished : notification channel payload ≠ some .uploadFinished) :
    ∃ g payloads, Sends bundle bs f [.packetReceived channel payload] g payloads := by
  obtain ⟨-, hsize, hoffset⟩ := h.uploading.current bs rfl
  have hok : notification channel payload = some .readyForData → ∃ r, nextData f = .ok r := by
    intro _
    rw [← h.uploading.same] at hsize hoffset hfit
    exact exists_nextData hsize hfit hoffset
  obtain ⟨g, out, hn⟩ := (exists_handled_iff h.con).mpr hok
  obtain ⟨hstep, hsent⟩ := Session.step_of_does (a := .packetReceived channel payload) ⟨hne, hn⟩
  have hcon : g.con ≠ none := by
    rw [hn.con]
    exact h.con
  have hidle : g.APP_STATE = .IDLE := (hn.state hfinished).trans h.idle
  by_cases hready : notification channel payload = some .readyForData
  · rw [hready] at hn
    obtain ⟨-, data, j, hdata, rfl, rfl⟩ := hn
    have hopen : Open bundle (bs ++ data) _ := ⟨hcon, hidle, h.uploading.data hdata⟩
    exact ⟨_, [data], hopen.sends_data hstep hsent (by simp [ready, hready]) (length_nextData hdata)⟩
  · obtain ⟨rfl, hup⟩ := h.uploading.other hfinished hready hn
    have hopen : Open bundle bs g := ⟨hcon, hidle, hup⟩
    exact ⟨g, [], hopen.sends_nothing hstep hsent (by simp [ready, hready])⟩

/-- **Step lemma**: a call sends as many data packets as it reports readiness. -/
theorem Open.step (h : Open bundle bs f) (hfit : imageSize bundle ≤ bundle.length) (ha : DuringUpload f a) :
    ∃ g payloads, Sends bundle bs f [a] g payloads := by
  have huser (hreceived : Session.received a = []) (hready : ready a = false) :
      ∃ g payloads, Sends bundle bs f [a] g payloads := by
    obtain ⟨status, hstep, hsent⟩ := h.user ha hreceived
    have hopen : Open bundle bs { f with app_status := status } := ⟨h.con, h.idle, h.uploading.keep rfl rfl rfl⟩
    exact ⟨_, [], hopen.sends_nothing hstep hsent hready⟩
  cases a with
  | loadAndStartApp => exact huser rfl rfl
  | killRunningApp => exact huser rfl rfl
  | startButton => exact huser rfl rfl
  | killButton => exact huser rfl rfl
  | packetReceived channel payload => exact h.notified hfit ha.1 ha.2

/-- **Run lemma**. -/
theorem Open.run (h : Open bundle bs f) (hfit : imageSize bundle ≤ bundle.length) {as : List Act}
    (has : Lts.Along Session.step DuringUpload f as) : ∃ g payloads, Sends bundle bs f as g payloads := by
  induction as generalizing bs f with
  | nil =>
      refine ⟨f, [], rfl, rfl, ?_, rfl, fun _ hmem => absurd hmem List.not_mem_nil⟩
      rwa [List.flatten_nil, List.append_nil]
  | cons a as ih =>
      obtain ⟨g, payloads, hfirst⟩ := h.step hfit has.1
      have hstep : Session.step f a = some g := (Lts.run_singleton f a).symm.trans hfirst.run
      obtain ⟨h', payloads', hrest⟩ := ih hfirst.opened (has.2 g hstep)
      exact ⟨h', payloads ++ payloads', hfirst.append hrest⟩

end

/-! ## What has been sent -/

theorem takeD_eq_take_append {α : Type} (n : Nat) (xs : List α) (d : α) :
    xs.takeD n d = xs.take n ++ List.replicate (n - xs.length) d := by
  induction n generalizing xs with
  | zero => simp
  | succ n ih => cases xs <;> simp [List.takeD, ih, List.replicate_succ]

/-- Packets of one length. -/
theorem length_flatten_of_forall {α : Type} {n : Nat} {xss : List (List α)} (h : ∀ xs ∈ xss, xs.length = n) :
    xss.flatten.length = n * xss.length := by
  rw [List.length_flatten, List.map_congr_left h, List.map_const', List.sum_replicate_nat, Nat.mul_comm]

theorem toInt_ofNat_of_lt {n : Nat} (h : n < 2 ^ 31) : (BitVec.ofNat 32 n).toInt = n := by
  rw [BitVec.toInt_ofNat', Int.bmod_eq_of_le] <;> omega

/-- The bytes of the bundle, and zeros. -/
theorem image_eq {bundle : List JInt} {n : Nat} (hfit : imageSize bundle ≤ bundle.length) :
    (image bundle).takeD n 0 =
      (bundle.take (min n (imageSize bundle))).map (fun x => x.setWidth 8) ++
        List.replicate (n - imageSize bundle) 0 := by
  rw [takeD_eq_take_append, image, ← List.map_take, List.take_take, List.length_map, List.length_take,
    Nat.min_eq_left hfit]

/-- **One upload**: when a load finds `offset` at zero and the header announces
no more bytes than there are, every call up to the end of the upload returns.
After `k` notifications of readiness `k` data packets are sent, with the bytes
of the bundle in order and zeros after its last one, and `offset` is where they
end. -/
theorem upload_chunks {f : PoAppPillLoader} {a : Act} {as : List Act} (hloads : Session.Loads f a)
    (hoffset : f.offset = 0) (hheader : 4 ≤ f.androidAppBundle.length)
    (hsize : 0 ≤ (headerSize f.androidAppBundle).toInt)
    (hfit : (headerSize f.androidAppBundle).toInt ≤ f.androidAppBundle.length)
    (has : ∀ g, Session.step f a = some g → Lts.Along Session.step DuringUpload g as) :
    ∃ g, ∃ payloads : List (List Byte), Lts.run Session.step f (a :: as) = some g ∧
      Lts.trace Session.step Session.sent f (a :: as) =
        packetBytes (0x01, [0x01]) :: payloads.map (fun data => packetBytes (0x02, data)) ∧
      payloads.length = as.countP ready ∧ (∀ data ∈ payloads, data.length = 27) ∧
      g.offset.toInt = min (27 * (as.countP ready : Int)) (headerSize f.androidAppBundle).toInt ∧
      payloads.flatten =
        (f.androidAppBundle.take (min (27 * as.countP ready) (headerSize f.androidAppBundle).toNat)).map
            (fun x => x.setWidth 8) ++
          List.replicate (27 * as.countP ready - (headerSize f.androidAppBundle).toNat) 0 := by
  have hnat : imageSize f.androidAppBundle = (headerSize f.androidAppBundle).toNat := by
    rw [imageSize]
    have hcases := BitVec.toInt_eq_toNat_cond (headerSize f.androidAppBundle)
    split at hcases <;> omega
  have hfit' : imageSize f.androidAppBundle ≤ f.androidAppBundle.length := by
    rw [imageSize]
    omega
  obtain ⟨g₁, hstep, hsent, hopen₁⟩ := open_of_loads hloads hheader hoffset
  obtain ⟨g, payloads, hrun, htrace, hopen, hcount, hlen⟩ := hopen₁.run hfit' (has g₁ hstep)
  rw [List.nil_append] at hopen
  obtain ⟨hagrees, -, hend⟩ := hopen.uploading.current _ rfl
  have hflat : payloads.flatten.length = 27 * as.countP ready := by
    rw [length_flatten_of_forall hlen, hcount]
    rfl
  rw [Agrees, hflat, image_eq hfit'] at hagrees
  refine ⟨g, payloads, Lts.run_cons_eq_some.mpr ⟨g₁, hstep, hrun⟩, ?_, hcount, hlen, ?_, ?_⟩
  · rw [Lts.trace_cons_of_step _ hstep, hsent, htrace]
    rfl
  · have hlt : (headerSize f.androidAppBundle).toInt < 2 ^ 31 := BitVec.toInt_lt
    have hle : min (27 * as.countP ready) (imageSize f.androidAppBundle) < 2 ^ 31 := by
      rw [imageSize]
      omega
    rw [hend, hflat, toInt_ofNat_of_lt hle, imageSize]
    omega
  · rw [← hnat]
    exact hagrees

/-- Sixty bytes, a button in between, and one notification more than needed. -/
theorem upload_chunks_sixtyBytes :
    ∃ g, ∃ payloads : List (List Byte),
      Lts.run Session.step (PoAppPillLoader.init (sampleBundle 60))
        [.startButton, .packetReceived 0x01 [0x03], .killButton, .packetReceived 0x01 [0x03],
          .packetReceived 0x01 [0x03], .packetReceived 0x01 [0x03]] = some g ∧
      payloads.length = 4 ∧ g.offset.toInt = 60 ∧
      payloads.flatten = (sampleBundle 60).map (fun x => x.setWidth 8) ++ List.replicate 48 0 := by
  have hduring : ∀ g ∈ Session.step (PoAppPillLoader.init (sampleBundle 60)) .startButton,
      Lts.Along Session.step DuringUpload g [.packetReceived 0x01 [0x03], .killButton, .packetReceived 0x01 [0x03],
        .packetReceived 0x01 [0x03], .packetReceived 0x01 [0x03]] := by decide +kernel
  obtain ⟨g, payloads, hrun, -, hcount, -, hoffset, hflat⟩ := @upload_chunks
    (PoAppPillLoader.init (sampleBundle 60)) .startButton
    [.packetReceived 0x01 [0x03], .killButton, .packetReceived 0x01 [0x03], .packetReceived 0x01 [0x03],
      .packetReceived 0x01 [0x03]]
    (by decide) rfl (by decide) (by decide) (by decide) hduring
  exact ⟨g, payloads, hrun, hcount, hoffset, hflat⟩

end Pobicos.AppLoader
