import Mathlib.Data.List.TakeDrop
import Pobicos.AppLoader.Sessions

/-!
# Pobicos.AppLoader.Upload

Uploads of the application bundle, as they look on the wire.

A session is open from a `START_UPLOAD` packet to the next one or to the
notification that the upload is finished; its bytes are the payloads of the data
packets in between.  The node takes them for the bundle from its first byte on.
`offset` says where the next data packet begins, and nothing but that
notification sets it back: `sessions_agree` holds of the runs in which every
load finds it at zero.
-/

namespace Pobicos.AppLoader

open Nio Octets Threads

/-! ## The image -/

/-- The number of bytes that the header announces. -/
def imageSize (bundle : List JInt) : Nat := (headerSize bundle).toInt.toNat

/-- The bytes of the bundle. -/
def image (bundle : List JInt) : List Byte := (bundle.take (imageSize bundle)).map fun x => x.setWidth 8

/-- Bytes are those of the bundle from its first one on, and zeros after its
last one. -/
def Agrees (bundle : List JInt) (bs : List Byte) : Prop := bs = (image bundle).takeD bs.length 0

instance decidableAgrees (bundle : List JInt) (bs : List Byte) : Decidable (Agrees bundle bs) :=
  inferInstanceAs (Decidable (bs = (image bundle).takeD bs.length 0))

theorem takeD_add {α : Type} (m n : Nat) (xs : List α) (d : α) :
    xs.takeD (m + n) d = xs.takeD m d ++ (xs.drop m).takeD n d := by
  induction m generalizing xs with
  | zero => simp
  | succ m ih =>
      rw [Nat.add_right_comm, List.takeD_succ, List.takeD_succ, ih, List.drop_tail]
      rfl

theorem agrees_nil (bundle : List JInt) : Agrees bundle [] := rfl

/-- The bytes that come next. -/
theorem Agrees.append {bundle : List JInt} {bs : List Byte} (h : Agrees bundle bs) (n : Nat) :
    Agrees bundle (bs ++ ((image bundle).drop bs.length).takeD n 0) := by
  rw [Agrees, List.length_append, List.takeD_length, takeD_add, ← h]

theorem length_image_le (bundle : List JInt) : (image bundle).length ≤ imageSize bundle := by
  rw [image, List.length_map, List.length_take]
  exact Nat.min_le_left _ _

/-! ## A data packet -/

section
variable {f : PoAppPillLoader}

/-- Up to the size of the bundle an index does not overflow. -/
theorem index_eq {bundle : List JInt} {i o : Nat} (h : o + i ≤ imageSize bundle) :
    (BitVec.ofNat 32 i + BitVec.ofNat 32 o).toNat = o + i ∧
      (BitVec.ofNat 32 i + BitVec.ofNat 32 o).toInt = (o + i : Nat) := by
  have hsize : (headerSize bundle).toInt < 2 ^ 31 := BitVec.toInt_lt
  have hlt : o + i < 2 ^ 31 := by
    rw [imageSize] at h
    omega
  have hnat : (BitVec.ofNat 32 (i + o)).toNat = o + i := by
    rw [BitVec.toNat_ofNat, Nat.mod_eq_of_lt (by omega), Nat.add_comm]
  rw [← BitVec.ofNat_add, BitVec.toInt_eq_toNat_of_lt (by omega), hnat]
  exact ⟨rfl, rfl⟩

theorem image_of_read {bundle : List JInt} {i o : Nat} (h : o + i < imageSize bundle) {x : JInt}
    (hx : intArrayGet bundle (BitVec.ofNat 32 i + BitVec.ofNat 32 o) = .ok x) :
    (image bundle)[o + i]? = some (x.setWidth 8) := by
  obtain ⟨-, hread⟩ := intArrayGet_eq_ok.mp hx
  rw [(index_eq (Nat.le_of_lt h)).1] at hread
  rw [image, List.getElem?_map, List.getElem?_take_of_lt h, hread]
  rfl

/-- The condition of the loop on the bytes that are left. -/
theorem more_iff (hsize : f.bundleSize = headerSize f.androidAppBundle) {o i : Nat}
    (hoffset : f.offset = BitVec.ofNat 32 o) (hle : o + i ≤ imageSize f.androidAppBundle) :
    (BitVec.ofNat 32 i + f.offset).slt f.bundleSize = true ↔ o + i < imageSize f.androidAppBundle := by
  rw [BitVec.slt_iff_toInt_lt, hoffset, (index_eq hle).2, hsize, imageSize]
  omega

/-- **The loop**: from index `i` of the packet and `o` of the bundle on, the
bytes of the bundle that are left, and zeros. -/
theorem fillData_eq (hsize : f.bundleSize = headerSize f.androidAppBundle) {o : Nat}
    (hoffset : f.offset = BitVec.ofNat 32 o) {pre : List Byte} {i n : Nat} (hpre : pre.length = i)
    (hle : o + i ≤ imageSize f.androidAppBundle) {data : List Byte} {j : Nat}
    (h : fillData f (pre ++ List.replicate n 0) i n = .ok (data, j)) :
    data = pre ++ ((image f.androidAppBundle).drop (o + i)).takeD n 0 ∧
      j = i + min n (imageSize f.androidAppBundle - (o + i)) := by
  induction n generalizing pre i with
  | zero =>
      cases h
      exact ⟨rfl, by omega⟩
  | succ n ih =>
      have hcond := more_iff hsize hoffset hle
      obtain ⟨hlt, x, hx, hrest⟩ | ⟨hge, hend⟩ := fillData_succ h
      · have hlt' := hcond.mp hlt
        rw [hoffset] at hx
        obtain ⟨hlt'', hget⟩ := List.getElem?_eq_some_iff.mp (image_of_read hlt' hx)
        have hset : (pre ++ List.replicate (n + 1) 0).set i (x.setWidth 8) =
            (pre ++ [x.setWidth 8]) ++ List.replicate n 0 := by
          rw [← hpre, List.replicate_succ, List.set_append_right _ _ (Nat.le_refl _), Nat.sub_self, List.append_assoc]
          rfl
        have hpre' : (pre ++ [x.setWidth 8]).length = i + 1 := by
          rw [List.length_append, hpre, List.length_singleton]
        rw [hset] at hrest
        obtain ⟨rfl, rfl⟩ := ih hpre' hlt' hrest
        refine ⟨?_, by omega⟩
        rw [List.drop_eq_getElem_cons hlt'', hget, List.takeD_succ, List.append_assoc]
        rfl
      · obtain ⟨rfl, rfl⟩ := Prod.mk.inj hend
        have hend : imageSize f.androidAppBundle ≤ o + j := Nat.le_of_not_lt (mt hcond.mpr hge)
        have hdrop : (image f.androidAppBundle).drop (o + j) = [] :=
          List.drop_eq_nil_of_le (Nat.le_trans (length_image_le _) hend)
        rw [hdrop, List.takeD_nil]
        exact ⟨rfl, by omega⟩

/-- **A data packet** is the next bytes, and `offset` comes after them. -/
theorem nextData_eq (hsize : f.bundleSize = headerSize f.androidAppBundle) {m : Nat}
    (hoffset : f.offset = BitVec.ofNat 32 (min m (imageSize f.androidAppBundle))) {data : List Byte} {j : Nat}
    (h : nextData f = .ok (data, j)) :
    data = ((image f.androidAppBundle).drop m).takeD MAX_PAYLOAD_LEN 0 ∧
      f.offset + BitVec.ofNat 32 j =
        BitVec.ofNat 32 (min (m + MAX_PAYLOAD_LEN) (imageSize f.androidAppBundle)) := by
  have hle : min m (imageSize f.androidAppBundle) + 0 ≤ imageSize f.androidAppBundle := Nat.min_le_right _ _
  obtain ⟨rfl, rfl⟩ := @fillData_eq f hsize _ hoffset [] 0 MAX_PAYLOAD_LEN rfl hle data j h
  have hdrop : (image f.androidAppBundle).drop (min m (imageSize f.androidAppBundle)) =
      (image f.androidAppBundle).drop m := by
    obtain hle | hle := Nat.le_total m (imageSize f.androidAppBundle)
    · rw [Nat.min_eq_left hle]
    · rw [Nat.min_eq_right hle, List.drop_eq_nil_of_le (length_image_le _),
        List.drop_eq_nil_of_le (Nat.le_trans (length_image_le _) hle)]
  refine ⟨by rw [Nat.add_zero, hdrop]; rfl, ?_⟩
  rw [hoffset, ← BitVec.ofNat_add]
  congr 1
  omega

end

/-! ## Sessions -/

/-- The bytes of the sessions that are over, and of the one that is open. -/
structure Uploads where
  closed : List (List Byte)
  current : Option (List Byte)
  deriving DecidableEq, Repr

namespace Uploads

def init : Uploads := ⟨[], none⟩

/-- All of them. -/
def all (u : Uploads) : List (List Byte) := u.closed ++ u.current.toList

/-- What a packet that is sent, or a notification, does to the sessions. -/
def next (u : Uploads) : Event → Uploads
  | .received channel payload =>
      if notification channel payload = some .uploadFinished then ⟨u.all, none⟩ else u
  | .sent packet =>
      if packet = packetBytes (0x01, [0x01]) then ⟨u.all, some []⟩
      else if packet.head? = some 0x02 then { u with current := u.current.map (· ++ packet.drop 2) }
      else u

variable (u : Uploads) {channel : Byte} {payload : List Byte}

theorem next_finished (h : notification channel payload = some .uploadFinished) :
    u.next (.received channel payload) = ⟨u.all, none⟩ := if_pos h

theorem next_received (h : notification channel payload ≠ some .uploadFinished) :
    u.next (.received channel payload) = u := if_neg h

theorem next_startUpload : u.next (.sent (packetBytes (0x01, [0x01]))) = ⟨u.all, some []⟩ := by
  rw [next, if_pos rfl]

theorem next_data (data : List Byte) :
    u.next (.sent (packetBytes (0x02, data))) = { u with current := u.current.map (· ++ data) } := by
  have hne : packetBytes (0x02, data) ≠ packetBytes (0x01, [0x01]) := by simp [packetBytes]
  rw [next, if_neg hne]
  rfl

/-- Any other control packet. -/
theorem next_control {b : Byte} (hb : b ≠ 0x01) (bs : List Byte) :
    u.next (.sent (packetBytes (0x01, b :: bs))) = u := by
  have hne : packetBytes (0x01, b :: bs) ≠ packetBytes (0x01, [0x01]) := by
    intro heq
    simp only [packetBytes, List.cons.injEq] at heq
    exact hb heq.2.2.1
  rw [next, if_neg hne]
  rfl

end Uploads

/-- The bytes of the upload sessions. -/
def sessions (events : List Event) : List (List Byte) := (events.foldl Uploads.next Uploads.init).all

/-- When the node is asked for an upload, `offset` is zero. -/
def StartsAtZero (f : PoAppPillLoader) (a : Act) : Prop := Session.Loads f a → f.offset = 0

instance decidableStartsAtZero (f : PoAppPillLoader) (a : Act) : Decidable (StartsAtZero f a) :=
  inferInstanceAs (Decidable (Session.Loads f a → f.offset = 0))

/-- What `sessions_agree` rests on: `offset` is where the open session is. -/
structure Uploading (bundle : List JInt) (f : PoAppPillLoader) (u : Uploads) : Prop where
  same : f.androidAppBundle = bundle
  closed : ∀ bs ∈ u.closed, Agrees bundle bs
  current : ∀ bs ∈ u.current, Agrees bundle bs ∧ f.bundleSize = headerSize bundle ∧
    f.offset = BitVec.ofNat 32 (min bs.length (imageSize bundle))

namespace Uploading

variable {bundle : List JInt} {f g : PoAppPillLoader} {u : Uploads}

theorem all (h : Uploading bundle f u) : ∀ bs ∈ u.all, Agrees bundle bs := by
  intro bs hmem
  obtain hmem | hmem := List.mem_append.mp hmem
  · exact h.closed bs hmem
  · exact (h.current bs (Option.mem_toList.mp hmem)).1

/-- Fields that do not matter here change. -/
theorem keep (h : Uploading bundle f u) (hbundle : g.androidAppBundle = f.androidAppBundle)
    (hsize : g.bundleSize = f.bundleSize) (hoffset : g.offset = f.offset) : Uploading bundle g u := by
  refine ⟨hbundle.trans h.same, h.closed, fun bs hbs => ?_⟩
  rw [hsize, hoffset]
  exact h.current bs hbs

/-- A session is opened. -/
theorem start (h : Uploading bundle f u) (hbundle : g.androidAppBundle = f.androidAppBundle)
    (hsize : g.bundleSize = headerSize f.androidAppBundle) (hoffset : g.offset = 0) :
    Uploading bundle g ⟨u.all, some []⟩ := by
  refine ⟨hbundle.trans h.same, h.all, ?_⟩
  rintro bs ⟨⟩
  refine ⟨agrees_nil bundle, by rw [hsize, h.same], ?_⟩
  rw [hoffset, List.length_nil, Nat.zero_min]
  rfl

/-- A session is closed. -/
theorem finish (h : Uploading bundle f u) (hbundle : g.androidAppBundle = f.androidAppBundle) :
    Uploading bundle g ⟨u.all, none⟩ :=
  ⟨hbundle.trans h.same, h.all, fun _ hbs => (nomatch hbs)⟩

/-- A data packet is sent. -/
theorem data (h : Uploading bundle f u) {data : List Byte} {j : Nat} (hdata : nextData f = .ok (data, j)) :
    Uploading bundle { f with offset := f.offset + BitVec.ofNat 32 j }
      { u with current := u.current.map (· ++ data) } := by
  refine ⟨h.same, h.closed, fun bs' hbs' => ?_⟩
  obtain ⟨bs, hbs, rfl⟩ := Option.map_eq_some_iff.mp hbs'
  obtain ⟨hagrees, hsize, hoffset⟩ := h.current bs hbs
  rw [← h.same] at hsize hoffset
  obtain ⟨rfl, hnext⟩ := nextData_eq hsize hoffset hdata
  rw [h.same] at hsize hnext ⊢
  refine ⟨hagrees.append _, hsize, ?_⟩
  rw [List.length_append, List.takeD_length]
  exact hnext

/-- A notification that neither ends the upload nor asks for data. -/
theorem other (h : Uploading bundle f u) {n : Option Notification} (hfinished : n ≠ some .uploadFinished)
    (hready : n ≠ some .readyForData) {out : List (List Byte)} (hn : Handled f n g out) :
    out = [] ∧ Uploading bundle g u := by
  cases n with
  | none =>
      obtain ⟨rfl, rfl⟩ := hn
      exact ⟨rfl, h⟩
  | some n =>
      cases n with
      | uploadFinished => exact absurd rfl hfinished
      | readyForData => exact absurd rfl hready
      | started =>
          obtain ⟨con, -, rfl, rfl⟩ := hn
          exact ⟨rfl, h.keep rfl rfl rfl⟩
      | rootAgentStarted id =>
          obtain ⟨con, -, rfl, rfl⟩ := hn
          exact ⟨rfl, h.keep rfl rfl rfl⟩
      | killed =>
          obtain ⟨con, -, rfl, rfl⟩ := hn
          exact ⟨rfl, h.keep rfl rfl rfl⟩
      | uploadError =>
          obtain ⟨rfl, rfl⟩ := hn
          exact ⟨rfl, h⟩
      | startError =>
          obtain ⟨rfl, rfl⟩ := hn
          exact ⟨rfl, h⟩
      | killError =>
          obtain ⟨rfl, rfl⟩ := hn
          exact ⟨rfl, h⟩

/-- A notification is handled. -/
theorem handled (h : Uploading bundle f u) {channel : Byte} {payload : List Byte} {out : List (List Byte)}
    (hn : Handled f (notification channel payload) g out) :
    Uploading bundle g ((out.map .sent).foldl Uploads.next (u.next (.received channel payload))) := by
  by_cases hfinished : notification channel payload = some .uploadFinished
  · rw [hfinished] at hn
    obtain ⟨-, rfl, rfl⟩ := hn
    rw [Uploads.next_finished u hfinished, List.map_singleton, List.foldl_cons, List.foldl_nil,
      Uploads.next_control _ (by decide)]
    exact h.finish rfl
  · rw [Uploads.next_received u hfinished]
    by_cases hready : notification channel payload = some .readyForData
    · rw [hready] at hn
      obtain ⟨-, data, j, hdata, rfl, rfl⟩ := hn
      rw [List.map_singleton, List.foldl_cons, List.foldl_nil, Uploads.next_data]
      exact h.data hdata
    · obtain ⟨rfl, hg⟩ := h.other hfinished hready hn
      exact hg

/-- **Step lemma**. -/
theorem step (h : Uploading bundle f u) {a : Act} (hzero : StartsAtZero f a) (hstep : Session.step f a = some g) :
    Uploading bundle g ((Session.events f a).foldl Uploads.next u) := by
  obtain ⟨channel, payload, rfl, hhandled⟩ | ⟨hreceived, g', status, rfl, hcase⟩ := Session.step_cases hstep
  · rw [Session.events, List.foldl_append]
    exact h.handled hhandled
  · rw [Session.events, hreceived, List.nil_append]
    obtain ⟨rfl, hsent⟩ | ⟨hloads, rfl, hsent⟩ | ⟨-, rfl, hsent⟩ := hcase
    · rw [hsent]
      exact h.keep rfl rfl rfl
    · rw [hsent, List.map_singleton, List.foldl_cons, List.foldl_nil, Uploads.next_startUpload]
      exact h.start rfl rfl (hzero hloads)
    · rw [hsent, List.map_singleton, List.foldl_cons, List.foldl_nil, Uploads.next_control u (by decide)]
      exact h.keep rfl rfl rfl

end Uploading

theorem uploading_init (bundle : List JInt) : Uploading bundle (PoAppPillLoader.init bundle) Uploads.init :=
  ⟨rfl, fun _ hbs => (nomatch hbs), fun _ hbs => (nomatch hbs)⟩

/-- **The uploads**: in every run in which a load finds `offset` at zero, the
bytes of every session are the bundle from its first byte on. -/
theorem sessions_agree (bundle : List JInt) {as : List Act} {f : PoAppPillLoader}
    (hrun : Lts.run Session.step (PoAppPillLoader.init bundle) as = some f)
    (hzero : Lts.Along Session.step StartsAtZero (PoAppPillLoader.init bundle) as) :
    ∀ bs ∈ sessions (Lts.trace Session.step Session.events (PoAppPillLoader.init bundle) as), Agrees bundle bs := by
  have hinit : Uploading bundle (PoAppPillLoader.init bundle) (([] : List Event).foldl Uploads.next Uploads.init) :=
    uploading_init bundle
  have hstep : ∀ f (es : List Event) a g, Uploading bundle f (es.foldl Uploads.next Uploads.init) →
      StartsAtZero f a → Session.step f a = some g →
      Uploading bundle g ((es ++ Session.events f a).foldl Uploads.next Uploads.init) := by
    intro f es a g h hzero hstep
    rw [List.foldl_append]
    exact h.step hzero hstep
  have hinv := Lts.trace_induct (P := fun f es => Uploading bundle f (es.foldl Uploads.next Uploads.init))
    hstep hzero hinit hrun
  exact hinv.all

/-- A bundle of `n` bytes, with its header. -/
def sampleBundle (n : Nat) : List JInt :=
  BitVec.ofNat 32 n :: 0 :: 0 :: 0 :: (List.range (n - 4)).map (BitVec.ofNat 32)

/-- An upload in two packets, an application that starts and is killed, and the
upload once more. -/
def twoUploads : List Act :=
  [.startButton, .packetReceived 0x01 [0x03], .packetReceived 0x01 [0x03], .packetReceived 0x01 [0x02],
    .packetReceived 0x01 [0x07, 0xA, 0xB, 0xC, 0xD], .killButton, .packetReceived 0x01 [0x0A], .startButton,
    .packetReceived 0x01 [0x03]]

theorem sessions_agree_twoUploads :
    (sessions (Lts.trace Session.step Session.events (PoAppPillLoader.init (sampleBundle 40)) twoUploads)).all
      (fun bs => decide (Agrees (sampleBundle 40) bs)) = true := by
  have hrun := (Option.some_get (by decide +kernel :
    (Lts.run Session.step (PoAppPillLoader.init (sampleBundle 40)) twoUploads).isSome = true)).symm
  have hagrees := sessions_agree (sampleBundle 40) hrun (by decide +kernel)
  exact List.all_eq_true.mpr fun bs hbs => decide_eq_true (hagrees bs hbs)

/-- The node reports an upload error after the first packet; the next upload
begins with the second one. -/
def uploadRetried : List Act :=
  [.loadAndStartApp, .packetReceived 0x01 [0x03], .packetReceived 0x01 [0x04], .loadAndStartApp,
    .packetReceived 0x01 [0x03]]

theorem upload_resumes :
    ¬ ∀ (bundle : List JInt) (as : List Act) (f : PoAppPillLoader),
      Lts.run Session.step (PoAppPillLoader.init bundle) as = some f →
        ∀ bs ∈ sessions (Lts.trace Session.step Session.events (PoAppPillLoader.init bundle) as), Agrees bundle bs := by
  intro h
  have hrun := (Option.some_get (by decide +kernel :
    (Lts.run Session.step (PoAppPillLoader.init (sampleBundle 60)) uploadRetried).isSome = true)).symm
  exact absurd (h (sampleBundle 60) uploadRetried _ hrun) (by decide +kernel)

end Pobicos.AppLoader
