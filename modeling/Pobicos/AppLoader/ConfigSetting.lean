import Mathlib.Data.Nat.Find
import Pobicos.AppLoader.PoAppPillLoader

/-!
# Pobicos.AppLoader.ConfigSetting

`PoAppPillLoader.getConfigSetting`: a setting is looked up in the table behind
the code of the application bundle.

The search knows nothing of the table: it takes the first place of the bundle
where the bytes of the name stand.  `getConfigSetting_iff` says when that is as
good as the entry of the name.
-/

namespace Pobicos.AppLoader

open Nio Octets

/-! ## The function -/

/-- `androidAppBundle[i]`, with a loop variable that is not negative. -/
def bundleGet (bundle : List JInt) (i : Nat) : Except Throwable JInt :=
  match bundle[i]? with
  | some x => .ok x
  | none => .error .indexOutOfBounds

/-- The inner loop: whether the bytes that are left stand at `i`. -/
def matchesAt (bundle : List JInt) (i : Nat) : List Byte → Except Throwable Bool
  | [] => .ok true
  | b :: bs => do
      let x ← bundleGet bundle i
      if x = b.signExtend 32 then matchesAt bundle (i + 1) bs else .ok false

/-- The outer loop, for `n` more turns: the first place where `settingBytes`
stand. -/
def search (bundle : List JInt) (settingBytes : List Byte) (i : Nat) : Nat → Except Throwable (Option Nat)
  | 0 => .ok none
  | n + 1 => do
      let found ← matchesAt bundle i settingBytes
      if found = true then .ok (some i) else search bundle settingBytes (i + 1) n

/-- The `while` loop: the characters up to the NUL, from the rest of the array. -/
def readValue : List JInt → Except Throwable (List JChar)
  | [] => .error .indexOutOfBounds
  | x :: xs =>
      let ch : JChar := x.setWidth 16
      if ch = 0 then .ok []
      else do
        let s ← readValue xs
        .ok (ch :: s)

/-- `getConfigSetting(setting)` for ASCII characters, which are their bytes. -/
def getConfigSetting (androidAppBundle : List JInt) (setting : List Byte) : Except Throwable (List JChar) := do
  let found ← search androidAppBundle setting 0 (androidAppBundle.length - setting.length - 1)
  match found with
  | some i => readValue (androidAppBundle.drop (i + (setting.length + 1)))
  | none => .ok []

/-! ## The search -/

/-- The bytes as cells of the bundle. -/
def cells (bs : List Byte) : List JInt := bs.map fun b => b.signExtend 32

/-- The bytes stand at `i`. -/
def OccursAt (bundle : List JInt) (bs : List Byte) (i : Nat) : Prop := cells bs <+: bundle.drop i

instance decidableOccursAt (bundle : List JInt) (bs : List Byte) (i : Nat) : Decidable (OccursAt bundle bs i) :=
  inferInstanceAs (Decidable (cells bs <+: bundle.drop i))

section
variable {bundle : List JInt} {bs : List Byte} {i : Nat}

theorem bundleGet_of_lt (h : i < bundle.length) : bundleGet bundle i = .ok bundle[i] := by
  rw [bundleGet, List.getElem?_eq_getElem h]

/-- **The inner loop** says whether they do. -/
theorem matchesAt_eq (h : i + bs.length ≤ bundle.length) :
    matchesAt bundle i bs = .ok (decide (OccursAt bundle bs i)) := by
  induction bs generalizing i with
  | nil =>
      have hnil : OccursAt bundle [] i := List.nil_prefix
      rw [matchesAt, decide_eq_true hnil]
  | cons b bs ih =>
      rw [List.length_cons] at h
      have hlt : i < bundle.length := by omega
      have hoccurs : OccursAt bundle (b :: bs) i ↔ bundle[i] = b.signExtend 32 ∧ OccursAt bundle bs (i + 1) := by
        rw [OccursAt, List.drop_eq_getElem_cons hlt, cells, List.map_cons, List.cons_prefix_cons, eq_comm]
        rfl
      rw [matchesAt, bundleGet_of_lt hlt]
      change (if _ then _ else _) = _
      by_cases hb : bundle[i] = b.signExtend 32
      · rw [if_pos hb, ih (by omega)]
        simp only [hoccurs, hb, true_and]
      · rw [if_neg hb]
        simp only [hoccurs, hb, false_and, decide_false]

/-- **The outer loop** comes to the first place. -/
theorem search_eq {n q : Nat} (hfit : i + n + bs.length ≤ bundle.length) (hq : OccursAt bundle bs q)
    (hfirst : ∀ k, i ≤ k → k < q → ¬ OccursAt bundle bs k) (hle : i ≤ q) (hlt : q < i + n) :
    search bundle bs i n = .ok (some q) := by
  induction n generalizing i with
  | zero => exact absurd hlt (Nat.not_lt.mpr hle)
  | succ n ih =>
      rw [search, matchesAt_eq (by omega)]
      change (if _ then _ else _) = _
      obtain rfl | hlt' := Nat.eq_or_lt_of_le hle
      · rw [if_pos (decide_eq_true hq)]
      · have hno : ¬ OccursAt bundle bs i := hfirst i (Nat.le_refl i) hlt'
        rw [if_neg (by simp [hno])]
        exact ih (by omega) (fun k hk => hfirst k (Nat.le_of_succ_le hk)) hlt' (by omega)

end

/-- The cells read as these characters, up to the NUL. -/
def ReadsAs (xs : List JInt) (v : List JChar) : Prop := v ++ [0] <+: xs.map fun x => x.setWidth 16

instance decidableReadsAs (xs : List JInt) (v : List JChar) : Decidable (ReadsAs xs v) :=
  inferInstanceAs (Decidable (v ++ [0] <+: xs.map fun x => x.setWidth 16))

/-- **The value** is what the cells read as. -/
theorem readValue_eq_ok {xs : List JInt} {v : List JChar} (hv : 0 ∉ v) : readValue xs = .ok v ↔ ReadsAs xs v := by
  induction xs generalizing v with
  | nil => simp [readValue, ReadsAs]
  | cons x xs ih =>
      rw [ReadsAs, List.map_cons, readValue]
      by_cases hch : (x.setWidth 16 : JChar) = 0
      · rw [if_pos hch, hch]
        cases v with
        | nil => exact iff_of_true rfl (List.cons_prefix_cons.mpr ⟨rfl, List.nil_prefix⟩)
        | cons c v =>
            refine iff_of_false (by simp) fun hprefix => hv ?_
            rw [(List.cons_prefix_cons.mp hprefix).1]
            exact List.mem_cons_self
      · rw [if_neg hch]
        cases v with
        | nil =>
            refine iff_of_false ?_ fun hprefix => hch (List.cons_prefix_cons.mp hprefix).1.symm
            cases readValue xs <;> simp [bind, Except.bind]
        | cons c v =>
            have hrest := ih (fun hmem => hv (List.mem_cons_of_mem c hmem))
            rw [List.cons_append, List.cons_prefix_cons, ← ReadsAs, ← hrest]
            cases readValue xs with
            | error e => simp [bind, Except.bind]
            | ok s => simp [bind, Except.bind, eq_comm]

/-! ## The table -/

/-- A character that can stand in a name or a value. -/
def IsAscii (b : Byte) : Prop := 0 < b.toNat ∧ b.toNat < 128

instance decidableIsAscii (b : Byte) : Decidable (IsAscii b) := inferInstanceAs (Decidable (0 < b.toNat ∧ b.toNat < 128))

/-- An entry: an agent type of four bytes, an index, a name and a value. -/
structure Entry where
  type : List JInt
  index : JInt
  name : List Byte
  value : List Byte
  length_type : type.length = 4
  ascii_name : ∀ b ∈ name, IsAscii b
  ascii_value : ∀ b ∈ value, IsAscii b

/-- Its cells, with the NULs behind the name and the value. -/
def Entry.cells (e : Entry) : List JInt :=
  e.type ++ e.index :: (AppLoader.cells e.name ++ 0 :: (AppLoader.cells e.value ++ [0]))

/-- The code, the table, and the name of the application. -/
def bundleOf (code : List JInt) (entries : List Entry) (appName : List Byte) : List JInt :=
  code ++ (entries.flatMap Entry.cells ++ (cells appName ++ [0]))

/-- Where the name of the entry behind `before` begins. -/
def nameAt (code : List JInt) (before : List Entry) : Nat := code.length + (before.flatMap Entry.cells).length + 5

/-- The value as characters. -/
def chars (bs : List Byte) : List JChar := bs.map fun b => b.setWidth 16

/-- The name stands before its entry, and what follows its first place, after
one more byte, is not the value. -/
def Shadowed (bundle : List JInt) (e : Entry) (p : Nat) : Prop :=
  ∃ q < p, OccursAt bundle e.name q ∧ (∀ k < q, ¬ OccursAt bundle e.name k) ∧
    ¬ ReadsAs (bundle.drop (q + (e.name.length + 1))) (chars e.value)

instance decidableShadowed (bundle : List JInt) (e : Entry) (p : Nat) : Decidable (Shadowed bundle e p) :=
  inferInstanceAs (Decidable (∃ q < p, _))

section
variable {code : List JInt} {before after : List Entry} {e : Entry} {appName : List Byte}

theorem length_cells (bs : List Byte) : (cells bs).length = bs.length := List.length_map ..

/-- A cell of an ASCII character, as a `char`. -/
theorem setWidth_cell {b : Byte} (h : IsAscii b) : ((b.signExtend 32).setWidth 16 : JChar) = b.setWidth 16 := by
  have hmsb : b.msb = false := by
    rw [BitVec.msb_eq_false_iff_two_mul_lt]
    have hlt := h.2
    omega
  rw [BitVec.signExtend_eq_setWidth_of_msb_false hmsb]
  apply BitVec.eq_of_toNat_eq
  have hlt := h.2
  simp only [BitVec.toNat_setWidth]
  omega

theorem readsAs_cells {v : List Byte} (hv : ∀ b ∈ v, IsAscii b) (rest : List JInt) :
    ReadsAs (cells v ++ 0 :: rest) (chars v) := by
  have hchars : (cells v).map (fun x => (x.setWidth 16 : JChar)) = chars v := by
    rw [cells, List.map_map]
    exact List.map_congr_left fun b hb => setWidth_cell (hv b hb)
  rw [ReadsAs, List.map_append, hchars, List.map_cons]
  exact (List.prefix_append_right_inj _).mpr (List.cons_prefix_cons.mpr ⟨rfl, List.nil_prefix⟩)

theorem zero_not_mem_chars (e : Entry) : 0 ∉ chars e.value := by
  intro hmem
  obtain ⟨b, hb, hzero⟩ := List.mem_map.mp hmem
  have hascii := e.ascii_value b hb
  have hnat : b.toNat % 2 ^ 16 = 0 := (BitVec.toNat_setWidth 16 b).symm.trans (congrArg BitVec.toNat hzero)
  have hpos := hascii.1
  have hlt := hascii.2
  omega

/-- What stands at the name of an entry, and behind. -/
theorem exists_drop_nameAt (code : List JInt) (before after : List Entry) (e : Entry) (appName : List Byte) :
    ∃ pre rest, pre.length = nameAt code before ∧
      bundleOf code (before ++ e :: after) appName =
        pre ++ (cells e.name ++ 0 :: (cells e.value ++ 0 :: rest)) := by
  refine ⟨code ++ before.flatMap Entry.cells ++ (e.type ++ [e.index]),
    after.flatMap Entry.cells ++ (cells appName ++ [0]), ?_, ?_⟩
  · rw [nameAt]
    simp [e.length_type, Nat.add_assoc]
  · rw [bundleOf, List.flatMap_append, List.flatMap_cons, Entry.cells]
    simp

end

/-- Behind an occurrence that the search comes to first stands what is read. -/
theorem getConfigSetting_of_first {bundle : List JInt} {name : List Byte} {q : Nat}
    (hroom : q + name.length + 1 < bundle.length) (hq : OccursAt bundle name q)
    (hfirst : ∀ k < q, ¬ OccursAt bundle name k) :
    getConfigSetting bundle name = readValue (bundle.drop (q + (name.length + 1))) := by
  have hsearch : search bundle name 0 (bundle.length - name.length - 1) = .ok (some q) :=
    search_eq (by omega) hq (fun k _ hk => hfirst k hk) (Nat.zero_le q) (by omega)
  rw [getConfigSetting, hsearch]
  rfl

/-- **A setting** that has an entry is looked up right exactly if its name does
not stand in front of that entry, but for a place that is followed by its value
too. -/
theorem getConfigSetting_iff (code : List JInt) (before after : List Entry) (e : Entry) (appName : List Byte) :
    getConfigSetting (bundleOf code (before ++ e :: after) appName) e.name = .ok (chars e.value) ↔
      ¬ Shadowed (bundleOf code (before ++ e :: after) appName) e (nameAt code before) := by
  obtain ⟨pre, rest, hpre, hbundle⟩ := exists_drop_nameAt code before after e appName
  rw [hbundle, ← hpre]
  have hname : (pre ++ (cells e.name ++ 0 :: (cells e.value ++ 0 :: rest))).drop pre.length =
      cells e.name ++ 0 :: (cells e.value ++ 0 :: rest) := List.drop_left
  have hvalue : (pre ++ (cells e.name ++ 0 :: (cells e.value ++ 0 :: rest))).drop
      (pre.length + (e.name.length + 1)) = cells e.value ++ 0 :: rest := by
    rw [← List.drop_drop, hname, ← length_cells e.name, ← List.drop_drop, List.drop_left]
    rfl
  have hroom : pre.length + e.name.length + 1 <
      (pre ++ (cells e.name ++ 0 :: (cells e.value ++ 0 :: rest))).length := by
    simp only [List.length_append, List.length_cons, length_cells]
    omega
  generalize pre ++ (cells e.name ++ 0 :: (cells e.value ++ 0 :: rest)) = bundle at hname hvalue hroom ⊢
  have hown : OccursAt bundle e.name pre.length := by
    rw [OccursAt, hname]
    exact List.prefix_append _ _
  have hread : ReadsAs (bundle.drop (pre.length + (e.name.length + 1))) (chars e.value) := by
    rw [hvalue]
    exact readsAs_cells e.ascii_value rest
  -- The first place is the one that the search comes to.
  obtain ⟨q, hq, hfirst⟩ : ∃ q, OccursAt bundle e.name q ∧ ∀ k < q, ¬ OccursAt bundle e.name k :=
    ⟨Nat.find ⟨_, hown⟩, Nat.find_spec ⟨_, hown⟩, fun k hk => Nat.find_min ⟨_, hown⟩ hk⟩
  have hle : q ≤ pre.length := Nat.le_of_not_lt fun hlt => hfirst _ hlt hown
  rw [getConfigSetting_of_first (by omega) hq hfirst, readValue_eq_ok (zero_not_mem_chars e)]
  constructor
  · rintro hq' ⟨q', -, hoccurs, hfirst', hno⟩
    have heq : q' = q :=
      Nat.le_antisymm (Nat.le_of_not_lt fun hlt => hfirst' q hlt hq) (Nat.le_of_not_lt fun hlt => hfirst q' hlt hoccurs)
    rw [heq] at hno
    exact hno hq'
  · intro hnot
    by_contra hno
    have hne : q ≠ pre.length := by
      rintro rfl
      exact hno hread
    exact hnot ⟨q, Nat.lt_of_le_of_ne hle hne, hq, hfirst, hno⟩

/-- An entry of type `0x10008800`. -/
def sampleEntry (name value : List Byte) (hname : ∀ b ∈ name, IsAscii b) (hvalue : ∀ b ∈ value, IsAscii b) : Entry :=
  ⟨[0x10, 0x00, 0x88, 0x00], 0x01, name, value, rfl, hname, hvalue⟩

/-- `LatX = 1` stands before `Lat = 2`. -/
theorem longer_name_shadows :
    ¬ ∀ (code : List JInt) (entries : List Entry) (appName : List Byte), (entries.map Entry.name).Nodup →
      ∀ e ∈ entries, getConfigSetting (bundleOf code entries appName) e.name = .ok (chars e.value) := by
  intro h
  have hlat := h [0x08, 0x95] [sampleEntry [0x4C, 0x61, 0x74, 0x58] [0x31] (by decide) (by decide),
    sampleEntry [0x4C, 0x61, 0x74] [0x32] (by decide) (by decide)] [0x41] (by decide)
    (sampleEntry [0x4C, 0x61, 0x74] [0x32] (by decide) (by decide)) (by simp)
  exact absurd hlat (by decide)

end Pobicos.AppLoader
