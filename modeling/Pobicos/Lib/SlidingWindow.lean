import Mathlib.Algebra.Group.Nat.Defs
import Mathlib.Data.List.FinRange
import Mathlib.Data.List.Nodup
import Mathlib.Logic.Function.Basic

/-!
# SlidingWindow

Things that are numbered one after the other, of whose numbers only the low
bits are sent.

* Numbers that are less than a turn apart are told apart by their low bits
  (`seq_eq_iff`), and the difference of the low bits says which is the greater
  (`toNat_seq_sub`, `toNat_seq_sub_of_lt`).
* `Numbered R S buf`: the slots of `buf` have the things whose numbers are in
  `S`, every one once.  Things come and go by `Numbered.insert` and
  `Numbered.erase`.
* `Fresh`: no number that arrives is more than a window behind one that has
  arrived before it.
-/

namespace SlidingWindow

/-! ## Low bits -/

section Bits

variable {w m n : Nat}

/-- The difference of the low bits, of the greater number and the smaller. -/
theorem toNat_seq_sub (h : n ≤ m) (hclose : m < n + 2 ^ w) : (BitVec.ofNat w m - BitVec.ofNat w n).toNat = m - n := by
  obtain ⟨k, rfl⟩ := Nat.exists_eq_add_of_le h
  have hk : k < 2 ^ w := by omega
  rw [Nat.add_comm n k, BitVec.ofNat_add, BitVec.add_sub_cancel, BitVec.toNat_ofNat, Nat.mod_eq_of_lt hk]
  omega

theorem toNat_seq_sub_of_lt (h : m < n) (hclose : n < m + 2 ^ w) :
    (BitVec.ofNat w m - BitVec.ofNat w n).toNat = 2 ^ w - (n - m) := by
  have hturn : BitVec.ofNat w (m + 2 ^ w) = BitVec.ofNat w m := by
    apply BitVec.eq_of_toNat_eq
    simp
  rw [← hturn, toNat_seq_sub (by omega) (by omega)]
  omega

/-- **Low bits tell numbers apart** that are less than a turn apart. -/
theorem seq_eq_iff (h : m < n + 2 ^ w) (h' : n < m + 2 ^ w) : BitVec.ofNat w m = BitVec.ofNat w n ↔ m = n := by
  refine ⟨fun heq => ?_, fun heq => by rw [heq]⟩
  have hsub : (BitVec.ofNat w m - BitVec.ofNat w n).toNat = 0 := by rw [heq, BitVec.sub_self, BitVec.toNat_zero]
  by_cases hle : n ≤ m
  · rw [toNat_seq_sub hle h] at hsub
    omega
  · rw [toNat_seq_sub_of_lt (by omega) h'] at hsub
    omega

theorem seq_succ (w n : Nat) : BitVec.ofNat w (n + 1) = BitVec.ofNat w n + 1 := by
  rw [BitVec.ofNat_add]
  rfl

end Bits

/-! ## Buffers -/

variable {ι α : Type} {R R' : Nat → α → Prop} {S S' : Nat → Prop} {buf : ι → Option α} {j : ι} {a b : α} {n : Nat}

/-- The slots have the things with the numbers `S`; `R n a` says that `a` may be
the thing with the number `n`. -/
structure Numbered (R : Nat → α → Prop) (S : Nat → Prop) (buf : ι → Option α) : Prop where
  number : ∀ {j a}, buf j = some a → ∃ n, S n ∧ R n a
  slot : ∀ {n}, S n → ∃ j a, buf j = some a ∧ R n a
  sole : ∀ {n j k a b}, S n → buf j = some a → buf k = some b → R n a → R n b → j = k
  sharp : ∀ {m n a}, S m → S n → R m a → R n a → m = n

namespace Numbered

theorem empty (h : ∀ n, ¬ S n) : Numbered R S (fun _ : ι => none) :=
  ⟨nofun, fun hn => absurd hn (h _), fun hn => absurd hn (h _), fun hn => absurd hn (h _)⟩

theorem congr (h : Numbered R S buf) (hS : ∀ n, S n ↔ S' n) : Numbered R S' buf := by
  have heq : S = S' := by
    funext n
    exact propext (hS n)
  rwa [← heq]

/-- What the things may be can be said in another way. -/
theorem congr_rel (h : Numbered R S buf) (hR : ∀ n a, S n → (R n a ↔ R' n a)) : Numbered R' S buf := by
  refine ⟨fun hj => ?_, fun hn => ?_, fun hn hj hk ha hb => ?_, fun hm hn hma hna => ?_⟩
  · obtain ⟨n, hn, ha⟩ := h.number hj
    exact ⟨n, hn, (hR n _ hn).mp ha⟩
  · obtain ⟨j, a, hj, ha⟩ := h.slot hn
    exact ⟨j, a, hj, (hR _ a hn).mp ha⟩
  · exact h.sole hn hj hk ((hR _ _ hn).mpr ha) ((hR _ _ hn).mpr hb)
  · exact h.sharp hm hn ((hR _ _ hm).mpr hma) ((hR _ _ hn).mpr hna)

variable [DecidableEq ι]

/-- A new thing in a free slot. -/
theorem insert (h : Numbered R S buf) (hj : buf j = none) (ha : R n a) (hfresh : ∀ m b, S m → R m b → ¬ R n b) :
    Numbered R (fun m => S m ∨ m = n) (Function.update buf j (some a)) := by
  have hcases : ∀ {k b}, Function.update buf j (some a) k = some b → (k = j ∧ b = a) ∨ k ≠ j ∧ buf k = some b :=
    fun {k b} hk => by
      by_cases heq : k = j
      · subst heq
        simp only [Function.update_self, Option.some.injEq] at hk
        exact .inl ⟨rfl, hk.symm⟩
      · exact .inr ⟨heq, by rwa [Function.update_of_ne heq] at hk⟩
  -- what was there before does not pass for the new thing
  have hold : ∀ {k b}, buf k = some b → ¬ R n b := fun {k b} hk hb => by
    obtain ⟨m, hm, hmb⟩ := h.number hk
    exact hfresh m b hm hmb hb
  refine ⟨fun hk => ?_, fun {m} hm => ?_, fun {m k l b c} hm hk hl hb hc => ?_, fun {m m' b} hm hm' hb hb' => ?_⟩
  · obtain ⟨rfl, rfl⟩ | ⟨-, hk⟩ := hcases hk
    · exact ⟨n, .inr rfl, ha⟩
    · obtain ⟨m, hm, hb⟩ := h.number hk
      exact ⟨m, .inl hm, hb⟩
  · obtain hm | rfl := hm
    · obtain ⟨k, b, hk, hb⟩ := h.slot hm
      have hne : k ≠ j := by
        rintro rfl
        rw [hj] at hk
        cases hk
      exact ⟨k, b, by rwa [Function.update_of_ne hne], hb⟩
    · exact ⟨j, a, Function.update_self .., ha⟩
  · obtain hm | rfl := hm
    · obtain ⟨rfl, rfl⟩ | ⟨-, hk⟩ := hcases hk
      · exact absurd ha (hfresh m _ hm hb)
      · obtain ⟨rfl, rfl⟩ | ⟨-, hl⟩ := hcases hl
        · exact absurd ha (hfresh m _ hm hc)
        · exact h.sole hm hk hl hb hc
    · obtain ⟨rfl, rfl⟩ | ⟨-, hk⟩ := hcases hk
      · obtain ⟨rfl, rfl⟩ | ⟨-, hl⟩ := hcases hl
        · rfl
        · exact absurd hc (hold hl)
      · exact absurd hb (hold hk)
  · obtain hm | rfl := hm
    · obtain hm' | rfl := hm'
      · exact h.sharp hm hm' hb hb'
      · exact absurd hb' (hfresh m b hm hb)
    · obtain hm' | rfl := hm'
      · exact absurd hb (hfresh m' b hm' hb')
      · rfl

/-- The thing of a slot is taken out. -/
theorem erase (h : Numbered R S buf) (hj : buf j = some a) (hn : S n) (ha : R n a) :
    Numbered R (fun m => S m ∧ m ≠ n) (Function.update buf j none) := by
  have hkeep : ∀ {k b}, Function.update buf j none k = some b → k ≠ j ∧ buf k = some b := fun {k b} hk => by
    by_cases heq : k = j
    · subst heq
      simp at hk
    · exact ⟨heq, by rwa [Function.update_of_ne heq] at hk⟩
  refine ⟨fun hk => ?_, fun {m} hm => ?_, fun hm hk hl ha hb => ?_, fun hm hm' => h.sharp hm.1 hm'.1⟩
  · obtain ⟨hne, hk⟩ := hkeep hk
    obtain ⟨m, hm, hb⟩ := h.number hk
    exact ⟨m, ⟨hm, fun heq => hne (h.sole hn hk hj (heq ▸ hb) ha)⟩, hb⟩
  · obtain ⟨k, b, hk, hb⟩ := h.slot hm.1
    have hne : k ≠ j := by
      rintro rfl
      rw [hj] at hk
      cases hk
      exact hm.2 (h.sharp hm.1 hn hb ha)
    exact ⟨k, b, by rwa [Function.update_of_ne hne], hb⟩
  · exact h.sole hm.1 (hkeep hk).2 (hkeep hl).2 ha hb

/-- The thing of a slot is written again. -/
theorem rewrite (h : Numbered R S buf) (hj : buf j = some a) (hR : ∀ n, R n a ↔ R n b) :
    Numbered R S (Function.update buf j (some b)) := by
  have hsame : ∀ {k c}, Function.update buf j (some b) k = some c → ∃ c', buf k = some c' ∧ ∀ n, R n c' ↔ R n c :=
    fun {k c} hk => by
      by_cases heq : k = j
      · subst heq
        simp only [Function.update_self, Option.some.injEq] at hk
        exact ⟨a, hj, by rwa [← hk]⟩
      · exact ⟨c, by rwa [Function.update_of_ne heq] at hk, fun _ => Iff.rfl⟩
  refine ⟨fun hk => ?_, fun {m} hm => ?_, fun hm hk hl ha hb => ?_, h.sharp⟩
  · obtain ⟨c', hk', hc⟩ := hsame hk
    obtain ⟨m, hm, hb⟩ := h.number hk'
    exact ⟨m, hm, (hc m).mp hb⟩
  · obtain ⟨k, c, hk, hc⟩ := h.slot hm
    by_cases heq : k = j
    · subst heq
      rw [hj] at hk
      cases hk
      exact ⟨k, b, Function.update_self .., (hR m).mp hc⟩
    · exact ⟨k, c, by rwa [Function.update_of_ne heq], hc⟩
  · obtain ⟨c₁, hk', hc₁⟩ := hsame hk
    obtain ⟨c₂, hl', hc₂⟩ := hsame hl
    exact h.sole hm hk' hl' ((hc₁ _).mpr ha) ((hc₂ _).mpr hb)

omit [DecidableEq ι] in
/-- The things are taken out that do not pass a test of their numbers. -/
theorem filter {test : α → Bool} {T : Nat → Prop} (h : Numbered R S buf) (ht : ∀ n a, S n → R n a → (test a = true ↔ T n)) :
    Numbered R (fun n => S n ∧ T n) (fun j => (buf j).filter test) := by
  have hkeep : ∀ {j a}, (buf j).filter test = some a → buf j = some a ∧ test a = true :=
    fun {j a} hj => Option.filter_eq_some_iff.mp hj
  refine ⟨fun hj => ?_, fun hn => ?_, fun hn hj hk => ?_, fun hm hn => h.sharp hm.1 hn.1⟩
  · obtain ⟨hj, htest⟩ := hkeep hj
    obtain ⟨n, hn, ha⟩ := h.number hj
    exact ⟨n, ⟨hn, (ht n _ hn ha).mp htest⟩, ha⟩
  · obtain ⟨j, a, hj, ha⟩ := h.slot hn.1
    exact ⟨j, a, Option.filter_eq_some_iff.mpr ⟨hj, (ht _ a hn.1 ha).mpr hn.2⟩, ha⟩
  · exact h.sole hn.1 (hkeep hj).1 (hkeep hk).1

end Numbered

/-! ## The things of a buffer in order -/

theorem filterMap_update_of_notMem [DecidableEq ι] {l : List ι} (h : j ∉ l) (x : Option α) :
    l.filterMap (Function.update buf j x) = l.filterMap buf := by
  apply List.filterMap_congr
  intro k hk
  have hne : k ≠ j := fun heq => h (heq ▸ hk)
  rw [Function.update_of_ne hne]

/-- A thing first, and then the others. -/
theorem filterMap_perm [DecidableEq ι] {l : List ι} (hl : l.Nodup) (hmem : j ∈ l) (hj : buf j = some a) :
    (l.filterMap buf).Perm (a :: l.filterMap (Function.update buf j none)) := by
  obtain ⟨pre, post, rfl⟩ := List.append_of_mem hmem
  rw [List.nodup_append, List.nodup_cons] at hl
  have hpre : j ∉ pre := fun h => hl.2.2 j h j List.mem_cons_self rfl
  rw [List.filterMap_append, List.filterMap_append, List.filterMap_cons_some hj,
    List.filterMap_cons_none (Function.update_self ..), filterMap_update_of_notMem hpre,
    filterMap_update_of_notMem hl.2.1.1]
  exact List.perm_middle

/-- **What is said of the things of a buffer** slot after slot, is said of their
numbers in any order. -/
theorem Numbered.filterMap_perm {β : Type} [DecidableEq ι] {l : List ι} {ns : List Nat} {f : α → Option β}
    {g : Nat → Option β} (h : Numbered R S buf) (hl : l.Nodup) (hall : ∀ j, j ∈ l) (hns : ns.Nodup)
    (hS : ∀ n, S n ↔ n ∈ ns) (hfg : ∀ n a, S n → R n a → f a = g n) :
    ((l.filterMap buf).filterMap f).Perm (ns.filterMap g) := by
  induction ns generalizing S buf with
  | nil =>
      have hnone : ∀ j ∈ l, buf j = none := fun j _ => by
        cases hj : buf j with
        | none => rfl
        | some a =>
            obtain ⟨n, hn, -⟩ := h.number hj
            exact absurd ((hS n).mp hn) List.not_mem_nil
      rw [List.filterMap_eq_nil_iff.mpr hnone]
      exact List.Perm.refl _
  | cons n ns ih =>
      obtain ⟨hfresh, hns⟩ := List.nodup_cons.mp hns
      have hn : S n := (hS n).mpr List.mem_cons_self
      obtain ⟨j, a, hj, ha⟩ := h.slot hn
      have hrest := ih (h.erase hj hn ha) hns (fun m => ?_) fun m b hm hb => hfg m b hm.1 hb
      · have hfirst := (SlidingWindow.filterMap_perm hl (hall j) hj).filterMap f
        refine hfirst.trans ?_
        rw [List.filterMap_cons, List.filterMap_cons, hfg n a hn ha]
        cases g n with
        | none => exact hrest
        | some b => exact hrest.cons b
      · rw [hS, List.mem_cons]
        constructor
        · rintro ⟨heq | hmem, hne⟩
          · exact absurd heq hne
          · exact hmem
        · exact fun hmem => ⟨.inr hmem, fun heq => hfresh (heq ▸ hmem)⟩

/-! ## Channels -/

/-- Numbers on their way in order, of which none is `W` behind what has arrived
before it; `top` is the greatest that has. -/
def Fresh (W top : Nat) (ns : List Nat) : Prop := (top :: ns).Pairwise fun m n => m < n + W

section Channels

variable {W top top' : Nat} {ns : List Nat}

theorem fresh_nil (W top : Nat) : Fresh W top [] := List.pairwise_singleton _ _

theorem Fresh.head (h : Fresh W top (n :: ns)) : top < n + W := (List.pairwise_cons.mp h).1 n List.mem_cons_self

/-- The first number arrives. -/
theorem Fresh.tail (h : Fresh W top (n :: ns)) (htop : top' = top ∨ top' = n) : Fresh W top' ns := by
  obtain ⟨htop₁, hrest⟩ := List.pairwise_cons.mp h
  obtain ⟨hn, hns⟩ := List.pairwise_cons.mp hrest
  refine List.pairwise_cons.mpr ⟨fun m hm => ?_, hns⟩
  obtain rfl | rfl := htop
  · exact htop₁ m (List.mem_cons_of_mem n hm)
  · exact hn m hm

/-- A number is sent after others that are not too far ahead. -/
theorem Fresh.concat (h : Fresh W top ns) (htop : top < n + W) (hns : ∀ m ∈ ns, m < n + W) :
    Fresh W top (ns ++ [n]) := by
  rw [Fresh, ← List.cons_append]
  refine List.pairwise_append.mpr ⟨h, List.pairwise_singleton _ _, fun m hm k hk => ?_⟩
  rw [List.mem_singleton.mp hk]
  obtain rfl | hm := List.mem_cons.mp hm
  · exact htop
  · exact hns m hm

end Channels

end SlidingWindow
