import Mathlib.Data.List.Chain
import Mathlib.Logic.Function.Basic

/-!
# NodePool

A fixed number of nodes that are handed out and given back.  The free ones are a
linked list, kept as its first and its last node; the last one is never handed
out, so that the list is never empty.

* `Owns` says who has the nodes: the free list, a user under a key, or a caller
  who has just taken them.  No node is in two places.
* `view` is what the users have under their keys; `view_put`, `view_rewrite` and
  `view_free` say that a node that is written or given back is one key's alone.
-/

/-- The nodes with their links, and the two ends of the list of free ones. -/
structure NodePool (α : Type) (n : Nat) where
  val : Fin n → α
  next : Fin n → Option (Fin n)
  first : Fin n
  last : Fin n

namespace NodePool

variable {α κ : Type} {n : Nat} {p q : NodePool α n} {hold : κ → Option (Fin n)} {taken free : List (Fin n)}
  {i : Fin n} {k : κ} {a : α}

/-- The first free node, unless it is the last one. -/
def get (p : NodePool α n) : Option (Fin n × NodePool α n) :=
  if p.first = p.last then none
  else some (p.first, { p with first := (p.next p.first).getD p.first })

/-- A whole node is written, without a link. -/
def put (p : NodePool α n) (i : Fin n) (a : α) : NodePool α n :=
  { p with val := Function.update p.val i a, next := Function.update p.next i none }

/-- A node is linked behind the last free one. -/
def release (p : NodePool α n) (i : Fin n) : NodePool α n :=
  { p with next := Function.update (Function.update p.next p.last (some i)) i none, last := i }

/-- What is under the keys. -/
def view (p : NodePool α n) (hold : κ → Option (Fin n)) : κ → Option α := fun k => (hold k).map p.val

/-- Who has which node: `free` are those that can be handed out, `hold` says what
is under the keys, and `taken` what has been handed out and is nowhere yet. -/
structure Owns (p : NodePool α n) (hold : κ → Option (Fin n)) (taken free : List (Fin n)) : Prop where
  first : (free ++ [p.last]).head? = some p.first
  linked : (free ++ [p.last]).IsChain fun a b => p.next a = some b
  nodup : (taken ++ (free ++ [p.last])).Nodup
  apart : ∀ k i, hold k = some i → i ∉ taken ++ (free ++ [p.last])
  sole : ∀ k k' i, hold k = some i → hold k' = some i → k = k'

/-- The links of all nodes but the last one matter. -/
theorem isChain_concat_congr {r s : Fin n → Fin n → Prop} {l : List (Fin n)}
    (h : ∀ a ∈ l, ∀ b, r a b → s a b) (hl : (l ++ [i]).IsChain r) : (l ++ [i]).IsChain s := by
  induction l with
  | nil => simp
  | cons a l ih =>
      cases l with
      | nil =>
          simp only [List.cons_append, List.nil_append, List.isChain_cons_cons] at hl ⊢
          exact ⟨h a (by simp) i hl.1, by simp⟩
      | cons b l =>
          simp only [List.cons_append, List.isChain_cons_cons] at hl ⊢
          exact ⟨h a (by simp) b hl.1, ih (fun c hc => h c (List.mem_cons_of_mem a hc)) hl.2⟩

/-! ## All nodes free -/

/-- The nodes linked one after the other. -/
def chained (val : Fin (n + 1) → α) : NodePool α (n + 1) where
  val := val
  next := fun i => if h : i.val < n then some ⟨i.val + 1, Nat.succ_lt_succ h⟩ else none
  first := 0
  last := Fin.last n

theorem owns_chained (val : Fin (n + 1) → α) :
    Owns (chained val) (fun _ : κ => none) [] ((List.finRange n).map Fin.castSucc) := by
  have hall : (List.finRange n).map Fin.castSucc ++ [(chained val).last] = List.finRange (n + 1) :=
    List.finRange_succ_last.symm
  refine ⟨?_, ?_, ?_, nofun, nofun⟩
  · rw [hall, List.finRange_succ]
    rfl
  · rw [hall, List.isChain_iff_getElem]
    intro i hi
    have hlt : i < n := by simpa using hi
    simp [chained, hlt]
  · rw [hall]
    exact List.nodup_finRange (n + 1)

/-! ## Nodes handed out -/

theorem Owns.first_ne_last (h : Owns p hold taken (i :: free)) : p.first ≠ p.last := by
  intro heq
  have hfirst := h.first
  simp only [List.cons_append, List.head?_cons, Option.some.injEq] at hfirst
  have hnodup := (List.nodup_append.mp h.nodup).2.1
  rw [List.cons_append, List.nodup_cons] at hnodup
  exact hnodup.1 (by simp [hfirst, heq])

/-- No node is handed out exactly if none is left but the last one. -/
theorem Owns.get_eq_none_iff (h : Owns p hold taken free) : p.get = none ↔ free = [] := by
  unfold NodePool.get
  cases free with
  | nil =>
      have hfirst := h.first
      simp only [List.nil_append, List.head?_cons, Option.some.injEq] at hfirst
      simp [hfirst]
  | cons i free => simp [h.first_ne_last]

/-- What is handed out was free, and nothing else changes hands. -/
theorem Owns.get (h : Owns p hold taken free) (hget : p.get = some (i, q)) :
    ∃ free', free = i :: free' ∧ q.val = p.val ∧ Owns q hold (i :: taken) free' := by
  cases free with
  | nil =>
      rw [h.get_eq_none_iff.mpr rfl] at hget
      cases hget
  | cons j free =>
      have hne := h.first_ne_last
      obtain ⟨hfirst, hlinked, hnodup, hapart, hsole⟩ := h
      unfold NodePool.get at hget
      rw [if_neg hne] at hget
      cases hget
      simp only [List.cons_append, List.head?_cons, Option.some.injEq] at hfirst
      subst hfirst
      rw [List.cons_append] at hlinked hnodup hapart
      refine ⟨free, rfl, rfl, ?_, ?_, ?_, ?_, hsole⟩
      · cases free with
        | nil =>
            simp at hlinked
            simp [hlinked]
        | cons b free => simp_all
      · exact hlinked.tail
      · exact (List.perm_middle.nodup_iff).mp hnodup
      · intro k i hi hmem
        exact hapart k i hi (List.perm_middle.mem_iff.mpr hmem)

/-- Nodes that have been handed out may be forgotten. -/
theorem Owns.forget {taken' : List (Fin n)} (h : Owns p hold taken free) (hsub : taken'.Sublist taken) :
    Owns p hold taken' free :=
  ⟨h.first, h.linked, h.nodup.sublist (hsub.append_right _),
    fun k j hj hmem => h.apart k j hj ((hsub.append_right _).subset hmem), h.sole⟩

theorem Owns.perm {taken' : List (Fin n)} (h : Owns p hold taken free) (hperm : taken.Perm taken') :
    Owns p hold taken' free :=
  ⟨h.first, h.linked, ((hperm.append_right _).nodup_iff).mp h.nodup,
    fun k i hi hmem => h.apart k i hi ((hperm.append_right _).mem_iff.mpr hmem), h.sole⟩

/-! ## Nodes under keys -/

theorem Owns.linked_put (h : Owns p hold taken free) (hi : i ∉ free ++ [p.last]) (a : α) :
    (free ++ [p.last]).IsChain fun b c => (p.put i a).next b = some c := by
  refine isChain_concat_congr (fun b hb c hbc => ?_) h.linked
  have hne : b ≠ i := fun heq => hi (heq ▸ List.mem_append_left _ hb)
  show Function.update p.next i none b = some c
  rwa [Function.update_of_ne hne]

/-- A write to a node that nobody has. -/
theorem view_write (hi : ∀ k, hold k ≠ some i) (a : α) : view (p.put i a) hold = view p hold := by
  funext k
  unfold view
  cases hk : hold k with
  | none => rfl
  | some j =>
      have hne : j ≠ i := fun heq => hi k (heq ▸ hk)
      simp [NodePool.put, Function.update_of_ne hne]

/-- The node under a key is written again. -/
theorem Owns.rewrite (h : Owns p hold taken free) (hk : hold k = some i) (a : α) :
    Owns (p.put i a) hold taken free :=
  ⟨h.first, h.linked_put (fun hmem => h.apart k i hk (List.mem_append_right _ hmem)) a, h.nodup, h.apart, h.sole⟩

theorem Owns.release_linked (h : Owns p hold taken free) (hi : i ∉ free ++ [p.last]) :
    ((free ++ [p.last]) ++ [i]).IsChain fun a b => (p.release i).next a = some b := by
  have hlast : p.last ∉ free := by
    have hnodup := (List.nodup_append.mp h.nodup).2.1
    exact fun hmem => (List.nodup_append.mp hnodup).2.2 p.last hmem p.last (by simp) rfl
  have hne : p.last ≠ i := fun heq => hi (by simp [heq])
  rw [List.isChain_append]
  refine ⟨?_, by simp, ?_⟩
  · refine isChain_concat_congr (fun a ha b hab => ?_) h.linked
    have hai : a ≠ i := fun heq => hi (heq ▸ List.mem_append_left _ ha)
    have hal : a ≠ p.last := fun heq => hlast (heq ▸ ha)
    show Function.update (Function.update p.next p.last (some i)) i none a = some b
    rwa [Function.update_of_ne hai, Function.update_of_ne hal]
  · intro a ha b hb
    simp at ha hb
    subst ha hb
    show Function.update (Function.update p.next p.last (some i)) i none p.last = some i
    rw [Function.update_of_ne hne, Function.update_self]

variable [DecidableEq κ]

/-- A node that has been handed out is written and put under a key. -/
theorem Owns.put (h : Owns p hold (i :: taken) free) (k : κ) (a : α) (hk : hold k = none) :
    Owns (p.put i a) (Function.update hold k (some i)) taken free := by
  have hi := (List.nodup_cons.mp h.nodup).1
  refine ⟨h.first, h.linked_put (fun hmem => hi (List.mem_append_right _ hmem)) a,
    (List.nodup_cons.mp h.nodup).2, ?_, ?_⟩
  · intro k' j hj
    by_cases heq : k' = k
    · subst heq
      rw [Function.update_self] at hj
      cases hj
      exact hi
    · rw [Function.update_of_ne heq] at hj
      exact fun hmem => h.apart k' j hj (List.mem_cons_of_mem i hmem)
  · have hfresh : ∀ k', hold k' ≠ some i := fun k' hk' => h.apart k' i hk' List.mem_cons_self
    intro k₁ k₂ j h₁ h₂
    by_cases heq₁ : k₁ = k
    · by_cases heq₂ : k₂ = k
      · rw [heq₁, heq₂]
      · rw [heq₁, Function.update_self] at h₁
        rw [Function.update_of_ne heq₂] at h₂
        cases h₁
        exact absurd h₂ (hfresh k₂)
    · rw [Function.update_of_ne heq₁] at h₁
      by_cases heq₂ : k₂ = k
      · rw [heq₂, Function.update_self] at h₂
        cases h₂
        exact absurd h₁ (hfresh k₁)
      · rw [Function.update_of_ne heq₂] at h₂
        exact h.sole k₁ k₂ j h₁ h₂

theorem view_update (p : NodePool α n) (hold : κ → Option (Fin n)) (k : κ) (x : Option (Fin n)) :
    view p (Function.update hold k x) = Function.update (view p hold) k (x.map p.val) := by
  funext k'
  by_cases heq : k' = k
  · subst heq
    simp [view]
  · simp [view, Function.update_of_ne heq]

theorem Owns.view_put (h : Owns p hold (i :: taken) free) (k : κ) (a : α) :
    view (p.put i a) (Function.update hold k (some i)) = Function.update (view p hold) k (some a) := by
  have hfresh : ∀ k', hold k' ≠ some i := fun k' hk' => h.apart k' i hk' List.mem_cons_self
  rw [view_update, view_write hfresh]
  simp [NodePool.put]

theorem Owns.view_rewrite (h : Owns p hold taken free) (hk : hold k = some i) (a : α) :
    view (p.put i a) hold = Function.update (view p hold) k (some a) := by
  funext k'
  by_cases heq : k' = k
  · subst heq
    simp [view, hk, NodePool.put]
  · rw [Function.update_of_ne heq]
    unfold view
    cases hk' : hold k' with
    | none => rfl
    | some j =>
        have hne : j ≠ i := fun hji => heq (h.sole k' k i (hji ▸ hk') hk)
        simp [NodePool.put, Function.update_of_ne hne]

/-! ## Nodes given back -/

/-- The node under a key is given back. -/
theorem Owns.release (h : Owns p hold taken free) (hk : hold k = some i) :
    Owns (p.release i) (Function.update hold k none) taken (free ++ [p.last]) := by
  have hi := h.apart k i hk
  have hfree : i ∉ free ++ [p.last] := fun hmem => hi (List.mem_append_right _ hmem)
  have hkeep : ∀ k' j, Function.update hold k none k' = some j → k' ≠ k ∧ hold k' = some j := by
    intro k' j hj
    by_cases heq : k' = k
    · subst heq
      simp at hj
    · rw [Function.update_of_ne heq] at hj
      exact ⟨heq, hj⟩
  refine ⟨?_, h.release_linked hfree, ?_, ?_, ?_⟩
  · show ((free ++ [p.last]) ++ [i]).head? = some p.first
    rw [List.head?_append, h.first]
    rfl
  · show (taken ++ ((free ++ [p.last]) ++ [i])).Nodup
    rw [← List.append_assoc, List.nodup_append]
    refine ⟨h.nodup, by simp, ?_⟩
    intro a ha b hb
    simp at hb
    exact fun heq => hi ((heq.trans hb) ▸ ha)
  · intro k' j hj hmem
    obtain ⟨hne, hj⟩ := hkeep k' j hj
    have hmem : j ∈ taken ++ ((free ++ [p.last]) ++ [i]) := hmem
    rw [← List.append_assoc, List.mem_append] at hmem
    obtain hmem | hmem := hmem
    · exact h.apart k' j hj hmem
    · simp at hmem
      subst hmem
      exact hne (h.sole k' k j hj hk)
  · intro k₁ k₂ j h₁ h₂
    exact h.sole k₁ k₂ j (hkeep k₁ j h₁).2 (hkeep k₂ j h₂).2

theorem view_release (p : NodePool α n) (hold : κ → Option (Fin n)) (k : κ) (i : Fin n) :
    view (p.release i) (Function.update hold k none) = Function.update (view p hold) k none :=
  view_update p hold k none

end NodePool
