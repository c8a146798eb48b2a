import Mathlib.Logic.Function.Basic

/-!
# RingQueue

A bounded queue in a ring of cells: the index of the first element and a count.

`toList` is the queue; pushing appends to it, popping drops its first element,
and cells outside of it are nobody's concern.
-/

/-- `n` cells, of which `count` from `head` on are in use. -/
structure RingQueue (α : Type) (n : Nat) where
  cell : Fin n → α
  head : Fin n
  count : Nat
  le : count ≤ n

namespace RingQueue

variable {α : Type} {n : Nat} {r : RingQueue α n} {a : α} {k l : Nat}

/-- The cell of the `k`-th element. -/
def pos (r : RingQueue α n) (k : Nat) : Fin n := ⟨(r.head + k) % n, Nat.mod_lt _ (Nat.zero_lt_of_lt r.head.isLt)⟩

/-- The elements, the first one first. -/
def toList (r : RingQueue α n) : List α := (List.range r.count).map fun k => r.cell (r.pos k)

/-- One element more. -/
def push (r : RingQueue α n) (a : α) (h : r.count < n) : RingQueue α n :=
  ⟨Function.update r.cell (r.pos r.count) a, r.head, r.count + 1, h⟩

/-- One element less. -/
def pop (r : RingQueue α n) : RingQueue α n := ⟨r.cell, r.pos 1, r.count - 1, Nat.le_trans (Nat.sub_le _ _) r.le⟩

@[simp] theorem length_toList (r : RingQueue α n) : r.toList.length = r.count := by simp [toList]

@[simp] theorem pos_zero (r : RingQueue α n) : r.pos 0 = r.head := by
  apply Fin.ext
  simp [pos, Nat.mod_eq_of_lt r.head.isLt]

theorem getElem_toList (h : k < r.toList.length) : r.toList[k] = r.cell (r.pos k) := by
  simp [toList]

/-- The elements are in different cells. -/
theorem pos_inj (hk : k < n) (hl : l < n) (h : r.pos k = r.pos l) : k = l := by
  have hmod : (r.head + k) % n = (r.head + l) % n := congrArg Fin.val h
  obtain hle | hle := Nat.le_total k l
  · have hdvd := Nat.dvd_of_mod_eq_zero (Nat.sub_mod_eq_zero_of_mod_eq hmod.symm)
    have hzero := Nat.eq_zero_of_dvd_of_lt hdvd (by omega)
    omega
  · have hdvd := Nat.dvd_of_mod_eq_zero (Nat.sub_mod_eq_zero_of_mod_eq hmod)
    have hzero := Nat.eq_zero_of_dvd_of_lt hdvd (by omega)
    omega

theorem toList_push (h : r.count < n) : (r.push a h).toList = r.toList ++ [a] := by
  unfold toList
  show (List.range (r.count + 1)).map (fun k => Function.update r.cell (r.pos r.count) a (r.pos k)) = _
  rw [List.range_succ, List.map_append, List.map_singleton, Function.update_self]
  congr 1
  apply List.map_congr_left
  intro k hk
  have hlt := List.mem_range.mp hk
  apply Function.update_of_ne
  intro heq
  have := pos_inj (by omega) h heq
  omega

theorem pos_pop (r : RingQueue α n) (k : Nat) : r.pop.pos k = r.pos (k + 1) := by
  apply Fin.ext
  show ((r.head + 1) % n + k) % n = (r.head + (k + 1)) % n
  rw [Nat.mod_add_mod]
  congr 1
  omega

theorem toList_pop (r : RingQueue α n) : r.pop.toList = r.toList.tail := by
  apply List.ext_getElem
  · simp [pop]
  · intro k hk hk'
    rw [getElem_toList, List.getElem_tail, getElem_toList, pos_pop]
    rfl

theorem head?_toList (h : 0 < r.count) : r.toList.head? = some (r.cell r.head) := by
  have hlt : 0 < r.toList.length := by simpa using h
  rw [List.head?_eq_getElem?, List.getElem?_eq_getElem hlt, getElem_toList, pos_zero]

end RingQueue
