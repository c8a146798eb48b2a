import Mathlib.Logic.Function.Basic
import Pobicos.Lib.Lts

/-!
# Threads

Threads that share a state and write arrays to one queue, item by item.

A program reads and assigns the state and writes arrays (`Prog`).  Another
thread may run before each item; from there to the next item a program is not
interrupted (`Prog.next`); a program that never is interrupted is `Prog.alone`.
`Safe` is the rule for what every assignment of a program guarantees and what
every array is; `Pool` is the threads with their state and their queue.

Nothing keeps the arrays apart on the queue but the order in which the threads
run: they stay whole as long as a thread writes a first item only when no other
one is in the middle of an array (`Unmixed.offer`), and only then
(`Unmixed.first_alone`).
-/

namespace Threads

variable {κ σ ε β α γ : Type}

/-! ## Programs -/

inductive Prog (σ ε β α : Type) : Type
  | pure (a : α)
  | throw (e : ε)
  | get (k : σ → Prog σ ε β α)
  | set (s : σ) (k : Prog σ ε β α)
  | write (items : List β) (k : Prog σ ε β α)

namespace Prog

def bind : Prog σ ε β α → (α → Prog σ ε β γ) → Prog σ ε β γ
  | pure a, f => f a
  | throw e, _ => throw e
  | get k, f => get fun s => (k s).bind f
  | set s k, f => set s (k.bind f)
  | write items k, f => write items (k.bind f)

instance : Monad (Prog σ ε β) where
  pure := pure
  bind := bind

/-- The state. -/
def read : Prog σ ε β σ := get pure

/-- An assignment. -/
def modify (f : σ → σ) : Prog σ ε β Unit := get fun s => set (f s) (pure ())

/-- An array. -/
def writeAll (items : List β) : Prog σ ε β Unit := write items (pure ())

/-- What can throw, without the state. -/
def ofExcept : Except ε α → Prog σ ε β α
  | .ok a => pure a
  | .error e => throw e

end Prog

/-- A program in front of an item: the array, the index in it, and what is left
to do after the array. -/
structure Writing (σ ε β : Type) where
  items : List β
  i : Nat
  rest : Prog σ ε β Unit
  i_lt : i < items.length

/-- The item. -/
def Writing.item (p : Writing σ ε β) : β := p.items.get ⟨p.i, p.i_lt⟩

namespace Prog

/-- A program up to its next item, or to its end. -/
def next : Prog σ ε β Unit → σ → Except ε (σ × Option (Writing σ ε β))
  | pure _, s => .ok (s, none)
  | throw e, _ => .error e
  | get k, s => (k s).next s
  | set s k, _ => k.next s
  | write [] k, s => k.next s
  | write (b :: bs) k, s => .ok (s, some ⟨b :: bs, 0, k, Nat.succ_pos _⟩)

/-- The next item is a first one. -/
theorem i_next {p : Prog σ ε β Unit} {s t : σ} {q : Option (Writing σ ε β)} (h : p.next s = .ok (t, q)) :
    ∀ w ∈ q, w.i = 0 := by
  induction p generalizing s with
  | pure a =>
      cases h
      exact fun w hw => (nomatch hw)
  | throw e => cases h
  | get k ih => exact ih s h
  | set s' k ih => exact ih h
  | write items k ih =>
      cases items with
      | nil => exact ih h
      | cons b bs =>
          cases h
          rintro w ⟨⟩
          rfl

/-! ## What a program guarantees -/

/-- Every assignment is as `G` says and every array as `R` says, whatever other
threads do to the state before an item. -/
def Safe (G : σ → σ → Prop) (R : List β → Prop) : Prog σ ε β α → σ → Prop
  | pure _, _ => True
  | throw _, _ => True
  | get k, s => (k s).Safe G R s
  | set t k, s => G s t ∧ k.Safe G R t
  | write items k, _ => R items ∧ ∀ s, k.Safe G R s

variable {G : σ → σ → Prop} {R : List β → Prop} {s : σ}

/-- **Sequence**: where what comes after is safe in any state. -/
theorem Safe.bind {p : Prog σ ε β α} {f : α → Prog σ ε β γ} (hp : p.Safe G R s)
    (hf : ∀ a t, (f a).Safe G R t) : (p >>= f).Safe G R s := by
  induction p generalizing s with
  | pure a => exact hf a s
  | throw e => trivial
  | get k ih => exact ih s hp
  | set t k ih => exact ⟨hp.1, ih hp.2⟩
  | write items k ih => exact ⟨hp.1, fun t => ih (hp.2 t)⟩

theorem safe_read_bind {f : σ → Prog σ ε β α} : (read >>= f).Safe G R s ↔ (f s).Safe G R s := Iff.rfl

theorem safe_modify {f : σ → σ} : (modify f : Prog σ ε β Unit).Safe G R s ↔ G s (f s) :=
  and_iff_left trivial

theorem safe_modify_bind {f : σ → σ} {k : Unit → Prog σ ε β α} :
    (modify f >>= k).Safe G R s ↔ G s (f s) ∧ (k ()).Safe G R (f s) := Iff.rfl

theorem safe_writeAll {items : List β} :
    (writeAll items : Prog σ ε β Unit).Safe G R s ↔ R items :=
  and_iff_left fun _ => trivial

theorem safe_ofExcept_bind {x : Except ε α} {f : α → Prog σ ε β γ} :
    (ofExcept x >>= f).Safe G R s ↔ ∀ a, x = .ok a → (f a).Safe G R s := by
  cases x with
  | error e => exact ⟨fun _ a ha => (nomatch ha), fun _ => trivial⟩
  | ok a =>
      constructor
      · intro h b hb
        cases hb
        exact h
      · exact fun h => h a rfl

/-- Up to its next item a safe program does one thing after the other that `G`
allows; the array then is as `R` says, and the rest is safe. -/
theorem Safe.next (hrefl : ∀ s, G s s) (htrans : ∀ s t u, G s t → G t u → G s u)
    {p : Prog σ ε β Unit} (hp : p.Safe G R s) {t : σ} {q : Option (Writing σ ε β)}
    (h : p.next s = .ok (t, q)) :
    G s t ∧ ∀ w ∈ q, R w.items ∧ ∀ s, w.rest.Safe G R s := by
  induction p generalizing s with
  | pure a =>
      cases h
      exact ⟨hrefl _, fun w hw => (nomatch hw)⟩
  | throw e => cases h
  | get k ih => exact ih s hp h
  | set s' k ih =>
      obtain ⟨hG, hq⟩ := ih hp.2 h
      exact ⟨htrans s s' t hp.1 hG, hq⟩
  | write items k ih =>
      cases items with
      | nil => exact ih (hp.2 s) h
      | cons b bs =>
          cases h
          refine ⟨hrefl _, ?_⟩
          rintro w ⟨⟩
          exact hp

end Prog

/-! ## Without other threads -/

namespace Prog

/-- A program that no other thread interrupts: the state at its end, the arrays
that it has written, and its result. -/
def alone : Prog σ ε β α → σ → Except ε (σ × List (List β) × α)
  | pure a, s => .ok (s, [], a)
  | throw e, _ => .error e
  | get k, s => (k s).alone s
  | set s k, _ => k.alone s
  | write items k, s => (k.alone s).map fun r => (r.1, items :: r.2.1, r.2.2)

variable {s t : σ} {out : List (List β)}

theorem alone_pure {a b : α} : (pure a : Prog σ ε β α).alone s = .ok (t, out, b) ↔ t = s ∧ out = [] ∧ b = a := by
  simp [alone, eq_comm]

theorem alone_skip {u : Unit} : (pure () : Prog σ ε β Unit).alone s = .ok (t, out, u) ↔ t = s ∧ out = [] :=
  alone_pure.trans (and_congr_right fun _ => and_iff_left rfl)

theorem alone_write {items : List β} {k : Prog σ ε β α} {a : α} :
    (write items k).alone s = .ok (t, out, a) ↔ ∃ rest, k.alone s = .ok (t, rest, a) ∧ out = items :: rest := by
  rw [alone]
  cases h : k.alone s with
  | error e => simp [Except.map]
  | ok r =>
      obtain ⟨t', rest, a'⟩ := r
      simp only [Except.map, Except.ok.injEq, Prod.mk.injEq]
      constructor
      · rintro ⟨rfl, rfl, rfl⟩
        exact ⟨rest, ⟨rfl, rfl, rfl⟩, rfl⟩
      · rintro ⟨_, ⟨rfl, rfl, rfl⟩, rfl⟩
        exact ⟨rfl, rfl, rfl⟩

/-- **Sequence**: the second program goes on where the first one has ended. -/
theorem alone_bind {p : Prog σ ε β α} {f : α → Prog σ ε β γ} {c : γ} :
    (p >>= f).alone s = .ok (t, out, c) ↔
      ∃ u first a rest, p.alone s = .ok (u, first, a) ∧ (f a).alone u = .ok (t, rest, c) ∧
        out = first ++ rest := by
  change (p.bind f).alone s = _ ↔ _
  induction p generalizing s out with
  | pure a =>
      constructor
      · exact fun h => ⟨s, [], a, out, rfl, h, rfl⟩
      · rintro ⟨u, first, b, rest, hp, hf, rfl⟩
        cases hp
        exact hf
  | throw e =>
      constructor
      · exact fun h => (nomatch h)
      · rintro ⟨u, first, b, rest, hp, -⟩
        cases hp
  | get k ih => exact ih s
  | set s' k ih => exact ih
  | write items k ih =>
      rw [bind, alone_write]
      constructor
      · rintro ⟨out, h, rfl⟩
        obtain ⟨u, first, a, rest, hp, hf, rfl⟩ := ih.mp h
        exact ⟨u, items :: first, a, rest, alone_write.mpr ⟨first, hp, rfl⟩, hf, rfl⟩
      · rintro ⟨u, first, a, rest, hp, hf, rfl⟩
        obtain ⟨written, hk, rfl⟩ := alone_write.mp hp
        exact ⟨written ++ rest, ih.mpr ⟨u, written, a, rest, hk, hf, rfl⟩, rfl⟩

theorem alone_read_bind {f : σ → Prog σ ε β α} : (read >>= f).alone s = (f s).alone s := rfl

theorem alone_modify {f : σ → σ} {a : Unit} :
    (modify f : Prog σ ε β Unit).alone s = .ok (t, out, a) ↔ t = f s ∧ out = [] := by
  simp [modify, alone, eq_comm]

theorem alone_modify_bind {f : σ → σ} {k : Unit → Prog σ ε β α} :
    (modify f >>= k).alone s = (k ()).alone (f s) := rfl

theorem alone_writeAll {items : List β} {a : Unit} :
    (writeAll items : Prog σ ε β Unit).alone s = .ok (t, out, a) ↔ t = s ∧ out = [items] := by
  simp [writeAll, alone, Except.map, eq_comm]

theorem alone_ofExcept_bind {x : Except ε α} {f : α → Prog σ ε β γ} {c : γ} :
    (ofExcept x >>= f).alone s = .ok (t, out, c) ↔ ∃ a, x = .ok a ∧ (f a).alone s = .ok (t, out, c) := by
  cases x with
  | error e => exact ⟨fun h => (nomatch h), fun ⟨_, h, _⟩ => (nomatch h)⟩
  | ok a =>
      constructor
      · exact fun h => ⟨a, rfl, h⟩
      · rintro ⟨b, hb, h⟩
        cases hb
        exact h

/-- What a safe program does alone. -/
theorem Safe.alone {G : σ → σ → Prop} {R : List β → Prop} (hrefl : ∀ s, G s s)
    (htrans : ∀ s t u, G s t → G t u → G s u) {p : Prog σ ε β α} {a : α} (hp : p.Safe G R s)
    (h : p.alone s = .ok (t, out, a)) : G s t ∧ ∀ items ∈ out, R items := by
  induction p generalizing s out with
  | pure b =>
      cases h
      exact ⟨hrefl _, fun _ hmem => (nomatch hmem)⟩
  | throw e => cases h
  | get k ih => exact ih s hp h
  | set s' k ih =>
      obtain ⟨hG, hR⟩ := ih hp.2 h
      exact ⟨htrans s s' t hp.1 hG, hR⟩
  | write items k ih =>
      obtain ⟨rest, hk, rfl⟩ := alone_write.mp h
      obtain ⟨hG, hR⟩ := ih (hp.2 s) hk
      exact ⟨hG, List.forall_mem_cons.mpr ⟨hp.1, hR⟩⟩

end Prog

/-! ## Threads and their queue -/

/-- The state, the threads that are in front of an item, the items that have
been written and, of them, the arrays that are complete. -/
structure Pool (κ σ ε β : Type) where
  shared : σ
  threads : κ → Option (Writing σ ε β)
  queue : List β
  written : List (List β)

namespace Pool

/-- A pool without programs. -/
def init (s : σ) : Pool κ σ ε β := ⟨s, fun _ => none, [], []⟩

section
variable [DecidableEq κ]

/-- Thread `k`, which runs no program, begins one. -/
def enter (w : Pool κ σ ε β) (k : κ) (p : Prog σ ε β Unit) : Option (Pool κ σ ε β) :=
  match w.threads k, p.next w.shared with
  | none, .ok (s, q) => some { w with shared := s, threads := Function.update w.threads k q }
  | _, _ => none

/-- Thread `k` writes its item and goes on to the next one. -/
def offer (w : Pool κ σ ε β) (k : κ) : Option (Pool κ σ ε β) :=
  match w.threads k with
  | none => none
  | some p =>
      if h : p.i + 1 < p.items.length then
        some { w with
          threads := Function.update w.threads k (some ⟨p.items, p.i + 1, p.rest, h⟩)
          queue := w.queue ++ [p.item] }
      else
        match p.rest.next w.shared with
        | .ok (s, q) =>
            some ⟨s, Function.update w.threads k q, w.queue ++ [p.item], w.written ++ [p.items]⟩
        | .error _ => none

theorem enter_eq_some {w u : Pool κ σ ε β} {k : κ} {p : Prog σ ε β Unit} (h : w.enter k p = some u) :
    ∃ s q, w.threads k = none ∧ p.next w.shared = .ok (s, q) ∧
      u = { w with shared := s, threads := Function.update w.threads k q } := by
  rw [enter] at h
  split at h
  · next s q hk hnext => exact ⟨s, q, hk, hnext, (Option.some.inj h).symm⟩
  · cases h

/-- An item in the middle of an array, or the last one. -/
theorem offer_eq_some {w u : Pool κ σ ε β} {k : κ} (h : w.offer k = some u) :
    ∃ p, w.threads k = some p ∧
      ((∃ hlt : p.i + 1 < p.items.length,
          u = { w with
            threads := Function.update w.threads k (some ⟨p.items, p.i + 1, p.rest, hlt⟩)
            queue := w.queue ++ [p.item] }) ∨
        (p.i + 1 = p.items.length ∧ ∃ s q, p.rest.next w.shared = .ok (s, q) ∧
          u = ⟨s, Function.update w.threads k q, w.queue ++ [p.item], w.written ++ [p.items]⟩)) := by
  rw [offer] at h
  split at h
  · cases h
  · next p hk =>
      refine ⟨p, hk, ?_⟩
      split at h
      · next hlt => exact Or.inl ⟨hlt, (Option.some.inj h).symm⟩
      · next hge =>
          split at h
          · next s q hnext =>
              have hi := p.i_lt
              exact Or.inr ⟨by omega, s, q, hnext, (Option.some.inj h).symm⟩
          · cases h

end

/-- What holds of every thread still does when one has gone on, if it holds of
that one. -/
theorem forall_update [DecidableEq κ] {P : Writing σ ε β → Prop} {threads : κ → Option (Writing σ ε β)}
    (h : ∀ j, ∀ p ∈ threads j, P p) {k : κ} {q : Option (Writing σ ε β)} (hq : ∀ p ∈ q, P p) :
    ∀ j, ∀ p ∈ Function.update threads k q j, P p :=
  (Function.forall_update_iff threads fun _ o => ∀ p ∈ o, P p).mpr ⟨hq, fun j _ => h j⟩

/-! ## One thread that goes on -/

section
variable [DecidableEq κ]

theorem drop_item (p : Writing σ ε β) : p.items.drop p.i = p.item :: p.items.drop (p.i + 1) := by
  rw [Writing.item, List.get_eq_getElem, List.getElem_cons_drop]

section
variable {w : Pool κ σ ε β} {k : κ} {p : Writing σ ε β} (hk : w.threads k = some p)
include hk

theorem offer_middle (hlt : p.i + 1 < p.items.length) :
    w.offer k = some { w with
      threads := Function.update w.threads k (some ⟨p.items, p.i + 1, p.rest, hlt⟩)
      queue := w.queue ++ [p.item] } := by
  rw [offer, hk]
  simp only [dif_pos hlt]

theorem offer_last (hlast : p.i + 1 = p.items.length) {s : σ} {q : Option (Writing σ ε β)}
    (hnext : p.rest.next w.shared = .ok (s, q)) :
    w.offer k = some ⟨s, Function.update w.threads k q, w.queue ++ [p.item], w.written ++ [p.items]⟩ := by
  rw [offer, hk]
  simp only [dif_neg (Nat.not_lt_of_le (Nat.le_of_eq hlast.symm)), hnext]

/-- A thread that is in front of an item of an array writes the rest of it and
goes on. -/
theorem run_offer_array {s : σ} {q : Option (Writing σ ε β)} (hnext : p.rest.next w.shared = .ok (s, q)) :
    Lts.run offer w (List.replicate (p.items.length - p.i) k) =
      some ⟨s, Function.update w.threads k q, w.queue ++ p.items.drop p.i, w.written ++ [p.items]⟩ := by
  have hlt := p.i_lt
  generalize hn : p.items.length - p.i = n
  induction n generalizing w p with
  | zero => omega
  | succ n ih =>
      rw [List.replicate_succ, Lts.run_cons, drop_item]
      obtain hlast | hmore : p.i + 1 = p.items.length ∨ p.i + 1 < p.items.length := by omega
      · have hzero : n = 0 := by omega
        rw [offer_last hk hlast hnext, hzero, hlast, List.drop_length]
        rfl
      · have hcount : p.items.length - (p.i + 1) = n := by omega
        have hstep := offer_middle hk hmore
        generalize hu : Pool.mk w.shared _ _ _ = u at hstep
        have hself : u.threads k = some ⟨p.items, p.i + 1, p.rest, hmore⟩ := by
          rw [← hu]
          exact Function.update_self ..
        have hnext' : p.rest.next u.shared = .ok (s, q) := by rwa [← hu]
        rw [hstep]
        refine (ih hself hnext' hmore hcount).trans ?_
        rw [← hu, Function.update_idem, List.append_assoc, List.singleton_append]

end

theorem run_offer_next {k : κ} {p : Prog σ ε β Unit} {s t : σ} {out : List (List β)}
    (hout : ∀ items ∈ out, items ≠ []) (h : p.alone s = .ok (t, out, ())) :
    ∃ s' q n, p.next s = .ok (s', q) ∧ ∀ w : Pool κ σ ε β, w.shared = s' → w.threads k = q →
      Lts.run offer w (List.replicate n k) =
        some ⟨t, Function.update w.threads k none, w.queue ++ out.flatten, w.written ++ out⟩ := by
  induction p generalizing s out with
  | pure a =>
      obtain ⟨rfl, rfl, -⟩ := Prog.alone_pure.mp h
      refine ⟨t, none, 0, rfl, ?_⟩
      rintro w rfl hk
      rw [← hk, Function.update_eq_self, List.flatten_nil, List.append_nil, List.append_nil]
      rfl
  | throw e => cases h
  | get k ih => exact ih s hout h
  | set s' k ih => exact ih hout h
  | write items k ih =>
      obtain ⟨rest, hk, rfl⟩ := Prog.alone_write.mp h
      obtain ⟨hne, hrest⟩ := List.forall_mem_cons.mp hout
      obtain ⟨s', q, n, hnext, hrun⟩ := ih hrest hk
      cases items with
      | nil => exact absurd rfl hne
      | cons b bs =>
          refine ⟨s, _, (b :: bs).length + n, rfl, ?_⟩
          rintro w rfl hthread
          have hfirst := run_offer_array hthread hnext
          rw [← List.replicate_append_replicate, Lts.run_append]
          simp only [Nat.sub_zero, List.drop_zero] at hfirst
          rw [hfirst, Option.bind_some, hrun _ rfl (Function.update_self ..)]
          simp only [Function.update_idem, List.flatten_cons, List.append_assoc, List.singleton_append]

/-- **A program alone** is what a pool does in which only its thread goes on. -/
theorem run_offer_alone {w : Pool κ σ ε β} {k : κ} {p : Prog σ ε β Unit} {t : σ} {out : List (List β)}
    (hk : w.threads k = none) (hout : ∀ items ∈ out, items ≠ []) (h : p.alone w.shared = .ok (t, out, ())) :
    ∃ u n, w.enter k p = some u ∧
      Lts.run offer u (List.replicate n k) =
        some ⟨t, w.threads, w.queue ++ out.flatten, w.written ++ out⟩ := by
  obtain ⟨s, q, n, hnext, hrun⟩ := run_offer_next (k := k) hout h
  have henter : w.enter k p = some { w with shared := s, threads := Function.update w.threads k q } := by
    rw [enter, hk, hnext]
  refine ⟨_, n, henter, ?_⟩
  have hthreads : Function.update w.threads k none = w.threads := by
    rw [← hk, Function.update_eq_self]
  rw [hrun _ rfl (Function.update_self ..), Function.update_idem, hthreads]

end

/-! ## What the programs of a pool guarantee -/

/-- Every array is as `R` says, and what is left to do is safe. -/
structure Safe (G : σ → σ → Prop) (R : List β → Prop) (w : Pool κ σ ε β) : Prop where
  written : ∀ items ∈ w.written, R items
  writing : ∀ k, ∀ p ∈ w.threads k, R p.items ∧ ∀ s, p.rest.Safe G R s

variable {G : σ → σ → Prop} {R : List β → Prop}

theorem safe_init (s : σ) : (init s : Pool κ σ ε β).Safe G R :=
  ⟨fun _ h => (nomatch h), fun _ _ h => (nomatch h)⟩

section
variable [DecidableEq κ] (hrefl : ∀ s, G s s) (htrans : ∀ s t u, G s t → G t u → G s u)
include hrefl htrans

/-- **A program begins**: its first assignments are as `G` says. -/
theorem Safe.enter {w u : Pool κ σ ε β} (hw : w.Safe G R) {k : κ} {p : Prog σ ε β Unit}
    (hp : p.Safe G R w.shared) (h : w.enter k p = some u) : G w.shared u.shared ∧ u.Safe G R := by
  obtain ⟨s, q, hk, hnext, rfl⟩ := enter_eq_some h
  obtain ⟨hG, hq⟩ := hp.next hrefl htrans hnext
  exact ⟨hG, hw.written, forall_update hw.writing hq⟩

/-- **An item is written**: what the thread does after it is as `G` says. -/
theorem Safe.offer {w u : Pool κ σ ε β} (hw : w.Safe G R) {k : κ} (h : w.offer k = some u) :
    G w.shared u.shared ∧ u.Safe G R := by
  obtain ⟨p, hk, ⟨hlt, rfl⟩ | ⟨hlast, s, q, hnext, rfl⟩⟩ := offer_eq_some h
  · refine ⟨hrefl _, hw.written, forall_update hw.writing ?_⟩
    rintro p' ⟨⟩
    exact hw.writing k p hk
  · obtain ⟨hR, hrest⟩ := hw.writing k p hk
    obtain ⟨hG, hq⟩ := (hrest w.shared).next hrefl htrans hnext
    refine ⟨hG, ?_, forall_update hw.writing hq⟩
    intro items hitems
    obtain hmem | hmem := List.mem_append.mp hitems
    · exact hw.written items hmem
    · cases List.mem_singleton.mp hmem
      exact hR

end

/-! ## Whole arrays -/

/-- Thread `k` has written some of the items of an array, but not all of them. -/
def PartWay (w : Pool κ σ ε β) (k : κ) : Prop := ∃ p ∈ w.threads k, 0 < p.i

/-- The queue is complete arrays, and then the items so far of at most one array
that a thread is still writing. -/
def Unmixed (w : Pool κ σ ε β) : Prop :=
  (w.queue = w.written.flatten ∧ ∀ k, ¬ w.PartWay k) ∨
    ∃ k p, w.threads k = some p ∧ 0 < p.i ∧ w.queue = w.written.flatten ++ p.items.take p.i ∧
      ∀ j, w.PartWay j → j = k

theorem not_partWay_init (s : σ) (k : κ) : ¬ (init s : Pool κ σ ε β).PartWay k := by
  rintro ⟨p, hp, -⟩
  cases hp

theorem unmixed_init (s : σ) : (init s : Pool κ σ ε β).Unmixed := Or.inl ⟨rfl, not_partWay_init s⟩

/-- Thread `k`, if its next item is the first one of an array, writes it when no
thread is in the middle of an array. -/
def FirstAlone (w : Pool κ σ ε β) (k : κ) : Prop :=
  ∀ p ∈ w.threads k, p.i = 0 → ∀ j, ¬ w.PartWay j

/-- In front of an item of thread `k` the queue ends with what the thread has
written of its array, and no other one is in the middle of one. -/
theorem Unmixed.queue_eq {w : Pool κ σ ε β} {k : κ} (hw : w.Unmixed) (hfirst : w.FirstAlone k) {p : Writing σ ε β}
    (hk : w.threads k = some p) :
    w.queue = w.written.flatten ++ p.items.take p.i ∧ ∀ j, j ≠ k → ¬ w.PartWay j := by
  obtain hi | hpos := Nat.eq_zero_or_pos p.i
  · have hnone := hfirst p hk hi
    refine ⟨?_, fun j _ => hnone j⟩
    obtain ⟨hqueue, -⟩ | ⟨k', p', hk', hpos', -, -⟩ := hw
    · rw [hi, List.take_zero, List.append_nil, hqueue]
    · exact absurd ⟨p', hk', hpos'⟩ (hnone k')
  · obtain ⟨-, hnone⟩ | ⟨k', p', hk', -, hqueue, honly⟩ := hw
    · exact absurd ⟨p, hk, hpos⟩ (hnone k)
    · obtain rfl : k = k' := honly k ⟨p, hk, hpos⟩
      rw [hk] at hk'
      cases hk'
      exact ⟨hqueue, fun j hj hpart => hj (honly j hpart)⟩

theorem take_item (p : Writing σ ε β) : p.items.take p.i ++ [p.item] = p.items.take (p.i + 1) := by
  rw [Writing.item, List.get_eq_getElem, List.take_append_getElem]

/-- At most one thread is in the middle of an array. -/
theorem Unmixed.eq_of_partWay {w : Pool κ σ ε β} (hw : w.Unmixed) {j k : κ} (hj : w.PartWay j)
    (hk : w.PartWay k) : j = k := by
  obtain ⟨-, hnone⟩ | ⟨k', -, -, -, -, honly⟩ := hw
  · exact absurd hj (hnone j)
  · exact (honly j hj).trans (honly k hk).symm

/-- Where no other thread is writing. -/
theorem FirstAlone.of_idle {w : Pool κ σ ε β} {k : κ} (h : ∀ j, j ≠ k → w.threads j = none) :
    w.FirstAlone k := by
  rintro p hp hi j ⟨q, hq, hpos⟩
  obtain rfl : j = k := by
    by_contra hne
    rw [h j hne] at hq
    cases hq
  cases hp.symm.trans hq
  rw [hi] at hpos
  exact Nat.lt_irrefl 0 hpos

section
variable [DecidableEq κ] {w u : Pool κ σ ε β} {k : κ}

theorem partWay_of_ne {q : Option (Writing σ ε β)} (hu : u.threads = Function.update w.threads k q) {j : κ}
    (h : j ≠ k) : u.PartWay j ↔ w.PartWay j := by
  rw [PartWay, PartWay, hu, Function.update_of_ne h]

theorem partWay_self {q : Option (Writing σ ε β)} (hu : u.threads = Function.update w.threads k q) :
    u.PartWay k ↔ ∃ p ∈ q, 0 < p.i := by
  rw [PartWay, hu, Function.update_self]

/-- A thread in front of a first item, or without a program, is in the middle of
nothing. -/
theorem not_exists_pos {q : Option (Writing σ ε β)} (h : ∀ p ∈ q, p.i = 0) : ¬ ∃ p ∈ q, 0 < p.i := by
  rintro ⟨p, hp, hpos⟩
  rw [h p hp] at hpos
  exact Nat.lt_irrefl 0 hpos

theorem partWay_enter {p : Prog σ ε β Unit} (h : w.enter k p = some u) (j : κ) :
    u.PartWay j ↔ w.PartWay j := by
  obtain ⟨s, q, hk, hnext, rfl⟩ := enter_eq_some h
  obtain rfl | hj := eq_or_ne j k
  · rw [partWay_self rfl, PartWay, hk]
    exact iff_of_false (not_exists_pos (Prog.i_next hnext)) (by simp)
  · exact partWay_of_ne rfl hj

/-- **A program begins**: nothing has been written. -/
theorem Unmixed.enter (hw : w.Unmixed) {p : Prog σ ε β Unit} (h : w.enter k p = some u) : u.Unmixed := by
  have hpart := partWay_enter h
  obtain ⟨s, q, hk, -, rfl⟩ := enter_eq_some h
  obtain ⟨hqueue, hnone⟩ | ⟨k', p', hk', hpos, hqueue, honly⟩ := hw
  · exact Or.inl ⟨hqueue, fun j hj => hnone j ((hpart j).mp hj)⟩
  · have hne : k' ≠ k := by
      rintro rfl
      rw [hk] at hk'
      cases hk'
    refine Or.inr ⟨k', p', ?_, hpos, hqueue, fun j hj => honly j ((hpart j).mp hj)⟩
    exact (Function.update_of_ne hne q w.threads).trans hk'

/-- **An item is written**, and the arrays stay whole. -/
theorem Unmixed.offer (hw : w.Unmixed) (hfirst : w.FirstAlone k) (h : w.offer k = some u) : u.Unmixed := by
  obtain ⟨p, hk, hcase⟩ := offer_eq_some h
  obtain ⟨hqueue, hnone⟩ := hw.queue_eq hfirst hk
  have hmore : w.queue ++ [p.item] = w.written.flatten ++ p.items.take (p.i + 1) := by
    rw [hqueue, List.append_assoc, take_item]
  obtain ⟨hlt, rfl⟩ | ⟨hlast, s, q, hnext, rfl⟩ := hcase
  · refine Or.inr ⟨k, _, Function.update_self .., Nat.succ_pos _, hmore, ?_⟩
    intro j hj
    by_contra hne
    exact hnone j hne ((partWay_of_ne rfl hne).mp hj)
  · refine Or.inl ⟨?_, ?_⟩
    · rw [hmore, hlast, List.take_length, List.flatten_append, List.flatten_singleton]
    · intro j hj
      obtain rfl | hne := eq_or_ne j k
      · exact not_exists_pos (Prog.i_next hnext) ((partWay_self rfl).mp hj)
      · exact hnone j hne ((partWay_of_ne rfl hne).mp hj)

/-- **A first item in the middle of another array** takes the arrays apart, if
the array has a second item. -/
theorem Unmixed.first_alone (hu : u.Unmixed) (hitems : ∀ p ∈ w.threads k, 1 < p.items.length)
    (h : w.offer k = some u) : w.FirstAlone k := by
  intro p hp hi j hj
  have hne : j ≠ k := by
    rintro rfl
    obtain ⟨p', hp', hpos⟩ := hj
    cases hp.symm.trans hp'
    rw [hi] at hpos
    exact Nat.lt_irrefl 0 hpos
  obtain ⟨p', hk, ⟨hlt, rfl⟩ | ⟨hlast, -⟩⟩ := offer_eq_some h
  · exact hne (hu.eq_of_partWay ((partWay_of_ne rfl hne).mpr hj)
      ((partWay_self rfl).mpr ⟨_, rfl, Nat.succ_pos _⟩))
  · have hlen := hitems p hp
    cases hp.symm.trans hk
    omega

end

end Pool

end Threads
