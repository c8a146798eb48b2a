import Mathlib.Logic.Function.Basic

/-!
# Lts

Runs of a deterministic labelled transition system `step : σ → α → Option σ`.
A label carries everything the environment decides (which party moves, what
the network delivers), so one label sequence is one interleaving; `none` says
that the label is not enabled in the state.

`run` is the monadic left fold of `step`, so its algebra is that of
`List.foldlM`; this module adds the rules every invariant proof uses:

* `run_induct` — a predicate every enabled step preserves is preserved by a run;
* `Reachable.induct` — the same from the initial state;
* `always_iff_along` — a predicate holds throughout a run exactly when every step
  is as it should be;
* `run_turns` — what is new at the end of a run is due to one of its steps;
* `run_simulate` — a step-by-step simulation carries runs over;
* `trace` — what an observer of the steps has seen at the end of a run;
  `trace_induct`, the invariant rule over what has been seen, and
  `trace_conserved`, the balance of what comes in, goes out and is held;
* `Each`, `Since` — what holds of everything seen so far, and of the latest of it;
* `logged` — the same system with what has been seen as part of its state.
-/

namespace Lts

variable {σ α β : Type*} {step : σ → α → Option σ}

/-! ## Runs -/

/-- The state after the labels `as`, if each of them was enabled in turn. -/
def run (step : σ → α → Option σ) (s : σ) (as : List α) : Option σ := as.foldlM step s

@[simp] theorem run_nil (s : σ) : run step s [] = some s := rfl

theorem run_cons (s : σ) (a : α) (as : List α) :
    run step s (a :: as) = (step s a).bind fun t => run step t as := rfl

theorem run_append (s : σ) (as bs : List α) :
    run step s (as ++ bs) = (run step s as).bind fun t => run step t bs := by
  simp only [run, List.foldlM_append]
  rfl

theorem run_singleton (s : σ) (a : α) : run step s [a] = step s a := by
  rw [run_cons]
  cases step s a <;> rfl

theorem run_of_step {s t : σ} {a : α} (h : step s a = some t) : run step s [a] = some t :=
  (run_singleton s a).trans h

/-- A nonempty run is a first step and a run from where it leads. -/
theorem run_cons_eq_some {s u : σ} {a : α} {as : List α} :
    run step s (a :: as) = some u ↔ ∃ t, step s a = some t ∧ run step t as = some u := by
  rw [run_cons, Option.bind_eq_some_iff]

/-- Every label of `as` is allowed (`ok`) in the state it is taken in. -/
def Along (step : σ → α → Option σ) (ok : σ → α → Prop) : σ → List α → Prop
  | _, [] => True
  | s, a :: as => ok s a ∧ ∀ t, step s a = some t → Along step ok t as

/-- **Run lemma.**  What every allowed enabled step preserves, a run along
allowed labels preserves. -/
theorem run_induct {P : σ → Prop} {ok : σ → α → Prop}
    (hstep : ∀ s a t, P s → ok s a → step s a = some t → P t) {as : List α} {s u : σ}
    (hok : Along step ok s as) (hs : P s) (hrun : run step s as = some u) : P u := by
  induction as generalizing s with
  | nil =>
      cases hrun
      exact hs
  | cons a as ih =>
      obtain ⟨hsa, hrest⟩ := hok
      obtain ⟨t, hst, htu⟩ := run_cons_eq_some.mp hrun
      exact ih (hrest t hst) (hstep s a t hs hsa hst) htu

theorem along_cons_iff {ok : σ → α → Prop} {s : σ} {a : α} {as : List α} :
    Along step ok s (a :: as) ↔ ok s a ∧ ∀ t ∈ step s a, Along step ok t as := Iff.rfl

/-- Along a fixed run the labels can be checked. -/
instance decidableAlong {ok : σ → α → Prop} [∀ s a, Decidable (ok s a)] :
    (s : σ) → (as : List α) → Decidable (Along step ok s as)
  | _, [] => isTrue trivial
  | s, a :: as =>
      haveI : ∀ t, Decidable (Along step ok t as) := fun t => decidableAlong t as
      decidable_of_iff (ok s a ∧ ∀ t ∈ step s a, Along step ok t as) along_cons_iff.symm

theorem along_true (s : σ) (as : List α) : Along step (fun _ _ => True) s as := by
  induction as generalizing s with
  | nil => trivial
  | cons a as ih => exact ⟨trivial, fun t _ => ih t⟩

/-- Labels allowed in every state. -/
theorem along_of_forall {ok : σ → α → Prop} {as : List α} (h : ∀ a ∈ as, ∀ s, ok s a) (s : σ) :
    Along step ok s as := by
  induction as generalizing s with
  | nil => trivial
  | cons a as ih =>
      exact ⟨h a List.mem_cons_self s, fun t _ => ih (fun b hb => h b (List.mem_cons_of_mem _ hb)) t⟩

/-- Labels that are allowed whatever the state. -/
theorem along_iff_forall {ok : α → Prop} {as : List α} {s u : σ} (hrun : run step s as = some u) :
    Along step (fun _ a => ok a) s as ↔ ∀ a ∈ as, ok a := by
  refine ⟨fun h => ?_, fun h => along_of_forall (fun a ha _ => h a ha) s⟩
  induction as generalizing s with
  | nil => exact fun a ha => absurd ha List.not_mem_nil
  | cons a as ih =>
      obtain ⟨t, hst, htu⟩ := run_cons_eq_some.mp hrun
      exact List.forall_mem_cons.mpr ⟨h.1, ih htu (h.2 t hst)⟩

/-- `run_induct` when every label is allowed. -/
theorem run_invariant {P : σ → Prop} (hstep : ∀ s a t, P s → step s a = some t → P t)
    {as : List α} {s u : σ} (hs : P s) (hrun : run step s as = some u) : P u :=
  run_induct (fun s a t hP _ h => hstep s a t hP h) (along_true s as) hs hrun

/-! ## Reachable states -/

/-- The states some run leads to from `init`. -/
def Reachable (step : σ → α → Option σ) (init : σ) (s : σ) : Prop :=
  ∃ as, run step init as = some s

theorem Reachable.refl {s : σ} : Reachable step s s := ⟨[], rfl⟩

theorem Reachable.of_run {i s t : σ} (hs : Reachable step i s) {as : List α}
    (hrun : run step s as = some t) : Reachable step i t := by
  obtain ⟨bs, hbs⟩ := hs
  exact ⟨bs ++ as, by rw [run_append, hbs]; exact hrun⟩

theorem Reachable.of_step {i s t : σ} {a : α} (hs : Reachable step i s) (h : step s a = some t) :
    Reachable step i t := hs.of_run (run_of_step h)

/-- **Invariant rule**: true at the start and preserved by every step, hence
true in every reachable state. -/
theorem Reachable.induct {P : σ → Prop} {i s : σ} (hinit : P i)
    (hstep : ∀ s a t, P s → step s a = some t → P t) (hs : Reachable step i s) : P s := by
  obtain ⟨as, hrun⟩ := hs
  exact run_invariant hstep hinit hrun

/-! ## Safety and its exact condition -/

/-- `P` holds in every state the run goes through. -/
def Always (step : σ → α → Option σ) (P : σ → Prop) (s : σ) (as : List α) : Prop :=
  ∀ bs, bs <+: as → ∀ t, run step s bs = some t → P t

theorem always_cons_iff {P : σ → Prop} {s t : σ} {a : α} {as : List α} (h : step s a = some t) :
    Always step P s (a :: as) ↔ P s ∧ Always step P t as := by
  constructor
  · intro hall
    refine ⟨hall [] (List.nil_prefix) s rfl, ?_⟩
    intro bs hbs u hu
    exact hall (a :: bs) (List.cons_prefix_cons.mpr ⟨rfl, hbs⟩) u (run_cons_eq_some.mpr ⟨t, h, hu⟩)
  · rintro ⟨hs, hall⟩ bs hbs u hu
    obtain rfl | ⟨bs', rfl, hbs'⟩ := List.prefix_cons_iff.mp hbs
    · cases hu
      exact hs
    · obtain ⟨t', ht', hu'⟩ := run_cons_eq_some.mp hu
      cases h.symm.trans ht'
      exact hall bs' hbs' u hu'

/-- **Exactness rule**: if an invariant that gives `P` is preserved by the steps
that are as they should be, and every other step leads out of `P`, then `P`
holds throughout a run exactly when all its steps are as they should be. -/
theorem always_iff_along {P Inv : σ → Prop} {ok : σ → α → Prop} (hInv : ∀ s, Inv s → P s)
    (hkeep : ∀ s a t, Inv s → ok s a → step s a = some t → Inv t)
    (hbreak : ∀ s a t, Inv s → P t → step s a = some t → ok s a) {as : List α} {s u : σ} (hs : Inv s)
    (hrun : run step s as = some u) : Always step P s as ↔ Along step ok s as := by
  induction as generalizing s with
  | nil =>
      refine iff_of_true ?_ trivial
      intro bs hbs t ht
      cases List.prefix_nil.mp hbs
      cases ht
      exact hInv s hs
  | cons a as ih =>
      obtain ⟨t, hst, htu⟩ := run_cons_eq_some.mp hrun
      rw [always_cons_iff hst]
      constructor
      · rintro ⟨-, hall⟩
        have hok : ok s a := hbreak s a t hs (hall [] List.nil_prefix t rfl) hst
        refine ⟨hok, ?_⟩
        intro t' ht'
        cases hst.symm.trans ht'
        exact (ih (hkeep s a t hs hok hst) htu).mp hall
      · rintro ⟨hok, hrest⟩
        exact ⟨hInv s hs, (ih (hkeep s a t hs hok hst) htu).mpr (hrest t hst)⟩

/-- **Turning point**: what does not hold at the start of a run and holds at its
end has come about in one of its steps. -/
theorem run_turns {P : σ → Prop} {as : List α} {s u : σ} (hs : ¬ P s) (hu : P u)
    (hrun : run step s as = some u) :
    ∃ bs a cs t v, as = bs ++ a :: cs ∧ run step s bs = some t ∧ ¬ P t ∧ step t a = some v ∧ P v := by
  induction as generalizing s with
  | nil =>
      cases hrun
      exact absurd hu hs
  | cons a as ih =>
      obtain ⟨t, hst, htu⟩ := run_cons_eq_some.mp hrun
      by_cases ht : P t
      · exact ⟨[], a, as, s, t, rfl, rfl, hs, hst, ht⟩
      · obtain ⟨bs, b, cs, t', v, rfl, hbs, ht', hv, hPv⟩ := ih ht htu
        exact ⟨a :: bs, b, cs, t', v, rfl, run_cons_eq_some.mpr ⟨t, hst, hbs⟩, ht', hv, hPv⟩

/-! ## Simulation -/

/-- **Simulation rule**: if, under an invariant, every step of a system is a
step of another one or none as `f` sees it, then every run is a run there. -/
theorem run_simulate {σ' α' : Type*} {step' : σ' → α' → Option σ'} {f : σ → σ'} {P : σ → Prop}
    (hstep : ∀ s a t, P s → step s a = some t →
      P t ∧ (f t = f s ∨ ∃ b, step' (f s) b = some (f t)))
    {as : List α} {s u : σ} (hs : P s) (hrun : run step s as = some u) :
    P u ∧ ∃ bs, run step' (f s) bs = some (f u) := by
  induction as generalizing s with
  | nil =>
      cases hrun
      exact ⟨hs, [], rfl⟩
  | cons a as ih =>
      obtain ⟨t, hst, htu⟩ := run_cons_eq_some.mp hrun
      obtain ⟨ht, hsim⟩ := hstep s a t hs hst
      obtain ⟨hu, bs, hbs⟩ := ih ht htu
      refine ⟨hu, ?_⟩
      obtain heq | ⟨b, hb⟩ := hsim
      · exact ⟨bs, by rw [← heq, hbs]⟩
      · exact ⟨b :: bs, run_cons_eq_some.mpr ⟨f t, hb, hbs⟩⟩

/-! ## Traces -/

/-- What an observer who sees `obs s a` at every step has seen after `as`. -/
def trace (step : σ → α → Option σ) (obs : σ → α → List β) : σ → List α → List β
  | _, [] => []
  | s, a :: as => obs s a ++ match step s a with
      | some t => trace step obs t as
      | none => []

theorem trace_cons_of_step {obs : σ → α → List β} {s t : σ} {a : α} (as : List α)
    (h : step s a = some t) :
    trace step obs s (a :: as) = obs s a ++ trace step obs t as := by
  rw [trace, h]

/-- What is seen of one run after another. -/
theorem trace_append {obs : σ → α → List β} {s t : σ} {as : List α} (bs : List α)
    (h : run step s as = some t) :
    trace step obs s (as ++ bs) = trace step obs s as ++ trace step obs t bs := by
  induction as generalizing s with
  | nil =>
      cases h
      rfl
  | cons a as ih =>
      obtain ⟨u, hsu, hut⟩ := run_cons_eq_some.mp h
      rw [List.cons_append, trace_cons_of_step _ hsu, trace_cons_of_step _ hsu, ih hut,
        List.append_assoc]

theorem trace_singleton {obs : σ → α → List β} (s : σ) (a : α) :
    trace step obs s [a] = obs s a := by
  rw [trace]
  cases step s a <;> exact List.append_nil _

/-- Who observes nothing has seen nothing. -/
theorem trace_nothing (s : σ) (as : List α) : trace step (fun _ _ => ([] : List β)) s as = [] := by
  induction as generalizing s with
  | nil => rfl
  | cons a as ih =>
      rw [trace]
      cases step s a with
      | none => rfl
      | some t => exact ih t

/-- Seen through `g`, a trace is seen through `g`. -/
theorem trace_flatMap {γ : Type*} (obs : σ → α → List β) (g : β → List γ) (s : σ) (as : List α) :
    trace step (fun s a => (obs s a).flatMap g) s as = (trace step obs s as).flatMap g := by
  induction as generalizing s with
  | nil => rfl
  | cons a as ih =>
      rw [trace, trace, List.flatMap_append]
      cases step s a with
      | none => rfl
      | some t =>
          simp only
          rw [ih t]

theorem trace_map {γ : Type*} (obs : σ → α → List β) (g : β → γ) (s : σ) (as : List α) :
    trace step (fun s a => (obs s a).map g) s as = (trace step obs s as).map g := by
  simp only [List.map_eq_flatMap]
  exact trace_flatMap obs (fun b => [g b]) s as

/-- What holds of everything that can be seen holds of all that has been. -/
theorem forall_mem_trace {obs : σ → α → List β} {Q : β → Prop} (hobs : ∀ s a, ∀ b ∈ obs s a, Q b)
    (s : σ) (as : List α) : ∀ b ∈ trace step obs s as, Q b := by
  induction as generalizing s with
  | nil => exact fun b hb => (nomatch hb)
  | cons a as ih =>
      intro b hb
      rw [trace, List.mem_append] at hb
      obtain hnow | hlater := hb
      · exact hobs s a b hnow
      · cases hst : step s a with
        | none =>
            rw [hst] at hlater
            cases hlater
        | some t =>
            rw [hst] at hlater
            exact ih t b hlater

/-- **Trace rule**: what every allowed enabled step preserves of the state and
of all that has been seen so far, a run along allowed labels preserves. -/
theorem trace_induct {P : σ → List β → Prop} {ok : σ → α → Prop} {obs : σ → α → List β}
    (hstep : ∀ s bs a t, P s bs → ok s a → step s a = some t → P t (bs ++ obs s a))
    {as : List α} {s u : σ} {bs : List β} (hok : Along step ok s as) (hs : P s bs)
    (hrun : run step s as = some u) : P u (bs ++ trace step obs s as) := by
  induction as generalizing s bs with
  | nil =>
      cases hrun
      rwa [trace, List.append_nil]
  | cons a as ih =>
      obtain ⟨hsa, hrest⟩ := hok
      obtain ⟨t, hst, htu⟩ := run_cons_eq_some.mp hrun
      have hu := ih (hrest t hst) (hstep s bs a t hs hsa hst) htu
      rwa [trace_cons_of_step as hst, ← List.append_assoc]

/-- **Conservation rule**: if at every allowed step what goes out and what is
then held are what was held and what comes in, so it is over a run. -/
theorem trace_conserved {P : σ → Prop} {ok : σ → α → Prop} (held : σ → List β)
    (incoming outgoing : σ → α → List β)
    (hstep : ∀ s a t, P s → ok s a → step s a = some t →
      P t ∧ outgoing s a ++ held t = held s ++ incoming s a)
    {as : List α} {s u : σ} (hok : Along step ok s as) (hs : P s) (hrun : run step s as = some u) :
    trace step outgoing s as ++ held u = held s ++ trace step incoming s as := by
  induction as generalizing s with
  | nil =>
      cases hrun
      exact (List.append_nil _).symm
  | cons a as ih =>
      obtain ⟨hsa, hrest⟩ := hok
      obtain ⟨t, hst, htu⟩ := run_cons_eq_some.mp hrun
      obtain ⟨ht, hone⟩ := hstep s a t hs hsa hst
      have htail := ih (hrest t hst) ht htu
      rw [trace_cons_of_step as hst, trace_cons_of_step as hst]
      calc
        (outgoing s a ++ trace step outgoing t as) ++ held u
            = outgoing s a ++ (held t ++ trace step incoming t as) := by
          rw [List.append_assoc, htail]
        _ = held s ++ (incoming s a ++ trace step incoming t as) := by
          rw [← List.append_assoc, hone, List.append_assoc]

/-! ## History -/

/-- Everything that has been seen was as it should be after what had been seen
before it. -/
def Each (ok : List β → β → Prop) (bs : List β) : Prop :=
  ∀ pre b post, bs = pre ++ b :: post → ok pre b

theorem each_nil {ok : List β → β → Prop} : Each ok [] := by
  intro pre b post heq
  simp at heq

theorem Each.concat {ok : List β → β → Prop} {bs : List β} {b : β} (h : Each ok bs) (hb : ok bs b) :
    Each ok (bs ++ [b]) := by
  intro pre b' post heq
  obtain rfl | ⟨post', last, rfl⟩ := List.eq_nil_or_concat post
  · obtain ⟨rfl, hlast⟩ := List.append_inj' heq rfl
    cases hlast
    exact hb
  · rw [List.concat_eq_append, ← List.cons_append, ← List.append_assoc] at heq
    obtain ⟨rfl, -⟩ := List.append_inj' heq rfl
    exact h pre b' post' rfl

/-- What is as it should be after anything. -/
theorem Each.append_of_forall {ok : List β → β → Prop} {bs cs : List β} (h : Each ok bs)
    (hcs : ∀ c ∈ cs, ∀ pre, ok pre c) : Each ok (bs ++ cs) := by
  induction cs generalizing bs with
  | nil => rwa [List.append_nil]
  | cons c cs ih =>
      rw [List.append_cons]
      exact ih (h.concat (hcs c List.mem_cons_self bs)) fun d hd => hcs d (List.mem_cons_of_mem _ hd)

/-- Something of `p` has been seen, and nothing of `q` after it. -/
def Since (p q : β → Prop) (bs : List β) : Prop :=
  ∃ pre b post, bs = pre ++ b :: post ∧ p b ∧ ∀ c ∈ post, ¬ q c

theorem not_since_nil {p q : β → Prop} : ¬ Since p q [] := by
  rintro ⟨pre, b, post, heq, -⟩
  simp at heq

theorem since_cons {p q : β → Prop} {b : β} {bs : List β} :
    Since p q (b :: bs) ↔ (p b ∧ ∀ c ∈ bs, ¬ q c) ∨ Since p q bs := by
  constructor
  · rintro ⟨pre, b', post, heq, hp, hq⟩
    cases pre with
    | nil =>
        cases heq
        exact Or.inl ⟨hp, hq⟩
    | cons a pre =>
        cases heq
        exact Or.inr ⟨pre, b', post, rfl, hp, hq⟩
  · rintro (⟨hp, hq⟩ | ⟨pre, b', post, rfl, hp, hq⟩)
    · exact ⟨[], b, bs, rfl, hp, hq⟩
    · exact ⟨b :: pre, b', post, rfl, hp, hq⟩

/-- **Step rule for `Since`**: what the last thing seen makes of it. -/
theorem since_concat {p q : β → Prop} {b : β} {bs : List β} :
    Since p q (bs ++ [b]) ↔ p b ∨ (Since p q bs ∧ ¬ q b) := by
  induction bs with
  | nil =>
      rw [List.nil_append, since_cons, or_iff_left not_since_nil, and_iff_left fun c hc => absurd hc List.not_mem_nil]
      exact ⟨Or.inl, fun h => h.resolve_right fun hnil => not_since_nil hnil.1⟩
  | cons a bs ih =>
      rw [List.cons_append, since_cons, since_cons, ih, List.forall_mem_append, List.forall_mem_singleton,
        or_left_comm, or_and_right, and_assoc]

instance decidableSince {p q : β → Prop} [DecidablePred p] [DecidablePred q] :
    (bs : List β) → Decidable (Since p q bs)
  | [] => isFalse not_since_nil
  | b :: bs =>
      have := decidableSince (p := p) (q := q) bs
      decidable_of_iff ((p b ∧ ∀ c ∈ bs, ¬ q c) ∨ Since p q bs) since_cons.symm

/-- The system with what has been seen so far kept beside the state, for rules
about labels that depend on it. -/
def logged (step : σ → α → Option σ) (obs : σ → α → List β) (p : σ × List β) (a : α) :
    Option (σ × List β) := (step p.1 a).map fun t => (t, p.2 ++ obs p.1 a)

theorem logged_eq_some {obs : σ → α → List β} {p q : σ × List β} {a : α} :
    logged step obs p a = some q ↔ step p.1 a = some q.1 ∧ p.2 ++ obs p.1 a = q.2 := by
  rw [logged, Option.map_eq_some_iff]
  constructor
  · rintro ⟨t, ht, rfl⟩
    exact ⟨ht, rfl⟩
  · rintro ⟨ht, hobs⟩
    exact ⟨q.1, ht, Prod.ext rfl hobs⟩

/-- What is kept at the end of a run is what has been seen. -/
theorem run_logged {obs : σ → α → List β} {as : List α} {s u : σ} {bs : List β}
    (hrun : run step s as = some u) :
    run (logged step obs) (s, bs) as = some (u, bs ++ trace step obs s as) := by
  induction as generalizing s bs with
  | nil =>
      cases hrun
      rw [trace, List.append_nil]
      rfl
  | cons a as ih =>
      obtain ⟨t, hst, htu⟩ := run_cons_eq_some.mp hrun
      rw [trace_cons_of_step as hst, ← List.append_assoc]
      exact run_cons_eq_some.mpr ⟨_, logged_eq_some.mpr ⟨hst, rfl⟩, ih htu⟩

/-- Keeping it does not change what another observer sees. -/
theorem trace_logged {γ : Type*} {obs : σ → α → List β} (obs' : σ → α → List γ) (s : σ) (bs : List β)
    (as : List α) :
    trace (logged step obs) (fun p a => obs' p.1 a) (s, bs) as = trace step obs' s as := by
  induction as generalizing s bs with
  | nil => rfl
  | cons a as ih =>
      rw [trace, trace, logged]
      cases step s a with
      | none => rfl
      | some t =>
          simp only [Option.map_some]
          rw [ih]

end Lts
