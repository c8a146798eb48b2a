import Pobicos.Directory.Reconnect

/-!
# Pobicos.Directory.Survival

When a dispatch gives the reactor back.

`run` lets every exception but `IOException` through to the reactor, which
ends with it; the only one a dispatch can throw is the failed access to a
field of a frame too short for its type (`survives`).  `run` also returns only
once its loops are done: on a stream that ends inside a frame it never does
(`returns_iff`).
-/

namespace Pobicos.Directory

open Nio Octets Framing NetworkMsg RequestHandler

namespace Server

variable {cfg : Config} {σ τ : Server} {k : SocketId}

/-! ## Exceptions -/

/-- The next frame on the open channel of `k` is too short for its type. -/
def ShortAhead (σ : Server) (k : SocketId) : Prop :=
  (σ.net k).isOpen = true ∧ ∃ f rest, (σ.net k).inp = f.bytes ++ rest ∧ Short σ.registry k f

/-- A short frame ahead is read by some dispatch, which throws. -/
private theorem throws_of_shortAhead (cfg : Config) {hd : RequestHandler} (hsock : hd.sock = k)
    (hs : ShortAhead σ k) :
    ∃ sc, (run cfg sc (σ.host hd)).1 = .throws .indexOutOfBounds := by
  cases hsock
  obtain ⟨ho, f, rest, hinp, hshort⟩ := hs
  refine ⟨prompt 0, ?_⟩
  rw [run_frame cfg (prompt 0) (σ.host hd) ho hinp (progress_prompt 0) (length_le_prompt f 0),
    if_pos (by exact hshort)]

/-- Without one, no dispatch throws. -/
private theorem not_throws (cfg : Config) {hd : RequestHandler} (hsock : hd.sock = k) (hsound : Sound hd)
    (hs : ¬ ShortAhead σ k) (sc : Script) (x : Throwable) :
    (run cfg sc (σ.host hd)).1 ≠ .throws x := by
  cases hsock
  obtain ⟨-, hrun⟩ | ⟨h', c', -, -, -, hrun⟩ | ⟨f, rest, hinp, hread⟩ | hspin :=
    run_cases cfg sc (σ.host hd)
  · simp [hrun]
  · simp [hrun]
  · have hlong : ¬ Short σ.registry hd.sock f := fun hshort =>
      hs ⟨isOpen_of_read hread, f, rest, hinp, hshort⟩
    rw [run_of_read cfg sc (σ.host hd) hread, if_neg (by exact hlong)]
    obtain hret | hspin := (served_cases cfg sc (σ.host hd) hsound rest hlong).1
    · simp [hret]
    · simp [hspin]
  · simp [hspin]

/-- A step that is not the dispatch of a short frame leaves the reactor running. -/
theorem alive_step {a : Action} (hatt : Attached σ)
    (hok : ∀ k sc, a = .dispatch k sc → ¬ ShortAhead σ k) (h : step cfg σ a = some τ) :
    τ.alive = σ.alive := by
  cases a with
  | accept k =>
      obtain ⟨-, -, rfl⟩ := step_accept h
      rfl
  | send k bs =>
      obtain ⟨-, rfl⟩ := step_send h
      rfl
  | dispatch k sc =>
      obtain ⟨ha, hd, o, d, hk, hrun, ho, rfl⟩ := step_dispatch h
      have hne := not_throws cfg (hatt.sock k hd hk) (hatt.sound k hd hk) (hok k sc rfl) sc
      rw [hrun] at hne
      cases o with
      | ret => exact ha.symm
      | throws x => exact absurd rfl (hne x)
      | spins => exact absurd rfl ho

/-- **Survival**: a dispatch lets no exception through exactly when no short
frame is ahead on its channel; and a run that never dispatches one keeps the
reactor running. -/
theorem survives (hσ : Reachable cfg σ) :
    (∀ k hd, σ.handlers k = some hd →
      ((∀ sc x, (run cfg sc (σ.host hd)).1 ≠ .throws x) ↔ ¬ ShortAhead σ k)) ∧
    ∀ as τ, Lts.Along (step cfg) (fun s a => ∀ k sc, a = .dispatch k sc → ¬ ShortAhead s k) σ as →
      Lts.run (step cfg) σ as = some τ → τ.alive = σ.alive := by
  have hatt := attached_reachable hσ
  refine ⟨?_, ?_⟩
  · intro k hd hk
    constructor
    · intro hne hs
      obtain ⟨sc, hthrow⟩ := throws_of_shortAhead cfg (hatt.sock k hd hk) hs
      exact hne sc _ hthrow
    · exact not_throws cfg (hatt.sock k hd hk) (hatt.sound k hd hk)
  · intro as τ hok hrun
    refine (Lts.run_induct (P := fun s => Attached s ∧ s.alive = σ.alive) ?_ hok ⟨hatt, rfl⟩ hrun).2
    intro s a t hs hsa hst
    exact ⟨attached_step hs.1 hst, (alive_step hs.1 hsa hst).trans hs.2⟩

/-- A request of no bytes. -/
def noRequest : Frame := .empty REGISTRY_REQ

private theorem reachable_joined (bs : List Byte) :
    Reachable everywhere (Server.new.joined 0 bs) :=
  ⟨_, run_joined everywhere rfl rfl bs⟩

private theorem shortAhead_noRequest : ShortAhead (Server.new.joined 0 noRequest.bytes) 0 :=
  ⟨rfl, noRequest, [], rfl, by decide⟩

/-- Two bytes end the reactor. -/
theorem no_request_throws :
    ∃ σ hd sc, Reachable everywhere σ ∧ σ.handlers 0 = some hd ∧
      (run everywhere sc (σ.host hd)).1 = .throws .indexOutOfBounds := by
  obtain ⟨sc, hthrow⟩ := throws_of_shortAhead everywhere (new_sock 0) shortAhead_noRequest
  exact ⟨_, _, sc, reachable_joined noRequest.bytes, rfl, hthrow⟩

/-- The statement for a server that has received them. -/
theorem survives_noRequest :
    ∃ σ hd, σ.handlers 0 = some hd ∧
      ((∀ sc x, (run everywhere sc (σ.host hd)).1 ≠ .throws x) ↔ ¬ ShortAhead σ 0) :=
  ⟨_, .new 0, rfl, (survives (reachable_joined noRequest.bytes)).1 0 (.new 0) rfl⟩

/-! ## Termination -/

/-- The script of the first `n` results of calls without end: the `i`-th read
finds `rd i` bytes, the `i`-th write of a reply ends as `wr i`. -/
def upTo (rd : Nat → Nat) (wr : Nat → WriteEvt) (clock : Nat → JLong)
    (fw : Nat → SocketId → WriteEvt) (n : Nat) : Script where
  reads := (List.range n).map fun i => .ready (rd i)
  clock := clock
  replies := (List.range n).map wr
  forwards := fw

theorem progress_upTo {rd : Nat → Nat} (hrd : ∀ i, 0 < rd i) (wr : Nat → WriteEvt)
    (clock : Nat → JLong) (fw : Nat → SocketId → WriteEvt) (n : Nat) :
    Progress (upTo rd wr clock fw n).reads := by
  intro e he
  obtain ⟨i, -, rfl⟩ := List.mem_map.mp he
  exact ⟨rd i, hrd i, rfl⟩

theorem drains_upTo {wr : Nat → WriteEvt} {m n k : Nat} (hmn : m ≤ n)
    (h : drains k ((List.range m).map wr) = true) : drains k ((List.range n).map wr) = true := by
  obtain ⟨t, rfl⟩ := Nat.exists_eq_add_of_le hmn
  rw [List.range_add, List.map_append]
  exact drains_append h _

/-- **Termination**: with a byte of progress at every read, a dispatch returns
to the reactor exactly when its stream is empty, or starts with a whole frame
that is not short and whose reply is drained. -/
theorem returns_iff {hd : RequestHandler} {rd : Nat → Nat} {wr : Nat → WriteEvt}
    {clock : Nat → JLong} {fw : Nat → SocketId → WriteEvt} (hσ : Reachable cfg σ)
    (hk : σ.handlers k = some hd) (ho : (σ.net k).isOpen = true) (hrd : ∀ i, 0 < rd i) :
    (∃ n, (run cfg (upTo rd wr clock fw n) (σ.host hd)).1 = .ret) ↔
      (σ.net k).inp = [] ∨ ∃ f rest, (σ.net k).inp = f.bytes ++ rest ∧ ¬ Short σ.registry k f ∧
        ∃ n, drains (owed σ.registry hd f) ((List.range n).map wr) = true := by
  have hatt := attached_reachable hσ
  have hsound := hatt.sound k hd hk
  cases hatt.sock k hd hk
  constructor
  · rintro ⟨n, hret⟩
    by_cases hne : (σ.net hd.sock).inp = []
    · exact Or.inl hne
    · right
      have hp := progress_upTo hrd wr clock fw n
      obtain ⟨hread, -⟩ | ⟨h', c', hread, -⟩ | ⟨f, rest, hinp, hread⟩ | hspin :=
        run_cases cfg (upTo rd wr clock fw n) (σ.host hd)
      · exact absurd hread (read_ne_unread ho hne hp)
      · exact absurd (congrArg Prod.fst hread) (read_healthy (h := hd) ho hp.healthy .ioException)
      · rw [run_of_read cfg (upTo rd wr clock fw n) (σ.host hd) hread] at hret
        by_cases hshort : Short σ.registry hd.sock f
        · rw [if_pos (by exact hshort)] at hret
          cases hret
        · rw [if_neg (by exact hshort)] at hret
          refine ⟨f, rest, hinp, hshort, n, ?_⟩
          have hiff := served_spins_iff cfg (upTo rd wr clock fw n) (σ.host hd) hsound ho rest hshort
          by_contra hnot
          have hspin := hiff.mpr (Bool.eq_false_iff.mpr hnot)
          rw [hret] at hspin
          cases hspin
      · rw [hret] at hspin
        cases hspin
  · rintro (hnil | ⟨f, rest, hinp, hlong, n, hdrains⟩)
    · refine ⟨1, ?_⟩
      have hread : RequestHandler.read hd (σ.net hd.sock) (upTo rd wr clock fw 1).reads =
          (.ret, hd.unread, σ.net hd.sock) := read_nothing ho hnil (rd 0)
      rw [run_of_unread cfg (upTo rd wr clock fw 1) (σ.host hd) hread]
    · refine ⟨max n f.bytes.length, ?_⟩
      have hlen : f.bytes.length ≤ (upTo rd wr clock fw (max n f.bytes.length)).reads.length := by
        rw [upTo, List.length_map, List.length_range]
        exact Nat.le_max_right _ _
      rw [run_frame cfg _ (σ.host hd) ho hinp (progress_upTo hrd wr clock fw _) hlen,
        if_neg (by exact hlong)]
      have hiff := served_spins_iff cfg (upTo rd wr clock fw (max n f.bytes.length)) (σ.host hd)
        hsound ho rest hlong
      have hdr := drains_upTo (Nat.le_max_left n f.bytes.length) hdrains
      obtain hret | hspin := (served_cases cfg
        (upTo rd wr clock fw (max n f.bytes.length)) (σ.host hd) hsound rest hlong).1
      · exact hret
      · have hfalse := hiff.mp hspin
        simp only [upTo, host] at hfalse
        rw [hdr] at hfalse
        cases hfalse

/-- One byte of a header keeps the reactor waiting for ever. -/
theorem first_byte_never_returns :
    ∃ σ hd, Reachable everywhere σ ∧ σ.handlers 0 = some hd ∧ (σ.net 0).isOpen = true ∧
      ∀ n, (run everywhere (upTo (fun _ => 1) (fun _ => .accept 257) (fun _ => 0)
        (fun _ _ => .accept 257) n) (σ.host hd)).1 ≠ .ret := by
  refine ⟨_, .new 0, reachable_joined [POBICOS_MSG], rfl, rfl, ?_⟩
  intro n hret
  have hone : ∀ i : Nat, 0 < (fun _ => 1) i := fun _ => Nat.one_pos
  have hp := progress_upTo hone (fun _ => .accept 257) (fun _ => 0) (fun _ _ => .accept 257) n
  have hspin := run_of_spins everywhere _ ((Server.new.joined 0 [POBICOS_MSG]).host (.new 0))
    (read_cut (h := .new 0) rfl (List.cons_ne_nil _ _) rfl hp)
  rw [hspin] at hret
  cases hret

/-- The statement for that server. -/
theorem returns_iff_first_byte :
    ∃ (σ : Server) (hd : RequestHandler), σ.handlers 0 = some hd ∧
      ((∃ n, (run everywhere (upTo (fun _ => 1) (fun _ => .accept 257) (fun _ => 0)
          (fun _ _ => .accept 257) n) (σ.host hd)).1 = .ret) ↔
        (σ.net 0).inp = [] ∨ ∃ f rest, (σ.net 0).inp = f.bytes ++ rest ∧ ¬ Short σ.registry 0 f ∧
          ∃ n, drains (owed σ.registry hd f) ((List.range n).map fun _ => .accept 257) = true) :=
  ⟨_, .new 0, rfl, returns_iff (reachable_joined [POBICOS_MSG]) rfl rfl fun _ => Nat.one_pos⟩

end Server

end Pobicos.Directory
