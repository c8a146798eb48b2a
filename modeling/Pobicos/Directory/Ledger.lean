import Pobicos.Directory.Reactor
import Mathlib.Data.List.Nodup

/-!
# Pobicos.Directory.Ledger

What the registry is for: a ledger of who has ever enrolled, in order.

The abstract ledger is a transition system of its own.  Its one step appends
an identity for a socket that has none, under the next number truncated to the
16 bits of an address; nothing is ever removed, renumbered or moved to another
socket.  `Registry.ledger` forgets positions and times of a registry, and
`run_ledger` says that the ledger of a server simulates the server: requests,
refreshes, expiries and messages leave it alone, a welcome enrols.
-/

namespace Pobicos.Directory

open Nio Octets Framing NetworkMsg

/-- What a node keeps for ever. -/
structure Identity where
  addr : JChar
  seed : JInt
  sock : SocketId
  deriving DecidableEq, Repr

abbrev Ledger := List Identity

namespace Ledger

/-- The address the next newcomer is given. -/
def nextAddr (l : Ledger) : JChar := BitVec.ofNat 16 (l.length + 1)

/-- Socket `e.1` enrols and is given the seed `e.2`. -/
def enrol (l : Ledger) (e : SocketId × JInt) : Option Ledger :=
  if ∀ i ∈ l, i.sock ≠ e.1 then some (l ++ [⟨l.nextAddr, e.2, e.1⟩]) else none

theorem enrol_eq_some {l l' : Ledger} {e : SocketId × JInt} :
    enrol l e = some l' ↔ (∀ i ∈ l, i.sock ≠ e.1) ∧ l' = l ++ [⟨l.nextAddr, e.2, e.1⟩] := by
  rw [enrol]
  by_cases h : ∀ i ∈ l, i.sock ≠ e.1
  · rw [if_pos h, Option.some.injEq]
    exact ⟨fun heq => ⟨h, heq.symm⟩, fun heq => heq.2.symm⟩
  · rw [if_neg h]
    exact ⟨fun heq => (nomatch heq), fun heq => absurd heq.1 h⟩

/-- Addresses number the entries; no socket has two. -/
structure Orderly (l : Ledger) : Prop where
  numbered : ∀ i (h : i < l.length), l[i].addr = BitVec.ofNat 16 (i + 1)
  distinct : (l.map Identity.sock).Nodup

theorem orderly_nil : Orderly [] where
  numbered i h := by cases h
  distinct := List.nodup_nil

theorem Orderly.enrol {l l' : Ledger} {e : SocketId × JInt} (hl : Orderly l)
    (h : Ledger.enrol l e = some l') : Orderly l' := by
  obtain ⟨hfresh, rfl⟩ := enrol_eq_some.mp h
  constructor
  · intro i hi
    by_cases hlt : i < l.length
    · rw [List.getElem_append_left hlt]
      exact hl.numbered i hlt
    · have hlast : i = l.length := by
        rw [List.length_append, List.length_singleton] at hi
        omega
      cases hlast
      rw [List.getElem_concat_length rfl]
      rfl
  · rw [List.map_append, List.map_singleton, List.nodup_append]
    refine ⟨hl.distinct, List.nodup_singleton _, ?_⟩
    intro a ha b hb
    obtain ⟨i, hi, rfl⟩ := List.mem_map.mp ha
    rw [List.mem_singleton] at hb
    rw [hb]
    exact hfresh i hi

/-- **Append-only**: whatever enrols, what is in the ledger stays where it is. -/
theorem prefix_of_run {l l' : Ledger} {es : List (SocketId × JInt)}
    (h : Lts.run enrol l es = some l') : l <+: l' := by
  refine Lts.run_invariant (P := fun m => l <+: m) ?_ (List.prefix_refl l) h
  intro m e m' hm hst
  obtain ⟨-, rfl⟩ := enrol_eq_some.mp hst
  exact hm.trans (List.prefix_append m _)

theorem orderly_of_run {l l' : Ledger} {es : List (SocketId × JInt)} (hl : Orderly l)
    (h : Lts.run enrol l es = some l') : Orderly l' :=
  Lts.run_invariant (fun _ _ _ hm hst => hm.enrol hst) hl h

/-- Identities of an orderly ledger on one socket are one identity. -/
theorem Orderly.eq_of_sock {l : Ledger} (hl : Orderly l) {i j : Identity} (hi : i ∈ l) (hj : j ∈ l)
    (h : i.sock = j.sock) : i = j := List.inj_on_of_nodup_map hl.distinct hi hj h

/-- **Exhaustion**: addresses repeat from the 65537th entry on. -/
theorem Orderly.nodup_addr_iff {l : Ledger} (hl : Orderly l) :
    (l.map Identity.addr).Nodup ↔ l.length ≤ 65536 := by
  rw [List.Nodup, List.pairwise_iff_getElem]
  simp only [List.length_map, List.getElem_map]
  constructor
  · intro hne
    by_contra hgt
    have heq : l[0].addr = l[65536].addr := by
      rw [hl.numbered, hl.numbered]
      decide
    exact hne 0 65536 (by omega) (by omega) (by omega) heq
  · intro hle i j hi hj hij heq
    rw [hl.numbered, hl.numbered, ← BitVec.toNat_inj, BitVec.toNat_ofNat, BitVec.toNat_ofNat] at heq
    omega

end Ledger

/-! ## The ledger of a registry -/

/-- What a record never changes. -/
def NodeInfo.identity (n : NodeInfo) : Identity := ⟨n.poNodeAddr, n.seed, n.sock⟩

namespace Registry

variable {r : Registry}

def ledger (r : Registry) : Ledger := r.reg.map NodeInfo.identity

/-- The address counter is ahead of the records by one. -/
def Counted (r : Registry) : Prop := r.addr = BitVec.ofNat 32 (r.reg.length + 1)

theorem counted_new : Counted .new := rfl

@[simp] theorem length_ledger (r : Registry) : r.ledger.length = r.reg.length := List.length_map ..

/-- Writing to other fields of a record does not touch the ledger. -/
theorem ledger_modify (i : Nat) {f : NodeInfo → NodeInfo}
    (hf : ∀ n, (f n).identity = n.identity) : (r.modify i f).ledger = r.ledger := by
  rw [ledger, ledger, reg_modify]
  apply List.ext_getElem?
  intro j
  rw [List.getElem?_map, List.getElem?_map, List.getElem?_modify]
  cases r.reg[j]? with
  | none => rfl
  | some n =>
      by_cases hij : i = j
      · simp [hij, hf]
      · simp [hij]

theorem Counted.modify (h : Counted r) (i : Nat) (f : NodeInfo → NodeInfo) :
    Counted (r.modify i f) := by
  rw [Counted, addr_modify, reg_modify, List.length_modify]
  exact h

/-- The next address is the next number of the ledger. -/
theorem Counted.getAddr (h : Counted r) : r.getAddr.1 = r.ledger.nextAddr := by
  rw [Registry.getAddr, h, Ledger.nextAddr, length_ledger]
  apply BitVec.eq_of_toNat_eq
  simp only [BitVec.toNat_setWidth, BitVec.toNat_ofNat]
  omega

end Registry

namespace RequestHandler

variable {clock : Nat → JLong} {r : Registry} {s : SocketId} {body : List Byte}

/-- **A first-time registration enrols.** -/
theorem answer_first (clock : Nat → JLong) (hc : r.Counted) (hf : FirstTime r s body) :
    Ledger.enrol r.ledger (s, newSeed clock) = some (answer clock r s body).1.ledger ∧
    (answer clock r s body).1.Counted := by
  rw [answer_firstTime clock hf, hc.getAddr]
  refine ⟨?_, ?_⟩
  · rw [Ledger.enrol_eq_some]
    refine ⟨?_, ?_⟩
    · intro i hi
      obtain ⟨n, hn, rfl⟩ := List.mem_map.mp hi
      exact Registry.isRegistedSock_eq_none_iff.mp hf.1 n hn
    · rw [Registry.ledger, List.map_append, List.map_singleton]
      rfl
  · rw [Registry.Counted, hc, List.length_append, List.length_singleton]
    exact (BitVec.ofNat_add _ 1).symm

/-- **Any other request leaves the ledger alone.** -/
theorem answer_other (clock : Nat → JLong) (hc : r.Counted) (hf : ¬ FirstTime r s body) :
    (answer clock r s body).1.ledger = r.ledger ∧ (answer clock r s body).1.Counted := by
  rw [answer]
  cases hreg : r.isRegistedSock s with
  | some i => exact ⟨Registry.ledger_modify i fun _ => rfl, hc.modify i _⟩
  | none =>
      have hne : ¬ (reqSeed body = 0 ∧ reqAddr body = 0) := fun h => hf ⟨hreg, h⟩
      simp only [if_neg hne]
      cases r.isRegistered (reqAddr body) (reqSeed body) with
      | none => exact ⟨rfl, hc⟩
      | some i =>
          simp only
          split
          · rw [Registry.remove_eq_self]
            exact ⟨rfl, hc⟩
          · exact ⟨Registry.ledger_modify i fun _ => rfl, hc.modify i _⟩

/-- Marking the sender as seen leaves the ledger alone. -/
theorem seen_ledger (clock : Nat → JLong) (s : SocketId) (hc : r.Counted) :
    (seen clock r s).ledger = r.ledger ∧ (seen clock r s).Counted := by
  rw [seen]
  cases r.isRegistedSock s with
  | none => exact ⟨rfl, hc⟩
  | some i => exact ⟨Registry.ledger_modify i fun _ => rfl, hc.modify i _⟩

/-- **A frame enrols the socket it came on if it is a first-time registration**,
and leaves the ledger alone otherwise. -/
theorem settle_ledger (clock : Nat → JLong) (hc : r.Counted) (h : RequestHandler) (f : Frame) :
    (settle clock r h f).1.Counted ∧
    (f.tag = REGISTRY_REQ ∧ FirstTime r h.sock f.body →
      Ledger.enrol r.ledger (h.sock, newSeed clock) = some (settle clock r h f).1.ledger) ∧
    (¬ (f.tag = REGISTRY_REQ ∧ FirstTime r h.sock f.body) →
      (settle clock r h f).1.ledger = r.ledger) := by
  rw [settle]
  by_cases hreq : f.tag = REGISTRY_REQ
  · rw [if_pos hreq]
    by_cases hf : FirstTime r h.sock f.body
    · obtain ⟨henrol, hcount⟩ := answer_first clock hc hf
      exact ⟨hcount, fun _ => henrol, fun hn => absurd ⟨hreq, hf⟩ hn⟩
    · obtain ⟨hsame, hcount⟩ := answer_other clock hc hf
      exact ⟨hcount, fun hn => absurd hn.2 hf, fun _ => hsame⟩
  · rw [if_neg hreq]
    by_cases hmsg : f.tag = POBICOS_MSG
    · obtain ⟨hsame, hcount⟩ := seen_ledger clock h.sock hc
      rw [if_pos hmsg]
      exact ⟨hcount, fun hn => absurd hn.1 hreq, fun _ => hsame⟩
    · rw [if_neg hmsg]
      exact ⟨hc, fun hn => absurd hn.1 hreq, fun _ => rfl⟩

end RequestHandler

/-! ## The ledger of a server -/

namespace Server

variable {cfg : Config} {σ τ : Server}

def ledger (σ : Server) : Ledger := σ.registry.ledger

/-- What the simulation carries along. -/
structure Kept (σ : Server) : Prop where
  attached : Attached σ
  counted : σ.registry.Counted

theorem kept_new : Kept Server.new := ⟨attached_new, Registry.counted_new⟩

/-- **Refinement step**: an event leaves the ledger alone, or is a dispatch
that enrols its socket. -/
theorem ledger_step {a : Action} (hkept : Kept σ) (h : step cfg σ a = some τ) :
    Kept τ ∧ (τ.ledger = σ.ledger ∨ ∃ e, Ledger.enrol σ.ledger e = some τ.ledger) := by
  have hatt := attached_step hkept.attached h
  cases a with
  | accept k =>
      obtain ⟨-, -, rfl⟩ := step_accept h
      exact ⟨⟨hatt, hkept.counted⟩, Or.inl rfl⟩
  | send k bs =>
      obtain ⟨-, rfl⟩ := step_send h
      exact ⟨⟨hatt, hkept.counted⟩, Or.inl rfl⟩
  | dispatch k sc =>
      obtain ⟨-, hd, -, hsock, hsound, hcases⟩ := dispatch_cases hkept.attached h
      obtain ⟨-, rfl⟩ | ⟨h', c', -, -, -, rfl⟩ | ⟨f, rest, htakes⟩ := hcases
      · exact ⟨⟨hatt, hkept.counted⟩, Or.inl rfl⟩
      · exact ⟨⟨hatt, hkept.counted⟩, Or.inl rfl⟩
      · by_cases hshort : RequestHandler.Short σ.registry k f
        · rw [htakes.short hshort] at hatt ⊢
          exact ⟨⟨hatt, hkept.counted⟩, Or.inl rfl⟩
        · obtain ⟨d, hserved, rfl⟩ := htakes.long hshort
          obtain ⟨hreg, -⟩ := served_attached hsock hsound hshort hserved
          obtain ⟨hcount, hfirst, hother⟩ :=
            RequestHandler.settle_ledger sc.clock hkept.counted hd f
          rw [← hreg] at hcount hfirst hother
          refine ⟨⟨hatt, hcount⟩, ?_⟩
          by_cases hf : f.tag = REGISTRY_REQ ∧ RequestHandler.FirstTime σ.registry hd.sock f.body
          · exact Or.inr ⟨_, hfirst hf⟩
          · exact Or.inl (hother hf)

/-- **The registry refines the ledger**: the ledger of a running server makes
a run of the abstract ledger. -/
theorem run_ledger {as : List Action} (hkept : Kept σ) (h : Lts.run (step cfg) σ as = some τ) :
    Kept τ ∧ ∃ es, Lts.run Ledger.enrol σ.ledger es = some τ.ledger :=
  Lts.run_simulate (fun _ _ _ hk hst => ledger_step hk hst) hkept h

theorem kept_reachable (h : Reachable cfg σ) : Kept σ := by
  obtain ⟨as, has⟩ := h
  exact (run_ledger kept_new has).1

theorem orderly_reachable (h : Reachable cfg σ) : σ.ledger.Orderly := by
  obtain ⟨as, has⟩ := h
  obtain ⟨-, es, hes⟩ := run_ledger kept_new has
  exact Ledger.orderly_of_run Ledger.orderly_nil hes

/-- Whatever happens, an enrolled node keeps its address, seed and socket. -/
theorem ledger_grows {as : List Action} (hσ : Reachable cfg σ)
    (h : Lts.run (step cfg) σ as = some τ) : σ.ledger <+: τ.ledger := by
  obtain ⟨-, es, hes⟩ := run_ledger (kept_reachable hσ) h
  exact Ledger.prefix_of_run hes

end Server

end Pobicos.Directory
