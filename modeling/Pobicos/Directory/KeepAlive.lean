import Pobicos.Directory.Integrity
import Mathlib.Data.List.Chain

/-!
# Pobicos.Directory.KeepAlive

A client that keeps sending its address and seed in time stays registered.

A request is a renewal for an identity if it carries its address and seed and
comes on its own socket or on one that is nobody's (`Renews`).  Two lookups
answer it, by socket and by address and seed; both find the one record of that
identity as long as addresses are unique, and refresh it (`answer_renewal`).
So the record is never older than the latest renewal, and a renewal in time is
never refused (`keepAlive_suffices`), whatever the other clients do.
-/

namespace Pobicos.Directory

open Nio Octets Framing NetworkMsg

/-- The time from one reading of the clock to another is within the threshold. -/
def InTime (s t : JLong) : Prop := t.toInt - s.toInt ≤ TIME_THRESHOLD_MS.toInt

instance (s t : JLong) : Decidable (InTime s t) := by
  unfold InTime
  infer_instance

/-- The second reading of the clock is not before the first. -/
def NotBefore (s t : JLong) : Prop := s.toInt ≤ t.toInt

instance (s t : JLong) : Decidable (NotBefore s t) := by
  unfold NotBefore
  infer_instance

namespace RequestHandler

variable {clock : Nat → JLong} {r : Registry} {k : SocketId} {id : Identity}

/-- A well-formed request that carries the identity `id`, on its own socket or
on one that is not registered. -/
def Renews (r : Registry) (id : Identity) (k : SocketId) (p : List Byte × List Byte) : Prop :=
  p.1.head? = some REGISTRY_REQ ∧ REQ_LEN_NEW ≤ p.2.length ∧ reqAddr p.2 = id.addr ∧
    reqSeed p.2 = id.seed ∧ (k = id.sock ∨ r.isRegistedSock k = none)

instance {p : List Byte × List Byte} : Decidable (Renews r id k p) := by
  unfold Renews
  infer_instance

/-- A record that has been seen in time has not expired. -/
theorem not_expired {n : NodeInfo} {now : JLong} (hseen : NotBefore n.lastSeen now)
    (htime : InTime n.lastSeen now) : expired now n = false := by
  have hthr : TIME_THRESHOLD_MS.toInt = 60000 := by decide
  rw [InTime, hthr] at htime
  rw [NotBefore] at hseen
  rw [expired, BitVec.slt, decide_eq_false_iff_not, BitVec.toInt_sub, hthr]
  have hsmall : (now.toInt - n.lastSeen.toInt).bmod (2 ^ 64) = now.toInt - n.lastSeen.toInt :=
    Int.bmod_eq_of_le (by omega) (by omega)
  rw [hsmall]
  omega

/-- Address and seed lead to one record only. -/
structure Unique (r : Registry) : Prop where
  addrs : (r.reg.map NodeInfo.poNodeAddr).Nodup
  socks : (r.reg.map NodeInfo.sock).Nodup
  nonzero : ∀ n ∈ r.reg, n.poNodeAddr ≠ 0

/-- The position of a value that occurs once. -/
private theorem index_unique {α : Type} {g : NodeInfo → α} (hnodup : (r.reg.map g).Nodup) {i : Nat}
    {n : NodeInfo} (hn : r.reg[i]? = some n) {j : Fin r.reg.length} (hj : g (r.reg.get j) = g n) :
    j.val = i := by
  obtain ⟨hi, rfl⟩ := List.getElem?_eq_some_iff.mp hn
  have hjlt : j.val < (r.reg.map g).length := by simp
  have hilt : i < (r.reg.map g).length := by simpa using hi
  have heq : (r.reg.map g)[j.val] = (r.reg.map g)[i] := by simpa using hj
  exact hnodup.getElem_inj_iff.mp heq

/-- Writing to a record leaves it where it was. -/
private theorem getElem?_modify_self {i : Nat} {n : NodeInfo} (hn : r.reg[i]? = some n)
    (g : NodeInfo → NodeInfo) : (r.modify i g).reg[i]? = some (g n) := by
  rw [Registry.reg_modify, List.getElem?_modify, hn]
  simp

/-- Which lookup finds the record of a renewal. -/
private theorem renewal_cases (hu : Unique r) {i : Nat} {n : NodeInfo} (hn : r.reg[i]? = some n)
    {p : List Byte × List Byte} (hp : Renews r n.identity k p) :
    (∃ j : Fin r.reg.length, r.isRegistedSock k = some j ∧ j.val = i) ∨
    (r.isRegistedSock k = none ∧ ¬ (reqSeed p.2 = 0 ∧ reqAddr p.2 = 0) ∧
      ∃ j : Fin r.reg.length, r.isRegistered (reqAddr p.2) (reqSeed p.2) = some j ∧ j.val = i ∧
        r.reg.get j = n) := by
  have hmem : n ∈ r.reg := List.mem_of_getElem? hn
  obtain ⟨-, -, haddr, hseed, hsock⟩ := hp
  cases hreg : r.isRegistedSock k with
  | some j =>
      obtain hown | hfree := hsock
      · exact Or.inl ⟨j, rfl, index_unique hu.socks hn ((Registry.sock_of_isRegistedSock hreg).trans hown)⟩
      · rw [hfree] at hreg
        cases hreg
  | none =>
      refine Or.inr ⟨rfl, fun hz => hu.nonzero n hmem (haddr.symm.trans hz.2), ?_⟩
      cases hid : r.isRegistered (reqAddr p.2) (reqSeed p.2) with
      | none => exact absurd hseed.symm (Registry.isRegistered_eq_none_iff.mp hid n hmem haddr.symm)
      | some j =>
          have hji : j.val = i :=
            index_unique hu.addrs hn ((Registry.ident_of_isRegistered hid).1.trans haddr)
          refine ⟨j, rfl, hji, ?_⟩
          rw [← hji, List.getElem?_eq_getElem j.isLt, Option.some.injEq] at hn
          exact hn

/-- A renewal reads the clock. -/
theorem readings_renewal (clock : Nat → JLong) (hu : Unique r) {i : Nat} {n : NodeInfo}
    (hn : r.reg[i]? = some n) {p : List Byte × List Byte} (hp : Renews r n.identity k p) :
    ∃ ts, readings clock r k REGISTRY_REQ p.2 = clock 0 :: ts := by
  rw [readings, if_pos rfl]
  obtain ⟨j, hreg, -⟩ | ⟨hreg, hne, j, hid, -, -⟩ := renewal_cases hu hn hp
  · exact ⟨[], by simp only [hreg]⟩
  · simp only [hreg, if_neg hne, hid]
    split
    · exact ⟨[], rfl⟩
    · exact ⟨[clock 1], rfl⟩

/-- **A renewal in time is answered with a `PONG`**, and its record refreshed
at a reading of the clock. -/
theorem answer_renewal (hu : Unique r) {i : Nat} {n : NodeInfo} (hn : r.reg[i]? = some n)
    {p : List Byte × List Byte} (hp : Renews r n.identity k p)
    (hrecent : expired (clock 0) n = false) :
    (answer clock r k p.2).2 = pongReply ∧ ∃ m, (answer clock r k p.2).1.reg[i]? = some m ∧
      m.lastSeen ∈ readings clock r k REGISTRY_REQ p.2 := by
  rw [answer, readings, if_pos rfl]
  obtain ⟨j, hreg, hji⟩ | ⟨hreg, hne, j, hid, hji, hjn⟩ := renewal_cases hu hn hp
  · simp only [hreg, hji]
    exact ⟨trivial, _, getElem?_modify_self hn _, List.mem_cons_self⟩
  · simp only [hreg, if_neg hne, hid, hjn, hrecent, Bool.false_eq_true, if_false]
    simp only [hji]
    exact ⟨trivial, _, getElem?_modify_self hn _, List.mem_cons_of_mem _ List.mem_cons_self⟩

end RequestHandler

namespace Server

open RequestHandler

variable {cfg : Config} {σ τ : Server} {k : SocketId} {id : Identity}

/-! ## What the environment is asked for -/

/-- The readings of the clock an event takes. -/
def readings (σ : Server) : Action → List JLong
  | .dispatch k sc => (σ.actsOn k (.dispatch k sc)).flatMap fun p =>
      RequestHandler.readings sc.clock σ.registry k (p.1.headD 0) p.2
  | _ => []

/-- When an event processes a renewal for `id`: the time its dispatch first
reads. -/
def renewals (id : Identity) (σ : Server) : Action → List JLong
  | .dispatch k sc => (σ.actsOn k (.dispatch k sc)).flatMap fun p =>
      if Renews σ.registry id k p then [sc.clock 0] else []
  | _ => []

/-- The dispatch of `k` that led from `σ` to `τ` has answered `reply`: it has
it to write, and has written it as far as the connection takes it. -/
structure Answered (σ : Server) (k : SocketId) (sc : Script) (reply : Frame) (τ : Server) : Prop where
  prepared : ∃ h out, τ.handlers k = some h ∧ h.op = some .sendRegMsg ∧ h.outMsg = some out ∧
    out.array = reply.bytes
  written : ∃ n, (τ.net k).outp = (σ.net k).outp ++ reply.bytes.take n ∧
    (completes reply.bytes.length sc.replies = true → reply.bytes.length ≤ n)

/-- A request that is served is answered. -/
theorem answered_of_takes {sc : Script} {hd : RequestHandler} {f : Frame} {rest : List Byte}
    (hsock : hd.sock = k) (htakes : Takes cfg σ k sc hd f rest τ)
    (hlong : ¬ Short σ.registry k f) (htag : f.tag = REGISTRY_REQ) :
    Answered σ k sc (answer sc.clock σ.registry k f.body).2 τ ∧
      τ.registry = (answer sc.clock σ.registry k f.body).1 := by
  obtain ⟨d, hserved, rfl⟩ := htakes.long hlong
  cases hsock
  have hsettle : settle sc.clock σ.registry hd f = ((answer sc.clock σ.registry hd.sock f.body).1,
      ((hd.holding f).setOp .sendRegMsg).setOutMsg
        (.wrap (answer sc.clock σ.registry hd.sock f.body).2.bytes)) := by
    rw [settle, if_pos htag]
  have hreg : (served cfg sc (σ.host hd) f rest).2.registry =
      (answer sc.clock σ.registry hd.sock f.body).1 := congrArg Prod.fst hsettle
  obtain ⟨n, hhandler, houtp, hall⟩ := served_reply cfg sc (σ.host hd) rest
    (congrArg Prod.snd hsettle) rfl rfl
  rw [hserved] at hhandler houtp hall hreg
  constructor
  · constructor
    · refine ⟨d.handler, (ByteBuffer.wrap _).advance n, handlers_resume_self .., ?_, ?_, rfl⟩
      · rw [show d.handler = _ from hhandler]
        rfl
      · rw [show d.handler = _ from hhandler]
        rfl
    · exact ⟨n, houtp, fun hc => hall (isOpen_of_read htakes.read) (by simp) hc⟩
  · exact hreg

/-! ## One event -/

/-- Registrations stay few enough for every address to be somebody's own. -/
theorem unique_of_few (hσ : Reachable cfg σ) (hfew : σ.registry.reg.length < 65535) :
    Unique σ.registry := by
  have horderly := orderly_reachable hσ
  have haddr : σ.registry.reg.map NodeInfo.poNodeAddr = σ.ledger.map Identity.addr := by
    rw [ledger, Registry.ledger, List.map_map]
    rfl
  have hsock : σ.registry.reg.map NodeInfo.sock = σ.ledger.map Identity.sock := by
    rw [ledger, Registry.ledger, List.map_map]
    rfl
  have hlen : σ.ledger.length = σ.registry.reg.length := Registry.length_ledger _
  refine ⟨?_, hsock ▸ horderly.distinct, ?_⟩
  · rw [haddr, horderly.nodup_addr_iff]
    omega
  · intro n hn hzero
    have hmem : n.identity ∈ σ.ledger := List.mem_map_of_mem hn
    obtain ⟨i, hi, hin⟩ := List.mem_iff_getElem.mp hmem
    have hnum := horderly.numbered i hi
    rw [hin, show n.identity.addr = 0 from hzero, ← BitVec.toNat_inj, BitVec.toNat_ofNat] at hnum
    simp only [BitVec.ofNat_eq_ofNat, BitVec.toNat_ofNat, Nat.zero_mod] at hnum
    omega

/-- The record `i` of `id` has been seen at `since` or later, and not after
the readings `later` of the clock that are still to come. -/
structure KeptAlive (cfg : Config) (id : Identity) (i : Nat) (since : JLong) (later : List JLong)
    (σ : Server) : Prop where
  reachable : Reachable cfg σ
  ahead : later.Pairwise NotBefore
  record : ∃ n, σ.registry.reg[i]? = some n ∧ n.identity = id ∧ NotBefore since n.lastSeen ∧
    ∀ t ∈ later, NotBefore n.lastSeen t

/-- A dispatch that processes a renewal. -/
theorem renewals_cases {a : Action} (h : step cfg σ a = some τ) (hatt : Attached σ)
    (hne : renewals id σ a ≠ []) :
    ∃ k sc hd f rest, a = .dispatch k sc ∧ hd.sock = k ∧ Takes cfg σ k sc hd f rest τ ∧
      Renews σ.registry id k (parts f) ∧ renewals id σ a = [sc.clock 0] ∧
      readings σ a = RequestHandler.readings sc.clock σ.registry k REGISTRY_REQ f.body := by
  cases a with
  | accept j => exact absurd rfl hne
  | send j bs => exact absurd rfl hne
  | dispatch k sc =>
      obtain ⟨-, hd, hk, hsock, -, hcases⟩ := dispatch_cases hatt h
      obtain ⟨hread, -⟩ | ⟨h', c', hread, -⟩ | ⟨f, rest, htakes⟩ := hcases
      · simp [renewals, actsOn, hk, hread] at hne
      · simp [renewals, actsOn, hk, hread] at hne
      · have hacts : actsOn k σ (.dispatch k sc) = [parts f] := by
          simp [actsOn, hk, htakes.read, parts]
        have hobs : renewals id σ (.dispatch k sc) =
            if Renews σ.registry id k (parts f) then [sc.clock 0] else [] := by simp [renewals, hacts]
        rw [hobs] at hne
        by_cases hren : Renews σ.registry id k (parts f)
        · have htag : f.tag = REGISTRY_REQ := by simpa [parts] using hren.1
          refine ⟨k, sc, hd, f, rest, rfl, hsock, htakes, hren, by rw [hobs, if_pos hren], ?_⟩
          simp [readings, hacts, parts, htag]
        · rw [if_neg hren] at hne
          exact absurd rfl hne

/-- **A renewal in time** is answered with a `PONG`, and the record is seen
again. -/
theorem KeptAlive.renew {i : Nat} {since : JLong} {later : List JLong} {a : Action} {k : SocketId}
    {sc : Script} {hd : RequestHandler} {f : Frame} {rest : List Byte}
    (hσ : KeptAlive cfg id i since (readings σ a ++ later) σ)
    (hfew : σ.registry.reg.length < 65535) (hsock : hd.sock = k)
    (htakes : Takes cfg σ k sc hd f rest τ) (hren : Renews σ.registry id k (parts f))
    (hreads : readings σ a = RequestHandler.readings sc.clock σ.registry k REGISTRY_REQ f.body)
    (htime : InTime since (sc.clock 0)) :
    Answered σ k sc pongReply τ ∧ ∃ m, τ.registry.reg[i]? = some m ∧ NotBefore (sc.clock 0) m.lastSeen := by
  obtain ⟨n, hn, rfl, hsince, hahead⟩ := hσ.record
  have hu := unique_of_few hσ.reachable hfew
  have htag : f.tag = REGISTRY_REQ := by simpa [parts] using hren.1
  have hlong : ¬ Short σ.registry k f := not_short_of_len htag hren.2.1
  obtain ⟨ts, hts⟩ := readings_renewal sc.clock hu hn hren
  rw [show (parts f).2 = f.body from rfl, ← hreads] at hts
  have hseen : NotBefore n.lastSeen (sc.clock 0) := hahead _ (by rw [hts]; exact List.mem_cons_self)
  have hrecent : expired (sc.clock 0) n = false := by
    refine not_expired hseen ?_
    simp only [InTime, NotBefore] at *
    omega
  obtain ⟨hpong, m, hm, hmem⟩ := answer_renewal hu hn hren hrecent
  obtain ⟨hans, hreg⟩ := answered_of_takes hsock htakes hlong htag
  rw [show (parts f).2 = f.body from rfl] at hpong hm hmem
  rw [hpong] at hans
  refine ⟨hans, m, by rw [hreg]; exact hm, ?_⟩
  rw [← hreads, hts] at hmem
  have hpair := hσ.ahead
  rw [hts, List.cons_append, List.pairwise_cons] at hpair
  obtain heq | hin := List.mem_cons.mp hmem
  · rw [heq]
    exact Int.le_refl _
  · exact hpair.1 _ (List.mem_append_left _ hin)

/-- **The record stays alive** over any event, if a renewal the event processes
is in time. -/
theorem KeptAlive.step {i : Nat} {since : JLong} {later rest : List JLong} {a : Action}
    (hσ : KeptAlive cfg id i since (readings σ a ++ later) σ)
    (hfew : σ.registry.reg.length < 65535)
    (hgaps : (since :: (renewals id σ a ++ rest)).IsChain InTime)
    (h : Server.step cfg σ a = some τ) :
    ∃ since', KeptAlive cfg id i since' later τ ∧ (since' :: rest).IsChain InTime := by
  have hatt := attached_reachable hσ.reachable
  have hrun := Lts.run_of_step h
  obtain ⟨n, hn, hid, hsince, hahead⟩ := hσ.record
  obtain ⟨m, hm, hident⟩ := sock_of_run hσ.reachable hrun hn
  obtain ⟨-, hlater, hcross⟩ := List.pairwise_append.mp hσ.ahead
  -- the record is seen now or as it was before
  have hseen : m.lastSeen = n.lastSeen ∨ m.lastSeen ∈ readings σ a := by
    by_cases heq : m = n
    · exact Or.inl (by rw [heq])
    · obtain ⟨k, sc, f, rfl, hacts, -, hmem⟩ := changed_of_step hatt h hn hm heq
      exact Or.inr (by simpa [readings, hacts, parts] using hmem)
  have hfresh : NotBefore since m.lastSeen ∧ ∀ t ∈ later, NotBefore m.lastSeen t := by
    obtain heq | hmem := hseen
    · rw [heq]
      exact ⟨hsince, fun t ht => hahead t (List.mem_append_right _ ht)⟩
    · exact ⟨Int.le_trans hsince (hahead _ (List.mem_append_left _ hmem)), hcross _ hmem⟩
  by_cases hne : renewals id σ a = []
  · rw [hne, List.nil_append] at hgaps
    exact ⟨since, ⟨hσ.reachable.of_run hrun, hlater, m, hm, hident.trans hid, hfresh⟩, hgaps⟩
  · obtain ⟨k, sc, hd, f, rest', -, hsock, htakes, hren, hone, hreads⟩ := renewals_cases h hatt hne
    rw [hone, List.singleton_append, List.isChain_cons_cons] at hgaps
    obtain ⟨-, m', hm', hnow⟩ := hσ.renew hfew hsock htakes hren hreads hgaps.1
    cases hm.symm.trans hm'
    exact ⟨sc.clock 0, ⟨hσ.reachable.of_run hrun, hlater, m, hm, hident.trans hid, hnow, hfresh.2⟩, hgaps.2⟩

/-! ## Whole runs -/

/-- Registrations are never undone. -/
theorem length_reg_le {as : List Action} (hσ : Reachable cfg σ)
    (h : Lts.run (step cfg) σ as = some τ) : σ.registry.reg.length ≤ τ.registry.reg.length := by
  have hle := (ledger_grows hσ h).length_le
  rwa [ledger, ledger, Registry.length_ledger, Registry.length_ledger] at hle

/-- **The record stays alive** over any run whose renewals are in time. -/
theorem KeptAlive.run {i : Nat} {since : JLong} {later rest : List JLong} {as : List Action}
    (hrun : Lts.run (Server.step cfg) σ as = some τ) (hfew : τ.registry.reg.length < 65535)
    (hσ : KeptAlive cfg id i since (Lts.trace (Server.step cfg) readings σ as ++ later) σ)
    (hgaps : (since :: (Lts.trace (Server.step cfg) (renewals id) σ as ++ rest)).IsChain InTime) :
    ∃ since', KeptAlive cfg id i since' later τ ∧ (since' :: rest).IsChain InTime := by
  induction as generalizing σ since with
  | nil =>
      cases hrun
      exact ⟨since, hσ, hgaps⟩
  | cons a as ih =>
      have hle := length_reg_le hσ.reachable hrun
      obtain ⟨t, hst, htu⟩ := Lts.run_cons_eq_some.mp hrun
      rw [Lts.trace_cons_of_step as hst, List.append_assoc] at hσ hgaps
      obtain ⟨since₁, ht, hgaps₁⟩ := hσ.step (by omega) hgaps hst
      exact ih htu ht hgaps₁

/-- The identity a dispatch of `k` gives to a newcomer. -/
def newcomer (σ : Server) (k : SocketId) (sc : Script) : Identity :=
  ⟨σ.registry.getAddr.1, newSeed sc.clock, k⟩

/-- **A newcomer is welcomed** and its record is alive from then on. -/
theorem KeptAlive.start {sc : Script} {later : List JLong} (hσ : Reachable cfg σ)
    (h : Server.step cfg σ (.dispatch k sc) = some τ) (henrols : enrolments σ (.dispatch k sc) ≠ [])
    (hclock : (readings σ (.dispatch k sc) ++ later).Pairwise NotBefore) :
    Answered σ k sc (welcomeReply (newcomer σ k sc).addr (newcomer σ k sc).seed) τ ∧
      KeptAlive cfg (newcomer σ k sc) σ.registry.reg.length (sc.clock 0) later τ := by
  obtain ⟨-, hd, hk, hsock, -, hcases⟩ := dispatch_cases (attached_reachable hσ) h
  obtain ⟨hread, -⟩ | ⟨h', c', hread, -⟩ | ⟨f, rest, htakes⟩ := hcases
  · simp [enrolments, actsOn, hk, hread] at henrols
  · simp [enrolments, actsOn, hk, hread] at henrols
  · have hacts : actsOn k σ (.dispatch k sc) = [parts f] := by simp [actsOn, hk, htakes.read, parts]
    obtain ⟨htag, hlen, hfirst⟩ : f.tag = REGISTRY_REQ ∧ REQ_LEN_NEW ≤ f.body.length ∧
        FirstTime σ.registry k f.body := by
      simpa [enrolments, hacts, parts] using henrols
    have hreads : readings σ (.dispatch k sc) = [sc.clock 0, sc.clock 1] := by
      simp [readings, hacts, parts, RequestHandler.readings, htag, hfirst.1, hfirst.2]
    obtain ⟨hans, hreg⟩ := answered_of_takes hsock htakes (not_short_of_len htag hlen) htag
    rw [answer_firstTime sc.clock hfirst] at hans hreg
    refine ⟨hans, hσ.of_step h,
      (List.pairwise_append.mp hclock).2.1, ⟨σ.registry.getAddr.1, reqLat f.body, reqLon f.body,
        newSeed sc.clock, k, sc.clock 0⟩, ?_, rfl, Int.le_refl _, ?_⟩
    · rw [hreg]
      simp
    · intro t ht
      rw [hreads] at hclock
      exact (List.pairwise_append.mp hclock).2.2 _ List.mem_cons_self t ht

/-- **Keep-alive suffices**: a newcomer is welcomed with an address and a seed,
and as long as its renewals are in time of the welcome and of each other, every
one of them is answered with a `PONG`, whatever else happens; fewer than 65535
sockets enrol, and the clock is never set back. -/
theorem keepAlive_suffices {pre as : List Action} {σ₀ υ : Server} {k₀ : SocketId} {sc₀ sc : Script}
    (hpre : Lts.run (step cfg) .new pre = some σ₀)
    (hwelcome : step cfg σ₀ (.dispatch k₀ sc₀) = some σ)
    (henrols : enrolments σ₀ (.dispatch k₀ sc₀) ≠ [])
    (hrun : Lts.run (step cfg) σ as = some τ) (hst : step cfg τ (.dispatch k sc) = some υ)
    (hrenews : renewals (newcomer σ₀ k₀ sc₀) τ (.dispatch k sc) ≠ [])
    (hfew : (Lts.trace (step cfg) enrolments .new (pre ++ .dispatch k₀ sc₀ :: as)).length < 65535)
    (hclock : (Lts.trace (step cfg) readings .new
      (pre ++ .dispatch k₀ sc₀ :: (as ++ [.dispatch k sc]))).Pairwise NotBefore)
    (hgaps : (sc₀.clock 0 :: Lts.trace (step cfg) (renewals (newcomer σ₀ k₀ sc₀)) σ
      (as ++ [.dispatch k sc])).IsChain InTime) :
    Answered σ₀ k₀ sc₀ (welcomeReply (newcomer σ₀ k₀ sc₀).addr (newcomer σ₀ k₀ sc₀).seed) σ ∧
      Answered τ k sc pongReply υ := by
  have hσ₀ : Reachable cfg σ₀ := ⟨pre, hpre⟩
  have hτrun : Lts.run (step cfg) .new (pre ++ .dispatch k₀ sc₀ :: as) = some τ := by
    rw [Lts.run_append, hpre, Option.bind_some]
    exact Lts.run_cons_eq_some.mpr ⟨σ, hwelcome, hrun⟩
  rw [← length_reg_run hτrun] at hfew
  rw [Lts.trace_append _ hpre, Lts.trace_cons_of_step _ hwelcome, Lts.trace_append _ hrun,
    Lts.trace_singleton] at hclock
  rw [Lts.trace_append _ hrun, Lts.trace_singleton] at hgaps
  obtain ⟨hwelcomed, halive⟩ := KeptAlive.start hσ₀ hwelcome henrols (List.pairwise_append.mp hclock).2.1
  refine ⟨hwelcomed, ?_⟩
  -- the record is alive when the renewal comes
  obtain ⟨since, hτ, hlast⟩ := KeptAlive.run hrun hfew halive hgaps
  obtain ⟨k', sc', hd, f, rest, heq, hsock, htakes, hren, hone, hreads⟩ :=
    renewals_cases hst (attached_reachable hτ.reachable) hrenews
  cases heq
  rw [hone, List.isChain_cons_cons] at hlast
  rw [← List.append_nil (readings τ (.dispatch k sc))] at hτ
  exact (hτ.renew hfew hsock htakes hren hreads hlast.1).1

/-- The first node is welcomed. -/
private theorem step_firstRequest :
    ∃ σ, step everywhere (Server.new.joined 0 firstRequest.bytes) (.dispatch 0 (prompt 0)) = some σ ∧
      σ.alive = true ∧ σ.registry = ⟨[firstNode], 2⟩ ∧ σ.handlers 1 = none := by
  have hfirst : FirstTime Registry.new 0 firstRequest.body := by decide
  obtain ⟨h, hst⟩ := step_registryReq everywhere 0 (σ := .joined .new 0 firstRequest.bytes)
    (k := 0) rfl (show _ = some (RequestHandler.new 0) from rfl) rfl rfl (List.append_nil _).symm rfl
    (not_short_of_len rfl (by decide))
  rw [show (Server.new.joined 0 firstRequest.bytes).registry = Registry.new from rfl,
    answer_firstTime _ hfirst] at hst
  exact ⟨_, hst, rfl, rfl, rfl⟩

/-- The first node registers and comes back on another socket. -/
theorem keepAlive_suffices_first : ∃ σ₀ σ τ υ,
    Lts.run (step everywhere) σ [.accept 1, .send 1 againRequest.bytes] = some τ ∧
    Answered σ₀ 0 (prompt 0) (welcomeReply (newcomer σ₀ 0 (prompt 0)).addr
      (newcomer σ₀ 0 (prompt 0)).seed) σ ∧ Answered τ 1 (prompt 0) pongReply υ := by
  let σ₀ := Server.new.joined 0 firstRequest.bytes
  have hpre : Lts.run (step everywhere) .new [.accept 0, .send 0 firstRequest.bytes] = some σ₀ :=
    run_joined everywhere rfl rfl firstRequest.bytes
  have hacts₀ : actsOn 0 σ₀ (.dispatch 0 (prompt 0)) = [parts firstRequest] :=
    actsOn_prompt (show _ = some (RequestHandler.new 0) from rfl) rfl (List.append_nil _).symm
  obtain ⟨σ, hwelcome, ha, hreg, hfree⟩ := step_firstRequest
  -- the renewal
  let τ := σ.joined 1 againRequest.bytes
  have hrun : Lts.run (step everywhere) σ [.accept 1, .send 1 againRequest.bytes] = some τ :=
    run_joined everywhere ha hfree againRequest.bytes
  have hself : τ.handlers 1 = some (.new 1) := by simp [τ]
  have ho : (τ.net 1).isOpen = true := by simp [τ]
  have hinp : (τ.net 1).inp = againRequest.bytes ++ [] := by simp [τ]
  have hlong : ¬ Short τ.registry 1 againRequest := not_short_of_len rfl (by decide)
  obtain ⟨h, hst⟩ := step_registryReq everywhere 0 (σ := τ) ha hself rfl ho hinp rfl hlong
  have hacts : actsOn 1 τ (.dispatch 1 (prompt 0)) = [parts againRequest] :=
    actsOn_prompt hself ho hinp
  have hid : newcomer σ₀ 0 (prompt 0) = firstNode.identity := by decide
  have hregτ : τ.registry = ⟨[firstNode], 2⟩ := hreg
  have hren : renewals (newcomer σ₀ 0 (prompt 0)) τ (.dispatch 1 (prompt 0)) = [0] := by
    have hcarries : Renews ⟨[firstNode], 2⟩ firstNode.identity 1 (parts againRequest) := by decide
    rw [renewals, hacts, hid, hregτ, List.flatMap_singleton, if_pos hcarries]
    rfl
  -- what is seen on the way
  obtain ⟨σ₁, haccept, hsend⟩ := Lts.run_cons_eq_some.mp hrun
  rw [Lts.run_singleton] at hsend
  obtain ⟨σ₂, haccept₀, hsend₀⟩ := Lts.run_cons_eq_some.mp hpre
  rw [Lts.run_singleton] at hsend₀
  refine ⟨σ₀, σ, τ, _, hrun, keepAlive_suffices hpre hwelcome ?_ hrun hst ?_ ?_ ?_ ?_⟩
  · simp only [enrolments, hacts₀]
    decide
  · rw [hren]
    exact List.cons_ne_nil _ _
  · have hτ : Lts.run (step everywhere) .new ([.accept 0, .send 0 firstRequest.bytes] ++
        .dispatch 0 (prompt 0) :: [.accept 1, .send 1 againRequest.bytes]) = some τ := by
      rw [Lts.run_append, hpre, Option.bind_some]
      exact Lts.run_cons_eq_some.mpr ⟨σ, hwelcome, hrun⟩
    rw [← length_reg_run hτ, hregτ]
    decide
  · rw [List.cons_append, List.cons_append, List.nil_append, List.cons_append, List.cons_append,
      List.nil_append, Lts.trace_cons_of_step _ haccept₀, Lts.trace_cons_of_step _ hsend₀,
      Lts.trace_cons_of_step _ hwelcome, Lts.trace_cons_of_step _ haccept,
      Lts.trace_cons_of_step _ hsend, Lts.trace_singleton]
    simp only [readings, hacts, hregτ]
    decide
  · rw [List.cons_append, List.cons_append, List.nil_append, Lts.trace_cons_of_step _ haccept,
      Lts.trace_cons_of_step _ hsend, Lts.trace_singleton, hren]
    simp only [renewals]
    decide

end Server

end Pobicos.Directory
