import Pobicos.Directory.Survival
import Mathlib.Data.Set.List

/-!
# Pobicos.Directory.Segmentation

The input side of the server as one client sees it.

The reads of a dispatch split the client's stream in any way, other clients'
dispatches come in between, and keys are dispatched that have nothing to read.
None of this shows: on a connection that stays healthy the bytes acted on and
the bytes still unread are the bytes sent (`connected_step`), so what is acted
on are the frames sent, in order (`acts_in_order`).  It takes a server that
keeps running: a frame too short for its type ends it, and what was sent after
it, by any client, is never acted on (`nothing_after_short`).
-/

namespace Pobicos.Directory

open Nio Octets Framing NetworkMsg RequestHandler

namespace Server

variable {cfg : Config} {σ τ : Server} {k : SocketId}

/-! ## What is seen -/

/-- The header and the payload of a frame. -/
def parts (f : Frame) : List Byte × List Byte := ([f.tag, f.lengthByte], f.body)

theorem flatMap_parts (fs : List Frame) :
    (fs.map parts).flatMap (fun p => p.1 ++ p.2) = encode fs := by
  rw [List.flatMap_map]
  rfl

/-- What the client of `k` sends. -/
def sentOn (k : SocketId) (_ : Server) : Action → List Byte
  | .send j bs => if j = k then bs else []
  | _ => []

/-- An event acts on nothing of `k`, or is a dispatch that takes one frame. -/
theorem actsOn_cases (k : SocketId) (σ : Server) (a : Action) :
    actsOn k σ a = [] ∨ ∃ sc hd f rest, a = .dispatch k sc ∧ σ.handlers k = some hd ∧
      (σ.net k).inp = f.bytes ++ rest ∧
      read hd (σ.net k) sc.reads = (.ret, hd.holding f, { σ.net k with inp := rest }) ∧
      actsOn k σ a = [parts f] := by
  cases a with
  | accept j => exact Or.inl rfl
  | send j bs => exact Or.inl rfl
  | dispatch j sc =>
      cases hj : σ.handlers j with
      | none => exact Or.inl (by simp [actsOn, hj])
      | some hd =>
          obtain hread | ⟨f, rest, hinp, hread⟩ | ⟨h', c', hread, -⟩ | hspin :=
            read_cases hd (σ.net j) sc.reads
          · exact Or.inl (by simp [actsOn, hj, hread])
          · by_cases hjk : j = k
            · cases hjk
              exact Or.inr ⟨sc, hd, f, rest, rfl, hj, hinp, hread, by simp [actsOn, hj, hread, parts]⟩
            · exact Or.inl (by simp [actsOn, hj, hread, hjk])
          · exact Or.inl (by simp [actsOn, hj, hread])
          · rcases hread : read hd (σ.net j) sc.reads with ⟨o, h', c'⟩
            rw [hread] at hspin
            cases hspin
            exact Or.inl (by simp [actsOn, hj, hread])

/-- **A dispatch that acts on nothing does nothing** to the registry and to
what any client is sent. -/
theorem spurious_step {sc : Script} (hatt : Attached σ) (h : step cfg σ (.dispatch k sc) = some τ)
    (hnone : actsOn k σ (.dispatch k sc) = []) :
    τ.registry = σ.registry ∧ ∀ s, (τ.net s).outp = (σ.net s).outp := by
  obtain ⟨-, hd, hk, -, -, hcases⟩ := dispatch_cases hatt h
  obtain ⟨-, rfl⟩ | ⟨h', c', -, -, hc', rfl⟩ | ⟨f, rest, htakes⟩ := hcases
  · exact ⟨rfl, fun _ => rfl⟩
  · exact ⟨rfl, outp_of_failed hc'⟩
  · simp [actsOn, hk, htakes.read] at hnone

/-! ## One event -/

/-- The client of `k` has an open connection to a running server. -/
structure Connected (σ : Server) (k : SocketId) : Prop where
  attached : Attached σ
  alive : σ.alive = true
  handler : ∃ hd, σ.handlers k = some hd
  isOpen : (σ.net k).isOpen = true

/-- A dispatch meets no short frame, and on `k` a healthy connection. -/
def Fed (k : SocketId) (σ : Server) (a : Action) : Prop :=
  ∀ j sc, a = .dispatch j sc → ¬ ShortAhead σ j ∧ (j = k → Healthy sc.reads)

/-- The stream of the other clients is left alone by a dispatch. -/
theorem inp_dispatch_of_ne {j : SocketId} {sc : Script} (hatt : Attached σ)
    (h : step cfg σ (.dispatch j sc) = some τ) (hkj : k ≠ j) :
    (τ.net k).inp = (σ.net k).inp ∧ (τ.net k).isOpen = (σ.net k).isOpen := by
  obtain ⟨-, hd, -, hsock, hsound, hcases⟩ := dispatch_cases hatt h
  obtain ⟨-, rfl⟩ | ⟨h', c', -, -, -, rfl⟩ | ⟨f, rest, htakes⟩ := hcases
  · exact ⟨rfl, rfl⟩
  · simp only [resume, Function.update_of_ne hkj]
    trivial
  · by_cases hshort : Short σ.registry j f
    · rw [htakes.short hshort]
      exact ⟨inp_taken_of_ne σ.net hkj rest, isOpen_taken ..⟩
    · obtain ⟨d, hserved, rfl⟩ := htakes.long hshort
      obtain ⟨-, -, -, hnet⟩ := served_attached hsock hsound hshort hserved
      exact ⟨(hnet.inp k).trans (inp_taken_of_ne σ.net hkj rest),
        (hnet.isOpen k).trans (isOpen_taken ..)⟩

/-- A dispatch of `k` takes from its stream what it acts on. -/
theorem inp_dispatch_self {sc : Script} (hc : Connected σ k) (hok : Fed k σ (.dispatch k sc))
    (h : step cfg σ (.dispatch k sc) = some τ) :
    (actsOn k σ (.dispatch k sc)).flatMap (fun p => p.1 ++ p.2) ++ (τ.net k).inp = (σ.net k).inp ∧
      (τ.net k).isOpen = true := by
  obtain ⟨hnoshort, hhealthy⟩ := hok k sc rfl
  obtain ⟨-, hd, hk, hsock, hsound, hcases⟩ := dispatch_cases hc.attached h
  obtain ⟨hread, rfl⟩ | ⟨h', c', hread, -, -, -⟩ | ⟨f, rest, htakes⟩ := hcases
  · refine ⟨?_, hc.isOpen⟩
    simp [actsOn, hk, hread, resume]
  · have hne := read_healthy (h := hd) hc.isOpen (hhealthy rfl) .ioException
    rw [hread] at hne
    exact absurd rfl hne
  · have hlong : ¬ Short σ.registry k f := fun hs =>
      hnoshort ⟨hc.isOpen, f, rest, htakes.inp, hs⟩
    obtain ⟨d, hserved, rfl⟩ := htakes.long hlong
    obtain ⟨-, -, -, hnet⟩ := served_attached hsock hsound hlong hserved
    have hacts : actsOn k σ (.dispatch k sc) = [parts f] := by
      simp [actsOn, hk, htakes.read, parts]
    have hrest : (d.net k).inp = rest := (hnet.inp k).trans (inp_taken_self σ.net k rest)
    refine ⟨?_, (hnet.isOpen k).trans ((isOpen_taken ..).trans hc.isOpen)⟩
    have hone := flatMap_parts [f]
    rw [List.map_singleton, encode_singleton] at hone
    rw [hacts, htakes.inp, resume, hrest, hone]

/-- A client stays connected. -/
theorem handler_step {a : Action} {hd : RequestHandler} (hk : σ.handlers k = some hd)
    (h : step cfg σ a = some τ) : ∃ hd', τ.handlers k = some hd' := by
  cases a with
  | accept j =>
      obtain ⟨-, -, rfl⟩ := step_accept h
      by_cases hkj : k = j
      · exact ⟨.new j, by rw [hkj]; exact Function.update_self ..⟩
      · exact ⟨hd, (Function.update_of_ne hkj ..).trans hk⟩
  | send j bs =>
      obtain ⟨-, rfl⟩ := step_send h
      exact ⟨hd, hk⟩
  | dispatch j sc =>
      obtain ⟨-, hj, o, d, -, -, -, rfl⟩ := step_dispatch h
      by_cases hkj : k = j
      · exact ⟨d.handler, by rw [hkj]; exact Function.update_self ..⟩
      · exact ⟨hd, (Function.update_of_ne hkj ..).trans hk⟩

/-- **What one event does to the stream of `k`**: what is acted on and what is
then unread are what was unread and what is sent. -/
theorem connected_step {a : Action} (hc : Connected σ k) (hok : Fed k σ a)
    (h : step cfg σ a = some τ) :
    Connected τ k ∧ (actsOn k σ a).flatMap (fun p => p.1 ++ p.2) ++ (τ.net k).inp =
      (σ.net k).inp ++ sentOn k σ a := by
  obtain ⟨hd, hk⟩ := hc.handler
  have halive := (alive_step hc.attached (fun j sc ha => (hok j sc ha).1) h).trans hc.alive
  have hatt := attached_step hc.attached h
  have hhandler := handler_step hk h
  cases a with
  | accept j =>
      obtain ⟨-, hj, rfl⟩ := step_accept h
      have hkj : k ≠ j := by
        rintro rfl
        rw [hk] at hj
        cases hj
      have hnet : (σ.accept j).net k = σ.net k := Function.update_of_ne hkj ..
      refine ⟨⟨hatt, halive, hhandler, by rw [hnet, hc.isOpen]⟩, ?_⟩
      rw [hnet]
      exact (List.append_nil _).symm
  | send j bs =>
      obtain ⟨-, rfl⟩ := step_send h
      by_cases hjk : j = k
      · cases hjk
        have hnet : (σ.send k bs).net k = { σ.net k with inp := (σ.net k).inp ++ bs } :=
          Function.update_self ..
        refine ⟨⟨hatt, halive, hhandler, by rw [hnet]; exact hc.isOpen⟩, ?_⟩
        rw [hnet, sentOn, if_pos rfl]
        rfl
      · have hnet : (σ.send j bs).net k = σ.net k := Function.update_of_ne (Ne.symm hjk) ..
        refine ⟨⟨hatt, halive, hhandler, by rw [hnet, hc.isOpen]⟩, ?_⟩
        rw [hnet, sentOn, if_neg hjk, List.append_nil]
        rfl
  | dispatch j sc =>
      by_cases hjk : j = k
      · cases hjk
        obtain ⟨hbytes, hopen⟩ := inp_dispatch_self hc hok h
        refine ⟨⟨hatt, halive, hhandler, hopen⟩, ?_⟩
        rw [hbytes]
        exact (List.append_nil _).symm
      · obtain ⟨hinp, hopen⟩ := inp_dispatch_of_ne hc.attached h (Ne.symm hjk)
        refine ⟨⟨hatt, halive, hhandler, hopen.trans hc.isOpen⟩, ?_⟩
        have hnone : actsOn k σ (.dispatch j sc) = [] := by
          obtain hnone | ⟨sc', hd', f, rest, heq, -⟩ := actsOn_cases k σ (.dispatch j sc)
          · exact hnone
          · cases heq
            exact absurd rfl hjk
        rw [hnone, hinp]
        exact (List.append_nil _).symm

/-! ## Whole runs -/

/-- Of the frames `fs` of `k`, whose last bytes `later` are not sent yet,
`acted` are the first ones and the stream holds the rest.  A dispatch acts on
the next one or on nothing, and on the next one if it has arrived whole and
every read finds a byte. -/
def InOrder (k : SocketId) (σ : Server) (fs : List Frame) (later : List Byte)
    (acted : List (List Byte × List Byte)) : Prop :=
  ∃ ahead done, fs = done ++ ahead ∧ acted = done.map parts ∧ (σ.net k).inp ++ later = encode ahead ∧
    ∀ sc, (actsOn k σ (.dispatch k sc) = [] ∨
        ∃ f fs', ahead = f :: fs' ∧ actsOn k σ (.dispatch k sc) = [parts f]) ∧
      (Progress sc.reads → ∀ f fs', ahead = f :: fs' → f.bytes.length ≤ (σ.net k).inp.length →
        f.bytes.length ≤ sc.reads.length → actsOn k σ (.dispatch k sc) = [parts f])

/-- The next dispatch acts on the next frame or on nothing. -/
theorem actsOn_ahead {ahead : List Frame} {later : List Byte}
    (hahead : (σ.net k).inp ++ later = encode ahead) (sc : Script) :
    actsOn k σ (.dispatch k sc) = [] ∨
      ∃ f fs', ahead = f :: fs' ∧ actsOn k σ (.dispatch k sc) = [parts f] := by
  obtain hnone | ⟨-, -, f, rest, -, -, hinp, -, hacts⟩ := actsOn_cases k σ (.dispatch k sc)
  · exact Or.inl hnone
  · rw [hinp, List.append_assoc, ← encode_singleton, eq_comm] at hahead
    obtain ⟨fs', rfl, -⟩ := exists_of_encode_append hahead.symm
    exact Or.inr ⟨f, fs', rfl, hacts⟩

/-- A frame that has arrived whole is acted on by the next dispatch. -/
theorem actsOn_of_progress {hd : RequestHandler} {f : Frame} {fs : List Frame} {later : List Byte}
    {sc : Script} (hk : σ.handlers k = some hd) (ho : (σ.net k).isOpen = true)
    (hahead : (σ.net k).inp ++ later = encode (f :: fs))
    (hwhole : f.bytes.length ≤ (σ.net k).inp.length) (hp : Progress sc.reads)
    (hlen : f.bytes.length ≤ sc.reads.length) : actsOn k σ (.dispatch k sc) = [parts f] := by
  rw [encode_cons] at hahead
  obtain ⟨rest, hinp⟩ : f.bytes <+: (σ.net k).inp :=
    List.prefix_of_prefix_length_le ⟨encode fs, rfl⟩ ⟨later, hahead⟩ hwhole
  have hread := read_frame (h := hd) ho hinp.symm hp hlen
  simp [actsOn, hk, hread, parts]

/-- All that is acted on are frames. -/
theorem trace_actsOn (cfg : Config) (k : SocketId) (σ : Server) (as : List Action) :
    ∃ done : List Frame, Lts.trace (step cfg) (actsOn k) σ as = done.map parts := by
  have hone : ∀ σ a, ∀ p ∈ actsOn k σ a, p ∈ Set.range parts := by
    intro σ a p hp
    obtain hnone | ⟨-, -, f, -, -, -, -, -, hacts⟩ := actsOn_cases k σ a
    · rw [hnone] at hp
      cases hp
    · rw [hacts, List.mem_singleton] at hp
      exact ⟨f, hp.symm⟩
  have hmem : Lts.trace (step cfg) (actsOn k) σ as ∈ Set.range (List.map parts) := by
    rw [Set.range_list_map]
    exact Lts.forall_mem_trace hone σ as
  obtain ⟨done, hdone⟩ := hmem
  exact ⟨done, hdone.symm⟩

/-- **Input framing is independent of segmentation**: from the accept of `k`
on, in a run whose dispatches meet no short frame and on `k` a healthy
connection, what is acted on of `k` are the frames its client has sent, in
order, none lost, repeated or changed; and a dispatch that acts on nothing
changes neither the registry nor any output. -/
theorem acts_in_order {σ₀ : Server} {as : List Action} {fs : List Frame} {later : List Byte}
    (hσ : Reachable cfg σ₀) (hacc : step cfg σ₀ (.accept k) = some σ)
    (hok : Lts.Along (step cfg) (Fed k) σ as) (hrun : Lts.run (step cfg) σ as = some τ)
    (hsent : Lts.trace (step cfg) (sentOn k) σ as ++ later = encode fs) :
    τ.alive = true ∧ InOrder k τ fs later (Lts.trace (step cfg) (actsOn k) σ as) ∧
      ∀ j sc υ, step cfg τ (.dispatch j sc) = some υ → actsOn j τ (.dispatch j sc) = [] →
        υ.registry = τ.registry ∧ ∀ s, (υ.net s).outp = (τ.net s).outp := by
  have hatt₀ := attached_reachable hσ
  have hatt : Attached σ := attached_step hatt₀ hacc
  obtain ⟨halive, -, rfl⟩ := step_accept hacc
  have hnet : (σ₀.accept k).net k = ⟨true, [], []⟩ := Function.update_self ..
  have hself : (σ₀.accept k).handlers k = some (.new k) := Function.update_self ..
  have hc : Connected (σ₀.accept k) k := ⟨hatt, halive, ⟨_, hself⟩, by rw [hnet]⟩
  -- the balance of the bytes sent, acted on and unread
  have hbalance := Lts.trace_conserved (fun σ => (σ.net k).inp) (sentOn k)
    (fun σ a => (actsOn k σ a).flatMap fun p => p.1 ++ p.2)
    (fun _ _ _ hs hsa hst => connected_step hs hsa hst) hok hc hrun
  rw [Lts.trace_flatMap, hnet, List.nil_append] at hbalance
  obtain ⟨done, hdone⟩ := trace_actsOn cfg k (σ₀.accept k) as
  rw [hdone, flatMap_parts] at hbalance
  rw [← hbalance, List.append_assoc] at hsent
  obtain ⟨ahead, hfs, hahead⟩ := exists_of_encode_append hsent
  -- the connection is still there at the end
  have hcτ : Connected τ k :=
    Lts.run_induct (fun _ _ _ hs hsa hst => (connected_step hs hsa hst).1) hok hc hrun
  obtain ⟨hd, hk⟩ := hcτ.handler
  refine ⟨hcτ.alive, ⟨ahead, done, hfs, hdone, hahead, fun sc => ⟨actsOn_ahead hahead sc, ?_⟩⟩,
    fun j sc υ hst hnone => spurious_step hcτ.attached hst hnone⟩
  rintro hp f fs' rfl hwhole hlen
  exact actsOn_of_progress hk hcτ.isOpen hahead hwhole hp hlen

/-- The first request, as the server sees it. -/
theorem acts_in_order_first :
    ∃ τ, τ.alive = true ∧
      InOrder 0 τ [firstRequest] [] (Lts.trace (step everywhere) (actsOn 0) (Server.new.accept 0)
        [.send 0 firstRequest.bytes, .dispatch 0 (prompt 0)]) ∧
      ∀ j sc υ, step everywhere τ (.dispatch j sc) = some υ → actsOn j τ (.dispatch j sc) = [] →
        υ.registry = τ.registry ∧ ∀ s, (υ.net s).outp = (τ.net s).outp := by
  have hlong : ∀ r, ¬ Short r 0 firstRequest := fun r => not_short_of_len rfl (by decide)
  have hself : (Server.new.accept 0).handlers 0 = some (.new 0) := rfl
  have hsend : step everywhere (Server.new.accept 0) (.send 0 firstRequest.bytes) =
      some (Server.new.joined 0 firstRequest.bytes) := step_of_send everywhere hself _
  have hinp : ((Server.new.joined 0 firstRequest.bytes).net 0).inp = firstRequest.bytes ++ [] := rfl
  obtain ⟨h, hdisp⟩ := step_registryReq everywhere 0 (k := 0) (σ := .joined .new 0 firstRequest.bytes)
    rfl rfl rfl rfl hinp rfl (hlong _)
  have hrun := Lts.run_cons_eq_some.mpr ⟨_, hsend, Lts.run_of_step hdisp⟩
  have hfed : Lts.Along (step everywhere) (Fed 0) (Server.new.accept 0)
      [.send 0 firstRequest.bytes, .dispatch 0 (prompt 0)] := by
    refine ⟨fun j sc heq => (nomatch heq), fun t ht => ?_⟩
    rw [hsend] at ht
    cases ht
    refine ⟨fun j sc heq => ?_, fun _ _ => trivial⟩
    cases heq
    refine ⟨?_, fun _ => (progress_prompt 0).healthy⟩
    rintro ⟨-, f, rest, hinp', hshort⟩
    obtain ⟨rfl, -⟩ := bytes_append_inj (hinp.symm.trans hinp')
    exact hlong _ hshort
  have hsent : Lts.trace (step everywhere) (sentOn 0) (Server.new.accept 0)
      [.send 0 firstRequest.bytes, .dispatch 0 (prompt 0)] ++ [] = encode [firstRequest] := by
    rw [Lts.trace_cons_of_step _ hsend, Lts.trace_cons_of_step _ hdisp]
    rfl
  exact ⟨_, acts_in_order Lts.Reachable.refl rfl hfed hrun hsent⟩

/-! ## After a short frame -/

/-- A short frame ends the reactor. -/
theorem step_short (cfg : Config) {hd : RequestHandler} {f : Frame} {rest : List Byte}
    (ha : σ.alive = true) (hk : σ.handlers k = some hd) (hsock : hd.sock = k)
    (ho : (σ.net k).isOpen = true) (hinp : (σ.net k).inp = f.bytes ++ rest)
    (hshort : Short σ.registry k f) :
    step cfg σ (.dispatch k (prompt 0)) = some (σ.resume k (.throws .indexOutOfBounds)
      ⟨σ.registry, hd.holding f, taken σ.net k rest⟩) := by
  cases hsock
  have hrun := run_frame cfg (prompt 0) (σ.host hd) ho hinp (progress_prompt 0) (length_le_prompt f 0)
  rw [if_pos (by exact hshort)] at hrun
  exact step_of_run ha hk hrun (by simp)

/-- A server that is not running acts on nothing. -/
theorem acts_on_nothing {as : List Action} (ha : σ.alive = false)
    (hrun : Lts.run (step cfg) σ as = some τ) : Lts.trace (step cfg) (actsOn k) σ as = [] := by
  have hstep : ∀ s a t, s.alive = false → True → step cfg s a = some t →
      t.alive = false ∧ actsOn k s a ++ [] = [] ++ [] := by
    intro s a t hs _ hst
    cases a with
    | accept j =>
        obtain ⟨hs', -, -⟩ := step_accept hst
        rw [hs] at hs'
        cases hs'
    | send j bs =>
        obtain ⟨-, rfl⟩ := step_send hst
        exact ⟨hs, rfl⟩
    | dispatch j sc =>
        obtain ⟨hs', -⟩ := step_dispatch hst
        rw [hs] at hs'
        cases hs'
  have hnone := Lts.trace_conserved (fun _ => []) (fun _ _ => []) (actsOn k) hstep
    (Lts.along_true σ as) ha hrun
  rwa [List.append_nil, Lts.trace_nothing] at hnone

/-- Of two frames, the first of them too short, only the first is ever acted on. -/
theorem nothing_after_short :
    ∃ σ, Lts.run (step everywhere) .new [.accept 0, .send 0 (encode [noRequest, firstRequest]),
        .dispatch 0 (prompt 0)] = some σ ∧ Healthy (prompt 0).reads ∧
      ∀ as τ, Lts.run (step everywhere) σ as = some τ →
        Lts.trace (step everywhere) (actsOn 0) .new ([.accept 0,
          .send 0 (encode [noRequest, firstRequest]), .dispatch 0 (prompt 0)] ++ as) =
          [parts noRequest] := by
  have haccept : step everywhere .new (.accept 0) = some (Server.new.accept 0) := rfl
  have hself : (Server.new.accept 0).handlers 0 = some (.new 0) := rfl
  have hsend : step everywhere (Server.new.accept 0) (.send 0 (encode [noRequest, firstRequest])) =
      some (Server.new.joined 0 (encode [noRequest, firstRequest])) :=
    step_of_send everywhere hself _
  have hinp : ((Server.new.joined 0 (encode [noRequest, firstRequest])).net 0).inp =
      noRequest.bytes ++ encode [firstRequest] := rfl
  have hself' : (Server.new.joined 0 (encode [noRequest, firstRequest])).handlers 0 =
      some (.new 0) := rfl
  have hshort : Short (Server.new.joined 0 (encode [noRequest, firstRequest])).registry 0 noRequest :=
    Or.inl ⟨rfl, Or.inl (by decide)⟩
  have hdisp := step_short everywhere rfl hself' rfl rfl hinp hshort
  have hacts : actsOn 0 _ (.dispatch 0 (prompt 0)) = [parts noRequest] :=
    actsOn_prompt hself' rfl hinp
  refine ⟨_, Lts.run_cons_eq_some.mpr ⟨_, haccept, Lts.run_cons_eq_some.mpr ⟨_, hsend,
    Lts.run_of_step hdisp⟩⟩, (progress_prompt 0).healthy, fun as τ hrun => ?_⟩
  rw [List.cons_append, List.cons_append, List.cons_append, List.nil_append,
    Lts.trace_cons_of_step _ haccept, Lts.trace_cons_of_step _ hsend, Lts.trace_cons_of_step _ hdisp,
    acts_on_nothing rfl hrun, hacts]
  rfl

end Server

end Pobicos.Directory
