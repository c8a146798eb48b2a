import Pobicos.Lib.Lts
import Pobicos.Directory.RunSpec

/-!
# Pobicos.Directory.Reactor

`Reactor.java` and `Accept_Handler.java`: the single-threaded server as a
labelled transition system over the registry, the handlers attached to the
accepted sockets, and the channels.

A label is one event: a connection is accepted, a client sends bytes, or the
reactor dispatches a selected key.  The selected set is never pruned, so a
dispatch may come at any time, ready or not.  `run` catches `IOException`
only: any other exception of a handler ends the reactor (`alive`).  A dispatch
that does not come to an end within its script is not a step; what happens
then is the subject of the termination results.
-/

namespace Pobicos.Directory

open Nio Octets Framing NetworkMsg

structure Server where
  alive : Bool
  registry : Registry
  handlers : SocketId → Option RequestHandler
  net : Net

/-- `new Reactor(port)`. -/
def Server.new : Server where
  alive := true
  registry := .new
  handlers := fun _ => none
  net := fun _ => ⟨false, [], []⟩

inductive Action
  | accept (k : SocketId)
  | send (k : SocketId) (bs : List Byte)
  | dispatch (k : SocketId) (sc : Script)

namespace Server

variable {cfg : Config} {σ τ : Server} {k : SocketId}

/-- `Accept_Handler.run`: the new socket is registered with a fresh handler. -/
def accept (σ : Server) (k : SocketId) : Server :=
  { σ with
    handlers := Function.update σ.handlers k (some (.new k))
    net := Function.update σ.net k ⟨true, [], []⟩ }

/-- The client of `k` has sent `bs`. -/
def send (σ : Server) (k : SocketId) (bs : List Byte) : Server :=
  { σ with net := Function.update σ.net k { σ.net k with inp := (σ.net k).inp ++ bs } }

/-- What a handler works on. -/
def host (σ : Server) (h : RequestHandler) : Host := ⟨σ.registry, h, σ.net⟩

/-- The server after a dispatch of `k` has ended with `o`. -/
def resume (σ : Server) (k : SocketId) (o : Outcome) (d : Host) : Server where
  alive := decide (o = .ret)
  registry := d.registry
  handlers := Function.update σ.handlers k (some d.handler)
  net := d.net

@[simp] theorem net_accept (σ : Server) (k : SocketId) :
    (σ.accept k).net = Function.update σ.net k ⟨true, [], []⟩ := rfl

@[simp] theorem net_send (σ : Server) (k : SocketId) (bs : List Byte) :
    (σ.send k bs).net = Function.update σ.net k { σ.net k with inp := (σ.net k).inp ++ bs } := rfl

@[simp] theorem net_resume (σ : Server) (k : SocketId) (o : Outcome) (d : Host) :
    (σ.resume k o d).net = d.net := rfl

theorem handlers_resume_self (σ : Server) (k : SocketId) (o : Outcome) (d : Host) :
    (σ.resume k o d).handlers k = some d.handler := Function.update_self ..

/-- One event. -/
def step (cfg : Config) (σ : Server) : Action → Option Server
  | .accept k => if σ.alive ∧ σ.handlers k = none then some (σ.accept k) else none
  | .send k bs => if σ.handlers k = none then none else some (σ.send k bs)
  | .dispatch k sc =>
      if σ.alive then
        match σ.handlers k with
        | none => none
        | some h =>
            match RequestHandler.run cfg sc (σ.host h) with
            | (.spins, _) => none
            | (o, d) => some (σ.resume k o d)
      else none

/-- The states the server can come to. -/
abbrev Reachable (cfg : Config) (σ : Server) : Prop := Lts.Reachable (step cfg) Server.new σ

/-- The header and payload a handler holds, once the header is complete. -/
def heldBy (h : RequestHandler) : List (List Byte × List Byte) :=
  match h.networkMsgHeader, h.payload with
  | some header, some payload =>
      if header.hasRemaining then [] else [(header.array, payload.array)]
  | _, _ => []

/-- The header and payload `process` acts on in a dispatch of `k`. -/
def actsOn (k : SocketId) (σ : Server) : Action → List (List Byte × List Byte)
  | .dispatch j sc =>
      match σ.handlers j with
      | none => []
      | some h =>
          match RequestHandler.read h (σ.net j) sc.reads with
          | (.ret, h, _) => if j = k then heldBy h else []
          | _ => []
  | _ => []

@[simp] theorem heldBy_unread (h : RequestHandler) : heldBy h.unread = [] := by
  rw [heldBy]
  cases h.unread.payload <;> rfl

@[simp] theorem heldBy_holding (h : RequestHandler) (f : Frame) :
    heldBy (h.holding f) = [([f.tag, f.lengthByte], f.body)] := rfl

/-! ## Inversion of the events -/

theorem step_accept (h : step cfg σ (.accept k) = some τ) :
    σ.alive = true ∧ σ.handlers k = none ∧ τ = σ.accept k := by
  rw [step] at h
  split at h
  · next hc =>
    cases h
    exact ⟨hc.1, hc.2, rfl⟩
  · cases h

theorem step_send {bs : List Byte} (h : step cfg σ (.send k bs) = some τ) :
    σ.handlers k ≠ none ∧ τ = σ.send k bs := by
  rw [step] at h
  split at h
  · cases h
  · next hc =>
    cases h
    exact ⟨hc, rfl⟩

theorem step_dispatch {sc : Script} (h : step cfg σ (.dispatch k sc) = some τ) :
    σ.alive = true ∧ ∃ hd o d, σ.handlers k = some hd ∧
      RequestHandler.run cfg sc (σ.host hd) = (o, d) ∧ o ≠ .spins ∧ τ = σ.resume k o d := by
  rw [step] at h
  split at h
  · next ha =>
    split at h
    · cases h
    · next hd hk =>
      split at h
      · cases h
      · next o d hne hrun =>
        cases h
        exact ⟨ha, hd, o, d, hk, hrun, hne, rfl⟩
  · cases h

/-- A connected client can send. -/
theorem step_of_send (cfg : Config) {hd : RequestHandler} (hk : σ.handlers k = some hd)
    (bs : List Byte) : step cfg σ (.send k bs) = some (σ.send k bs) := by
  have hne : σ.handlers k ≠ none := by simp [hk]
  rw [step, if_neg hne]

/-- A dispatch that ends is a step. -/
theorem step_of_run {hd : RequestHandler} {sc : Script} {o : Outcome} {d : Host}
    (ha : σ.alive = true) (hk : σ.handlers k = some hd)
    (hrun : RequestHandler.run cfg sc (σ.host hd) = (o, d)) (ho : o ≠ .spins) :
    step cfg σ (.dispatch k sc) = some (σ.resume k o d) := by
  rw [step, if_pos ha]
  simp only [hk, hrun]

/-! ## Handlers and sockets -/

/-- Every handler is attached to its own socket, and sound. -/
structure Attached (σ : Server) : Prop where
  sock : ∀ k h, σ.handlers k = some h → h.sock = k
  sound : ∀ k h, σ.handlers k = some h → RequestHandler.Sound h

theorem attached_new : Attached Server.new where
  sock _ _ h := by cases h
  sound _ _ h := by cases h

/-- Replacing the handler of `k` by a sound one of `k` keeps the attachment. -/
theorem Attached.update (hatt : Attached σ) {h : RequestHandler} (hsock : h.sock = k)
    (hsound : RequestHandler.Sound h) (hτ : τ.handlers = Function.update σ.handlers k (some h)) :
    Attached τ where
  sock s h' hs := by
    by_cases hsk : s = k
    · cases hsk
      rw [hτ, Function.update_self] at hs
      cases hs
      exact hsock
    · rw [hτ, Function.update_of_ne hsk] at hs
      exact hatt.sock s h' hs
  sound s h' hs := by
    by_cases hsk : s = k
    · cases hsk
      rw [hτ, Function.update_self] at hs
      cases hs
      exact hsound
    · rw [hτ, Function.update_of_ne hsk] at hs
      exact hatt.sound s h' hs

/-- A dispatch that took the frame `f` off the stream of `k`, which is down to
`rest`: it threw, or served the frame. -/
structure Takes (cfg : Config) (σ : Server) (k : SocketId) (sc : Script) (hd : RequestHandler)
    (f : Frame) (rest : List Byte) (τ : Server) : Prop where
  inp : (σ.net k).inp = f.bytes ++ rest
  read : RequestHandler.read hd (σ.net k) sc.reads =
    (.ret, hd.holding f, { σ.net k with inp := rest })
  short : RequestHandler.Short σ.registry k f → τ = σ.resume k (.throws .indexOutOfBounds)
    ⟨σ.registry, hd.holding f, RequestHandler.taken σ.net k rest⟩
  long : ¬ RequestHandler.Short σ.registry k f → ∃ d,
    RequestHandler.served cfg sc (σ.host hd) f rest = (.ret, d) ∧ τ = σ.resume k .ret d

/-- **Inversion of a dispatch**: it found nothing, or `read` threw, or it took
one frame. -/
theorem dispatch_cases {sc : Script} (hatt : Attached σ)
    (h : step cfg σ (.dispatch k sc) = some τ) :
    σ.alive = true ∧ ∃ hd, σ.handlers k = some hd ∧ hd.sock = k ∧ RequestHandler.Sound hd ∧
      ((RequestHandler.read hd (σ.net k) sc.reads = (.ret, hd.unread, σ.net k) ∧
        τ = σ.resume k .ret ⟨σ.registry, hd.unread, σ.net⟩) ∨
      (∃ h' c', RequestHandler.read hd (σ.net k) sc.reads = (.throws .ioException, h', c') ∧
        RequestHandler.SameButInput hd h' ∧
        (Consumed (σ.net k) c' ∨ c' = (σ.net k).close) ∧
        τ = σ.resume k .ret ⟨σ.registry, h', Function.update σ.net k c'⟩) ∨
      ∃ f rest, Takes cfg σ k sc hd f rest τ) := by
  obtain ⟨ha, hd, o, d, hk, hrun, ho, rfl⟩ := step_dispatch h
  have hsock := hatt.sock k hd hk
  have hsound := hatt.sound k hd hk
  refine ⟨ha, hd, hk, hsock, hsound, ?_⟩
  have hcases := RequestHandler.run_cases cfg sc (σ.host hd)
  simp only [host, hsock] at hcases hrun
  obtain ⟨hread, hidle⟩ | ⟨h', c', hread, hsame, hc', hfail⟩ | ⟨f, rest, hinp, hread⟩ | hspin :=
    hcases
  · rw [hrun] at hidle
    cases hidle
    exact Or.inl ⟨hread, rfl⟩
  · rw [hrun] at hfail
    cases hfail
    exact Or.inr (Or.inl ⟨h', c', hread, hsame, hc', rfl⟩)
  · have hwhole := RequestHandler.run_of_read cfg sc (σ.host hd)
      (by simp only [host, hsock]; exact hread)
    simp only [host, hsock] at hwhole
    rw [hrun] at hwhole
    refine Or.inr (Or.inr ⟨f, rest, hinp, hread, ?_, ?_⟩)
    · intro hshort
      rw [if_pos hshort] at hwhole
      cases hwhole
      rfl
    · intro hlong
      rw [if_neg hlong] at hwhole
      have hret : o = .ret := by
        obtain hr | hs := (RequestHandler.served_cases cfg sc (σ.host hd) hsound
          rest (by simp only [host, hsock]; exact hlong)).1
        · simp only [host] at hr
          rw [← hwhole] at hr
          exact hr
        · simp only [host] at hs
          rw [← hwhole] at hs
          exact absurd hs ho
      rw [hret] at hwhole ⊢
      exact ⟨d, hwhole.symm, rfl⟩
  · rw [hrun] at hspin
    exact absurd hspin ho

/-- A served frame: where it leaves registry, handler and channels. -/
theorem served_attached {sc : Script} {hd : RequestHandler} {f : Frame} {rest : List Byte} {d : Host}
    (hsock : hd.sock = k) (hsound : RequestHandler.Sound hd)
    (hlong : ¬ RequestHandler.Short σ.registry k f)
    (hserved : RequestHandler.served cfg sc (σ.host hd) f rest = (.ret, d)) :
    d.registry = (RequestHandler.settle sc.clock σ.registry hd f).1 ∧ d.handler.sock = k ∧
      RequestHandler.Sound d.handler ∧
      RequestHandler.Emitted (RequestHandler.taken σ.net k rest) d.net := by
  cases hsock
  obtain ⟨-, hreg, hsk, hsd, hnet⟩ := RequestHandler.served_cases cfg sc (σ.host hd) hsound rest hlong
  rw [hserved] at hreg hsk hsd hnet
  exact ⟨hreg, hsk, hsd, hnet⟩

/-- **Attachment is an invariant.** -/
theorem attached_step {a : Action} (hatt : Attached σ) (h : step cfg σ a = some τ) : Attached τ := by
  cases a with
  | accept k =>
      obtain ⟨-, -, rfl⟩ := step_accept h
      exact hatt.update rfl (.new k) rfl
  | send k bs =>
      obtain ⟨-, rfl⟩ := step_send h
      exact ⟨hatt.sock, hatt.sound⟩
  | dispatch k sc =>
      obtain ⟨-, hd, -, hsock, hsound, hcases⟩ := dispatch_cases hatt h
      obtain ⟨-, rfl⟩ | ⟨h', c', -, hsame, -, rfl⟩ | ⟨f, rest, htakes⟩ := hcases
      · have hsound' := hsound.sameButInput (RequestHandler.sameButInput_unread hd)
        exact hatt.update (h := hd.unread) hsock hsound' rfl
      · have hsock' : h'.sock = k := by
          rw [hsame]
          exact hsock
        exact hatt.update hsock' (hsound.sameButInput hsame) rfl
      · by_cases hshort : RequestHandler.Short σ.registry k f
        · have hsound' := hsound.sameButInput (RequestHandler.sameButInput_holding hd f)
          rw [htakes.short hshort]
          exact hatt.update (h := hd.holding f) hsock hsound' rfl
        · obtain ⟨d, hserved, rfl⟩ := htakes.long hshort
          obtain ⟨-, hsk, hsd, -⟩ := served_attached hsock hsound hshort hserved
          exact hatt.update hsk hsd rfl

theorem attached_reachable (h : Reachable cfg σ) : Attached σ :=
  Lts.Reachable.induct attached_new (fun _ _ _ hatt hst => attached_step hatt hst) h

end Server

end Pobicos.Directory
