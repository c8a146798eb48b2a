import Pobicos.Java
import Pobicos.Lib.Lts

/-!
# Pobicos.Client.MiddlewareService

`PoMiddlewareService.java`, `PoConnStatusBR.java` and `PoAPI.start`/`stop`: who
connects to the directory, and who starts the middleware.

All of it runs on the main thread of the process, one callback after the
other: the service is created and destroyed, and the receiver is handed
broadcasts of the system and alarms.  What `PoConnectionManager.connect`
returns, and which broadcasts come when, is up to the environment.

The service connects from `onCreate` and from three branches of the receiver,
and starts the middleware in `onCreate` only: `running_iff` says when a
connection still means that it runs.
-/

namespace Pobicos.Client

open Nio

/-! ## PoAPI -/

/-- `PoAPI.STATE`. -/
inductive ApiState
  | RUNNING
  | STOPPED
  deriving DecidableEq, Repr

/-- The fields of `PoAPI`, with the event handler threads in the order of their
creation. -/
structure PoAPI where
  status : Option ApiState
  handlerThread : Option Nat
  threads : List JThread
  deriving DecidableEq, Repr

namespace PoAPI

/-- The class when it has been loaded. -/
def init : PoAPI := ⟨none, none, []⟩

/-- `isRunning()`. -/
def isRunning (a : PoAPI) : Bool := a.status == some .RUNNING

/-- `start()`. -/
def start (a : PoAPI) : PoAPI where
  status := some .RUNNING
  handlerThread := some a.threads.length
  threads := a.threads ++ [{ JThread.new with started := true }]

/-- `stop()`; `joined` says that the `join()` is not interrupted. -/
def stop (a : PoAPI) (joined : Bool) : Except Throwable PoAPI := do
  let i ← deref a.handlerThread
  let a := { a with threads := a.threads.modify i fun t => { t with interrupted := true } }
  .ok (if joined then { a with status := some .STOPPED, handlerThread := none } else a)

end PoAPI

/-! ## The process -/

/-- The static fields of a process of the client: the service and the two
references to it, whether there is a `PoRegistryService`, and `PoAPI`.
`exiting` says that `System.exit` has been called; `hasConnected` is not a field
of the program: a `connect()` of the service has returned true since the
service was created. -/
structure Process where
  INSTANCE : Bool
  Running : Bool
  middlewareService : Bool
  registryService : Bool
  api : PoAPI
  exiting : Bool
  hasConnected : Bool
  deriving DecidableEq, Repr

/-- What `onReceive` looks for in an intent. -/
inductive Extra
  | alarm_message
  | pobicos_notify
  | pobicos_dialog
  | pobicos_alert
  | connection_retry
  | registry_event
  | NO_CONNECTIVITY
  deriving DecidableEq, Repr

/-- An intent: its extras, whether it is a `CONNECTIVITY_ACTION` with extras,
the value of `EXTRA_IS_FAILOVER`, and whether the network of
`EXTRA_NETWORK_INFO`, if there is one, is connected. -/
structure Intent where
  extras : List Extra
  connectivityAction : Bool
  isFailover : Bool
  networkInfo : Option Bool
  deriving DecidableEq, Repr

namespace Intent

/-- `hasExtra(e)`. -/
def hasExtra (i : Intent) (e : Extra) : Bool := i.extras.contains e

end Intent

namespace Process

/-- A new process. -/
def new : Process := ⟨false, false, false, false, .init, false, false⟩

/-! ## PoMiddlewareService -/

/-- `connect()`, which asks for an alarm when it fails; `ok` is what
`PoConnectionManager.connect` returns. -/
def connect (p : Process) (ok : Bool) : Except Throwable (Bool × Process) :=
  if ok then
    if p.registryService then .ok (true, { p with hasConnected := true })
    else .error .nullPointer
  else .ok (false, p)

/-- `startPoMiddleware()`; `network` says that one of the networks is
connected. -/
def startPoMiddleware (p : Process) (network ok : Bool) : Except Throwable Process :=
  if network then do
    let (connected, p) ← p.connect ok
    .ok (if connected then { p with api := p.api.start } else p)
  else .ok p

/-- `onCreate()`. -/
def onCreate (p : Process) (network ok : Bool) : Except Throwable Process :=
  { p with middlewareService := true, INSTANCE := true, Running := true, hasConnected := false }.startPoMiddleware
    network ok

/-- `stopPoMiddleware()`. -/
def stopPoMiddleware (p : Process) (joined : Bool) : Except Throwable Process := do
  let api ← if p.api.isRunning then p.api.stop joined else .ok p.api
  .ok { p with api := api, INSTANCE := false }

/-- `onDestroy()`, up to the end of the process. -/
def onDestroy (p : Process) (joined : Bool) : Except Throwable Process := do
  let p ← p.stopPoMiddleware joined
  .ok { p with Running := false, exiting := true }

/-! ## PoConnStatusBR -/

/-- `PoApp.getMiddlewareService().connect()`, on a service. -/
def serviceConnect (p : Process) (ok : Bool) : Except Throwable Process := do
  let (_, p) ← p.connect ok
  .ok p

/-- `PoMiddlewareService.getInstance().connect()`. -/
def instanceConnect (p : Process) (ok : Bool) : Except Throwable Process :=
  if p.INSTANCE then p.serviceConnect ok else .error .nullPointer

/-- `onReceive(c, intent)`.  The system is asked to start and to stop the
service and to show notifications; a disconnect leaves all fields as they
are. -/
def onReceive (p : Process) (i : Intent) (ok : Bool) : Except Throwable Process :=
  if i.hasExtra .alarm_message then
    -- firstConnectivityCheck()
    .ok p
  else if i.hasExtra .pobicos_notify || i.hasExtra .pobicos_dialog || i.hasExtra .pobicos_alert then
    if p.middlewareService then .ok p else .error .nullPointer
  else if i.hasExtra .connection_retry then
    if p.middlewareService then p.serviceConnect ok else .ok p
  else if i.hasExtra .registry_event then
    if p.registryService then .ok p else .error .nullPointer
  else if i.connectivityAction then
    if i.hasExtra .NO_CONNECTIVITY then
      .ok p
    else if i.isFailover then
      match i.networkInfo with
      | none => .error .nullPointer
      | some _ => if p.middlewareService then p.instanceConnect ok else .ok p
    else
      match i.networkInfo with
      | some true => if p.middlewareService then p.instanceConnect ok else .ok p
      | _ => .ok p
  else .ok p

end Process

/-! ## Runs -/

/-- What the main thread does: the service is created if there is none and
destroyed if there is one, the registry service is created, or a broadcast is
received.  The process ends after `System.exit`, and at any other time. -/
inductive Callback
  | onCreate (network ok : Bool)
  | onDestroy (joined : Bool)
  | onCreateRegistry
  | onReceive (i : Intent) (ok : Bool)
  | exit

namespace Process

/-- An exception ends the process. -/
def orDies : Except Throwable Process → Process
  | .ok p => p
  | .error _ => new

/-- One callback. -/
def step (p : Process) : Callback → Option Process
  | .onCreate network ok =>
      if p.exiting || p.Running then none else some (orDies (p.onCreate network ok))
  | .onDestroy joined => if p.Running then some (orDies (p.onDestroy joined)) else none
  | .onCreateRegistry => if p.exiting then none else some { p with registryService := true }
  | .onReceive i ok => if p.exiting then none else some (orDies (p.onReceive i ok))
  | .exit => some new

/-! ## Connected means running -/

/-- While the service is alive and a `connect()` since its creation has
succeeded, `PoAPI` is running: its event handler thread has been started, and
only once. -/
def Served (p : Process) : Prop :=
  p.Running = true → p.hasConnected = true →
    p.api.isRunning = true ∧ p.api.threads.countP JThread.started = 1

end Process

/-- The receiver answers the intent with a `connect()`, if there is a service. -/
def Intent.asksToConnect (i : Intent) : Bool :=
  if i.hasExtra .alarm_message then false
  else if i.hasExtra .pobicos_notify || i.hasExtra .pobicos_dialog || i.hasExtra .pobicos_alert then false
  else if i.hasExtra .connection_retry then true
  else if i.hasExtra .registry_event then false
  else i.connectivityAction && !i.hasExtra .NO_CONNECTIVITY &&
    i.networkInfo.any fun connected => i.isFailover || connected

namespace Process

/-- When the receiver connects, the middleware runs: `onCreate` has connected
before. -/
def ConnectedFirst (p : Process) : Callback → Prop
  | .onCreate _ _ => True
  | .onDestroy _ => True
  | .onCreateRegistry => True
  | .onReceive i ok =>
      p.middlewareService = true → i.asksToConnect = true → ok = true → p.registryService = true →
        p.api.isRunning = true
  | .exit => True

variable {p p' : Process}

/-- **What `onReceive` does**: it connects when it is asked to and there is a
service, and otherwise leaves the fields as they are, if it does not throw. -/
theorem onReceive_cases (p : Process) (i : Intent) (ok : Bool) :
    (p.middlewareService = true ∧ i.asksToConnect = true ∧
      (p.onReceive i ok = p.serviceConnect ok ∨ p.onReceive i ok = p.instanceConnect ok)) ∨
    (¬ (p.middlewareService = true ∧ i.asksToConnect = true) ∧
      (p.onReceive i ok = .ok p ∨ p.onReceive i ok = .error .nullPointer)) := by
  rw [onReceive, Intent.asksToConnect]
  cases i.hasExtra .alarm_message with
  | true => simp
  | false =>
    cases i.hasExtra .pobicos_notify || i.hasExtra .pobicos_dialog || i.hasExtra .pobicos_alert with
    | true => cases p.middlewareService <;> simp
    | false =>
      cases i.hasExtra .connection_retry with
      | true => cases p.middlewareService <;> simp
      | false =>
        cases i.hasExtra .registry_event with
        | true => cases p.registryService <;> simp
        | false =>
          cases i.connectivityAction with
          | false => simp
          | true =>
            cases i.hasExtra .NO_CONNECTIVITY with
            | true => simp
            | false =>
              cases i.networkInfo with
              | none => cases i.isFailover <;> simp
              | some connected =>
                cases p.middlewareService <;> cases i.isFailover <;> cases connected <;> simp

theorem serviceConnect_false (p : Process) : p.serviceConnect false = .ok p := rfl

theorem serviceConnect_true (h : p.registryService = true) :
    p.serviceConnect true = .ok { p with hasConnected := true } := by
  simp [serviceConnect, connect, h, bind, Except.bind]

/-- The process dies of a connection without a `PoRegistryService`. -/
theorem serviceConnect_true_of_not (h : p.registryService = false) :
    p.serviceConnect true = .error .nullPointer := by
  simp [serviceConnect, connect, h, bind, Except.bind]

/-- What holds between two callbacks. -/
structure Inv (p : Process) : Prop where
  alive : p.Running = true → p.INSTANCE = true ∧ p.exiting = false
  absent : p.Running = false → p.exiting = false → p.middlewareService = false ∧ p.api = .init
  started : p.Running = true → p.api = .init ∨ p.api = PoAPI.init.start
  served : p.Served

theorem inv_new : Inv new where
  alive h := by cases h
  absent _ _ := ⟨rfl, rfl⟩
  started h := by cases h
  served h := by cases h

/-- A process whose service is gone. -/
theorem inv_of_exiting (hrun : p.Running = false) (hexit : p.exiting = true) : Inv p where
  alive h := by rw [hrun] at h; cases h
  absent _ h := by rw [hexit] at h; cases h
  started h := by rw [hrun] at h; cases h
  served h := by rw [hrun] at h; cases h

/-- A connection that is made while the middleware runs. -/
theorem Inv.connected (h : Inv p) (hrun : p.api.isRunning = true) : Inv { p with hasConnected := true } where
  alive := h.alive
  absent := h.absent
  started := h.started
  served halive _ := by
    refine ⟨hrun, ?_⟩
    obtain hinit | hstart := h.started halive
    · rw [hinit] at hrun
      cases hrun
    · exact congrArg (fun a => a.threads.countP JThread.started) hstart

theorem Inv.onReceive (h : Inv p) {i : Intent} {ok : Bool} (hfirst : p.ConnectedFirst (.onReceive i ok)) :
    Inv (orDies (p.onReceive i ok)) := by
  have hconnect : p.middlewareService = true → i.asksToConnect = true → Inv (orDies (p.serviceConnect ok)) := by
    intro hservice hasks
    cases ok with
    | false =>
        rw [serviceConnect_false]
        exact h
    | true =>
        cases hreg : p.registryService with
        | false =>
            rw [serviceConnect_true_of_not hreg]
            exact inv_new
        | true =>
            rw [serviceConnect_true hreg]
            exact h.connected (hfirst hservice hasks rfl hreg)
  obtain ⟨hservice, hasks, heq | heq⟩ | ⟨-, heq | heq⟩ := onReceive_cases p i ok
  · rw [heq]
    exact hconnect hservice hasks
  · rw [heq, instanceConnect]
    split
    · exact hconnect hservice hasks
    · exact inv_new
  · rw [heq]
    exact h
  · rw [heq]
    exact inv_new

/-- **The service is created** in a process that has never started the
middleware. -/
theorem Inv.onCreate (h : Inv p) (hrun : p.Running = false) (hexit : p.exiting = false) (network ok : Bool) :
    Inv (orDies (p.onCreate network ok)) := by
  obtain ⟨-, hapi⟩ := h.absent hrun hexit
  have hidle : Inv { p with
      middlewareService := true, INSTANCE := true, Running := true, hasConnected := false } :=
    ⟨fun _ => ⟨rfl, hexit⟩, fun hr => (by cases hr), fun _ => Or.inl hapi, fun _ hc => by cases hc⟩
  rw [Process.onCreate, startPoMiddleware]
  cases network with
  | false => exact hidle
  | true =>
      cases ok with
      | false => exact hidle
      | true =>
          cases hreg : p.registryService with
          | false =>
              simp only [connect, if_true, Bool.false_eq_true, if_false, bind, Except.bind]
              exact inv_new
          | true =>
              simp only [connect, if_true, bind, Except.bind, hapi]
              exact ⟨fun _ => ⟨rfl, hexit⟩, fun hr => (by cases hr), fun _ => Or.inr rfl, fun _ _ => ⟨rfl, rfl⟩⟩

theorem inv_onDestroy (p : Process) (joined : Bool) : Inv (orDies (p.onDestroy joined)) := by
  cases hd : p.onDestroy joined with
  | error x => exact inv_new
  | ok q =>
      rw [Process.onDestroy] at hd
      cases hs : p.stopPoMiddleware joined with
      | error x =>
          rw [hs] at hd
          cases hd
      | ok q' =>
          rw [hs] at hd
          cases hd
          exact inv_of_exiting rfl rfl

/-- **Step lemma.** -/
theorem Inv.step (h : Inv p) {a : Callback} (hfirst : p.ConnectedFirst a) (hst : p.step a = some p') :
    Inv p' := by
  cases a with
  | onCreate network ok =>
      obtain ⟨hfree, hp⟩ := Option.ite_none_left_eq_some.mp hst
      cases hp
      rw [Bool.or_eq_true, not_or, Bool.not_eq_true, Bool.not_eq_true] at hfree
      exact h.onCreate hfree.2 hfree.1 network ok
  | onDestroy joined =>
      obtain ⟨-, hp⟩ := Option.ite_none_right_eq_some.mp hst
      cases hp
      exact inv_onDestroy p joined
  | onCreateRegistry =>
      obtain ⟨-, hp⟩ := Option.ite_none_left_eq_some.mp hst
      cases hp
      exact ⟨h.alive, h.absent, h.started, h.served⟩
  | onReceive i ok =>
      obtain ⟨-, hp⟩ := Option.ite_none_left_eq_some.mp hst
      cases hp
      exact h.onReceive hfirst
  | exit =>
      cases hst
      exact inv_new

/-- A connection of the receiver before the middleware runs is one too many. -/
theorem Inv.connectedFirst (h : Inv p) {a : Callback} (hst : p.step a = some p') (hp : p'.Served) :
    p.ConnectedFirst a := by
  cases a with
  | onCreate network ok => trivial
  | onDestroy joined => trivial
  | onCreateRegistry => trivial
  | onReceive i ok =>
      rintro hservice hasks rfl hreg
      obtain ⟨hexit, hstep⟩ := Option.ite_none_left_eq_some.mp hst
      rw [Bool.not_eq_true] at hexit
      have halive : p.Running = true := by
        by_contra hnot
        rw [Bool.not_eq_true] at hnot
        rw [(h.absent hnot hexit).1] at hservice
        cases hservice
      have hconn : p.onReceive i true = p.serviceConnect true := by
        obtain ⟨-, -, heq | heq⟩ | ⟨hnot, -⟩ := onReceive_cases p i true
        · exact heq
        · rw [heq, instanceConnect, if_pos (h.alive halive).1]
        · exact absurd ⟨hservice, hasks⟩ hnot
      rw [hconn, serviceConnect_true hreg] at hstep
      cases hstep
      exact (hp halive rfl).1
  | exit => trivial

/-- **Connected means running**, throughout a run, exactly when the receiver
never connects before `onCreate` has. -/
theorem running_iff {as : List Callback} (hrun : Lts.run step new as = some p) :
    Lts.Always step Served new as ↔ Lts.Along step ConnectedFirst new as :=
  Lts.always_iff_along (fun _ h => h.served) (fun _ _ _ h hok hst => h.step hok hst)
    (fun _ _ _ h hp hst => h.connectedFirst hst hp) inv_new hrun

/-- The alarm of a connection that has failed. -/
def retryIntent : Intent := ⟨[.connection_retry], false, false, none⟩

/-- The directory cannot be reached when the service is created; the retry
succeeds. -/
def lateConnection : List Callback := [.onCreateRegistry, .onCreate true false, .onReceive retryIntent true]

/-- The client is connected, and nobody handles its events. -/
theorem connected_not_running :
    ∃ p, Lts.run step new lateConnection = some p ∧ ¬ p.Served :=
  ⟨_, rfl, fun h => by cases (h rfl rfl).1⟩

/-- The equivalence for a service that connects when it is created, and again
when the network comes back. -/
theorem running_iff_reconnected :
    Lts.Always step Served new
        [.onCreateRegistry, .onCreate true true, .onReceive ⟨[], true, false, some true⟩ true] ↔
      Lts.Along step ConnectedFirst new
        [.onCreateRegistry, .onCreate true true, .onReceive ⟨[], true, false, some true⟩ true] :=
  running_iff rfl

end Process

end Pobicos.Client
