import Pobicos.Java
import Pobicos.Lib.Lts

/-!
# Pobicos.Client.ConnectionManager

`PoConnectionManager.java`: `connect` and `disconnect`, and the read and write
threads they create and cancel.

The two methods are called by one thread, whose statements (`ConnStmt`)
interleave with the steps of the others.  `connect` relies on the channel and
on the field `Running` of each thread, and neither says whether a thread is
there: the channel stays connected when its threads have ended, and a thread
that ends other than by `cleanup()` leaves the field set.
`served_of_run` says what `connect` guarantees while that does not happen.
-/

namespace Pobicos.Client

/-- A socket channel as `isConnected()` sees it. -/
structure SocketChannel where
  isOpen : Bool
  connected : Bool
  deriving DecidableEq, Repr

/-- `isConnected()`: what the peer does plays no part. -/
def SocketChannel.isConnected (c : SocketChannel) : Bool := c.isOpen && c.connected

/-- A `PoConnMgrReadTask` or a `PoCommMgrWriteTask`, the channel it was created
for and its field `Running`. -/
structure CommThread where
  reads : Bool
  sockch : Option Nat
  thread : JThread
  running : Bool
  deriving DecidableEq, Repr

namespace CommThread

/-- `new PoConnMgrReadTask(sel, sock)` and `new PoCommMgrWriteTask(s)`. -/
def new (reads : Bool) (sockch : Option Nat) : CommThread := ⟨reads, sockch, .new, false⟩

/-- `start()`. -/
def start (t : CommThread) : CommThread := { t with thread := { t.thread with started := true } }

/-- `cancel()`. -/
def cancel (t : CommThread) : CommThread := { t with thread := { t.thread with interrupted := true } }

/-- The first statements of `run()`. -/
def begin (t : CommThread) : CommThread :=
  { t with thread := { t.thread with begun := true }, running := true }

/-- `cleanup()` and the end of `run()`. -/
def cleanup (t : CommThread) : CommThread :=
  { t with thread := { t.thread with ended := true }, running := false }

/-- The end of `run()` at its loop condition or by an exception it does not
catch. -/
def leave (t : CommThread) : CommThread := { t with thread := { t.thread with ended := true } }

/-- In `run()`. -/
def inRun (t : CommThread) : Bool := t.thread.begun && !t.thread.ended

end CommThread

/-! ## The methods -/

/-- The statements of the two methods, behind their first test. -/
inductive ConnStmt
  | openChannel
  | finishConnect
  | startWriter
  | startReader
  | returnTrue
  | close
  | cancelWriter
  | cancelReader
  | killUpdateThread
  | joinReader
  | joinWriter
  | setDisconnected
  deriving DecidableEq, Repr

/-- `connect()`, unless the channel is connected. -/
def connectStmts : List ConnStmt := [.openChannel, .finishConnect, .startWriter, .startReader, .returnTrue]

/-- `disconnect()`, if there is a channel. -/
def disconnectStmts : List ConnStmt :=
  [.close, .cancelWriter, .cancelReader, .killUpdateThread, .joinReader, .joinWriter, .setDisconnected]

/-- The fields of the connection manager, with all channels and threads it has
created, the statements the calling thread has still to execute, what `connect`
has returned if it was the last call, and the threads as they were when it was
called. -/
structure ConnectionManager where
  sockch : Option Nat
  isConnected : Bool
  writerThread : Nat
  readerThread : Nat
  channels : List SocketChannel
  threads : List CommThread
  todo : List ConnStmt
  returned : Option Bool
  before : List CommThread
  deriving DecidableEq, Repr

namespace ConnectionManager

/-- The constructor creates two threads that are never started. -/
def new : ConnectionManager where
  sockch := none
  isConnected := false
  writerThread := 0
  readerThread := 1
  channels := []
  threads := [.new false none, .new true none]
  todo := []
  returned := none
  before := []

/-- `sockch != null && sockch.isConnected()`. -/
def channelConnected (m : ConnectionManager) : Bool :=
  (m.sockch.bind (m.channels[·]?)).any SocketChannel.isConnected

/-- `connect` returns. -/
def ret (m : ConnectionManager) (value : Bool) : ConnectionManager :=
  { m with todo := [], isConnected := value, returned := some value }

/-- `threads[i]` is `t.isRunning()`. -/
def isRunning (m : ConnectionManager) (i : Nat) : Bool := m.threads[i]?.any CommThread.running

/-- `threads[i]` can be joined: it has ended, or was never started. -/
def joinable (m : ConnectionManager) (i : Nat) : Bool :=
  m.threads[i]?.any fun t => !t.thread.started || t.thread.ended

/-- A thread created for the channel at hand, and started. -/
def started (m : ConnectionManager) (reads : Bool) : CommThread := (CommThread.new reads m.sockch).start

/-- One statement; `ok` says that it does not throw.  `none` is a `join()` that
waits. -/
def exec (m : ConnectionManager) (ok : Bool) : ConnStmt → Option ConnectionManager
  | .openChannel =>
      if ok then
        some { m with sockch := some m.channels.length, channels := m.channels ++ [⟨true, false⟩] }
      else some (m.ret false)
  | .finishConnect =>
      match m.sockch with
      | some c =>
          if ok then
            some { m with
              channels := m.channels.modify c ({ · with connected := true })
              isConnected := true }
          else some (m.ret false)
      | none => some (m.ret false)
  | .startWriter =>
      if m.isRunning m.writerThread then some m
      else some { m with writerThread := m.threads.length, threads := m.threads ++ [m.started false] }
  | .startReader =>
      if m.isRunning m.readerThread then some m
      else some { m with readerThread := m.threads.length, threads := m.threads ++ [m.started true] }
  | .returnTrue => some { m with returned := some true }
  | .close =>
      match m.sockch with
      | some c =>
          some { m with
            channels := m.channels.modify c ({ · with isOpen := false })
            sockch := if ok then none else some c }
      | none => some m
  | .cancelWriter => some { m with threads := m.threads.modify m.writerThread .cancel }
  | .cancelReader => some { m with threads := m.threads.modify m.readerThread .cancel }
  | .killUpdateThread => some m
  | .joinReader =>
      if ok then if m.joinable m.readerThread then some m else none
      else some { m with todo := [] }
  | .joinWriter =>
      if ok then if m.joinable m.writerThread then some m else none
      else some { m with todo := [] }
  | .setDisconnected => some { m with isConnected := false }

/-- What happens: a call of one of the methods, the next statement of the
calling thread, and the steps of the other threads.  These enter `run()`; a
reader is interrupted by a REG_REPLY_FAIL; a thread leaves `run()` by
`cleanup()`, at any I/O exception, among them the end of the stream, and an
interrupted one may find its channel closed by that; it leaves when it is
interrupted at its loop condition, and a reader by any other exception. -/
inductive Act
  | connect
  | disconnect
  | main (ok : Bool)
  | begin (i : Nat)
  | registrationFailed (i : Nat)
  | ioException (i : Nat)
  | closedByInterrupt (i : Nat)
  | loopEnds (i : Nat)
  | uncaught (i : Nat)

/-- A step of the `i`-th thread. -/
def threadStep (m : ConnectionManager) (i : Nat) (enabled : CommThread → Bool)
    (f : CommThread → CommThread) : Option ConnectionManager :=
  if m.threads[i]?.any enabled then some { m with threads := m.threads.modify i f } else none

def step (m : ConnectionManager) : Act → Option ConnectionManager
  | .connect =>
      if m.todo = [] then
        let m := { m with before := m.threads }
        some (if m.channelConnected then m.ret true
          else { m with todo := connectStmts, returned := none })
      else none
  | .disconnect =>
      if m.todo = [] then
        some (if m.sockch.isNone || !m.isConnected then { m with returned := none }
          else { m with todo := disconnectStmts, returned := none })
      else none
  | .main ok =>
      match m.todo with
      | [] => none
      | s :: todo => { m with todo := todo }.exec ok s
  | .begin i => m.threadStep i (fun t => t.thread.started && !t.thread.begun) .begin
  | .registrationFailed i => m.threadStep i (fun t => t.inRun && t.reads) .cancel
  | .ioException i => m.threadStep i CommThread.inRun .cleanup
  | .closedByInterrupt i =>
      match m.threads[i]? with
      | some t =>
          if t.inRun && t.thread.interrupted then
            some { m with
              threads := m.threads.modify i .cleanup
              channels := match t.sockch with
                | some c => m.channels.modify c ({ · with isOpen := false })
                | none => m.channels }
          else none
      | none => none
  | .loopEnds i => m.threadStep i (fun t => t.inRun && t.thread.interrupted) .leave
  | .uncaught i => m.threadStep i (fun t => t.inRun && t.reads) .leave

/-! ## Connected means served -/

/-- `threads[i]` is a reader or a writer of the current channel, and has been
started. -/
def Bound (m : ConnectionManager) (reads : Bool) (i : Nat) : Prop :=
  ∃ c t, m.sockch = some c ∧ m.threads[i]? = some t ∧ t.reads = reads ∧ t.sockch = some c ∧
    t.thread.started = true

/-- If `connect` has returned true, there are a reader and a writer of the
current channel that have been started and had not ended when it was called. -/
def Served (m : ConnectionManager) : Prop :=
  m.returned = some true → ∀ reads, ∃ i, m.Bound reads i ∧
    ∀ t ∈ m.before[i]?, t.thread.ended = false

/-- When `connect` finds its channel connected, neither of its threads has
ended; when it asks a thread whether it is running, it is not. -/
def Ready (m : ConnectionManager) : Act → Prop
  | .connect => m.channelConnected = true →
      (∀ t ∈ m.threads[m.writerThread]?, t.thread.ended = false) ∧
        ∀ t ∈ m.threads[m.readerThread]?, t.thread.ended = false
  | .main _ => (m.todo.head? = some .startWriter → m.isRunning m.writerThread = false) ∧
      (m.todo.head? = some .startReader → m.isRunning m.readerThread = false)
  | _ => True

instance decidableReady (m : ConnectionManager) : (a : Act) → Decidable (Ready m a)
  | .connect => inferInstanceAs (Decidable (m.channelConnected = true →
      (∀ t ∈ m.threads[m.writerThread]?, t.thread.ended = false) ∧
        ∀ t ∈ m.threads[m.readerThread]?, t.thread.ended = false))
  | .main _ => inferInstanceAs (Decidable (
      (m.todo.head? = some .startWriter → m.isRunning m.writerThread = false) ∧
        (m.todo.head? = some .startReader → m.isRunning m.readerThread = false)))
  | .disconnect => isTrue trivial
  | .begin _ => isTrue trivial
  | .registrationFailed _ => isTrue trivial
  | .ioException _ => isTrue trivial
  | .closedByInterrupt _ => isTrue trivial
  | .loopEnds _ => isTrue trivial
  | .uncaught _ => isTrue trivial

/-- The statements behind a statement. -/
def rest : ConnStmt → List ConnStmt
  | .openChannel => [.finishConnect, .startWriter, .startReader, .returnTrue]
  | .finishConnect => [.startWriter, .startReader, .returnTrue]
  | .startWriter => [.startReader, .returnTrue]
  | .startReader => [.returnTrue]
  | .returnTrue => []
  | .close => [.cancelWriter, .cancelReader, .killUpdateThread, .joinReader, .joinWriter, .setDisconnected]
  | .cancelWriter => [.cancelReader, .killUpdateThread, .joinReader, .joinWriter, .setDisconnected]
  | .cancelReader => [.killUpdateThread, .joinReader, .joinWriter, .setDisconnected]
  | .killUpdateThread => [.joinReader, .joinWriter, .setDisconnected]
  | .joinReader => [.joinWriter, .setDisconnected]
  | .joinWriter => [.setDisconnected]
  | .setDisconnected => []

/-- What is known of a state whose next statement is `s`, if any: without one,
a connected channel has its threads; `connect` starts them one after the
other, and elsewhere the channel is not connected. -/
def Known (m : ConnectionManager) : Option ConnStmt → Prop
  | none => m.channelConnected = true → m.Bound false m.writerThread ∧ m.Bound true m.readerThread
  | some .startWriter => m.sockch.isSome
  | some .startReader => m.Bound false m.writerThread ∧ m.before.length ≤ m.writerThread
  | some .returnTrue => (m.Bound false m.writerThread ∧ m.before.length ≤ m.writerThread) ∧
      m.Bound true m.readerThread ∧ m.before.length ≤ m.readerThread
  | some .close => True
  | some _ => m.channelConnected = false

/-- **Invariant.** -/
structure Inv (m : ConnectionManager) : Prop where
  shape : ∀ s todo, m.todo = s :: todo → todo = rest s
  known : m.Known m.todo.head?
  length : m.before.length ≤ m.threads.length
  pending : m.todo ≠ [] → m.returned = none
  served : m.Served

variable {m m' : ConnectionManager}

/-- What no step changes of a thread. -/
structure Same (t t' : CommThread) : Prop where
  reads : t'.reads = t.reads
  sockch : t'.sockch = t.sockch
  started : t.thread.started = true → t'.thread.started = true

/-- The channel at hand and the threads are still there. -/
structure Keeps (m m' : ConnectionManager) : Prop where
  sockch : m'.sockch = m.sockch
  threads : ∀ (i : Nat) t, m.threads[i]? = some t → ∃ t', m'.threads[i]? = some t' ∧ Same t t'

theorem Bound.keep {reads : Bool} {i : Nat} (h : m.Bound reads i) (hk : Keeps m m') : m'.Bound reads i := by
  obtain ⟨c, t, hc, ht, hreads, hsockch, hstarted⟩ := h
  obtain ⟨t', ht', hsame⟩ := hk.threads i t ht
  exact ⟨c, t', hk.sockch.trans hc, ht', hsame.reads.trans hreads, hsame.sockch.trans hsockch,
    hsame.started hstarted⟩

theorem Keeps.modify (i : Nat) {f : CommThread → CommThread} (hf : ∀ t, Same t (f t))
    (h : m'.sockch = m.sockch) (ht : m'.threads = m.threads.modify i f) : Keeps m m' := by
  refine ⟨h, fun j t hj => ?_⟩
  rw [ht]
  by_cases hij : i = j
  · exact ⟨f t, by simp [hj, hij], hf t⟩
  · exact ⟨t, by simp [hj, hij], rfl, rfl, id⟩

theorem Keeps.append {t : CommThread} (h : m'.sockch = m.sockch) (ht : m'.threads = m.threads ++ [t]) :
    Keeps m m' := by
  refine ⟨h, fun j t' hj => ⟨t', ?_, rfl, rfl, id⟩⟩
  rw [ht, List.getElem?_append_left (List.getElem?_eq_some_iff.mp hj).1, hj]

/-- A thread that has just been started is bound. -/
theorem bound_started {reads : Bool} (h : m.sockch.isSome) (hs : m'.sockch = m.sockch)
    (ht : m'.threads = m.threads ++ [m.started reads]) : m'.Bound reads m.threads.length := by
  obtain ⟨c, hc⟩ := Option.isSome_iff_exists.mp h
  exact ⟨c, m.started reads, hs.trans hc, by simp [ht], rfl, hc, rfl⟩

/-- A channel that is closed or forgotten is not connected. -/
theorem channelConnected_eq_false (h : ∀ c ∈ m.sockch, ∀ ch ∈ m.channels[c]?, ch.isConnected = false) :
    m.channelConnected = false := by
  cases hc : m.sockch with
  | none => simp [channelConnected, hc]
  | some c =>
      cases hch : m.channels[c]? with
      | none => simp [channelConnected, hc, hch]
      | some ch => simpa [channelConnected, hc, hch] using h c hc ch hch

/-! ### The other threads -/

/-- A step of another thread may close a channel. -/
theorem Inv.thread (h : Inv m) (i : Nat) {f : CommThread → CommThread} (hf : ∀ t, Same t (f t))
    {channels : List SocketChannel}
    (hconn : { m with channels := channels }.channelConnected = true → m.channelConnected = true) :
    Inv { m with threads := m.threads.modify i f, channels := channels } := by
  have hk : Keeps m { m with threads := m.threads.modify i f, channels := channels } :=
    .modify i hf rfl rfl
  have hnot : m.channelConnected = false →
      ({ m with channels := channels } : ConnectionManager).channelConnected = false := by
    intro hm
    by_contra hne
    rw [Bool.not_eq_false] at hne
    rw [hconn hne] at hm
    cases hm
  refine ⟨h.shape, ?_, ?_, h.pending, ?_⟩
  · have hknown := h.known
    show Known _ m.todo.head?
    cases hs : m.todo.head? with
    | none =>
        rw [hs] at hknown
        intro hconnected
        obtain ⟨hw, hr⟩ := hknown (hconn hconnected)
        exact ⟨hw.keep hk, hr.keep hk⟩
    | some s =>
        rw [hs] at hknown
        cases s with
        | startWriter => exact hknown
        | startReader => exact ⟨hknown.1.keep hk, hknown.2⟩
        | returnTrue => exact ⟨⟨hknown.1.1.keep hk, hknown.1.2⟩, hknown.2.1.keep hk, hknown.2.2⟩
        | close => trivial
        | openChannel => exact hnot hknown
        | finishConnect => exact hnot hknown
        | cancelWriter => exact hnot hknown
        | cancelReader => exact hnot hknown
        | killUpdateThread => exact hnot hknown
        | joinReader => exact hnot hknown
        | joinWriter => exact hnot hknown
        | setDisconnected => exact hnot hknown
  · have hlen := h.length
    simpa using hlen
  · intro hret reads
    obtain ⟨j, hj, hbefore⟩ := h.served hret reads
    exact ⟨j, hj.keep hk, hbefore⟩

/-! ### The calls -/

/-- A call finds what the calling thread has left. -/
theorem Inv.connect (h : Inv m) (hidle : m.todo = []) (hready : m.Ready .connect)
    (hstep : step m .connect = some m') : Inv m' := by
  have hknown := h.known
  rw [hidle] at hknown
  simp only [step, if_pos hidle, Option.some.injEq] at hstep
  subst hstep
  cases hconn : m.channelConnected with
  | true =>
      obtain ⟨hw, hr⟩ := hknown hconn
      obtain ⟨hwends, hrends⟩ := hready hconn
      have hsame : ({ m with before := m.threads } : ConnectionManager).channelConnected = true := hconn
      simp only [hsame, if_true]
      refine ⟨by simp [ret], fun _ => ⟨hw, hr⟩, Nat.le_refl _, by simp [ret], fun _ reads => ?_⟩
      cases reads with
      | false => exact ⟨m.writerThread, hw, hwends⟩
      | true => exact ⟨m.readerThread, hr, hrends⟩
  | false =>
      have hsame : ({ m with before := m.threads } : ConnectionManager).channelConnected = false := hconn
      simp only [hsame]
      refine ⟨?_, hconn, Nat.le_refl _, fun _ => rfl, by simp [Served]⟩
      intro s todo htodo
      cases htodo
      rfl

theorem Inv.disconnect (h : Inv m) (hidle : m.todo = []) (hstep : step m .disconnect = some m') :
    Inv m' := by
  have hknown := h.known
  rw [hidle] at hknown
  simp only [step, if_pos hidle, Option.some.injEq] at hstep
  subst hstep
  split
  · refine ⟨h.shape, ?_, h.length, fun _ => rfl, by simp [Served]⟩
    show Known _ m.todo.head?
    rw [hidle]
    exact hknown
  · refine ⟨?_, trivial, h.length, fun _ => rfl, by simp [Served]⟩
    intro s todo htodo
    cases htodo
    rfl

/-! ### The statements -/

/-- A state with nothing more to execute, whose channel is not connected. -/
theorem Inv.idle (hidle : m'.todo = []) (hconn : m'.channelConnected = false)
    (hlen : m'.before.length ≤ m'.threads.length) (hret : m'.returned ≠ some true) : Inv m' := by
  refine ⟨by simp [hidle], ?_, hlen, by simp [hidle], fun h => absurd h hret⟩
  rw [hidle]
  intro h
  rw [hconn] at h
  cases h

/-- A state whose next statement is `s`. -/
theorem Inv.next (s : ConnStmt) (htodo : m'.todo = s :: rest s) (hknown : m'.Known (some s))
    (hlen : m'.before.length ≤ m'.threads.length) (hret : m'.returned = none) : Inv m' := by
  refine ⟨?_, ?_, hlen, fun _ => hret, by simp [Served, hret]⟩
  · intro s' todo heq
    rw [htodo] at heq
    cases heq
    rfl
  · rw [htodo]
    exact hknown

section
variable {ok : Bool} (hlen : m.before.length ≤ m.threads.length)
include hlen

/-- The first statement of `connect`; the others follow one by one. -/
theorem Inv.openChannel (hpending : m.returned = none) (hknown : m.channelConnected = false)
    (hstep : ({ m with todo := rest .openChannel } : ConnectionManager).exec ok .openChannel = some m') :
    Inv m' := by
  cases ok with
  | true =>
      cases hstep
      refine .next .finishConnect rfl ?_ hlen hpending
      exact channelConnected_eq_false (by simp [SocketChannel.isConnected])
  | false =>
      cases hstep
      exact .idle rfl hknown hlen (by simp [ret])

theorem Inv.finishConnect (hpending : m.returned = none) (hknown : m.channelConnected = false)
    (hstep : ({ m with todo := rest .finishConnect } : ConnectionManager).exec ok .finishConnect = some m') :
    Inv m' := by
  cases hc : m.sockch with
  | none =>
      simp only [ConnectionManager.exec, hc, Option.some.injEq] at hstep
      subst hstep
      exact .idle rfl (channelConnected_eq_false (by simp [ret])) hlen (by simp [ret])
  | some c =>
      cases ok with
      | true =>
          simp only [ConnectionManager.exec, hc, if_true, Option.some.injEq] at hstep
          subst hstep
          exact .next .startWriter rfl (by simp [Known]) hlen hpending
      | false =>
          simp only [ConnectionManager.exec, hc, Bool.false_eq_true, if_false, Option.some.injEq] at hstep
          subst hstep
          refine .idle rfl ?_ hlen (by simp [ret])
          simpa [channelConnected, hc, ret, rest] using hknown

/-- A list of threads that has grown. -/
theorem length_before_le (t : CommThread) : m.before.length ≤ (m.threads ++ [t]).length := by
  rw [List.length_append]
  omega

theorem Inv.startWriter (hpending : m.returned = none) (hknown : m.sockch.isSome)
    (hnot : m.isRunning m.writerThread = false)
    (hstep : ({ m with todo := rest .startWriter } : ConnectionManager).exec ok .startWriter = some m') :
    Inv m' := by
  simp only [ConnectionManager.exec, isRunning] at hstep hnot
  simp only [hnot] at hstep
  cases hstep
  exact .next .startReader rfl ⟨bound_started hknown rfl rfl, hlen⟩ (length_before_le hlen _) hpending

theorem Inv.startReader (hpending : m.returned = none)
    (hknown : m.Bound false m.writerThread ∧ m.before.length ≤ m.writerThread)
    (hnot : m.isRunning m.readerThread = false)
    (hstep : ({ m with todo := rest .startReader } : ConnectionManager).exec ok .startReader = some m') :
    Inv m' := by
  simp only [ConnectionManager.exec, isRunning] at hstep hnot
  simp only [hnot] at hstep
  cases hstep
  obtain ⟨hw, hwlen⟩ := hknown
  have hc : m.sockch.isSome := by
    obtain ⟨c, -, hc, -⟩ := hw
    simp [hc]
  exact .next .returnTrue rfl ⟨⟨hw.keep (.append rfl rfl), hwlen⟩, bound_started hc rfl rfl, hlen⟩
    (length_before_le hlen _) hpending

theorem Inv.returnTrue (hknown : m.Known (some .returnTrue))
    (hstep : ({ m with todo := rest .returnTrue } : ConnectionManager).exec ok .returnTrue = some m') :
    Inv m' := by
  cases hstep
  obtain ⟨⟨hw, hwlen⟩, hr, hrlen⟩ := hknown
  refine ⟨by simp [rest], fun _ => ⟨hw, hr⟩, hlen, by simp [rest], fun _ reads => ?_⟩
  cases reads with
  | false => exact ⟨m.writerThread, hw, by simp [List.getElem?_eq_none hwlen]⟩
  | true => exact ⟨m.readerThread, hr, by simp [List.getElem?_eq_none hrlen]⟩

/-- The statement of `disconnect` that closes the channel, if it can. -/
theorem Inv.close (hpending : m.returned = none)
    (hstep : ({ m with todo := rest .close } : ConnectionManager).exec ok .close = some m') : Inv m' := by
  cases hc : m.sockch with
  | none =>
      simp only [ConnectionManager.exec, hc, Option.some.injEq] at hstep
      subst hstep
      exact .next .cancelWriter rfl (channelConnected_eq_false (by simp)) hlen hpending
  | some c =>
      simp only [ConnectionManager.exec, hc, Option.some.injEq] at hstep
      subst hstep
      refine .next .cancelWriter rfl (channelConnected_eq_false ?_) hlen hpending
      cases ok with
      | true => simp
      | false => simp [SocketChannel.isConnected]

end

/-- **The statements of the calling thread.** -/
theorem Inv.exec (h : Inv m) {s : ConnStmt} {todo : List ConnStmt} (htodo : m.todo = s :: todo) {ok : Bool}
    (hready : m.Ready (.main ok)) (hstep : { m with todo := todo }.exec ok s = some m') : Inv m' := by
  obtain rfl := h.shape s todo htodo
  have hknown := h.known
  have hpending : m.returned = none := h.pending (by simp [htodo])
  have hlen := h.length
  rw [htodo] at hknown
  simp only [Ready, htodo] at hready
  cases s with
  | openChannel => exact .openChannel hlen hpending hknown hstep
  | finishConnect => exact .finishConnect hlen hpending hknown hstep
  | startWriter => exact .startWriter hlen hpending hknown (hready.1 rfl) hstep
  | startReader => exact .startReader hlen hpending hknown (hready.2 rfl) hstep
  | returnTrue => exact .returnTrue hlen hknown hstep
  | close => exact .close hlen hpending hstep
  | cancelWriter =>
      cases hstep
      exact .next .cancelReader rfl hknown (by simpa using hlen) hpending
  | cancelReader =>
      cases hstep
      exact .next .killUpdateThread rfl hknown (by simpa using hlen) hpending
  | killUpdateThread =>
      cases hstep
      exact .next .joinReader rfl hknown hlen hpending
  | joinReader =>
      cases ok with
      | true =>
          obtain ⟨-, hm⟩ := Option.ite_none_right_eq_some.mp hstep
          cases hm
          exact .next .joinWriter rfl hknown hlen hpending
      | false =>
          cases hstep
          exact .idle rfl hknown hlen (by simp [hpending])
  | joinWriter =>
      cases ok with
      | true =>
          obtain ⟨-, hm⟩ := Option.ite_none_right_eq_some.mp hstep
          cases hm
          exact .next .setDisconnected rfl hknown hlen hpending
      | false =>
          cases hstep
          exact .idle rfl hknown hlen (by simp [hpending])
  | setDisconnected =>
      cases hstep
      exact .idle rfl hknown hlen (by simp [hpending])

/-! ### Runs -/

/-- Closing a channel connects none. -/
theorem channelConnected_of_close {c : Nat}
    (h : ({ m with channels := m.channels.modify c ({ · with isOpen := false }) } :
      ConnectionManager).channelConnected = true) : m.channelConnected = true := by
  by_contra hnot
  rw [Bool.not_eq_true] at hnot
  have hclosed : ({ m with channels := m.channels.modify c ({ · with isOpen := false }) } :
      ConnectionManager).channelConnected = false := by
    refine channelConnected_eq_false fun c' hc' ch hch => ?_
    simp only [Option.mem_def, List.getElem?_modify, Option.map_eq_map, Option.map_eq_some_iff] at hc' hch
    obtain ⟨ch₀, hch₀, rfl⟩ := hch
    have hold : ch₀.isConnected = false := by simpa [channelConnected, hc', hch₀] using hnot
    by_cases heq : c = c'
    · simp [heq, SocketChannel.isConnected]
    · simpa [heq] using hold
  rw [hclosed] at h
  cases h

theorem Inv.threadStep (h : Inv m) {i : Nat} {enabled : CommThread → Bool} {f : CommThread → CommThread}
    (hf : ∀ t, Same t (f t)) (hstep : m.threadStep i enabled f = some m') : Inv m' := by
  obtain ⟨-, hm⟩ := Option.ite_none_right_eq_some.mp hstep
  cases hm
  exact h.thread i hf id

/-- **Step lemma.** -/
theorem Inv.step (h : Inv m) {a : Act} (hready : m.Ready a) (hstep : step m a = some m') : Inv m' := by
  have hbegin : ∀ t, Same t (.begin t) := fun _ => ⟨rfl, rfl, id⟩
  have hcancel : ∀ t, Same t (.cancel t) := fun _ => ⟨rfl, rfl, id⟩
  have hcleanup : ∀ t, Same t (.cleanup t) := fun _ => ⟨rfl, rfl, id⟩
  have hleave : ∀ t, Same t (.leave t) := fun _ => ⟨rfl, rfl, id⟩
  cases a with
  | connect =>
      by_cases hidle : m.todo = []
      · exact h.connect hidle hready hstep
      · simp [ConnectionManager.step, hidle] at hstep
  | disconnect =>
      by_cases hidle : m.todo = []
      · exact h.disconnect hidle hstep
      · simp [ConnectionManager.step, hidle] at hstep
  | main ok =>
      cases htodo : m.todo with
      | nil => simp [ConnectionManager.step, htodo] at hstep
      | cons s todo =>
          simp only [ConnectionManager.step, htodo] at hstep
          exact h.exec htodo hready hstep
  | begin i => exact h.threadStep hbegin hstep
  | registrationFailed i => exact h.threadStep hcancel hstep
  | ioException i => exact h.threadStep hcleanup hstep
  | closedByInterrupt i =>
      cases ht : m.threads[i]? with
      | none => simp [ConnectionManager.step, ht] at hstep
      | some t =>
          simp only [ConnectionManager.step, ht] at hstep
          obtain ⟨-, hm⟩ := Option.ite_none_right_eq_some.mp hstep
          cases hm
          refine h.thread i hcleanup fun hconn => ?_
          cases hc : t.sockch with
          | none => simpa [hc] using hconn
          | some c =>
              simp only [hc] at hconn
              exact channelConnected_of_close hconn
  | loopEnds i => exact h.threadStep hleave hstep
  | uncaught i => exact h.threadStep hleave hstep

theorem inv_new : Inv new where
  shape := by simp [new]
  known := by simp [new, Known, channelConnected]
  length := Nat.zero_le _
  pending := by simp [new]
  served := by simp [new, Served]

/-- **Connected means served**, in every run in which `connect` does not meet a
thread of the connected channel that has ended, nor one of an earlier channel
that still counts as running. -/
theorem served_of_run {as : List Act} (hready : Lts.Along step Ready new as)
    (hrun : Lts.run step new as = some m) : m.Served :=
  (Lts.run_induct (fun _ _ _ hs hsa hst => hs.step hsa hst) hready inv_new hrun).served

/-- A call of `connect` that succeeds, and both threads in `run()`. -/
def connected : List Act := .connect :: List.replicate 5 (.main true) ++ [.begin 2, .begin 3]

/-- The writer and the reader that are never started, and the first writer. -/
def firstThreads : List CommThread :=
  [.new false none, .new true none, (CommThread.new false (some 0)).start.begin]

/-- The server closes the connection, and `connect` is called. -/
def peerCloses : List Act := connected ++ [.ioException 3, .connect]

/-- `disconnect` is called, the reader leaves its loop because it is
interrupted, and `connect` is called. -/
def reconnect : List Act :=
  connected ++ .disconnect :: List.replicate 3 (.main true) ++ [.ioException 2, .loopEnds 3] ++
    List.replicate 4 (.main true) ++ .connect :: List.replicate 5 (.main true)

/-- Both times it returns true, and nobody reads the channel. -/
theorem connect_without_reader :
    (∃ m, Lts.run step new peerCloses = some m ∧ m.returned = some true ∧ ¬ m.Served) ∧
    ∃ m, Lts.run step new reconnect = some m ∧ m.returned = some true ∧ ¬ m.Served := by
  constructor
  · let ts := firstThreads ++ [(CommThread.new true (some 0)).start.begin.cleanup]
    refine ⟨⟨some 0, true, 2, 3, [⟨true, true⟩], ts, [], some true, ts⟩, rfl, rfl, fun h => ?_⟩
    obtain ⟨i, ⟨c, t, -, ht, hreads, -, hstarted⟩, hbefore⟩ := h rfl true
    match i with
    | 0 =>
        cases ht
        cases hreads
    | 1 =>
        cases ht
        cases hstarted
    | 2 =>
        cases ht
        cases hreads
    | 3 => exact absurd (hbefore _ rfl) (by decide)
    | i + 4 => cases ht
  · let ts := [.new false none, .new true none, (CommThread.new false (some 0)).start.begin.cancel.cleanup,
      (CommThread.new true (some 0)).start.begin.cancel.leave]
    refine ⟨⟨some 1, true, 4, 3, [⟨false, true⟩, ⟨true, true⟩],
      ts ++ [(CommThread.new false (some 1)).start], [], some true, ts⟩, rfl, rfl, fun h => ?_⟩
    obtain ⟨i, ⟨c, t, hc, ht, hreads, hsockch, hstarted⟩, -⟩ := h rfl true
    cases hc
    match i with
    | 0 =>
        cases ht
        cases hreads
    | 1 =>
        cases ht
        cases hstarted
    | 2 =>
        cases ht
        cases hreads
    | 3 =>
        cases ht
        cases hsockch
    | 4 =>
        cases ht
        cases hreads
    | i + 5 => cases ht

/-- A call while both threads are in `run()`. -/
theorem served_of_run_connected :
    Served ⟨some 0, true, 2, 3, [⟨true, true⟩], firstThreads ++ [(CommThread.new true (some 0)).start.begin],
      [], some true, firstThreads ++ [(CommThread.new true (some 0)).start.begin]⟩ :=
  served_of_run (show Lts.Along step Ready new (connected ++ [.connect]) by decide) rfl

end ConnectionManager

end Pobicos.Client
