import Pobicos.Client.RegistryService
import Pobicos.Lib.Lts

/-!
# Pobicos.Client.UpdateThread

The keep-alive thread of `PoConnectionManager.java`: `startUpdateThread`,
`killUpdateThread` and the threads of `RegistryUpdateTask.java` they create.

The two methods are called by one thread, whose statements (`Stmt`) interleave
with the steps of the others.  A thread is cancelled only if it is running, and
sets that flag itself when it enters `run()`; `single_of_run` says that there is
one thread at a time while no call comes before that.
-/

namespace Pobicos.Client

/-- A thread created for an update task, with its field `Running`. -/
structure UpdateThread where
  task : RegistryUpdateTask
  thread : JThread
  running : Bool
  deriving DecidableEq, Repr

namespace UpdateThread

/-- `new RegistryUpdateTask(a, s)`. -/
def new (task : RegistryUpdateTask) : UpdateThread := ⟨task, .new, false⟩

/-- `start()`. -/
def start (t : UpdateThread) : UpdateThread := { t with thread := { t.thread with started := true } }

/-- `cancel()`. -/
def cancel (t : UpdateThread) : UpdateThread := { t with thread := { t.thread with interrupted := true } }

/-- The first statement of `run()`. -/
def begin (t : UpdateThread) : UpdateThread :=
  { t with thread := { t.thread with begun := true }, running := true }

/-- The end of `run()`, at an `InterruptedException` or at the loop condition. -/
def exit (t : UpdateThread) (caught : Bool) : UpdateThread :=
  { t with thread := { t.thread with ended := true }, running := t.running && !caught }

/-- The thread has been started and not been interrupted. -/
def live (t : UpdateThread) : Bool := t.thread.started && !t.thread.interrupted

@[simp] theorem live_new (task : RegistryUpdateTask) : (new task).live = false := rfl
@[simp] theorem live_cancel (t : UpdateThread) : t.cancel.live = false := Bool.and_false _

end UpdateThread

/-! ## The methods -/

/-- The statements of the two methods. -/
inductive Stmt
  | ifRunning
  | cancel
  | clearRunning
  | create
  | start
  | setRunning
  deriving DecidableEq, Repr

/-- `killUpdateThread()`; `ifRunning` leads to `cancel`. -/
def killUpdateThread : List Stmt := [.ifRunning, .clearRunning]

/-- `startUpdateThread()`. -/
def startUpdateThread : List Stmt := killUpdateThread ++ [.create, .start, .setRunning]

/-- The fields of the connection manager, all threads it has created, and the
statements the calling thread has still to execute. -/
structure UpdateManager where
  updateThread : Option Nat
  updateThreadRunning : Bool
  threads : List UpdateThread
  todo : List Stmt
  deriving DecidableEq, Repr

namespace UpdateManager

def new : UpdateManager := ⟨none, false, [], []⟩

/-- One statement; `registry` is the registry service at that time. -/
def exec (m : UpdateManager) (registry : PoRegistryService) : Stmt → UpdateManager
  | .ifRunning =>
      match m.updateThread.bind (m.threads[·]?) with
      | some t => if t.running then { m with todo := .cancel :: m.todo } else m
      | none => m
  | .cancel =>
      match m.updateThread with
      | some i => { m with threads := m.threads.modify i .cancel }
      | none => m
  | .clearRunning => { m with updateThreadRunning := false }
  | .create =>
      { m with
        threads := m.threads ++ [.new ⟨registry.myAddr, registry.seed⟩]
        updateThread := some m.threads.length }
  | .start =>
      match m.updateThread with
      | some i => { m with threads := m.threads.modify i .start }
      | none => m
  | .setRunning => { m with updateThreadRunning := true }

/-- What happens: a call of one of the methods, the next statement of the
calling thread, a started thread that enters `run()`, or an interrupted one
that leaves it. -/
inductive Act
  | startUpdateThread
  | killUpdateThread
  | main (registry : PoRegistryService)
  | begin (i : Nat)
  | exit (i : Nat) (caught : Bool)

def step (m : UpdateManager) : Act → Option UpdateManager
  | .startUpdateThread => if m.todo = [] then some { m with todo := Client.startUpdateThread } else none
  | .killUpdateThread => if m.todo = [] then some { m with todo := Client.killUpdateThread } else none
  | .main registry =>
      match m.todo with
      | [] => none
      | s :: todo => some ({ m with todo := todo }.exec registry s)
  | .begin i =>
      match m.threads[i]? with
      | some t =>
          if t.thread.started ∧ ¬ t.thread.begun then some { m with threads := m.threads.modify i .begin }
          else none
      | none => none
  | .exit i caught =>
      match m.threads[i]? with
      | some t =>
          if t.thread.begun ∧ t.thread.interrupted ∧ ¬ t.thread.ended then
            some { m with threads := m.threads.modify i (·.exit caught) }
          else none
      | none => none

/-! ## One thread at a time -/

/-- The `i`-th thread has been started and not been interrupted. -/
def LiveIn (ts : List UpdateThread) (i : Nat) : Prop := ∃ t, ts[i]? = some t ∧ t.live

def Live (m : UpdateManager) (i : Nat) : Prop := LiveIn m.threads i

/-- When `isRunning()` is called, the last thread has entered `run()`, unless
it is interrupted already. -/
def Begun (m : UpdateManager) : Act → Prop
  | .main _ => m.todo.head? = some .ifRunning → ∀ t ∈ m.updateThread.bind (m.threads[·]?),
      t.live = true → t.thread.begun = true
  | _ => True

instance decidableBegun (m : UpdateManager) : (a : Act) → Decidable (Begun m a)
  | .main _ => inferInstanceAs (Decidable (m.todo.head? = some .ifRunning →
      ∀ t ∈ m.updateThread.bind (m.threads[·]?), t.live = true → t.thread.begun = true))
  | .startUpdateThread => isTrue trivial
  | .killUpdateThread => isTrue trivial
  | .begin _ => isTrue trivial
  | .exit _ _ => isTrue trivial

/-- Where the calling thread can be. -/
inductive Shape : List Stmt → Prop
  | idle : Shape []
  | ifRunning {rest : List Stmt} (h : rest = [] ∨ rest = [.create, .start, .setRunning]) :
      Shape (.ifRunning :: .clearRunning :: rest)
  | cancel {rest : List Stmt} (h : rest = [] ∨ rest = [.create, .start, .setRunning]) :
      Shape (.cancel :: .clearRunning :: rest)
  | clearRunning {rest : List Stmt} (h : rest = [] ∨ rest = [.create, .start, .setRunning]) :
      Shape (.clearRunning :: rest)
  | create : Shape [.create, .start, .setRunning]
  | start : Shape [.start, .setRunning]
  | setRunning : Shape [.setRunning]

/-- **Invariant**: the last thread is the only one that can be live, it is not
between its cancellation and the start of the next one, and a thread that has
begun is running until it is interrupted. -/
structure Inv (m : UpdateManager) : Prop where
  shape : Shape m.todo
  current : ∀ i, m.Live i → m.updateThread = some i
  quiet : m.todo.head? ∈ [some .clearRunning, some .create, some .start] → ∀ i, ¬ m.Live i
  killed : m.updateThreadRunning = false → m.todo ≠ [.setRunning] → ∀ i, ¬ m.Live i
  running : ∀ (i : Nat) (t : UpdateThread), m.threads[i]? = some t → t.thread.interrupted = false →
    t.thread.begun → t.running

variable {m m' : UpdateManager}

theorem inv_new : Inv .new where
  shape := .idle
  current := by simp [Live, LiveIn, new]
  quiet := by simp [new]
  killed := by simp [Live, LiveIn, new]
  running := by simp [new]

/-- A thread is the one that is changed, or the same as before. -/
theorem getElem?_modify_cases {ts : List UpdateThread} {f : UpdateThread → UpdateThread} {i j : Nat}
    {t : UpdateThread} (h : (ts.modify i f)[j]? = some t) :
    i ≠ j ∧ ts[j]? = some t ∨ i = j ∧ ∃ t₀, ts[i]? = some t₀ ∧ t = f t₀ := by
  rw [List.getElem?_modify, Option.map_eq_map, Option.map_eq_some_iff] at h
  obtain ⟨t₀, ht₀, rfl⟩ := h
  by_cases hij : i = j
  · subst hij
    exact Or.inr ⟨rfl, t₀, ht₀, by simp⟩
  · exact Or.inl ⟨hij, by simpa [hij] using ht₀⟩

/-- A change that starts no thread. -/
theorem LiveIn.of_modify {ts : List UpdateThread} {f : UpdateThread → UpdateThread} {i j : Nat}
    (hf : ∀ t, (f t).live = true → t.live = true) (h : LiveIn (ts.modify i f) j) : LiveIn ts j := by
  obtain ⟨t, ht, hlive⟩ := h
  obtain ⟨-, hsame⟩ | ⟨rfl, t₀, ht₀, rfl⟩ := getElem?_modify_cases ht
  · exact ⟨t, hsame, hlive⟩
  · exact ⟨t₀, ht₀, hf t₀ hlive⟩

/-- A cancelled thread is not live. -/
theorem LiveIn.ne_of_cancel {ts : List UpdateThread} {i j : Nat}
    (h : LiveIn (ts.modify i .cancel) j) : i ≠ j := by
  obtain ⟨t, ht, hlive⟩ := h
  obtain ⟨hne, -⟩ | ⟨-, t₀, -, rfl⟩ := getElem?_modify_cases ht
  · exact hne
  · simp at hlive

/-- A started thread is the only new one. -/
theorem LiveIn.of_start {ts : List UpdateThread} {i j : Nat}
    (h : LiveIn (ts.modify i .start) j) : i = j ∨ LiveIn ts j := by
  obtain ⟨t, ht, hlive⟩ := h
  obtain ⟨-, hsame⟩ | ⟨heq, -⟩ := getElem?_modify_cases ht
  · exact Or.inr ⟨t, hsame, hlive⟩
  · exact Or.inl heq

/-- A thread that has been created is not live yet. -/
theorem LiveIn.of_create {ts : List UpdateThread} {task : RegistryUpdateTask} {j : Nat}
    (h : LiveIn (ts ++ [.new task]) j) : LiveIn ts j := by
  obtain ⟨t, ht, hlive⟩ := h
  rw [List.getElem?_append] at ht
  split at ht
  · exact ⟨t, ht, hlive⟩
  · rw [List.getElem?_singleton] at ht
    split at ht <;> cases ht
    simp at hlive

/-- A thread that begins or leaves `run()` changes nothing for the others. -/
theorem Inv.modify (h : Inv m) (i : Nat) {f : UpdateThread → UpdateThread}
    (hlive : ∀ t, (f t).live = true → t.live = true)
    (hrun : ∀ t, m.threads[i]? = some t → (f t).thread.interrupted = false → (f t).thread.begun →
      (f t).running) :
    Inv { m with threads := m.threads.modify i f } where
  shape := h.shape
  current j hj := h.current j (hj.of_modify hlive)
  quiet hhead j hj := h.quiet hhead j (hj.of_modify hlive)
  killed hflag htodo j hj := h.killed hflag htodo j (hj.of_modify hlive)
  running _ t ht hint hbegun := by
    obtain ⟨-, hsame⟩ | ⟨-, t₀, ht₀, rfl⟩ := getElem?_modify_cases ht
    · exact h.running _ t hsame hint hbegun
    · exact hrun t₀ ht₀ hint hbegun

theorem Inv.begin (h : Inv m) (i : Nat) : Inv { m with threads := m.threads.modify i .begin } :=
  h.modify i (fun _ hlive => hlive) fun _ _ _ _ => rfl

theorem Inv.exit (h : Inv m) {i : Nat} {t : UpdateThread} (ht : m.threads[i]? = some t)
    (hint : t.thread.interrupted) (caught : Bool) :
    Inv { m with threads := m.threads.modify i (·.exit caught) } := by
  refine h.modify i (fun _ hlive => hlive) fun t' ht' hnot => ?_
  obtain rfl : t' = t := Option.some.inj (ht'.symm.trans ht)
  rw [UpdateThread.exit, hint] at hnot
  cases hnot

/-- A call only adds statements to execute. -/
theorem Inv.call (h : Inv m) (hidle : m.todo = []) {todo : List Stmt} (hshape : Shape todo)
    (hhead : todo.head? = some .ifRunning) : Inv { m with todo := todo } := by
  refine ⟨hshape, h.current, ?_, ?_, h.running⟩
  · simp [hhead]
  · exact fun hflag _ => h.killed hflag (by simp [hidle])

/-- While no thread is live, only those that have begun matter. -/
theorem Inv.of_dead (hshape : Shape m.todo) (hdead : ∀ i, ¬ m.Live i)
    (hrunning : ∀ (i : Nat) (t : UpdateThread), m.threads[i]? = some t → t.thread.interrupted = false →
      t.thread.begun → t.running) : Inv m where
  shape := hshape
  current i hi := absurd hi (hdead i)
  quiet _ := hdead
  killed _ _ := hdead
  running := hrunning

/-- No thread is live where `isRunning()` is false, as the last one has begun. -/
theorem Inv.dead_of_not_running (h : Inv m)
    (hbegun : ∀ t ∈ m.updateThread.bind (m.threads[·]?), t.live = true → t.thread.begun = true)
    (hnot : ∀ t ∈ m.updateThread.bind (m.threads[·]?), ¬ t.running = true) (i : Nat) : ¬ m.Live i := by
  rintro ⟨t, ht, hlive⟩
  have hlast : t ∈ m.updateThread.bind (m.threads[·]?) := by
    simp [h.current i ⟨t, ht, hlive⟩, ht]
  have hint : t.thread.interrupted = false := by
    simp only [UpdateThread.live, Bool.and_eq_true, Bool.not_eq_true'] at hlive
    exact hlive.2
  exact hnot t hlast (h.running i t ht hint (hbegun t hlast hlive))

/-- The last thread is cancelled. -/
theorem Inv.cancel (h : Inv m) {i : Nat} (hlast : m.updateThread = some i) {todo : List Stmt}
    (hshape : Shape todo) : Inv { m with threads := m.threads.modify i .cancel, todo := todo } := by
  refine .of_dead hshape (fun j hj => ?_) fun j t ht hint hstarted => ?_
  · have hcur := h.current j (hj.of_modify fun t hlive => by simp at hlive)
    rw [hlast] at hcur
    exact hj.ne_of_cancel (Option.some.inj hcur)
  · obtain ⟨-, hsame⟩ | ⟨-, t₀, -, rfl⟩ := getElem?_modify_cases ht
    · exact h.running j t hsame hint hstarted
    · cases hint

/-- A thread is created, with none live. -/
theorem Inv.create (h : Inv m) (hdead : ∀ j, ¬ m.Live j) (task : RegistryUpdateTask)
    (last : Option Nat) {todo : List Stmt} (hshape : Shape todo) :
    Inv { m with threads := m.threads ++ [.new task], updateThread := last, todo := todo } := by
  refine .of_dead hshape (fun j hj => hdead j hj.of_create) fun j t ht hint hstarted => ?_
  rw [List.getElem?_append] at ht
  split at ht
  · exact h.running j t ht hint hstarted
  · rw [List.getElem?_singleton] at ht
    split at ht <;> cases ht
    cases hstarted

/-- The last thread is started, with none live. -/
theorem Inv.start (h : Inv m) (hdead : ∀ j, ¬ m.Live j) {i : Nat} (hlast : m.updateThread = some i) :
    Inv { m with threads := m.threads.modify i .start, todo := [.setRunning] } where
  shape := .setRunning
  current j hj := by
    obtain rfl | hlive := hj.of_start
    · exact hlast
    · exact absurd hlive (hdead j)
  quiet hhead := by simp at hhead
  killed _ htodo := absurd rfl htodo
  running j t ht hint hstarted := by
    obtain ⟨-, hsame⟩ | ⟨-, t₀, ht₀, rfl⟩ := getElem?_modify_cases ht
    · exact h.running j t hsame hint hstarted
    · exact h.running i t₀ ht₀ hint hstarted

/-- **The statements of the calling thread.** -/
theorem Inv.exec (h : Inv m) (registry : PoRegistryService) {s : Stmt} {todo : List Stmt}
    (htodo : m.todo = s :: todo) (hbegun : Begun m (.main registry)) :
    Inv ({ m with todo := todo }.exec registry s) := by
  have hshape := h.shape
  rw [htodo] at hshape
  cases hshape with
  | @ifRunning rest hrest =>
      have hkilled : m.updateThreadRunning = false → ∀ i, ¬ m.Live i := fun hflag =>
        h.killed hflag (by simp [htodo])
      have hlastBegun := hbegun (by simp [htodo])
      rcases hlast : m.updateThread.bind (m.threads[·]?) with _ | t
      · have hdead := h.dead_of_not_running hlastBegun (by simp [hlast])
        rw [UpdateManager.exec, hlast]
        exact .of_dead (.clearRunning hrest) hdead h.running
      · rw [UpdateManager.exec, hlast]
        by_cases hrunning : t.running = true
        · simp only [hrunning, if_true]
          exact ⟨.cancel hrest, h.current, by simp, fun hflag _ => hkilled hflag, h.running⟩
        · have hdead := h.dead_of_not_running hlastBegun (by simp [hlast, hrunning])
          simp only [hrunning]
          exact .of_dead (.clearRunning hrest) hdead h.running
  | @cancel rest hrest =>
      cases hlast : m.updateThread with
      | none =>
          have hdead : ∀ i, ¬ m.Live i := fun i hi => by simpa [hlast] using h.current i hi
          simp only [UpdateManager.exec]
          exact .of_dead (.clearRunning hrest) hdead h.running
      | some i =>
          have hcancelled := h.cancel hlast (.clearRunning hrest)
          rwa [hlast] at hcancelled
  | clearRunning hrest =>
      have hquiet := h.quiet (by simp [htodo])
      refine .of_dead ?_ hquiet h.running
      obtain rfl | rfl := hrest
      · exact .idle
      · exact .create
  | create =>
      exact h.create (h.quiet (by simp [htodo])) ⟨registry.myAddr, registry.seed⟩ _ .start
  | start =>
      have hquiet := h.quiet (by simp [htodo])
      cases hlast : m.updateThread with
      | none =>
          simp only [UpdateManager.exec]
          exact .of_dead .setRunning hquiet h.running
      | some i =>
          have hstarted := h.start hquiet hlast
          rwa [hlast] at hstarted
  | setRunning =>
      refine ⟨.idle, h.current, by simp [UpdateManager.exec], by simp [UpdateManager.exec], h.running⟩

/-- **Step lemma.** -/
theorem Inv.step (h : Inv m) {a : Act} (hbegun : Begun m a) (hstep : step m a = some m') : Inv m' := by
  cases a with
  | startUpdateThread =>
      obtain ⟨hidle, hm⟩ := Option.ite_none_right_eq_some.mp hstep
      cases hm
      exact h.call hidle (.ifRunning (Or.inr rfl)) rfl
  | killUpdateThread =>
      obtain ⟨hidle, hm⟩ := Option.ite_none_right_eq_some.mp hstep
      cases hm
      exact h.call hidle (.ifRunning (Or.inl rfl)) rfl
  | main registry =>
      cases htodo : m.todo with
      | nil => simp [UpdateManager.step, htodo] at hstep
      | cons s todo =>
          simp only [UpdateManager.step, htodo, Option.some.injEq] at hstep
          subst hstep
          exact h.exec registry htodo hbegun
  | begin i =>
      cases ht : m.threads[i]? with
      | none => simp [UpdateManager.step, ht] at hstep
      | some t =>
          simp only [UpdateManager.step, ht] at hstep
          obtain ⟨-, hm⟩ := Option.ite_none_right_eq_some.mp hstep
          cases hm
          exact h.begin i
  | exit i caught =>
      cases ht : m.threads[i]? with
      | none => simp [UpdateManager.step, ht] at hstep
      | some t =>
          simp only [UpdateManager.step, ht] at hstep
          obtain ⟨⟨-, hint, -⟩, hm⟩ := Option.ite_none_right_eq_some.mp hstep
          cases hm
          exact h.exit ht hint caught

end UpdateManager

end Pobicos.Client
