import Pobicos.AppLoader.PoUART
import Pobicos.Java
import Pobicos.Lib.Threads

/-!
# Pobicos.AppLoader.PoAppPillLoader

`PoAppPillLoader.java`: the upload, start and kill of an application on the
node, and the buttons of `PoMainA` that ask for them.

The calls are programs that share the fields and write packets to the event
queue, a byte at a time.  Every `PoUART` that is created is a thread that reads
the packets of the node; `con` is the latest one.
-/

namespace Pobicos.AppLoader

open Nio Octets Threads

/-! ## The fields -/

/-- `STATE`. -/
inductive STATE
  | RUNNING
  | IDLE
  deriving DecidableEq, Repr

/-- A `PoUART` that has been created: whether it is interrupted, and the packet
it has taken from the queue of the node and not passed on. -/
structure PoUART where
  interrupted : Bool
  packet : Option (Byte × List Byte)
  deriving DecidableEq, Repr

/-- The fields of `PoAppPillLoader`, the flags `PoAPI.hostsRootAgent` and
`PoMainA.app_status`, and the threads in the order of their creation. -/
structure PoAppPillLoader where
  androidAppBundle : List JInt
  con : Option Nat
  offset : JInt
  rootAgentID : List Byte
  APP_STATE : STATE
  bundleSize : JInt
  hostsRootAgent : Bool
  app_status : Bool
  threads : List PoUART
  deriving DecidableEq, Repr

/-- `a[i]` on an int array. -/
def intArrayGet (a : List JInt) (i : JInt) : Except Throwable JInt :=
  if i.toInt < 0 then .error .indexOutOfBounds
  else
    match a[i.toNat]? with
    | some x => .ok x
    | none => .error .indexOutOfBounds

/-- A call of the loader. -/
abbrev Call := Prog PoAppPillLoader Throwable Byte

namespace PoAppPillLoader

/-- The class when it has been loaded. -/
def init (androidAppBundle : List JInt) : PoAppPillLoader where
  androidAppBundle := androidAppBundle
  con := none
  offset := 0
  rootAgentID := List.replicate 4 0
  APP_STATE := .IDLE
  bundleSize := 0
  hostsRootAgent := false
  app_status := false
  threads := []

/-- `con = new PoUART(this)`: the constructor starts the thread. -/
def newPoUART (f : PoAppPillLoader) : PoAppPillLoader :=
  { f with con := some f.threads.length, threads := f.threads ++ [⟨false, none⟩] }

/-- `interrupt()` on a thread. -/
def interrupt (f : PoAppPillLoader) (i : Nat) : PoAppPillLoader :=
  { f with threads := f.threads.modify i fun t => { t with interrupted := true } }

/-- A thread that has been started and not been cancelled. -/
def Live (f : PoAppPillLoader) (i : Nat) : Prop := ∃ t ∈ f.threads[i]?, t.interrupted = false

end PoAppPillLoader

/-! ## Calls on `con` -/

/-- `con.sendPacket(channel, payload)`. -/
def conSendPacket (channel : Byte) (payload : List Byte) : Call Unit := do
  let f ← Prog.read
  let _ ← Prog.ofExcept (deref f.con)
  let pkt ← Prog.ofExcept (sendPacket channel payload)
  Prog.writeAll pkt

/-- `con.cancel()`. -/
def conCancel : Call Unit := do
  let f ← Prog.read
  let con ← Prog.ofExcept (deref f.con)
  Prog.modify fun f => f.interrupt con

/-- `con.getMaxPayloadLen()`. -/
def conGetMaxPayloadLen : Call Nat := do
  let f ← Prog.read
  let _ ← Prog.ofExcept (deref f.con)
  pure (MAX_MESSAGE_LEN - 2)

/-! ## Loading and starting -/

/-- `byteArrayToInt(b, offset)`. -/
def byteArrayToInt (b : List Byte) (offset : Nat) : Except Throwable JInt :=
  (List.range 4).foldlM (fun value i => do
    let x ← arrayGet b (i + offset)
    .ok (value + x.setWidth 32 <<< (i * 8))) 0

/-- `retrieveBundleSize()`. -/
def retrieveBundleSize : Call Unit := do
  let f ← Prog.read
  let bundleSizeArray ← Prog.ofExcept ([0, 1, 2, 3].mapM fun i => intArrayGet f.androidAppBundle i)
  let bundleSize ← Prog.ofExcept (byteArrayToInt (bundleSizeArray.map fun x => x.setWidth 8) 0)
  Prog.modify fun f => { f with bundleSize := bundleSize }

/-- `sendAppStartPacket()`. -/
def sendAppStartPacket : Call Unit := conSendPacket 0x01 [0x06]

/-- `sendFirstPacket()`. -/
def sendFirstPacket : Call Unit := conSendPacket 0x01 [0x01]

/-- `sendDataPacket(payload)`. -/
def sendDataPacket (payload : List Byte) : Call Unit := conSendPacket 0x02 payload

/-- `loadAndStartApp()`. -/
def loadAndStartApp : Call Unit := do
  let f ← Prog.read
  if f.APP_STATE = .RUNNING then
    pure ()
  else do
    Prog.modify fun f => f.newPoUART
    retrieveBundleSize
    sendFirstPacket

/-- `startApp()`. -/
def startApp : Call Unit := do
  sendAppStartPacket
  Prog.modify fun f => { f with APP_STATE := .RUNNING }

/-! ## Killing -/

/-- `sendKillPacket(payload)`. -/
def sendKillPacket (payload : List Byte) : Call Unit := do
  let f ← Prog.read
  if f.APP_STATE = .RUNNING then do
    Prog.modify fun f => { f with hostsRootAgent := false }
    conSendPacket 0x01 payload
    Prog.modify fun f => { f with APP_STATE := .IDLE }
  else
    pure ()

/-- `killRunningApp()`. -/
def killRunningApp : Call Unit := do
  let f ← Prog.read
  if f.APP_STATE = .IDLE then
    pure ()
  else do
    Prog.modify fun f => f.newPoUART
    let id ← Prog.ofExcept (arrayGetRange f.rootAgentID 0 4)
    sendKillPacket (0x09 :: id)

/-! ## Notifications of the node -/

/-- The loop that fills a data packet: the packet and how far it came.  The last
argument is `maxlen - i`. -/
def fillData (f : PoAppPillLoader) (data : List Byte) (i : Nat) : Nat → Except Throwable (List Byte × Nat)
  | 0 => .ok (data, i)
  | n + 1 =>
      if (BitVec.ofNat 32 i + f.offset).slt f.bundleSize then do
        let x ← intArrayGet f.androidAppBundle (BitVec.ofNat 32 i + f.offset)
        let data ← arraySet data i (x.setWidth 8)
        fillData f data (i + 1) n
      else
        .ok (data, i)

/-- The node is ready for data. -/
def sendNextData : Call Unit := do
  let maxlen ← conGetMaxPayloadLen
  let f ← Prog.read
  let (data, i) ← Prog.ofExcept (fillData f (List.replicate maxlen 0) 0 maxlen)
  Prog.modify fun f => { f with offset := f.offset + BitVec.ofNat 32 i }
  sendDataPacket data

/-- The `switch` on a control packet of one byte.  The errors `0x04`, `0x08` and
`0x0B` are only logged. -/
def controlPacket (b : Byte) : Call Unit :=
  if b = 0x02 then do
    Prog.modify fun f => { f with offset := 0 }
    startApp
  else if b = 0x03 then
    sendNextData
  else if b = 0x07 then
    conCancel
  else
    pure ()

/-- An application has started, and the packet says which. -/
def rootAgentStarted (payload : List Byte) : Call Unit := do
  Prog.modify fun f => { f with hostsRootAgent := true }
  let id ← Prog.ofExcept (arrayGetRange payload 1 4)
  Prog.modify fun f => { f with rootAgentID := id }
  conCancel

/-- The first `if` of `packetReceived`: a control packet of one byte or of five. -/
def controlReceived (channel : Byte) (payload : List Byte) : Call Unit :=
  if channel = 0x01 ∧ payload.length = 1 then do
    let b ← Prog.ofExcept (arrayGet payload 0)
    controlPacket b
  else if channel = 0x01 ∧ payload.length = 5 then do
    let b ← Prog.ofExcept (arrayGet payload 0)
    if b = 0x07 then
      rootAgentStarted payload
  else
    pure ()

/-- The second `if` of `packetReceived`, on any channel. -/
def killedReceived (payload : List Byte) : Call Unit := do
  let b ← Prog.ofExcept (arrayGet payload 0)
  if b = 0x0A then do
    Prog.modify fun f => { f with hostsRootAgent := false }
    conCancel

/-- `packetReceived(channel, payload)`. -/
def packetReceived (channel : Byte) (payload : List Byte) : Call Unit := do
  controlReceived channel payload
  killedReceived payload

/-! ## The buttons -/

/-- `onClick` of the start button. -/
def startButton : Call Unit := do
  let f ← Prog.read
  if f.app_status = false then do
    loadAndStartApp
    Prog.modify fun f => { f with app_status := true }

/-- `onClick` of the kill button. -/
def killButton : Call Unit := do
  let f ← Prog.read
  if f.app_status = true then do
    killRunningApp
    Prog.modify fun f => { f with app_status := false }

/-! ## What the calls guarantee -/

section
variable {G : PoAppPillLoader → PoAppPillLoader → Prop}
  (hkeep : ∀ f g : PoAppPillLoader, g.con = f.con → g.threads = f.threads → G f g)
  (hcancel : ∀ (f : PoAppPillLoader) (i : Nat), G f (f.interrupt i))

theorem conSendPacket_safe (channel : Byte) (payload : List Byte) (f : PoAppPillLoader) :
    (conSendPacket channel payload).Safe G IsPacket f := by
  rw [conSendPacket, Prog.safe_read_bind, Prog.safe_ofExcept_bind]
  intro con _
  rw [Prog.safe_ofExcept_bind]
  intro pkt hpkt
  rw [Prog.safe_writeAll]
  exact isPacket_of_sendPacket hpkt

include hkeep

theorem startApp_safe (f : PoAppPillLoader) : startApp.Safe G IsPacket f := by
  refine (conSendPacket_safe _ _ f).bind ?_
  intro _ g
  exact Prog.safe_modify.mpr (hkeep _ _ rfl rfl)

theorem retrieveBundleSize_safe (f : PoAppPillLoader) : retrieveBundleSize.Safe G IsPacket f := by
  rw [retrieveBundleSize, Prog.safe_read_bind, Prog.safe_ofExcept_bind]
  intro bundleSizeArray _
  rw [Prog.safe_ofExcept_bind]
  intro bundleSize _
  exact Prog.safe_modify.mpr (hkeep _ _ rfl rfl)

theorem sendKillPacket_safe (payload : List Byte) (f : PoAppPillLoader) :
    (sendKillPacket payload).Safe G IsPacket f := by
  rw [sendKillPacket, Prog.safe_read_bind]
  split
  · rw [Prog.safe_modify_bind]
    refine ⟨hkeep _ _ rfl rfl, (conSendPacket_safe _ _ _).bind ?_⟩
    intro _ g
    exact Prog.safe_modify.mpr (hkeep _ _ rfl rfl)
  · trivial

theorem sendNextData_safe (f : PoAppPillLoader) : sendNextData.Safe G IsPacket f := by
  have hlen : conGetMaxPayloadLen.Safe G IsPacket f := by
    rw [conGetMaxPayloadLen, Prog.safe_read_bind, Prog.safe_ofExcept_bind]
    exact fun _ _ => trivial
  refine hlen.bind ?_
  intro maxlen g
  rw [Prog.safe_read_bind, Prog.safe_ofExcept_bind]
  intro data _
  rw [Prog.safe_modify_bind]
  exact ⟨hkeep _ _ rfl rfl, conSendPacket_safe _ _ _⟩

include hcancel

omit hkeep in
theorem conCancel_safe (f : PoAppPillLoader) : conCancel.Safe G IsPacket f := by
  rw [conCancel, Prog.safe_read_bind, Prog.safe_ofExcept_bind]
  intro con _
  exact Prog.safe_modify.mpr (hcancel f con)

theorem controlPacket_safe (b : Byte) (f : PoAppPillLoader) : (controlPacket b).Safe G IsPacket f := by
  rw [controlPacket]
  split
  · rw [Prog.safe_modify_bind]
    exact ⟨hkeep _ _ rfl rfl, startApp_safe hkeep _⟩
  · split
    · exact sendNextData_safe hkeep f
    · split
      · exact conCancel_safe hcancel f
      · trivial

theorem rootAgentStarted_safe (payload : List Byte) (f : PoAppPillLoader) :
    (rootAgentStarted payload).Safe G IsPacket f := by
  rw [rootAgentStarted, Prog.safe_modify_bind, Prog.safe_ofExcept_bind]
  refine ⟨hkeep _ _ rfl rfl, ?_⟩
  intro id _
  rw [Prog.safe_modify_bind]
  exact ⟨hkeep _ _ rfl rfl, conCancel_safe hcancel _⟩

theorem controlReceived_safe (channel : Byte) (payload : List Byte) (f : PoAppPillLoader) :
    (controlReceived channel payload).Safe G IsPacket f := by
  rw [controlReceived]
  split
  · rw [Prog.safe_ofExcept_bind]
    exact fun b _ => controlPacket_safe hkeep hcancel b f
  · split
    · rw [Prog.safe_ofExcept_bind]
      intro b _
      split
      · exact rootAgentStarted_safe hkeep hcancel payload f
      · trivial
    · trivial

theorem killedReceived_safe (payload : List Byte) (f : PoAppPillLoader) :
    (killedReceived payload).Safe G IsPacket f := by
  rw [killedReceived, Prog.safe_ofExcept_bind]
  intro b _
  split
  · rw [Prog.safe_modify_bind]
    exact ⟨hkeep _ _ rfl rfl, conCancel_safe hcancel _⟩
  · trivial

/-- **A notification** creates no thread. -/
theorem packetReceived_safe (channel : Byte) (payload : List Byte) (f : PoAppPillLoader) :
    (packetReceived channel payload).Safe G IsPacket f :=
  (controlReceived_safe hkeep hcancel channel payload f).bind fun _ g =>
    killedReceived_safe hkeep hcancel payload g

omit hcancel

/-- **A load** creates one, unless an application runs. -/
theorem loadAndStartApp_safe {f : PoAppPillLoader} (hnew : f.APP_STATE ≠ .RUNNING → G f f.newPoUART) :
    loadAndStartApp.Safe G IsPacket f := by
  rw [loadAndStartApp, Prog.safe_read_bind]
  split
  · trivial
  · next hstate =>
      rw [Prog.safe_modify_bind]
      refine ⟨hnew hstate, (retrieveBundleSize_safe hkeep _).bind ?_⟩
      exact fun _ g => conSendPacket_safe _ _ g

/-- **A kill** creates one, unless no application runs. -/
theorem killRunningApp_safe {f : PoAppPillLoader} (hnew : f.APP_STATE ≠ .IDLE → G f f.newPoUART) :
    killRunningApp.Safe G IsPacket f := by
  rw [killRunningApp, Prog.safe_read_bind]
  split
  · trivial
  · next hstate =>
      rw [Prog.safe_modify_bind, Prog.safe_ofExcept_bind]
      refine ⟨hnew hstate, ?_⟩
      exact fun id _ => sendKillPacket_safe hkeep _ _

theorem startButton_safe {f : PoAppPillLoader}
    (hnew : f.app_status = false → f.APP_STATE ≠ .RUNNING → G f f.newPoUART) :
    startButton.Safe G IsPacket f := by
  rw [startButton, Prog.safe_read_bind]
  split
  · next hstatus =>
      refine (loadAndStartApp_safe hkeep (hnew hstatus)).bind ?_
      exact fun _ g => Prog.safe_modify.mpr (hkeep _ _ rfl rfl)
  · trivial

theorem killButton_safe {f : PoAppPillLoader}
    (hnew : f.app_status = true → f.APP_STATE ≠ .IDLE → G f f.newPoUART) :
    killButton.Safe G IsPacket f := by
  rw [killButton, Prog.safe_read_bind]
  split
  · next hstatus =>
      refine (killRunningApp_safe hkeep (hnew hstatus)).bind ?_
      exact fun _ g => Prog.safe_modify.mpr (hkeep _ _ rfl rfl)
  · trivial

end

end Pobicos.AppLoader
