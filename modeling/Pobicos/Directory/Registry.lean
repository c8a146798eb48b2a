import Pobicos.Lib.Channel
import Pobicos.Java
import Mathlib.Data.List.Basic

/-!
# Pobicos.Directory.Registry

`NodeInfo.java` and `Registry.java`: the records of the registered nodes and
the list that holds them.

A reference to a record is its index in the list.  The three overloaded
lookups scan the list from the front, so each is the first index its test
accepts.  `reg.remove(Object)` compares its argument with every element by
`equals`; the one caller passes a socket.
-/

namespace Pobicos.Directory

open Nio Octets

/-- The identity of a `SocketChannel` object. -/
abbrev SocketId := Nat

structure NodeInfo where
  poNodeAddr : JChar
  latitude : JDouble
  longitude : JDouble
  seed : JInt
  sock : SocketId
  lastSeen : JLong
  deriving DecidableEq, Repr

structure Registry where
  reg : List NodeInfo
  addr : JInt
  deriving DecidableEq, Repr

/-- `setLatitude`, `setLongitude`, `setLastSeen`: what a `REGISTRY_REQ` of a
known node updates. -/
def NodeInfo.refresh (n : NodeInfo) (lat lon : JDouble) (seen : JLong) : NodeInfo :=
  { n with latitude := lat, longitude := lon, lastSeen := seen }

def NodeInfo.setLastSeen (n : NodeInfo) (seen : JLong) : NodeInfo := { n with lastSeen := seen }

namespace Registry

/-- `new Registry()`. -/
def new : Registry := ⟨[], 1⟩

/-- `(char) addr.getAndAdd(1)`. -/
def getAddr (r : Registry) : JChar × Registry := (r.addr.setWidth 16, { r with addr := r.addr + 1 })

/-- `isRegisted(SocketChannel)`. -/
def isRegistedSock (r : Registry) (s : SocketId) : Option (Fin r.reg.length) :=
  r.reg.findFinIdx? fun n => n.sock == s

/-- `isRegisted(char)`. -/
def isRegistedAddr (r : Registry) (addr : JChar) : Option (Fin r.reg.length) :=
  r.reg.findFinIdx? fun n => n.poNodeAddr == addr

/-- `isRegistered(char, int)`. -/
def isRegistered (r : Registry) (addr : JChar) (seed : JInt) : Option (Fin r.reg.length) :=
  r.reg.findFinIdx? fun n => n.poNodeAddr == addr && n.seed == seed

/-- Write through a reference to a record. -/
def modify (r : Registry) (i : Nat) (f : NodeInfo → NodeInfo) : Registry :=
  { r with reg := r.reg.modify i f }

def add (r : Registry) (n : NodeInfo) : Registry := { r with reg := r.reg ++ [n] }

end Registry

/-- The objects the registry list compares. -/
inductive JObject
  | socketChannel (s : SocketId)
  | nodeInfo (n : NodeInfo)

/-- `equals` of a `SocketChannel`, inherited from `Object`: the same object. -/
def SocketChannel.equals (s : SocketId) : JObject → Bool
  | .socketChannel t => s == t
  | .nodeInfo _ => false

/-- `reg.remove(Object)` called with a socket: the first element it equals. -/
def Registry.remove (r : Registry) (s : SocketId) : Registry :=
  { r with reg := r.reg.eraseP fun n => SocketChannel.equals s (.nodeInfo n) }

/-- `new NodeInfo(s, lat, lon)`: the clock is read for `last_seen`, then again
to seed the generator. -/
def NodeInfo.new (r : Registry) (s : SocketId) (lat lon : JDouble) (now now' : JLong) :
    NodeInfo × Registry :=
  let (addr, r) := r.getAddr
  ({ poNodeAddr := addr, latitude := lat, longitude := lon,
     seed := Random.nextInt (Random.init now'), sock := s, lastSeen := now }, r)

/-! ## Lookups -/

namespace Registry

variable {r : Registry} {s : SocketId}

theorem isRegistedSock_eq_none_iff : r.isRegistedSock s = none ↔ ∀ n ∈ r.reg, n.sock ≠ s := by
  simp [isRegistedSock, List.findFinIdx?_eq_none_iff]

theorem isRegistedAddr_eq_none_iff {a : JChar} :
    r.isRegistedAddr a = none ↔ ∀ n ∈ r.reg, n.poNodeAddr ≠ a := by
  simp [isRegistedAddr, List.findFinIdx?_eq_none_iff]

theorem isRegistered_eq_none_iff {a : JChar} {q : JInt} :
    r.isRegistered a q = none ↔ ∀ n ∈ r.reg, n.poNodeAddr = a → n.seed ≠ q := by
  simp [isRegistered, List.findFinIdx?_eq_none_iff]

theorem sock_of_isRegistedSock {i : Fin r.reg.length} (h : r.isRegistedSock s = some i) :
    (r.reg.get i).sock = s := by
  rw [isRegistedSock, List.findFinIdx?_eq_some_iff] at h
  simpa using h.1

theorem addr_of_isRegistedAddr {a : JChar} {i : Fin r.reg.length} (h : r.isRegistedAddr a = some i) :
    (r.reg.get i).poNodeAddr = a := by
  rw [isRegistedAddr, List.findFinIdx?_eq_some_iff] at h
  simpa using h.1

theorem ident_of_isRegistered {a : JChar} {q : JInt} {i : Fin r.reg.length}
    (h : r.isRegistered a q = some i) : (r.reg.get i).poNodeAddr = a ∧ (r.reg.get i).seed = q := by
  rw [isRegistered, List.findFinIdx?_eq_some_iff] at h
  simpa using h.1

/-! ## Updates -/

@[simp] theorem reg_new : new.reg = [] := rfl

@[simp] theorem reg_add (n : NodeInfo) : (r.add n).reg = r.reg ++ [n] := rfl

@[simp] theorem addr_add (n : NodeInfo) : (r.add n).addr = r.addr := rfl

@[simp] theorem reg_modify (i : Nat) (f : NodeInfo → NodeInfo) :
    (r.modify i f).reg = r.reg.modify i f := rfl

@[simp] theorem addr_modify (i : Nat) (f : NodeInfo → NodeInfo) : (r.modify i f).addr = r.addr := rfl

/-- A socket equals no record, so nothing is removed. -/
theorem remove_eq_self (r : Registry) (s : SocketId) : r.remove s = r := by
  have hnone : ∀ n ∈ r.reg, ¬ SocketChannel.equals s (.nodeInfo n) = true := fun n _ => by
    simp [SocketChannel.equals]
  rw [remove, List.eraseP_of_forall_not hnone]

end Registry

end Pobicos.Directory
