import Pobicos.Lib.ByteBuffer

/-!
# Pobicos.Java

The Java types and library classes the directory and the client share.

A `double` is kept as its raw IEEE 754 bits: the programs store, send and
compare doubles with zero, and hand them to a distance function; nothing else
is computed with them.
-/

namespace Pobicos

open Nio Octets

abbrev JChar := BitVec 16
abbrev JInt := BitVec 32
abbrev JLong := BitVec 64
abbrev JDouble := BitVec 64

/-- `d != 0.0`: neither of the two zeros (a NaN differs from zero too). -/
def JDouble.nonzero (d : JDouble) : Bool := d != 0#64 && d != 0x8000000000000000#64

/-! ## java.util.Random -/

namespace Random

/-- `new Random(seed)`: the scrambled 48-bit state. -/
def init (seed : JLong) : JLong := (seed ^^^ 0x5DEECE66D#64) &&& 0xFFFFFFFFFFFF#64

/-- The first `nextInt()` of a generator in state `s`. -/
def nextInt (s : JLong) : JInt :=
  (((s * 0x5DEECE66D#64 + 0xB#64) &&& 0xFFFFFFFFFFFF#64) >>> 16).setWidth 32

end Random

/-! ## java.lang.Thread -/

/-- How far a thread has come: whether `start()` has been called, `run()`
entered, `interrupt()` called, and `run()` left. -/
structure JThread where
  started : Bool
  begun : Bool
  interrupted : Bool
  ended : Bool
  deriving DecidableEq, Repr

/-- A thread that has been created. -/
def JThread.new : JThread := ⟨false, false, false, false⟩

end Pobicos
