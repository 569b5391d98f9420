/-! # Extents of text

An extent is a run of byte offsets, from its start up to but not including its
stop.
-/

namespace StateTables.Text

structure Extent where
  start : UInt64
  stop : UInt64
deriving DecidableEq, Repr

namespace Extent

/-- The number of offsets, modulo 2^64. -/
def length (extent : Extent) : UInt64 :=
  extent.stop - extent.start

def isNull (extent : Extent) : Bool :=
  extent.start == 0 && extent.stop == 0

def text (extent : Extent) : String :=
  s!"({extent.start}…{extent.stop})"

end Extent

end StateTables.Text
