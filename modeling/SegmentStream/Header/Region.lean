import SegmentStream.Attribute.Extras
import SegmentStream.Header.Codec

/-!
# Header regions

A region is what one header slot holds: a written header and, right behind it,
the extra attributes in force.  The header's data offset is the region's length
when the data follows at once.

A slot is where a region was written.  It can be rewritten at the same length
anywhere, and at another length as long as nothing follows it.
-/

namespace SegmentStream

/-! ## Slots -/

structure Slot where
  offset : Nat
  length : Nat
  deriving DecidableEq, Repr

namespace Slot

def stop (slot : Slot) : Nat := slot.offset + slot.length

/-- Nothing follows the slot in a channel that ends at `cursor`. -/
def isTail (slot : Slot) (cursor : Nat) : Bool := slot.stop == cursor

end Slot

/-! ## Regions -/

inductive FormatFault where
  | header (fault : HeaderFault)
  | extras (fault : ExtrasFault)
  /-- The region would change its length although bytes follow it. -/
  | regionResized (offset length need : Nat)
  deriving DecidableEq, Repr

namespace FormatFault

def message : FormatFault → String
  | header fault => fault.message
  | extras fault => fault.message
  | regionResized offset length need =>
      s!"header region at offset {offset} would change from {length} to {need} bytes"

end FormatFault

def encodeRegion (header : Header) (extras : Extras) : Bytes := header.encode ++ extras.encode

@[simp] theorem encodeRegion_length (header : Header) (extras : Extras) :
    (encodeRegion header extras).length = headerSize + extras.encodedSize := by
  simp [encodeRegion, extras.encode_length]

end SegmentStream
