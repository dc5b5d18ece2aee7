import SegmentStream.Binary64

/-!
# Counters

What a recorder has done so far, as plain counts.  A count is a number of any size:
it never wraps and never stops.  Only where counts are stored or sent has each of
them to fit a word.
-/

namespace SegmentStream

structure Counters where
  batches : Nat := 0
  headersEmitted : Nat := 0
  headersFinalized : Nat := 0
  segmentsClosed : Nat := 0
  recordsWritten : Nat := 0
  recordsDropped : Nat := 0
  dataBytes : Nat := 0
  headerBytes : Nat := 0
  tagsApplied : Nat := 0
  tagsRejected : Nat := 0
  rotations : Nat := 0
  deriving DecidableEq, Repr

instance : Inhabited Counters := ⟨{}⟩

namespace Counters

def addBatch (counters : Counters) : Counters :=
  { counters with batches := counters.batches + 1 }

/-- A header region of `length` bytes was appended. -/
def addHeader (counters : Counters) (length : Nat) : Counters :=
  { counters with
    headersEmitted := counters.headersEmitted + 1
    headerBytes := counters.headerBytes + length }

/-- A header region was rewritten and changed its length from `old` to `new`. -/
def addFinalize (counters : Counters) (old new : Nat) : Counters :=
  { counters with
    headersFinalized := counters.headersFinalized + 1
    headerBytes := counters.headerBytes + new - old }

def addData (counters : Counters) (records itemSize : Nat) : Counters :=
  { counters with
    recordsWritten := counters.recordsWritten + records
    dataBytes := counters.dataBytes + records * itemSize }

def addDropped (counters : Counters) (records : Nat) : Counters :=
  { counters with recordsDropped := counters.recordsDropped + records }

def addSegment (counters : Counters) : Counters :=
  { counters with segmentsClosed := counters.segmentsClosed + 1 }

def addTag (counters : Counters) (accepted : Bool) : Counters :=
  if accepted then { counters with tagsApplied := counters.tagsApplied + 1 }
  else { counters with tagsRejected := counters.tagsRejected + 1 }

def addRotation (counters : Counters) : Counters :=
  { counters with rotations := counters.rotations + 1 }

def toList (counters : Counters) : List Nat :=
  [counters.batches, counters.headersEmitted, counters.headersFinalized,
    counters.segmentsClosed, counters.recordsWritten, counters.recordsDropped,
    counters.dataBytes, counters.headerBytes, counters.tagsApplied, counters.tagsRejected,
    counters.rotations]

def ofList? : List Nat → Option Counters
  | [batches, headersEmitted, headersFinalized, segmentsClosed, recordsWritten, recordsDropped,
      dataBytes, headerBytes, tagsApplied, tagsRejected, rotations] =>
      some { batches, headersEmitted, headersFinalized, segmentsClosed, recordsWritten,
             recordsDropped, dataBytes, headerBytes, tagsApplied, tagsRejected, rotations }
  | _ => none

@[simp] theorem ofList?_toList (counters : Counters) :
    ofList? counters.toList = some counters := rfl

def add (first second : Counters) : Counters :=
  { batches := first.batches + second.batches
    headersEmitted := first.headersEmitted + second.headersEmitted
    headersFinalized := first.headersFinalized + second.headersFinalized
    segmentsClosed := first.segmentsClosed + second.segmentsClosed
    recordsWritten := first.recordsWritten + second.recordsWritten
    recordsDropped := first.recordsDropped + second.recordsDropped
    dataBytes := first.dataBytes + second.dataBytes
    headerBytes := first.headerBytes + second.headerBytes
    tagsApplied := first.tagsApplied + second.tagsApplied
    tagsRejected := first.tagsRejected + second.tagsRejected
    rotations := first.rotations + second.rotations }

instance : Add Counters := ⟨add⟩

/-- Header bytes for each byte of data; zero while there is no data. -/
def overheadRatio (counters : Counters) : Binary64 :=
  if counters.dataBytes = 0 then .zero
  else Binary64.ofCount counters.headerBytes / Binary64.ofCount counters.dataBytes

end Counters

end SegmentStream
