import SegmentStream.Bytes
import SegmentStream.Decimal.Shortest
import SegmentStream.SampleType
import SegmentStream.Timestamp

/-!
# Segment headers

A header describes one segment of a stream: the records' type, size and rate,
the time of the first record, where the data starts and how long it is.  Its
written form always has the same length, so a header can be replaced in place.
-/

namespace SegmentStream

/-! ## Constants of the format -/

def headerMagic : Bytes := [0x53, 0x47, 0x4D, 0x48]

def formatVersion : UInt16 := 1

def headerSize : Nat := 64

/-- How many bytes of a written header its checksum covers. -/
def checkedSize : Nat := 56

/-- The header stands in a channel of its own, apart from the data. -/
def detachedFlag : UInt8 := 1

/-- Whole seconds, a plus sign, and nine places of the fraction. -/
def Timestamp.display (time : Timestamp) : String :=
  let seconds := toString time.seconds.toNat
  seconds ++ "+" ++ time.fraction.displayFixed 9 ++ "s"

/-! ## Headers -/

structure Header where
  version : UInt16 := formatVersion
  sampleType : SampleType := .byte
  isComplex : Bool := false
  flags : UInt8 := 0
  itemSize : UInt32 := 1
  sampleRate : Binary64 := .one
  time : Timestamp := default
  /-- Bytes from the start of the header to the first byte of data behind it. -/
  dataOffset : UInt64 := 64
  /-- Bytes of data in the segment; zero until the segment is closed. -/
  dataLength : UInt64 := 0
  deriving DecidableEq, Repr

instance : Inhabited Header := ⟨{}⟩

inductive HeaderFault where
  | tooShort (length need : Nat)
  | badMagic (found : Bytes)
  | badVersion (version : Nat)
  | unknownSampleType (code : Nat)
  | unknownFlags (flags : UInt8)
  | reservedInUse (reserved : Bytes)
  | checksumMismatch (stored computed : Nat)
  | zeroItemSize
  | badSampleRate (rate : Binary64)
  | badFraction (fraction : Binary64)
  | badDataOffset (offset : Nat)
  deriving DecidableEq, Repr

namespace HeaderFault

def message : HeaderFault → String
  | tooShort length need => s!"header buffer too short: {length} < {need}"
  | badMagic found =>
      s!"invalid magic: expected {headerMagic.display}, got {found.display}"
  | badVersion version => s!"invalid version: {version}"
  | unknownSampleType code => s!"unknown sample type: {SampleType.describeCode code}"
  | unknownFlags flags => s!"unknown header flags: {Text.hexPadded 2 flags.toNat}"
  | reservedInUse reserved => s!"reserved bytes must be zero, got {reserved.display}"
  | checksumMismatch stored computed =>
      s!"header crc mismatch: stored {Text.hexPadded 8 stored}, " ++
        s!"computed {Text.hexPadded 8 computed}"
  | zeroItemSize => "invalid item size: zero"
  | badSampleRate rate => s!"invalid sample rate: {rate.display}"
  | badFraction fraction => s!"invalid rx_time fraction: {fraction.display} not in [0, 1)"
  | badDataOffset offset => s!"invalid segment start offset: {offset}"

end HeaderFault

namespace Header

def isDetached (header : Header) : Bool := header.flags &&& detachedFlag == detachedFlag

/-- The limits every readable header keeps; the first one broken is reported. -/
def validate (header : Header) : Except HeaderFault Unit :=
  if header.itemSize = 0 then .error .zeroItemSize
  else if !header.sampleRate.isPositiveFinite then .error (.badSampleRate header.sampleRate)
  else if !header.time.fraction.isFraction then .error (.badFraction header.time.fraction)
  else if header.dataOffset.toNat < headerSize then
    .error (.badDataOffset header.dataOffset.toNat)
  else .ok ()

def recordCount (header : Header) : Nat :=
  header.dataLength.toNat / max header.itemSize.toNat 1

def summary (header : Header) : String :=
  let isComplex := if header.isComplex then "true" else "false"
  s!"SegmentMeta \x7b version: {header.version.toNat}, type: {header.sampleType.name}, " ++
    s!"cplx: {isComplex}, size: {header.itemSize.toNat}, rate: {header.sampleRate.display}, " ++
    s!"rx_time: {header.time.display}, strt: {header.dataOffset.toNat}, " ++
    s!"bytes: {header.dataLength.toNat} \x7d"

end Header

end SegmentStream
