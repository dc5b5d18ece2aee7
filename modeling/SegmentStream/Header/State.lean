import SegmentStream.Clock
import SegmentStream.Error
import SegmentStream.Header.Field

/-!
# Header state

The header, extra attributes and clock that the next header is written from,
and the slot of the header whose segment is still open.  An update is checked
first and applied later, when it can no longer fail.
-/

namespace SegmentStream

/-! ## Updates -/

inductive HeaderUpdate where
  | version (version : UInt16)
  | sampleRate (rate : Binary64)
  | time (time : Timestamp)
  | itemSize (size : UInt32)
  | sampleType (sampleType : SampleType)
  | isComplex (isComplex : Bool)
  | extra (key : String) (value : Attribute)
  deriving DecidableEq, Repr

/-- A reading of an attribute that the key demands. -/
def demand {α : Type} (key : String) (value : Attribute) (expected : String) :
    Option α → Except AttributeFault α
  | some reading => .ok reading
  | none => .error (.typeMismatch key expected value.kind)

/--
Checks an attribute for a key.  A header field takes only values of its type and
range, and the record size none but the one in force; every other key is free.
-/
def HeaderUpdate.prepare (itemSize : UInt32) (key : String) (value : Attribute) :
    Except AttributeFault HeaderUpdate := do
  let refuse {α : Type} : Except AttributeFault α := throw (.outOfRange key value)
  match HeaderField.ofKey? key with
  | none => return .extra key value
  | some .dataOffset | some .dataLength => throw (.reserved key)
  | some .version =>
      let version ← demand key value "integer" value.toWord?
      if 0 < version ∧ version.toNat < 2 ^ 16 then return .version version.toUInt16
      else refuse
  | some .sampleRate =>
      let rate ← demand key value "number" value.toNumber?
      if rate.isPositiveFinite then return .sampleRate rate else refuse
  | some .time => return .time (← demand key value "time" value.toTime?)
  | some .itemSize =>
      let size ← demand key value "integer" value.toWord?
      if size = itemSize.toUInt64 then return .itemSize itemSize else refuse
  | some .sampleType =>
      let code ← demand key value "integer" value.toWord?
      match SampleType.ofCode? code.toNat with
      | some scalar => return .sampleType scalar
      | none => refuse
  | some .isComplex => return .isComplex (← demand key value "bool" value.toBool?)

/-! ## The state -/

structure HeaderState where
  header : Header
  extras : Extras
  clock : Clock
  /-- The slot of the open header, once it is written. -/
  slot : Option Slot := none
  deriving DecidableEq

namespace HeaderState

def regionSize (state : HeaderState) : Nat := headerSize + state.extras.encodedSize

/-- The state before the first header of a stream. -/
def start (config : Config) : Except StreamError HeaderState := do
  let extras ← match Extras.decode config.extras with
    | .ok extras => pure extras
    | .error fault => throw (.format (.extras fault))
  if Config.itemSizeLimit < config.itemSize.toNat then
    throw (.config (.itemSizeTooLarge config.itemSize.toNat))
  let header : Header :=
    { sampleType := config.sampleType
      isComplex := config.isComplex
      flags := if config.splitHeader then detachedFlag else 0
      itemSize := config.itemSize.toUInt32
      sampleRate := config.effectiveRate
      time := config.startTime
      dataOffset := .ofNat (headerSize + extras.encodedSize) }
  match header.validate with
  | .ok () => pure ()
  | .error fault => throw (.format (.header fault))
  let clock := Clock.start config.startTime config.sampleRate config.relativeRate
  return { header, extras, clock }

/-- A header is open from the moment it is written until its segment is closed. -/
def isOpen (state : HeaderState) : Bool := state.slot.isSome

def prepare (state : HeaderState) (key : String) (value : Attribute) :
    Except AttributeFault HeaderUpdate :=
  HeaderUpdate.prepare state.header.itemSize key value

def apply (state : HeaderState) : HeaderUpdate → HeaderState
  | .version version => { state with header := { state.header with version } }
  | .sampleRate rate =>
      let clock := state.clock.setSampleRate rate
      { state with clock, header := { state.header with sampleRate := clock.effectiveRate } }
  | .time time =>
      { state with clock := state.clock.setTime time, header := { state.header with time } }
  | .itemSize itemSize => { state with header := { state.header with itemSize } }
  | .sampleType sampleType => { state with header := { state.header with sampleType } }
  | .isComplex isComplex => { state with header := { state.header with isComplex } }
  | .extra key value => { state with extras := state.extras.insert key value }

def update (state : HeaderState) (key : String) (value : Attribute) :
    Except AttributeFault HeaderState :=
  state.apply <$> state.prepare key value

/-- States the length of the data and where it starts. -/
def measure (state : HeaderState) (dataLength : Nat) : HeaderState :=
  { state with
    header := { state.header with
      dataLength := .ofNat dataLength
      dataOffset := .ofNat state.regionSize } }

def advance (state : HeaderState) (records : Nat) : HeaderState :=
  let clock := state.clock.advance records
  { state with clock, header := { state.header with time := clock.now } }

/-- Forgets the open header; it will not be rewritten again. -/
def releaseSlot (state : HeaderState) : HeaderState := { state with slot := none }

def region (state : HeaderState) : Bytes := encodeRegion state.header state.extras

end HeaderState

end SegmentStream
