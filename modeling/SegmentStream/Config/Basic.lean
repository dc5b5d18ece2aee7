import SegmentStream.Bytes
import SegmentStream.Decimal.Shortest
import SegmentStream.SampleType
import SegmentStream.Timestamp

/-!
# Recorder configuration
-/

namespace SegmentStream

structure Config where
  itemSize : UInt64 := 1
  /-- Records of the source in a second. -/
  sampleRate : Binary64 := .one
  /-- Records of this stream for each record of the source. -/
  relativeRate : Binary64 := .one
  sampleType : SampleType := .byte
  isComplex : Bool := false
  /-- The most records a segment may hold. -/
  maxSegmentSize : UInt64 := 1000000
  /-- Extra attributes of the first header, in their written form. -/
  extras : Bytes := []
  /-- Headers go to a channel of their own. -/
  splitHeader : Bool := false
  unbuffered : Bool := false
  startTime : Timestamp := default
  deriving DecidableEq, Repr

instance : Inhabited Config := ⟨{}⟩

inductive ConfigFault where
  | zeroItemSize
  | itemSizeTooLarge (size : Nat)
  | zeroSegmentSize
  | badSampleRate (rate : Binary64)
  | badRelativeRate (rate : Binary64)
  | badStartTime (fraction : Binary64)
  | unreadable
  deriving DecidableEq, Repr

namespace ConfigFault

def message : ConfigFault → String
  | zeroItemSize => "item_size must be non-zero"
  | itemSizeTooLarge size => s!"item_size {size} does not fit the header field"
  | zeroSegmentSize => "max_segment_size must be non-zero"
  | badSampleRate rate => s!"sample_rate must be finite and positive, got {rate.display}"
  | badRelativeRate rate => s!"relative_rate must be finite and positive, got {rate.display}"
  | badStartTime fraction => s!"start_time fraction {fraction.display} not in [0, 1)"
  | unreadable => "config parse error"

end ConfigFault

namespace Config

/-- The largest record size a header can state. -/
def itemSizeLimit : Nat := 2 ^ 32 - 1

/-- The limits of a usable configuration; the first one broken is reported. -/
def validate (config : Config) : Except ConfigFault Unit :=
  if config.itemSize = 0 then .error .zeroItemSize
  else if itemSizeLimit < config.itemSize.toNat then
    .error (.itemSizeTooLarge config.itemSize.toNat)
  else if config.maxSegmentSize = 0 then .error .zeroSegmentSize
  else if !config.sampleRate.isPositiveFinite then .error (.badSampleRate config.sampleRate)
  else if !config.relativeRate.isPositiveFinite then
    .error (.badRelativeRate config.relativeRate)
  else if !config.startTime.fraction.isFraction then
    .error (.badStartTime config.startTime.fraction)
  else .ok ()

def effectiveRate (config : Config) : Binary64 := config.sampleRate * config.relativeRate

/-- The configuration started at a reading of the wall clock, in whole seconds and nanoseconds. -/
def startingAt (config : Config) (seconds : Int) (nanoseconds : Nat) : Config :=
  let (_, fraction) := splitSeconds (Binary64.ofCount nanoseconds / Binary64.tenTo 9)
  { config with startTime := ⟨UInt64.ofNat seconds.toNat, fraction⟩ }

end Config

end SegmentStream
