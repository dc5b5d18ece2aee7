import SegmentStream.Timestamp

/-!
# The clock of a stream

The time of a record is computed from an anchor and the exact number of records
since it, never from earlier results, so it does not depend on where segments
were closed.  Setting the time or the rate moves the anchor.

Whole seconds are words, and their sum is taken modulo `2 ^ 64`: a time that comes
too late for its word begins again at zero.  Records are counted without a limit.
-/

namespace SegmentStream

structure Clock where
  anchor : Timestamp
  sampleRate : Binary64
  /-- Records of this stream for each record of the source. -/
  relativeRate : Binary64
  /-- Records since the anchor. -/
  records : Nat
  now : Timestamp
  deriving DecidableEq, Repr

namespace Clock

def start (time : Timestamp) (sampleRate relativeRate : Binary64) : Clock :=
  { anchor := time, sampleRate, relativeRate, records := 0, now := time }

def effectiveRate (clock : Clock) : Binary64 := clock.sampleRate * clock.relativeRate

def timeAfter (anchor : Timestamp) (rate : Binary64) (records : Nat) : Timestamp :=
  let (carry, fraction) := splitSeconds (anchor.fraction + Binary64.ofCount records / rate)
  ⟨anchor.seconds + carry, fraction⟩

def advance (clock : Clock) (records : Nat) : Clock :=
  if records = 0 then clock
  else
    let total := clock.records + records
    { clock with records := total, now := timeAfter clock.anchor clock.effectiveRate total }

def setTime (clock : Clock) (time : Timestamp) : Clock :=
  { clock with anchor := time, now := time, records := 0 }

def setSampleRate (clock : Clock) (rate : Binary64) : Clock :=
  { clock with anchor := clock.now, records := 0, sampleRate := rate }

end Clock

end SegmentStream
