import SegmentStream.Binary64

/-!
# Timestamps

A point on the time line of a stream is a count of whole seconds and a fraction
of a second.  `splitSeconds` brings a number of seconds into that form; it works
on the significand as an integer, so neither part is rounded.
-/

namespace SegmentStream

structure Timestamp where
  seconds : UInt64
  fraction : Binary64
  deriving DecidableEq, Repr

instance : Inhabited Timestamp := ⟨⟨0, .zero⟩⟩

/--
Whole seconds and the fraction left over.  Numbers below zero and a
not-a-number count as zero.  Seconds beyond the range of a word stop at its
largest value; infinitely many seconds leave no fraction.
-/
def splitSeconds (total : Binary64) : UInt64 × Binary64 :=
  if total.isNaN || total.isNegative then (0, .zero)
  else if !total.isFinite then (UInt64.ofNat (2 ^ 64 - 1), .invalid)
  else if 0 ≤ total.exponent then
    let whole := total.significand * 2 ^ total.exponent.toNat
    (UInt64.ofNat (min whole (2 ^ 64 - 1)), .zero)
  else
    let unit := 2 ^ (-total.exponent).toNat
    (UInt64.ofNat (total.significand / unit),
      .ofScaled (total.significand % unit) total.exponent)

namespace Timestamp

/-- The time as one number of seconds, as near as the format allows. -/
def toSeconds (time : Timestamp) : Binary64 :=
  Binary64.ofUInt64 time.seconds + time.fraction

end Timestamp

end SegmentStream
