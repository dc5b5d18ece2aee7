import SegmentStream.Bytes
import SegmentStream.Decimal.Shortest
import SegmentStream.Text.Display
import SegmentStream.Timestamp

/-!
# Attribute values

A value that a tag, an update or an extra attribute carries, with the readings
that header fields take of it.  Whole seconds are words; where a fraction carries
into them, their sum is taken modulo `2 ^ 64`, as that of a clock is.
-/

namespace SegmentStream

inductive Attribute where
  | bool (value : Bool)
  | int (value : Int64)
  | uint (value : UInt64)
  | double (value : Binary64)
  | text (value : String)
  | bytes (value : Bytes)
  /-- Whole seconds and a fraction of a second. -/
  | time (seconds : UInt64) (fraction : Binary64)
  deriving DecidableEq, Repr

namespace Attribute

def kind : Attribute → String
  | bool _ => "bool"
  | int _ => "int"
  | uint _ => "uint"
  | double _ => "double"
  | text _ => "str"
  | bytes _ => "bytes"
  | time .. => "time"

/-! ## Readings -/

def toNumber? : Attribute → Option Binary64
  | double value => some value
  | int value => some (.ofInt64 value)
  | uint value => some (.ofUInt64 value)
  | _ => none

/-- Integers below zero have no reading as a word. -/
def toWord? : Attribute → Option UInt64
  | uint value => some value
  | int value => if 0 ≤ value then some value.toUInt64 else none
  | _ => none

def toBool? : Attribute → Option Bool
  | bool value => some value
  | int value => some (value != 0)
  | uint value => some (value != 0)
  | _ => none

/--
A time is a pair, whole seconds, or seconds as a double.  A fraction of one or
more carries into the seconds.
-/
def toTime? : Attribute → Option Timestamp
  | time seconds fraction =>
      if fraction.isFraction then some ⟨seconds, fraction⟩
      else if fraction.isNonnegativeFinite then
        let (carry, rest) := splitSeconds fraction
        some ⟨seconds + carry, rest⟩
      else none
  | double value =>
      if value.isNonnegativeFinite then
        let (seconds, fraction) := splitSeconds value
        some ⟨seconds, fraction⟩
      else none
  | uint value => some ⟨value, .zero⟩
  | _ => none

/-! ## Text and equality -/

def display : Attribute → String
  | bool value => if value then "true" else "false"
  | int value => toString value.toInt
  | uint value => toString value.toNat
  | double value => value.display
  | text value => Text.quoted value
  | bytes value => "0x" ++ value.hex
  | time seconds fraction => s!"({seconds.toNat}, {fraction.display})"

def sameValue : Attribute → Attribute → Bool
  | double first, double second => first.sameNumber second
  | time seconds first, time seconds' second => seconds == seconds' && first.sameNumber second
  | first, second => first == second

end Attribute

end SegmentStream
