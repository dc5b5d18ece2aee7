import SegmentStream.Binary64
import SegmentStream.Decimal.Basic

/-!
# Numerals that read back

The reals that round to a double form an interval around it, whose ends belong
to it when the significand is even.  `shortest` finds a decimal of that interval
with the fewest digits and, among those, the nearest to the double.  All
comparisons are made on integers.
-/

namespace SegmentStream

/-- An interval of reals around a value; all three are fractions over `unit`. -/
structure RoundingInterval where
  low : Nat
  value : Nat
  high : Nat
  unit : Nat
  closed : Bool

namespace RoundingInterval

/--
The reals that round to a finite nonzero number: half a step to either side.
Below a power of two the numbers are twice as dense, so the lower side is half
as wide there.
-/
def ofNumber (x : Binary64) : RoundingInterval :=
  let significand := x.significand
  let scale := 2 ^ (x.exponent - 2).toNat
  let below := if significand = 2 ^ 52 ∧ 1 < x.exponentField then 1 else 2
  { low := (4 * significand - below) * scale
    value := 4 * significand * scale
    high := (4 * significand + 2) * scale
    unit := 2 ^ (2 - x.exponent).toNat
    closed := significand % 2 == 0 }

def rescale (interval : RoundingInterval) (power : Int) : RoundingInterval :=
  let up := 10 ^ (-power).toNat
  { interval with
    low := interval.low * up
    value := interval.value * up
    high := interval.high * up
    unit := interval.unit * 10 ^ power.toNat }

def contains (interval : RoundingInterval) (n : Nat) : Bool :=
  if interval.closed then
    interval.low ≤ n * interval.unit && n * interval.unit ≤ interval.high
  else interval.low < n * interval.unit && n * interval.unit < interval.high

/--
The integer of the interval that is nearest to its value, if a neighbour of the
value lies in it.
-/
def nearest? (interval : RoundingInterval) (tie : Tie) : Option Nat :=
  let below := interval.value / interval.unit
  match interval.contains below, interval.contains (below + 1) with
  | true, true => some (roundDiv interval.value interval.unit tie)
  | true, false => some below
  | false, true => some (below + 1)
  | false, false => none

/-- The power of ten of the value's leading digit. -/
def leadingPower (interval : RoundingInterval) : Int :=
  if interval.unit ≤ interval.value then
    ((Decimal.digitChars (interval.value / interval.unit)).length : Int) - 1
  else
    let inverse := (interval.unit + interval.value - 1) / interval.value
    .negOfNat (Decimal.digitChars (inverse - 1)).length

end RoundingInterval

namespace Binary64

/-- The decimal with the fewest digits, up to seventeen, that rounds to a finite nonzero number. -/
def shortest (tie : Tie) (x : Binary64) : Decimal :=
  let interval := RoundingInterval.ofNumber x
  let lead := interval.leadingPower
  let candidate (count : Nat) : Option Decimal :=
    let power := lead - count
    ((interval.rescale power).nearest? tie).map fun digits => Decimal.trim ⟨digits, power⟩
  ((List.range 17).findSome? candidate).getD ⟨0, 0⟩

def withSign (x : Binary64) (text : List Char) : String :=
  String.ofList (if x.isNegative then '-' :: text else text)

/-- The plain text of a number: shortest digits, never an exponent, no point after an integer. -/
def display (x : Binary64) : String :=
  if x.isNaN then "NaN"
  else if !x.isFinite then x.withSign "inf".toList
  else if x.isZero then x.withSign ['0']
  else x.withSign ((x.shortest .up).positional [])

/-- The value of a finite number in units of `10 ^ (-places)`, ties to even. -/
def roundedUnits (x : Binary64) (places : Nat) : Nat :=
  roundDiv (x.significand * 2 ^ x.exponent.toNat * 10 ^ places) (2 ^ (-x.exponent).toNat) .toEven

/-- The text of a number with exactly `places` digits after the point. -/
def displayFixed (x : Binary64) (places : Nat) : String :=
  if x.isNaN then "NaN"
  else if !x.isFinite then x.withSign "inf".toList
  else x.withSign (Decimal.fixed places (x.roundedUnits places))

end Binary64

end SegmentStream
