import SegmentStream.Bytes

/-!
# Decimal numerals

A decimal is a natural number of units of a power of ten.  This module holds
the exact division that rounding rests on and the ways a decimal is laid out as
text.
-/

namespace SegmentStream

/-- What becomes of a value half way between two neighbours. -/
inductive Tie where
  | toEven
  | up
  deriving DecidableEq, Repr

/-- The integer nearest to `numerator / denominator`. -/
def roundDiv (numerator denominator : Nat) (tie : Tie) : Nat :=
  let quotient := numerator / denominator
  let twice := 2 * (numerator % denominator)
  let roundsUp :=
    match compare twice denominator with
    | .lt => false
    | .gt => true
    | .eq => match tie with
      | .toEven => quotient % 2 == 1
      | .up => true
  if roundsUp then quotient + 1 else quotient

structure Decimal where
  digits : Nat
  exponent : Int
  deriving DecidableEq, Repr

namespace Decimal

/-- Zeros at the end of the digits become part of the exponent. -/
def trim (value : Decimal) : Decimal := go value.digits value
where
  go : Nat → Decimal → Decimal
  | 0, value => value
  | fuel + 1, value =>
      if value.digits % 10 = 0 then go fuel ⟨value.digits / 10, value.exponent + 1⟩ else value

/-! ## Text -/

def digitChars (n : Nat) : List Char := Nat.toDigits 10 n

def zeros (count : Nat) : List Char := List.replicate count '0'

/-- The place of the point: how many digits stand before it. -/
def pointPlace (value : Decimal) : Int := (digitChars value.digits).length + value.exponent

/--
All digits written out around the point.  An integer is followed by `tail`,
which is `.0` where a number must show that it may have a fraction.
-/
def positional (tail : List Char) (value : Decimal) : List Char :=
  let digits := digitChars value.digits
  let place := value.pointPlace
  if place ≤ 0 then '0' :: '.' :: (zeros (-place).toNat ++ digits)
  else if digits.length ≤ place.toNat then digits ++ zeros (place.toNat - digits.length) ++ tail
  else digits.take place.toNat ++ '.' :: digits.drop place.toNat

/-- The number `units / 10 ^ places`, with exactly `places` digits after the point. -/
def fixed (places units : Nat) : List Char :=
  let fraction := digitChars (units % 10 ^ places)
  digitChars (units / 10 ^ places) ++ '.' :: (zeros (places - fraction.length) ++ fraction)

end Decimal

end SegmentStream
