import SegmentStream.Json.Basic

/-!
# Reading typed values off JSON

A numeral without fraction and exponent that fits a word is an integer; every
other numeral is a double.  The digits of a numeral are gathered into a word
while they fit; digits that no longer fit count only by their place.  The word
is then scaled by powers of ten in double precision.
-/

namespace SegmentStream

namespace Numeral

def digitValue (c : Char) : Nat := c.toNat - 48

def largestWord : Nat := 2 ^ 64 - 1

/-- Appends digits to a word while they fit; returns the digits left over. -/
def gather (word : Nat) : List Char → Nat × List Char
  | [] => (word, [])
  | c :: rest =>
      let next := 10 * word + digitValue c
      if next ≤ largestWord then gather next rest else (word, c :: rest)

/-- The word of a numeral's digits and the power of ten it is scaled by. -/
def gathered (numeral : Numeral) : Nat × Int :=
  let (word, overflow) := gather 0 numeral.whole
  match numeral.fraction with
  | none => (word, overflow.length)
  | some digits =>
      let (word, rest) := gather word digits
      (word, (overflow.length : Int) - ((digits.length - rest.length : Nat) : Int))

def largestExponent : Nat := 2 ^ 31 - 1

/-- Multiplies or divides by a power of ten; none if the result is too large. -/
def scale (x : Binary64) (power : Int) : Option Binary64 :=
  if 0 ≤ power then
    if power ≤ 308 then
      let y := x * Binary64.tenTo power.toNat
      if y.isFinite then some y else none
    else if x.isZero then some x
    else none
  else if -308 ≤ power then some (x / Binary64.tenTo (-power).toNat)
  else if x.isZero then some x
  else scale (x / Binary64.tenTo 308) (power + 308)
termination_by (-power).toNat
decreasing_by omega

def applySign (numeral : Numeral) (x : Binary64) : Binary64 :=
  if numeral.negative then x.neg else x

/-- The double a numeral stands for; none beyond the range of doubles. -/
def toDouble (numeral : Numeral) : Option Binary64 :=
  let (word, power) := numeral.gathered
  let scaled := match numeral.exponent with
    | none => scale (.ofCount word) power
    | some (negative, digits) =>
        let exponent := digits.foldl (fun n c => 10 * n + digitValue c) 0
        if largestExponent < exponent then
          if word ≠ 0 ∧ !negative then none else some .zero
        else
          let total := if negative then power - exponent else power + exponent
          scale (.ofCount word) (max (-(2 ^ 31)) (min largestExponent total))
  scaled.map numeral.applySign

/-- The integer a numeral stands for, if it is one of word size; minus zero is none. -/
def toInt? (numeral : Numeral) : Option Int :=
  match numeral.fraction, numeral.exponent, gather 0 numeral.whole with
  | none, none, (word, []) =>
      if !numeral.negative then some word
      else if word ≠ 0 ∧ word ≤ 2 ^ 63 then some (-word)
      else none
  | _, _, _ => none

def toBinary64? (numeral : Numeral) : Option Binary64 :=
  match numeral.toInt? with
  | some n => some (numeral.applySign (.ofCount n.natAbs))
  | none => numeral.toDouble

end Numeral

namespace Json

/-! ## Scalars -/

def toNat? (limit : Nat) : Json → Option Nat
  | .number numeral =>
      match numeral.toInt? with
      | some (.ofNat n) => if n ≤ limit then some n else none
      | _ => none
  | _ => none

def toUInt64? (value : Json) : Option UInt64 := (value.toNat? (2 ^ 64 - 1)).map UInt64.ofNat

def toInt64? : Json → Option Int64
  | .number numeral =>
      match numeral.toInt? with
      | some n => if n < 2 ^ 63 then some (Int64.ofInt n) else none
      | none => none
  | _ => none

def toBinary64? : Json → Option Binary64
  | .number numeral => numeral.toBinary64?
  | _ => none

def toBool? : Json → Option Bool
  | .bool value => some value
  | _ => none

def toString? : Json → Option String
  | .string value => value
  | _ => none

def toBytes? : Json → Option (List UInt8)
  | .array items => items.mapM fun item => (item.toNat? 255).map UInt8.ofNat
  | _ => none

/-! ## Records and variants -/

/-- All members with their keys, if every key has a text. -/
def members? : Json → Option (List (String × Json))
  | .object members => members.mapM fun (key, value) => key.map fun key => (key, value)
  | _ => none

/-- The member of a key that occurs at most once. -/
def uniqueMember? (members : List (String × Json)) (key : String) : Option (Option Json) :=
  match members.filter fun member => member.1 == key with
  | [] => some none
  | [member] => some (some member.2)
  | _ => none

/--
The fields of a record in the order of `keys`, none for one that is missing.  A
record is an object, whose other members are ignored, or an array of the first
fields in order.
-/
def fields? (keys : List String) (value : Json) : Option (List (Option Json)) :=
  match value with
  | .array items =>
      if items.length ≤ keys.length then
        some (items.map some ++ List.replicate (keys.length - items.length) none)
      else none
  | value => do
      let members ← value.members?
      keys.mapM (uniqueMember? members)

/-- The name of a variant without payload: a string, or the key of a null. -/
def variantName? : Json → Option String
  | .string value => value
  | .object [(key, .null)] => key
  | _ => none

end Json

end SegmentStream
