import SegmentStream.Decimal.Shortest

/-!
# JSON values

A value keeps what the text says and interprets nothing: a number is its digits,
and a string whose escapes name half a surrogate pair is present but has no
text.  Members of an object stay in the order of the text, repeated keys
included.
-/

namespace SegmentStream

/-- A number as written; digits are ASCII digits. -/
structure Numeral where
  negative : Bool
  whole : List Char
  fraction : Option (List Char)
  /-- Whether the exponent is negative, and its digits. -/
  exponent : Option (Bool × List Char)
  deriving DecidableEq, Repr

inductive Json where
  | null
  | bool (value : Bool)
  | number (numeral : Numeral)
  | string (value : Option String)
  | array (items : List Json)
  | object (members : List (Option String × Json))

instance : Inhabited Json := ⟨.null⟩

namespace Numeral

def ofNat (n : Nat) : Numeral := ⟨false, Decimal.digitChars n, none, none⟩

def ofInt (n : Int) : Numeral := ⟨n < 0, Decimal.digitChars n.natAbs, none, none⟩

/--
How doubles are laid out: plainly from `10 ^ (-5)` to below `10 ^ 16`, with an
exponent elsewhere.
-/
def plainPowers : Int × Int := (-5, 15)

def splitPoint (text : List Char) : List Char × Option (List Char) :=
  let whole := text.takeWhile (· != '.')
  match text.drop whole.length with
  | [] => (whole, none)
  | _ :: fraction => (whole, some fraction)

def ofBinary64 (x : Binary64) : Numeral :=
  if x.isZero then ⟨x.isNegative, ['0'], some ['0'], none⟩
  else
    let decimal := x.shortest .toEven
    let power := decimal.pointPlace - 1
    if plainPowers.1 ≤ power && power ≤ plainPowers.2 then
      let (whole, fraction) := splitPoint (decimal.positional ['.', '0'])
      ⟨x.isNegative, whole, fraction, none⟩
    else
      match Decimal.digitChars decimal.digits with
      | [] => ⟨x.isNegative, ['0'], none, none⟩
      | first :: rest =>
          let fraction := if rest.isEmpty then none else some rest
          ⟨x.isNegative, [first], fraction, some (power < 0, Decimal.digitChars power.natAbs)⟩

end Numeral

namespace Json

def ofNat (n : Nat) : Json := .number (.ofNat n)

def ofInt (n : Int) : Json := .number (.ofInt n)

def ofString (text : String) : Json := .string (some text)

/-- Numbers that are not finite have no numeral and become null. -/
def ofBinary64 (x : Binary64) : Json :=
  if x.isFinite then .number (.ofBinary64 x) else .null

def ofMembers (members : List (String × Json)) : Json :=
  .object (members.map fun (key, value) => (some key, value))

end Json

end SegmentStream
