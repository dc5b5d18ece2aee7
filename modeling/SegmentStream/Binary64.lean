import SegmentStream.Bytes

/-!
# Double-precision numbers

A number is kept as its 64 bits, so that every bit pattern, a payload of a
not-a-number included, is carried unchanged through encoded headers.  Order and
class questions are answered on the bits; arithmetic is that of the format.
-/

namespace SegmentStream

structure Binary64 where
  bits : UInt64
  deriving DecidableEq, Repr

namespace Binary64

instance : Inhabited Binary64 := ⟨⟨0⟩⟩

def zero : Binary64 := ⟨0⟩
def one : Binary64 := ⟨0x3ff0000000000000⟩
def infinity : Binary64 := ⟨0x7ff0000000000000⟩

/-- The not-a-number an invalid operation yields. -/
def invalid : Binary64 := ⟨0xfff8000000000000⟩

/-! ## Classes -/

def signBit : UInt64 := 0x8000000000000000

def magnitude (x : Binary64) : UInt64 := x.bits &&& 0x7fffffffffffffff

def isNegative (x : Binary64) : Bool := signBit ≤ x.bits

def isNaN (x : Binary64) : Bool := infinity.bits < x.magnitude

def isFinite (x : Binary64) : Bool := x.magnitude < infinity.bits

def isZero (x : Binary64) : Bool := x.magnitude == 0

def isPositiveFinite (x : Binary64) : Bool := 0 < x.bits && x.bits < infinity.bits

/-- Finite and not below zero; both zeros qualify. -/
def isNonnegativeFinite (x : Binary64) : Bool := x.bits < infinity.bits || x.bits == signBit

/-- In `[0, 1)`; both zeros qualify. -/
def isFraction (x : Binary64) : Bool := x.bits < one.bits || x.bits == signBit

/-- Numerical equality: the two zeros are equal, a not-a-number equals nothing. -/
def sameNumber (x y : Binary64) : Bool :=
  !x.isNaN && !y.isNaN && (x.bits == y.bits || (x.isZero && y.isZero))

/-! ## Finite values as `significand * 2 ^ exponent` -/

def exponentField (x : Binary64) : Nat := x.magnitude.toNat / 2 ^ 52

def significand (x : Binary64) : Nat :=
  x.magnitude.toNat % 2 ^ 52 + if x.exponentField = 0 then 0 else 2 ^ 52

def exponent (x : Binary64) : Int := (max 1 x.exponentField : Nat) - 1075

/--
The number `significand * 2 ^ exponent`, for a significand below `2 ^ 53` and an
exponent from `-1074` up to the range of the format, where it is exact.
-/
def ofScaled (significand : Nat) (exponent : Int) : Binary64 :=
  if significand = 0 then zero
  else
    let shift := 52 - significand.log2
    let field := exponent - shift + 1075
    if 1 ≤ field then
      ⟨UInt64.ofNat (field.toNat * 2 ^ 52 + (significand * 2 ^ shift - 2 ^ 52))⟩
    else ⟨UInt64.ofNat (significand * 2 ^ (exponent + 1074).toNat)⟩

/-! ## Arithmetic -/

def ofFloat (x : Float) : Binary64 := ⟨x.toBits⟩

def toFloat (x : Binary64) : Float := Float.ofBits x.bits

def add (x y : Binary64) : Binary64 := ofFloat (x.toFloat + y.toFloat)
def mul (x y : Binary64) : Binary64 := ofFloat (x.toFloat * y.toFloat)
def div (x y : Binary64) : Binary64 := ofFloat (x.toFloat / y.toFloat)

instance : Add Binary64 := ⟨add⟩
instance : Mul Binary64 := ⟨mul⟩
instance : Div Binary64 := ⟨div⟩

def neg (x : Binary64) : Binary64 := ⟨x.bits ^^^ signBit⟩

/-- The number nearest to a word, ties to even. -/
def ofUInt64 (n : UInt64) : Binary64 := ofFloat n.toFloat

/-- The number nearest to a count below `2 ^ 64`. -/
def ofCount (n : Nat) : Binary64 := ofUInt64 (UInt64.ofNat n)

def ofInt64 (n : Int64) : Binary64 :=
  if n < 0 then neg (ofUInt64 (0 - n.toUInt64)) else ofUInt64 n.toUInt64

def tenTo (power : Nat) : Binary64 := ofFloat (Float.ofScientific 1 false power)

end Binary64

end SegmentStream
