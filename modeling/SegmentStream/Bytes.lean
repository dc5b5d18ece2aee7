/-!
# Byte strings

A byte string is a list of bytes.  `overwrite` is how every storage of this
library changes: bytes are laid down at an offset, and a gap before the offset
is filled with zeros.  A byte string may have any length; no memory is asked for,
so laying bytes down cannot fail.

Powers and sums of numbers are those of the core library, here and in all modules
above this one, also where an algebraic hierarchy brings instances of its own.
-/

attribute [instance (high), default_instance 20000] instPowNat
attribute [instance (high)] instNatPowNat Int.instNatPow Zero.ofOfNat0

namespace SegmentStream

abbrev Bytes := List UInt8

namespace Bytes

/-! ## Laying bytes down -/

/-- The first `length` bytes, with zeros after the end of shorter contents. -/
def resize (contents : Bytes) (length : Nat) : Bytes :=
  contents.take length ++ List.replicate (length - contents.length) 0

/-- The contents after `data` is laid down at `offset`. -/
def overwrite (contents : Bytes) (offset : Nat) (data : Bytes) : Bytes :=
  contents.resize offset ++ data ++ contents.drop (offset + data.length)

@[simp] theorem length_resize (contents : Bytes) (length : Nat) :
    (contents.resize length).length = length := by
  simp [resize]
  omega

theorem length_overwrite (contents : Bytes) (offset : Nat) (data : Bytes) :
    (contents.overwrite offset data).length =
      max contents.length (offset + data.length) := by
  simp [overwrite]
  omega

@[simp] theorem overwrite_length (contents data : Bytes) :
    contents.overwrite contents.length data = contents ++ data := by
  simp [overwrite, resize]

/-! ## Hexadecimal and quoted text -/

def hexDigit (n : UInt8) : Char :=
  Char.ofNat (if n < 10 then 48 + n.toNat else 87 + n.toNat)

def hex (bytes : Bytes) : String :=
  String.ofList (bytes.flatMap fun byte => [hexDigit (byte / 16), hexDigit (byte % 16)])

def ofHexDigit? (c : Char) : Option UInt8 :=
  if '0' ≤ c ∧ c ≤ '9' then some (c.toNat - 48).toUInt8
  else if 'a' ≤ c ∧ c ≤ 'f' then some (c.toNat - 87).toUInt8
  else none

def ofHex? : List Char → Option Bytes
  | [] => some []
  | high :: low :: rest => do
      let high ← ofHexDigit? high
      let low ← ofHexDigit? low
      return (16 * high + low) :: (← ofHex? rest)
  | _ => none

def isPrintableAscii (byte : UInt8) : Bool := 32 ≤ byte && byte ≤ 126

/-- Bytes that are all printable ASCII are shown as text, others in hexadecimal. -/
def display (bytes : Bytes) : String :=
  if bytes.all isPrintableAscii then
    "b\"" ++ String.ofList (bytes.map fun byte => Char.ofNat byte.toNat) ++ "\""
  else "0x" ++ bytes.hex

end Bytes

end SegmentStream
