import SegmentStream.Attribute.Basic
import SegmentStream.LittleEndian
import SegmentStream.Text.Utf8

/-!
# Written attributes

An attribute is written as a four-byte kind code and a payload; text and byte
payloads start with their length.  All integers are little-endian.  Readers
return the bytes that follow.
-/

namespace SegmentStream

inductive DecodeFault where
  /-- The item being read lacks so many bytes. -/
  | unexpectedEnd (missing : Nat)
  | unknownKind (code : Nat)
  | badBool (byte : UInt8)
  | badText (fault : Utf8Fault)
  /-- No integer starts like this; so many bytes are left from here on. -/
  | badIntegerMark (byte : UInt8) (left : Nat)
  deriving DecidableEq, Repr

namespace DecodeFault

def message : DecodeFault → String
  | unexpectedEnd missing => s!"UnexpectedEnd \x7b additional: {missing} \x7d"
  | unknownKind code =>
      "UnexpectedVariant \x7b type_name: \"AttrValue\", allowed: Range \x7b min: 0, max: 6 \x7d, " ++
        s!"found: {code} \x7d"
  | badBool byte => s!"InvalidBooleanValue({byte.toNat})"
  | badText fault =>
      let length := match fault.length with
        | some length => s!"Some({length})"
        | none => "None"
      s!"Utf8 \x7b inner: Utf8Error \x7b valid_up_to: {fault.validUpTo}, error_len: {length} " ++
        "\x7d \x7d"
  | badIntegerMark byte left =>
      -- the width is named as for a word only where a whole word could no longer follow
      let expected := if left < 9 then "U64" else "U32"
      let found := if byte = 254 then "U128" else "Reserved"
      s!"InvalidIntegerType \x7b expected: {expected}, found: {found} \x7d"

end DecodeFault

/-! ## Readers of parts -/

/-- The next `length` bytes and what follows them. -/
def readBlock (length : Nat) (bytes : Bytes) : Except DecodeFault (Bytes × Bytes) :=
  if length ≤ bytes.length then .ok (bytes.take length, bytes.drop length)
  else .error (.unexpectedEnd (length - bytes.length))

def readWord (width : Nat) (bytes : Bytes) : Except DecodeFault (Nat × Bytes) := do
  let (block, rest) ← readBlock width bytes
  return (decodeLE block, rest)

def encodeBlock (bytes : Bytes) : Bytes := encodeLE 8 bytes.length ++ bytes

def decodeBlock (bytes : Bytes) : Except DecodeFault (Bytes × Bytes) := do
  let (length, rest) ← readWord 8 bytes
  readBlock length rest

def encodeText (text : String) : Bytes := encodeBlock (textBytes text)

def decodeText (bytes : Bytes) : Except DecodeFault (String × Bytes) := do
  let (block, rest) ← decodeBlock bytes
  match textOfBytes block with
  | .ok text => return (text, rest)
  | .error fault => throw (.badText fault)

@[simp] theorem readBlock_append (block rest : Bytes) :
    readBlock block.length (block ++ rest) = .ok (block, rest) := by
  simp [readBlock]

@[simp] theorem readWord_encodeLE (width value : Nat) (rest : Bytes) :
    readWord width (encodeLE width value ++ rest) = .ok (value % 256 ^ width, rest) := by
  have h := readBlock_append (encodeLE width value) rest
  rw [encodeLE_length] at h
  simp [readWord, h, decodeLE_encodeLE, bind, Except.bind, pure, Except.pure]

theorem readWord_byte (byte : UInt8) (rest : Bytes) :
    readWord 1 (byte :: rest) = .ok (byte.toNat, rest) := by
  simp [readWord, readBlock, decodeLE, bind, Except.bind, pure, Except.pure]

/-! ## Attributes -/

namespace Attribute

def code : Attribute → Nat
  | bool _ => 0
  | int _ => 1
  | uint _ => 2
  | double _ => 3
  | text _ => 4
  | bytes _ => 5
  | time .. => 6

def encodePayload : Attribute → Bytes
  | bool value => [if value then 1 else 0]
  | int value => encodeLE 8 value.toUInt64.toNat
  | uint value => encodeLE 8 value.toNat
  | double value => encodeLE 8 value.bits.toNat
  | text value => encodeText value
  | bytes value => encodeBlock value
  | time seconds fraction => encodeLE 8 seconds.toNat ++ encodeLE 8 fraction.bits.toNat

def encode (value : Attribute) : Bytes := encodeLE 4 value.code ++ value.encodePayload

def payloadSize : Attribute → Nat
  | bool _ => 1
  | int _ | uint _ | double _ => 8
  | text value => 8 + (textBytes value).length
  | bytes value => 8 + value.length
  | time .. => 16

@[simp] theorem encodePayload_length (value : Attribute) :
    value.encodePayload.length = value.payloadSize := by
  cases value <;> simp [encodePayload, payloadSize, encodeText, encodeBlock]

def decodePayload (code : Nat) (bytes : Bytes) : Except DecodeFault (Attribute × Bytes) :=
  match code with
  | 0 => do
      let (byte, rest) ← readWord 1 bytes
      match byte with
      | 0 => return (bool false, rest)
      | 1 => return (bool true, rest)
      | _ => throw (.badBool (UInt8.ofNat byte))
  | 1 => do
      let (word, rest) ← readWord 8 bytes
      return (int (UInt64.ofNat word).toInt64, rest)
  | 2 => do
      let (word, rest) ← readWord 8 bytes
      return (uint (UInt64.ofNat word), rest)
  | 3 => do
      let (word, rest) ← readWord 8 bytes
      return (double ⟨UInt64.ofNat word⟩, rest)
  | 4 => do
      let (value, rest) ← decodeText bytes
      return (text value, rest)
  | 5 => do
      let (block, rest) ← decodeBlock bytes
      return (Attribute.bytes block, rest)
  | 6 => do
      let (seconds, rest) ← readWord 8 bytes
      let (fraction, rest) ← readWord 8 rest
      return (time (UInt64.ofNat seconds) ⟨UInt64.ofNat fraction⟩, rest)
  | code => throw (.unknownKind code)

def decode (bytes : Bytes) : Except DecodeFault (Attribute × Bytes) := do
  let (code, rest) ← readWord 4 bytes
  decodePayload code rest

end Attribute

end SegmentStream
