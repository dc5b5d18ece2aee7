import SegmentStream.Bytes

/-!
# Text as bytes

Text is stored in UTF-8.  `textOfBytes` reads a byte string back and reports the
first place where it is not UTF-8.
-/

namespace SegmentStream

/--
The first fault of a byte string: how many bytes before it are text, and the
length of the faulty sequence; none when the input ends inside a character.
-/
structure Utf8Fault where
  validUpTo : Nat
  length : Option Nat
  deriving DecidableEq, Repr

namespace Utf8

def isContinuation (byte : UInt8) : Bool := 0x80 ≤ byte && byte ≤ 0xBF

/--
Which second bytes may follow a first byte; this excludes overlong forms,
surrogates and codes beyond the last plane.
-/
def allowsSecond (first second : UInt8) : Bool :=
  let low := if first = 0xE0 then 0xA0 else if first = 0xF0 then 0x90 else 0x80
  let high := if first = 0xED then 0x9F else if first = 0xF4 then 0x8F else 0xBF
  low ≤ second && second ≤ high

/-- The number of bytes that a first byte announces, zero if it can start no character. -/
def announcedLength (first : UInt8) : Nat :=
  if first < 0x80 then 1
  else if 0xC2 ≤ first && first ≤ 0xDF then 2
  else if 0xE0 ≤ first && first ≤ 0xEF then 3
  else if 0xF0 ≤ first && first ≤ 0xF4 then 4
  else 0

/--
Checks the `missing` bytes that follow the first `seen` of a character.  A byte
that cannot follow ends the faulty sequence; the end of the input gives none.
-/
def checkTail : Nat → Nat → Bytes → Except (Option Nat) Unit
  | 0, _, _ => .ok ()
  | _ + 1, _, [] => .error none
  | missing + 1, seen, byte :: rest =>
      if isContinuation byte then checkTail missing (seen + 1) rest else .error (some seen)

/-- The length of the first character, or that of the faulty sequence in its place. -/
def firstLength (first : UInt8) (rest : Bytes) : Except (Option Nat) Nat :=
  match announcedLength first, rest with
  | 0, _ => .error (some 1)
  | 1, _ => .ok 1
  | _ + 2, [] => .error none
  | tail + 2, second :: rest =>
      if allowsSecond first second then (checkTail tail 2 rest).map fun _ => tail + 2
      else .error (some 1)

/-- The first fault at or after `position`, where `bytes` starts. -/
def firstFault (position : Nat) (bytes : Bytes) : Option Utf8Fault :=
  match bytes with
  | [] => none
  | first :: rest =>
      match firstLength first rest with
      | .error length => some ⟨position, length⟩
      | .ok length => firstFault (position + length) (rest.drop (length - 1))
termination_by bytes.length
decreasing_by
  simp only [List.length_drop, List.length_cons]
  omega

end Utf8

def textBytes (text : String) : Bytes := text.toUTF8.data.toList

def textOfBytes (bytes : Bytes) : Except Utf8Fault String :=
  if h : (ByteArray.mk bytes.toArray).IsValidUTF8 then .ok (String.fromUTF8 _ h)
  else .error ((Utf8.firstFault 0 bytes).getD ⟨0, some 1⟩)

theorem byteArray_textBytes (text : String) :
    ByteArray.mk (textBytes text).toArray = text.toByteArray := by
  simp [textBytes]

@[simp] theorem textOfBytes_textBytes (text : String) :
    textOfBytes (textBytes text) = .ok text := by
  unfold textOfBytes
  split
  · exact congrArg Except.ok (String.toByteArray_inj.mp (byteArray_textBytes text))
  · rename_i h
    rw [byteArray_textBytes] at h
    exact absurd text.isValidUTF8 h

theorem textBytes_of_textOfBytes {bytes : Bytes} {text : String}
    (h : textOfBytes bytes = .ok text) : textBytes text = bytes := by
  unfold textOfBytes at h
  split at h
  · cases h
    simp [textBytes, String.fromUTF8, String.toUTF8]
  · cases h

end SegmentStream
