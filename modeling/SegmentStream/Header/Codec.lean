import SegmentStream.Crc32
import SegmentStream.Header.Basic
import SegmentStream.LittleEndian

/-!
# Written headers

The 64 bytes of a header, all integers little-endian:

| bytes | field |
|---|---|
| 0 to 3 | magic |
| 4, 5 | version |
| 6, 7 | sample type |
| 8 | complex |
| 9 | flags |
| 10, 11 | reserved |
| 12 to 15 | item size |
| 16 to 23 | sample rate |
| 24 to 31 | seconds |
| 32 to 39 | fraction |
| 40 to 47 | data offset |
| 48 to 55 | data length |
| 56 to 59 | checksum of the bytes before it |
| 60 to 63 | reserved |

Reserved bytes are zero.
-/

namespace SegmentStream.Header

def encodeBody (header : Header) : Bytes :=
  headerMagic ++ encodeLE 2 header.version.toNat ++ encodeLE 2 header.sampleType.code ++
    [if header.isComplex then 1 else 0] ++ [header.flags] ++ encodeLE 2 0 ++
    encodeLE 4 header.itemSize.toNat ++ encodeLE 8 header.sampleRate.bits.toNat ++
    encodeLE 8 header.time.seconds.toNat ++ encodeLE 8 header.time.fraction.bits.toNat ++
    encodeLE 8 header.dataOffset.toNat ++ encodeLE 8 header.dataLength.toNat

def encode (header : Header) : Bytes :=
  let body := header.encodeBody
  body ++ encodeLE 4 (Crc32.checksum body).toNat ++ encodeLE 4 0

@[simp] theorem encodeBody_length (header : Header) :
    header.encodeBody.length = checkedSize := by
  simp [encodeBody, headerMagic, checkedSize]

@[simp] theorem encode_length (header : Header) : header.encode.length = headerSize := by
  simp [encode, checkedSize, headerSize]

def slice (bytes : Bytes) (offset width : Nat) : Bytes := (bytes.drop offset).take width

def wordAt (bytes : Bytes) (offset width : Nat) : Nat := decodeLE (slice bytes offset width)

/--
The header at the front of `bytes`.  Length, magic, checksum and reserved bytes
are examined before any field is interpreted, and the limits of `validate` last.
-/
def decode (bytes : Bytes) : Except HeaderFault Header := do
  if bytes.length < headerSize then throw (.tooShort bytes.length headerSize)
  if slice bytes 0 4 ≠ headerMagic then throw (.badMagic (slice bytes 0 4))
  let stored := wordAt bytes checkedSize 4
  let computed := (Crc32.checksum (bytes.take checkedSize)).toNat
  if stored ≠ computed then throw (.checksumMismatch stored computed)
  let reserved := slice bytes 10 2 ++ slice bytes 60 4
  if reserved.any (· != 0) then throw (.reservedInUse reserved)
  let version := wordAt bytes 4 2
  if version = 0 then throw (.badVersion version)
  let typeCode := wordAt bytes 6 2
  let some sampleType := SampleType.ofCode? typeCode | throw (.unknownSampleType typeCode)
  let flags := UInt8.ofNat (wordAt bytes 9 1)
  if flags &&& detachedFlag ≠ flags then throw (.unknownFlags flags)
  let header : Header :=
    { version := UInt16.ofNat version
      sampleType := sampleType
      isComplex := wordAt bytes 8 1 != 0
      flags := flags
      itemSize := UInt32.ofNat (wordAt bytes 12 4)
      sampleRate := ⟨UInt64.ofNat (wordAt bytes 16 8)⟩
      time := ⟨UInt64.ofNat (wordAt bytes 24 8), ⟨UInt64.ofNat (wordAt bytes 32 8)⟩⟩
      dataOffset := UInt64.ofNat (wordAt bytes 40 8)
      dataLength := UInt64.ofNat (wordAt bytes 48 8) }
  header.validate
  return header

end SegmentStream.Header
