import SegmentStream.Attribute.Codec
import SegmentStream.Telemetry.Counters

/-!
# Counters in variable-length form

A count below 251 is one byte.  A larger one is a mark byte and the shortest of
two, four or eight little-endian bytes that holds it; a reader accepts any.
-/

namespace SegmentStream

def encodeVarint (n : Nat) : Bytes :=
  if n < 251 then [UInt8.ofNat n]
  else if n < 2 ^ 16 then 251 :: encodeLE 2 n
  else if n < 2 ^ 32 then 252 :: encodeLE 4 n
  else 253 :: encodeLE 8 n

def decodeVarint (bytes : Bytes) : Except DecodeFault (Nat × Bytes) := do
  let (mark, rest) ← readWord 1 bytes
  if mark < 251 then return (mark, rest)
  else if mark = 251 then readWord 2 rest
  else if mark = 252 then readWord 4 rest
  else if mark = 253 then readWord 8 rest
  else throw (.badIntegerMark (UInt8.ofNat mark) bytes.length)

def decodeVarints : Nat → Bytes → Except DecodeFault (List Nat × Bytes)
  | 0, bytes => .ok ([], bytes)
  | count + 1, bytes => do
      let (n, rest) ← decodeVarint bytes
      let (ns, rest) ← decodeVarints count rest
      return (n :: ns, rest)

namespace Counters

def fieldCount : Nat := 11

def encodeVarint (counters : Counters) : Bytes :=
  counters.toList.flatMap SegmentStream.encodeVarint

def encodeFixed (counters : Counters) : Bytes := counters.toList.flatMap (encodeLE 8)

def decodeVarint (bytes : Bytes) : Except DecodeFault (Counters × Bytes) := do
  let (counts, rest) ← decodeVarints fieldCount bytes
  return ((ofList? counts).getD default, rest)

end Counters

end SegmentStream
