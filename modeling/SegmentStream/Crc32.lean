import SegmentStream.Bytes

/-!
# Cyclic redundancy check

The reflected 32-bit code with generator `0xEDB88320`: the remainder starts at
all ones, is stepped over the bytes bit by bit, and is complemented at the end.
-/

namespace SegmentStream.Crc32

def generator : UInt32 := 0xEDB88320

/-- One bit leaves the remainder at its low end. -/
def bitStep (remainder : UInt32) : UInt32 :=
  if remainder &&& 1 = 1 then (remainder >>> 1) ^^^ generator else remainder >>> 1

def bitSteps : Nat → UInt32 → UInt32
  | 0, remainder => remainder
  | count + 1, remainder => bitSteps count (bitStep remainder)

def byteStep (remainder : UInt32) (byte : UInt8) : UInt32 :=
  bitSteps 8 (remainder ^^^ byte.toUInt32)

def run (remainder : UInt32) (bytes : Bytes) : UInt32 := bytes.foldl byteStep remainder

def checksum (bytes : Bytes) : UInt32 := run 0xFFFFFFFF bytes ^^^ 0xFFFFFFFF

theorem run_append (remainder : UInt32) (first second : Bytes) :
    run remainder (first ++ second) = run (run remainder first) second := by
  simp [run, List.foldl_append]

end SegmentStream.Crc32
