/-!
# Storage faults

Why a call on a channel or a file did not succeed.
-/

namespace SegmentStream

inductive IoFault where
  | writeFailed
  | diskFull
  | seekFailed
  | flushFailed
  | truncateFailed
  /-- The call did nothing and may be repeated. -/
  | interrupted
  /-- A channel took nothing of the records it was offered. -/
  | nothingAccepted
  /-- A channel took nothing of what remained of a header. -/
  | incomplete
  | seekBeforeStart
  | invalidArgument
  | lengthOutOfRange
  | noSuchFile
  | notDirectory
  | isDirectory
  | nameTooLong
  /-- A path holds the character zero. -/
  | zeroInPath
  deriving DecidableEq, Repr

namespace IoFault

def message : IoFault → String
  | writeFailed => "write failed"
  | diskFull => "disk full"
  | seekFailed => "seek failed"
  | flushFailed => "flush failed"
  | truncateFailed => "truncate failed"
  | interrupted => "interrupted"
  | nothingAccepted => "channel accepted zero bytes"
  | incomplete => "failed to write whole buffer"
  | seekBeforeStart => "seek before start"
  | invalidArgument => "Invalid argument (os error 22)"
  | lengthOutOfRange => "number too large to fit in target type"
  | noSuchFile => "No such file or directory (os error 2)"
  | notDirectory => "Not a directory (os error 20)"
  | isDirectory => "Is a directory (os error 21)"
  | nameTooLong => "File name too long (os error 36)"
  | zeroInPath => "file name contained an unexpected NUL byte"

end IoFault

end SegmentStream
