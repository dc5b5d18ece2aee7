import SegmentStream.Attribute.Basic
import SegmentStream.Config.Basic
import SegmentStream.Header.Region
import SegmentStream.Storage.Fault

/-!
# Errors of a stream

Every way in which recording a stream can fail, by its cause.
-/

namespace SegmentStream

inductive AttributeFault where
  /-- The writer maintains this field. -/
  | reserved (key : String)
  | typeMismatch (key expected found : String)
  | outOfRange (key : String) (value : Attribute)
  deriving DecidableEq, Repr

namespace AttributeFault

def message : AttributeFault → String
  | reserved key => s!"'{key}' is maintained by the writer and cannot be set"
  | typeMismatch key expected found => s!"'{key}' expects {expected}, got {found}"
  | outOfRange key value => s!"'{key}' value {value.display} out of range"

end AttributeFault

/-- A call that does not fit the state of a stream, or a malformed batch. -/
inductive Misuse where
  | missingHeaderChannel
  | unexpectedHeaderChannel
  | noHeaderEmitted
  | recorderGone
  | shutDown
  | brokenRecord (length itemSize : Nat)
  deriving DecidableEq, Repr

namespace Misuse

def message : Misuse → String
  | missingHeaderChannel => "split header mode needs a header channel"
  | unexpectedHeaderChannel => "header channel given but split header mode is off"
  | noHeaderEmitted => "no header has been emitted on this target"
  | recorderGone => "writer is gone"
  | shutDown => "sink is shut down"
  | brokenRecord length itemSize =>
      s!"batch of {length} bytes is not a multiple of item_size {itemSize}"

end Misuse

inductive StreamError where
  | cannotOpen (path : String) (cause : IoFault)
  | format (fault : FormatFault)
  /-- A batch stopped after so many of its records were stored. -/
  | write (persisted : Nat) (cause : IoFault)
  | refused (fault : AttributeFault)
  | config (fault : ConfigFault)
  | misuse (fault : Misuse)
  | io (cause : IoFault)
  deriving DecidableEq, Repr

namespace StreamError

def message : StreamError → String
  | cannotOpen path cause => s!"cannot open {path}: {cause.message}"
  | format fault => s!"header format error: {fault.message}"
  | write persisted cause => s!"write failed after {persisted} records: {cause.message}"
  | refused fault => s!"attribute error: {fault.message}"
  | config fault => s!"config error: {fault.message}"
  | misuse fault => s!"validation error: {fault.message}"
  | io cause => s!"I/O error: {cause.message}"

/-- Storage faults inside a batch say how many records were stored before. -/
def withPersisted (persisted : Nat) : StreamError → StreamError
  | io cause => write persisted cause
  | other => other

/-- How many records of a batch were stored, if the error tells. -/
def persisted? : StreamError → Option Nat
  | write persisted _ => some persisted
  | _ => none

end StreamError

end SegmentStream
