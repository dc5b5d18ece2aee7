import SegmentStream.Error

/-!
# Events

What happens to a stream and its targets, as it is reported to a log.
-/

namespace SegmentStream

inductive Severity where
  | debug
  | info
  | warn
  deriving DecidableEq, Repr

def Severity.name : Severity → String
  | debug => "DEBUG"
  | info => "INFO"
  | warn => "WARN"

inductive Event where
  | openedFile (path : String) (split : Bool)
  | closedTarget (label : String) (dataBytes headerBytes : Nat)
  | closeFailed (label : String) (cause : IoFault)
  /-- A torn record stays in a channel that could not be cut. -/
  | keptPartialRecord (label : String) (offset : Nat) (cause : IoFault)
  | emittedHeader (offset length : Nat) (time : Timestamp)
  | finalizedHeader (offset dataLength dataOffset : Nat)
  | rotationRequested (label : String)
  | closeRequested
  | rotated (label : String)
  | detached
  | retired (label : String)
  | segmentFull (records : Nat)
  | tagRejected (offset : Nat) (key : String) (fault : AttributeFault)
  | tagOutsideBatch (offset : Nat) (key : String) (first last : Nat)
  | droppingRecords (records : Nat)
  | started (label : String) (itemSize maxSegmentSize : Nat) (split : Bool)
  | stopped (records segments dropped : Nat)
  | stopFailed (error : StreamError)
  deriving DecidableEq, Repr

namespace Event

def severity : Event → Severity
  | openedFile .. | closedTarget .. | emittedHeader .. | finalizedHeader .. | retired ..
  | segmentFull .. => .debug
  | rotationRequested .. | closeRequested | rotated .. | detached | started ..
  | stopped .. => .info
  | closeFailed .. | keptPartialRecord .. | tagRejected .. | tagOutsideBatch ..
  | droppingRecords .. | stopFailed .. => .warn

def message : Event → String
  | openedFile .. => "opened file destination"
  | closedTarget .. => "closed target"
  | closeFailed .. => "failed to close target"
  | keptPartialRecord .. => "could not drop partial record"
  | emittedHeader .. => "emitted segment header"
  | finalizedHeader .. => "finalized segment header"
  | rotationRequested .. => "rotation requested"
  | closeRequested => "close requested"
  | rotated .. => "rotated to new target"
  | detached => "target detached"
  | retired .. => "retired target"
  | segmentFull .. => "segment full"
  | tagRejected .. => "tag rejected"
  | tagOutsideBatch .. => "tag outside batch, skipped"
  | droppingRecords .. => "no active target, dropping records"
  | started .. => "meta sink opened"
  | stopped .. => "meta sink shut down"
  | stopFailed .. => "shutdown on drop failed"

def flag (value : Bool) : String := if value then "true" else "false"

def fields : Event → List (String × String)
  | openedFile path split => [("path", path), ("split", flag split)]
  | closedTarget label dataBytes headerBytes =>
      [("target_label", label), ("data_bytes", toString dataBytes),
        ("header_bytes", toString headerBytes)]
  | closeFailed label cause => [("target_label", label), ("error", cause.message)]
  | keptPartialRecord label offset cause =>
      [("target_label", label), ("at", toString offset), ("error", cause.message)]
  | emittedHeader offset length time =>
      [("offset", toString offset), ("len", toString length), ("rx_time", time.display)]
  | finalizedHeader offset dataLength dataOffset =>
      [("offset", toString offset), ("bytes", toString dataLength),
        ("strt", toString dataOffset)]
  | rotationRequested label | rotated label | retired label => [("target_label", label)]
  | closeRequested | detached => []
  | segmentFull records | droppingRecords records => [("records", toString records)]
  | tagRejected offset key fault =>
      [("offset", toString offset), ("key", key), ("error", fault.message)]
  | tagOutsideBatch offset key first last =>
      [("offset", toString offset), ("key", key), ("base", toString first),
        ("end", toString last)]
  | started label itemSize maxSegmentSize split =>
      [("target_label", label), ("item_size", toString itemSize),
        ("max_segment_size", toString maxSegmentSize), ("split", flag split)]
  | stopped records segments dropped =>
      [("records", toString records), ("segments", toString segments),
        ("dropped", toString dropped)]
  | stopFailed error => [("error", error.message)]

end Event

end SegmentStream
