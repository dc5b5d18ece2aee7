import SegmentStream.Event
import SegmentStream.Storage.Channel

/-!
# Destinations

Where a target is to write: a file, with a second one for headers that stand
apart, a pair of buffers, or channels that exist already.  Targets live on a host,
which has the store they write to and the log they report to.
-/

namespace SegmentStream

/-! ## The host -/

structure Host where
  store : Store := {}
  log : List Event := []
  deriving DecidableEq, Repr

instance : Inhabited Host := ⟨{}⟩

namespace Host

def report (host : Host) (event : Event) : Host := { host with log := host.log ++ [event] }

end Host

/-! ## Destinations -/

inductive Destination where
  | file (path : String)
  | memory (data header : String)
  /-- A channel for headers is given exactly when they stand apart. -/
  | channels (data : Channel) (header : Option Channel)
  deriving DecidableEq, Repr

def headerSuffix : String := ".hdr"

/-- The file for the headers of a stream whose data goes to `path`. -/
def headerPath (path : String) : String := path ++ headerSuffix

namespace Destination

def label : Destination → String
  | file path => path
  | memory .. => "<memory>"
  | channels .. => "<channels>"

def openFile (path : String) : Action StreamError Host Channel := fun host =>
  match host.store.create path with
  | .error cause => .error (.cannotOpen path cause) host
  | .ok (location, store) => .ok { location } { host with store }

def openBuffer (name : String) : Action StreamError Host Channel := fun host =>
  .ok { location := .buffer name } { host with store := host.store.put (.buffer name) [] }

def openChannels (split : Bool) : Destination →
    Action StreamError Host (Channel × Option Channel)
  | file path => do
      let header ← if split then some <$> openFile (headerPath path) else pure none
      let data ← openFile path
      modify fun host => host.report (.openedFile path split)
      return (data, header)
  | memory dataName headerName => do
      let data ← openBuffer dataName
      let header ← if split then some <$> openBuffer headerName else pure none
      return (data, header)
  | channels data header =>
      match split, header with
      | true, none => throw (.misuse .missingHeaderChannel)
      | false, some _ => throw (.misuse .unexpectedHeaderChannel)
      | _, header => return (data, header)

end Destination

end SegmentStream
