import SegmentStream.Json.Parser
import SegmentStream.Json.Printer
import SegmentStream.Json.Reading
import SegmentStream.Telemetry.Counters
import SegmentStream.Telemetry.StageTimes

/-!
# Snapshots

The counters and stage times of a recorder at one moment, with the ratios
computed from them, and their JSON form.
-/

namespace SegmentStream

structure Snapshot where
  counters : Counters
  overheadRatio : Binary64
  throughput : Binary64
  elapsed : Duration
  stageTimes : StageTimes
  deriving DecidableEq, Repr

namespace Snapshot

def throughputOf (dataBytes : Nat) (elapsed : Duration) : Binary64 :=
  if elapsed.nanoseconds = 0 then .zero else Binary64.ofCount dataBytes / elapsed.toSeconds

def take (counters : Counters) (elapsed : Duration) (stageTimes : StageTimes) : Snapshot :=
  { counters, elapsed, stageTimes
    overheadRatio := counters.overheadRatio
    throughput := throughputOf counters.dataBytes elapsed }

/--
Every closed segment had its header emitted and finalized, and the stages
together took no longer than the run.
-/
def isConsistent (snapshot : Snapshot) : Bool :=
  snapshot.counters.segmentsClosed ≤ snapshot.counters.headersFinalized &&
    snapshot.counters.segmentsClosed ≤ snapshot.counters.headersEmitted &&
    snapshot.stageTimes.total.nanoseconds ≤ snapshot.elapsed.nanoseconds

end Snapshot

/-! ## JSON -/

namespace Duration

def jsonKeys : List String := ["secs", "nanos"]

def toJson (duration : Duration) : Json :=
  .ofMembers [("secs", .ofNat duration.seconds), ("nanos", .ofNat duration.subsecond)]

/--
Both parts are required and no other member is allowed.  Nanoseconds beyond a
second carry, as long as the seconds stay a word.
-/
def ofJson? (value : Json) : Option Duration := do
  let known := match value with
    | .object members => members.all fun member => jsonKeys.any fun key => member.1 == some key
    | _ => true
  if !known then none
  else
    match value.fields? jsonKeys with
    | some [some seconds, some nanoseconds] => do
        let seconds ← seconds.toNat? (2 ^ 64 - 1)
        let nanoseconds ← nanoseconds.toNat? (2 ^ 32 - 1)
        let duration := ofParts seconds nanoseconds
        if duration.seconds < 2 ^ 64 then some duration else none
    | _ => none

end Duration

namespace Stage

def ofJson? (value : Json) : Option Stage := value.variantName?.bind ofName?

end Stage

namespace StageTimes

def toJson (stages : StageTimes) : Json :=
  let times := stages.times.map fun (stage, duration) => (stage.name, duration.toJson)
  .ofMembers [("times", .ofMembers times)]

/-- Of several times of one stage the last stays. -/
def ofMembers? (members : List (String × Json)) : Option StageTimes :=
  members.foldlM (fun stages (key, value) => do
    return stages.set (← Stage.ofName? key) (← Duration.ofJson? value)) {}

def ofJson? (value : Json) : Option StageTimes :=
  match value.fields? ["times"] with
  | some [some times] => times.members?.bind ofMembers?
  | _ => none

end StageTimes

namespace Snapshot

def counterKeys : List String :=
  ["batches", "headers_emitted", "headers_finalized", "segments_closed", "records_written",
    "records_dropped", "bytes_data", "bytes_header", "tags_applied", "tags_rejected", "rotations"]

def otherKeys : List String :=
  ["overhead_ratio", "throughput_bytes_per_sec", "elapsed", "stage_times"]

def toJson (snapshot : Snapshot) : Json :=
  .ofMembers (counterKeys.zip (snapshot.counters.toList.map .ofNat) ++
    otherKeys.zip [.ofBinary64 snapshot.overheadRatio, .ofBinary64 snapshot.throughput,
      snapshot.elapsed.toJson, snapshot.stageTimes.toJson])

def ofJson? (value : Json) : Option Snapshot := do
  let fields ← value.fields? (counterKeys ++ otherKeys)
  let fields ← fields.mapM id
  let counts ← (fields.take counterKeys.length).mapM (Json.toNat? (2 ^ 64 - 1))
  let counters ← Counters.ofList? counts
  match fields.drop counterKeys.length with
  | [overheadRatio, throughput, elapsed, stageTimes] =>
      return {
        counters
        overheadRatio := ← overheadRatio.toBinary64?
        throughput := ← throughput.toBinary64?
        elapsed := ← Duration.ofJson? elapsed
        stageTimes := ← StageTimes.ofJson? stageTimes }
  | _ => none

end Snapshot

end SegmentStream
