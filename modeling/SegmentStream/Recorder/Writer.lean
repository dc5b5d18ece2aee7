import SegmentStream.Recorder.Plan
import SegmentStream.Recorder.Scribe
import SegmentStream.Telemetry.Counters
import SegmentStream.Telemetry.StageTimes

/-!
# Writing batches

A writer carries a batch through its plan: it appends records, closes segments
and opens new ones, and applies what the tags ask for.  Whatever fails, the
counters agree with what is stored.  The records of the running segment are
counted without a limit; it is the ceiling of the batch that ends a segment.
-/

namespace SegmentStream

structure Progress where
  headers : HeaderState
  counters : Counters := {}
  /-- Stages that have been timed. -/
  stages : List Stage := []
  records : Nat := 0
  deriving DecidableEq

namespace Progress

def mark (progress : Progress) (stage : Stage) : Progress :=
  if progress.stages.contains stage then progress
  else { progress with stages := progress.stages ++ [stage] }

end Progress

structure Writer where
  progress : Progress
  outlet : Outlet
  deriving DecidableEq

namespace Writer

variable {fault result : Type}

def onOutlet (action : Action fault Outlet result) : Action fault Writer result :=
  action.within Writer.outlet fun writer outlet => { writer with outlet }

def onScribe (action : Action fault Scribe result) : Action fault Writer result :=
  action.within (fun writer => ⟨writer.progress.headers, writer.outlet⟩) fun writer scribe =>
    { progress := { writer.progress with headers := scribe.headers }, outlet := scribe.outlet }

def changeProgress (update : Progress → Progress) : Action fault Writer Unit :=
  modify fun writer => { writer with progress := update writer.progress }

def count (update : Counters → Counters) : Action fault Writer Unit :=
  changeProgress fun progress => { progress with counters := update progress.counters }

def mark (stage : Stage) : Action fault Writer Unit := changeProgress (·.mark stage)

def setRecords (records : Nat) : Action fault Writer Unit :=
  changeProgress fun progress => { progress with records }

/-! ## Records -/

def addRecords (records itemSize : Nat) : Action fault Writer Unit := do
  setRecords ((← get).progress.records + records)
  count (·.addData records itemSize)

/--
Appends whole records.  Those that are stored before a failure belong to the
running segment; the failure gives their number.
-/
def writeRecords (itemSize : Nat) (items : Bytes) : Action (Nat × IoFault) Writer Unit := do
  let outcome ← (onOutlet (Outlet.writeData items itemSize)).attempt
  mark .write
  match outcome with
  | .ok () => addRecords (items.length / itemSize) itemSize
  | .error partly =>
      let records := partly.written / itemSize
      addRecords records itemSize
      throw (records, partly.cause)

/-! ## Segments -/

def finalize (dataLength : Nat) : Action StreamError Writer Unit := do
  let (old, new) ← onScribe (Scribe.finalize dataLength)
  mark .finalize
  count (·.addFinalize old new)

def closeSegment : Action StreamError Writer Unit := do
  let (old, new) ← onScribe (Scribe.closeSegment (← get).progress.records)
  mark .finalize
  setRecords 0
  count fun counters => (counters.addFinalize old new).addSegment

def openSegment : Action StreamError Writer Unit := do
  let slot ← onScribe Scribe.emit
  mark .emit
  count (·.addHeader slot.length)
  setRecords 0

def roll : Action StreamError Writer Unit := do
  if (← get).progress.headers.isOpen then closeSegment
  openSegment

def apply (update : Option HeaderUpdate) : Action fault Writer Unit :=
  changeProgress fun progress =>
    { progress with headers := (update.map progress.headers.apply).getD progress.headers }

/--
A segment boundary with the update that takes effect there.  A segment that
holds data is closed first; an open header without data is written again.
-/
def boundary (update : Option HeaderUpdate) : Action StreamError Writer Unit := do
  let progress := (← get).progress
  if 0 < progress.records then
    closeSegment
    apply update
    openSegment
  else
    apply update
    if progress.headers.isOpen then finalize 0 else openSegment

/-- Checks a tag.  A rejected tag is counted and reported, but cuts like any other. -/
def prepareTag (tag : Tag) : Action fault Writer (Option HeaderUpdate) := do
  match (← get).progress.headers.prepare tag.key tag.value with
  | .ok update =>
      count (·.addTag true)
      return some update
  | .error cause =>
      onOutlet (Outlet.report (.tagRejected tag.offset tag.key cause))
      count (·.addTag false)
      return none

/-! ## Batches -/

/-- Carries out one step on the items still to be written, and gives those left after it. -/
def perform (itemSize written : Nat) (items : Bytes) :
    BatchStep → Action StreamError Writer Bytes
  | .roll => Action.mapFault (.withPersisted written) do
      onOutlet (Outlet.report (.segmentFull (← get).progress.records))
      roll
      return items
  | .write records => do
      let (now, later) := items.splitAt (records * itemSize)
      Action.mapFault (fun (stored, cause) => .write (written + stored) cause)
        (writeRecords itemSize now)
      return later
  | .boundary tag => Action.mapFault (.withPersisted written) do
      boundary (← prepareTag tag)
      return items

/-- Carries out a plan; `written` records of the batch are stored already. -/
def follow (itemSize : Nat) : List BatchStep → Nat → Bytes → Action StreamError Writer Unit
  | [], _, _ => pure ()
  | step :: rest, written, items => do
      let items ← perform itemSize written items step
      follow itemSize rest (written + step.records) items

/-- Room in the running segment; none unless its header is open. -/
def room (writer : Writer) (ceiling : Nat) : Nat :=
  if writer.progress.headers.isOpen then ceiling - writer.progress.records else 0

/-- Writes a batch of whole records, cut at tags sorted by their offset in the batch. -/
def runBatch (ceiling itemSize : Nat) (items : Bytes) (tags : List (Nat × Tag)) :
    Action StreamError Writer Nat := do
  let total := items.length / itemSize
  follow itemSize (BatchStep.plan ceiling ((← get).room ceiling) 0 total tags) 0 items
  return total

end Writer

end SegmentStream
