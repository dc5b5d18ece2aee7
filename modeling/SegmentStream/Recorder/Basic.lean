import SegmentStream.Recorder.Writer
import SegmentStream.Target.Rotation

/-!
# Recorders

A recorder takes batches of records with tags and writes them as one stream of
described segments.  It turns to a staged target only at the start of a batch;
while it has no target, records are counted and dropped.  The position it reads at
is a number of any size, as its counters are, and no stream is too long for it.
-/

namespace SegmentStream

structure Recorder where
  config : Config
  progress : Progress
  active : Option Target
  rotation : Rotation
  /-- Index of the first record of the next batch. -/
  itemsRead : Nat := 0
  unbuffered : Bool
  /-- The loss of records has been reported. -/
  dropping : Bool := false
  closed : Bool := false
  deriving DecidableEq

/-- A recorder and the host its targets live on. -/
structure Session where
  recorder : Recorder
  host : Host
  deriving DecidableEq

namespace Session

variable {fault result : Type}

/-! ## Acting on a part of the session -/

def change (update : Recorder → Recorder) : Action fault Session Unit :=
  modify fun session => { session with recorder := update session.recorder }

def changeProgress (update : Progress → Progress) : Action fault Session Unit :=
  change fun recorder => { recorder with progress := update recorder.progress }

def report (event : Event) : Action fault Session Unit :=
  modify fun session => { session with host := session.host.report event }

def onRotation (action : Action fault RotationDesk result) : Action fault Session result :=
  action.within (fun session => ⟨session.recorder.rotation, session.host⟩) fun session desk =>
    { recorder := { session.recorder with rotation := desk.rotation }, host := desk.host }

/-- Writes to a target that is not the active one, and gives it back with the result. -/
def onTarget (target : Target) (action : Action fault Writer result) :
    Action fault Session (Except fault result × Target) := fun session =>
  let handBack (writer : Writer) : Session :=
    { recorder := { session.recorder with progress := writer.progress }
      host := writer.outlet.host }
  match action ⟨session.recorder.progress, ⟨target, session.host⟩⟩ with
  | .ok value writer => .ok (.ok value, writer.outlet.target) (handBack writer)
  | .error cause writer => .ok (.error cause, writer.outlet.target) (handBack writer)

/-- Writes to the active target, which stays active also after a failure. -/
def onActive (target : Target) (action : Action fault Writer result) :
    Action fault Session result := do
  let (outcome, target) ← onTarget target action
  change fun recorder => { recorder with active := some target }
  match outcome with
  | .ok value => return value
  | .error cause => throw cause

def onHost (action : Action fault Host result) : Action fault Session result :=
  action.within Session.host fun session host => { session with host }

/-! ## Retiring a target -/

/-- Closes the running segment of a target and lets go of it; the segment's failure counts first. -/
def retire (target : Target) : Action StreamError Session Unit := do
  let (closed, target) ← if (← get).recorder.progress.headers.isOpen
    then onTarget target Writer.closeSegment
    else pure (.ok (), target)
  changeProgress fun progress =>
    { progress with headers := progress.headers.releaseSlot, records := 0 }
  let flushed ← (onHost target.close).attempt
  report (.retired target.label)
  match closed, flushed with
  | .error error, _ => throw error
  | .ok (), .error cause => throw (.io cause)
  | .ok (), .ok () => pure ()

def retireActive : Action StreamError Session Unit := do
  match (← get).recorder.active with
  | none => pure ()
  | some target =>
      change fun recorder => { recorder with active := none }
      retire target

/-! ## Turning to what was staged -/

/-- Writes the first header of a staged target and makes it the active one. -/
def install (target : Target) : Action StreamError Session Unit := do
  changeProgress fun progress => { progress with records := 0 }
  let (outcome, target) ← onTarget target (Writer.onScribe Scribe.emit)
  match outcome with
  | .ok slot =>
      changeProgress fun progress =>
        { progress with counters := (progress.counters.addHeader slot.length).addRotation }
      report (.rotated target.label)
      change fun recorder => { recorder with active := some target, dropping := false }
  | .error error =>
      modify fun session => { session with host := target.closeQuietly session.host }
      throw error

def detach : Action StreamError Session Unit := do
  report .detached
  change fun recorder => { recorder with dropping := false }

/--
Carries out the last staged command.  The old target is retired first; if that
fails, the new one is installed all the same and the failure is given after it.
-/
def installPending : Action StreamError Session Unit := do
  match ← onRotation (Action.change RotationDesk.takePending) with
  | none => pure ()
  | some command =>
      let retired ← retireActive.attempt
      let outcome ← match command with
        | .install target => (install target).attempt
        | .detach => detach.attempt
      changeProgress (·.mark .rotate)
      match outcome, retired with
      | .error error, _ => throw error
      | .ok (), .error error => throw error
      | .ok (), .ok () => pure ()

/-! ## Batches -/

/-- The tags that fall into a batch, by their offset in it; the others are reported. -/
def selectTags (first last : Nat) (tags : List Tag) : Action fault Session (List (Nat × Tag)) := do
  let isInside (tag : Tag) : Bool := first ≤ tag.offset && tag.offset < last
  (tags.filter fun tag => !isInside tag).forM fun tag =>
    report (.tagOutsideBatch tag.offset tag.key first last)
  return ((tags.filter isInside).map fun tag => (tag.offset - first, tag)).mergeSort
    fun x y => x.1 ≤ y.1

def drop (records : Nat) : Action fault Session Unit := do
  unless (← get).recorder.dropping do
    report (.droppingRecords records)
    change fun recorder => { recorder with dropping := true }
  changeProgress fun progress =>
    { progress with counters := progress.counters.addDropped records }
  change fun recorder => { recorder with itemsRead := recorder.itemsRead + records }

/-- Writes a batch to the active target.  The read position follows what was stored. -/
def record (target : Target) (items : Bytes) (tags : List Tag) :
    Action StreamError Session Nat := do
  let recorder := (← get).recorder
  let itemSize := recorder.config.itemSize.toNat
  let first := recorder.itemsRead
  let last := first + items.length / itemSize
  let tags ← selectTags first last tags
  let outcome ← (onActive target
    (Writer.runBatch recorder.config.maxSegmentSize.toNat itemSize items tags)).attempt
  match outcome with
  | .ok written =>
      change fun recorder => { recorder with itemsRead := last }
      return written
  | .error error =>
      if let some persisted := error.persisted? then
        change fun recorder => { recorder with itemsRead := first + persisted }
      throw error

def flushUnbuffered (asError : IoFault → StreamError) : Action StreamError Session Unit := do
  let recorder := (← get).recorder
  if let (true, some target) := (recorder.unbuffered, recorder.active) then
    onActive target (Action.mapFault asError (Writer.onOutlet Outlet.flush))

/-- Counts a batch and writes it to the active target, or drops it if there is none. -/
def takeBatch (items : Bytes) (tags : List Tag) : Action StreamError Session Nat := do
  changeProgress fun progress => { progress with counters := progress.counters.addBatch }
  let recorder := (← get).recorder
  match recorder.active with
  | none =>
      let records := items.length / recorder.config.itemSize.toNat
      drop records
      return records
  | some target =>
      let written ← record target items tags
      flushUnbuffered (.write written)
      return written

/--
Takes a batch of whole records, with tags at indices of the whole stream, and
gives the number of its records.
-/
def work (items : Bytes) (tags : List Tag) : Action StreamError Session Nat := do
  let recorder := (← get).recorder
  let itemSize := recorder.config.itemSize.toNat
  if recorder.closed then throw (.misuse .shutDown)
  if items.length % itemSize ≠ 0 then throw (.misuse (.brokenRecord items.length itemSize))
  installPending
  takeBatch items tags

/-- Sets an attribute from the next record on. -/
def updateAttribute (key : String) (value : Attribute) : Action StreamError Session Unit := do
  match (← get).recorder.progress.headers.prepare key value with
  | .error cause => throw (.refused cause)
  | .ok update =>
      changeProgress fun progress => { progress with counters := progress.counters.addTag true }
      match (← get).recorder.active with
      | none =>
          changeProgress fun progress => { progress with headers := progress.headers.apply update }
      | some target =>
          onActive target (Writer.boundary (some update))
          flushUnbuffered .io

def setUnbuffered (unbuffered : Bool) : Action fault Session Unit :=
  change fun recorder => { recorder with unbuffered }

/-! ## Rotation requests -/

/-- Stages a target for the start of the next batch. -/
def requestRotation (destination : Destination) : Action StreamError Session Unit :=
  onRotation (RotationDesk.requestRotation destination)

/-- Stages the end of the active target for the start of the next batch. -/
def requestClose : Action StreamError Session Unit := onRotation RotationDesk.requestClose

/-! ## Start and end -/

/-- Closes the running segment and every target.  Once is enough. -/
def shutdown : Action StreamError Session Unit := do
  if (← get).recorder.closed then return
  change fun recorder => { recorder with closed := true }
  let retired ← retireActive.attempt
  onRotation (modify RotationDesk.closePending)
  let counters := (← get).recorder.progress.counters
  report (.stopped counters.recordsWritten counters.segmentsClosed counters.recordsDropped)
  match retired with
  | .ok () => pure ()
  | .error error => throw error

/-- Shuts down a recorder for good; a failure is only reported. -/
def dispose (session : Session) : Session :=
  let session := match shutdown session with
    | .ok () session => session
    | .error error session => { session with host := session.host.report (.stopFailed error) }
  let desk := RotationDesk.abandon ⟨session.recorder.rotation, session.host⟩
  { recorder := { session.recorder with rotation := desk.rotation }, host := desk.host }

end Session

/-- Starts a recorder: checks the configuration, opens the target and writes the first header. -/
def Recorder.start (config : Config) (destination : Destination) :
    Action StreamError Host Recorder := do
  match config.validate with
  | .ok () => pure ()
  | .error cause => throw (.config cause)
  let headers ← match HeaderState.start config with
    | .ok headers => pure headers
    | .error error => throw error
  let target ← Target.openAt destination config.splitHeader
  let host ← get
  match Writer.openSegment ⟨{ headers }, ⟨target, host⟩⟩ with
  | .error error writer =>
      set writer.outlet.release
      throw error
  | .ok () writer =>
      let target := writer.outlet.target
      set (writer.outlet.host.report (.started target.label config.itemSize.toNat
        config.maxSegmentSize.toNat config.splitHeader))
      return { config
               progress := writer.progress
               active := some target
               rotation := { split := config.splitHeader }
               unbuffered := config.unbuffered }

end SegmentStream
