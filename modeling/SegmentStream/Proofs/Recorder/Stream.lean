import SegmentStream.Proofs.Recorder.Start

/-!
# Streams to one target

Batches, updates and the end of a recorder whose target is never replaced.  The
target keeps one transcript, and every accepted request plays acts on it.
-/

namespace SegmentStream

open SegmentStream.Action

/-! ## What is stored at the end -/

theorem Target.read_of_stored {target target' : Target} {store store' : Store}
    (hplaces : target'.places = target.places) (h : target'.stored store' = target.stored store) :
    ∀ place ∈ target.places, store'.read place = store.read place := by
  obtain ⟨label, data, _ | header, dataEnd, headerEnd⟩ := target <;>
    obtain ⟨label', data', _ | header', dataEnd', headerEnd'⟩ := target' <;>
    simp_all [Target.stored, Contents.stored, Target.places, Target.channels]

structure Batch where
  records : List Bytes
  tags : List Tag

namespace Session

open Writer

/-- The active target keeps the transcript of the stream. -/
structure Stands (session : Session) (config : Config) (target : Target) (transcript : Transcript) :
    Prop where
  serves : session.Serves config target
  keeps : (session.writerOn target).Keeps config.splitHeader transcript
  itemSize : transcript.itemSize = config.recordSize

section Stands

variable {session next : Session} {config : Config} {target : Target} {transcript : Transcript}

theorem Reaches.serves {split : Bool} {itemsRead : Nat}
    (h : session.Reaches target split transcript itemsRead next)
    (hserves : session.Serves config target) :
    ∃ target', next.Serves config target' ∧ (next.writerOn target').Keeps split transcript ∧
      (session.writerOn target).outlet.Follows (next.writerOn target').outlet ∧
      next.recorder.itemsRead = itemsRead := by
  obtain ⟨writer, rfl, hfollows, hkeeps⟩ := h
  exact ⟨writer.outlet.target, ⟨hserves.config, rfl, hserves.idle, hserves.accepting⟩, hkeeps,
    hfollows, rfl⟩

theorem installPending_idle (h : session.recorder.rotation.staged = []) :
    installPending session = .ok () session := by
  obtain ⟨⟨config, progress, active, ⟨split, staged, abandoned⟩, itemsRead, unbuffered, dropping,
    closed⟩, host⟩ := session
  cases h
  rfl

theorem ends_installPending_idle {good : Unit → Session → Prop} {bad : StreamError → Session → Prop}
    (h : session.recorder.rotation.staged = []) :
    Ends installPending session good bad ↔ good () session := by
  rw [Ends, installPending_idle h]

/-- The staged commands are taken; the targets of those that come to nothing are closed. -/
def unstage (session : Session) (superseded : List RotationCommand) : Session :=
  { recorder := { session.recorder with
      rotation := { session.recorder.rotation with staged := [] } }
    host := RotationDesk.closeStaged superseded session.host }

/-- What is left of a rotation once the active target is let go of, failing or not. -/
def turnTo (command : RotationCommand) (retired : Except StreamError Unit) :
    Action StreamError Session Unit := do
  let outcome ← match command with
    | .install target => (install target).attempt
    | .detach => detach.attempt
  changeProgress (·.mark .rotate)
  match outcome, retired with
  | .error error, _ => throw error
  | .ok (), .error error => throw error
  | .ok (), .ok () => pure ()

theorem ends_installPending_last {good : Unit → Session → Prop}
    {bad : StreamError → Session → Prop} {superseded : List RotationCommand}
    {command : RotationCommand}
    (h : session.recorder.rotation.staged = superseded ++ [command]) :
    Ends installPending session good bad ↔
      Ends retireActive (session.unstage superseded)
        (fun _ retired => Ends (turnTo command (.ok ())) retired good bad)
        (fun error retired => Ends (turnTo command (.error error)) retired good bad) := by
  simp only [installPending, ends_bind, onRotation, ends_within, Action.ends_change,
    RotationDesk.takePending, h, List.getLast?_concat, List.dropLast_concat, ends_attempt]
  rfl

theorem ends_work {good : Nat → Session → Prop} {bad : StreamError → Session → Prop}
    {items : Bytes} (tags : List Tag) (haccepting : session.recorder.closed = false)
    (hwhole : items.length % session.recorder.config.itemSize.toNat = 0) :
    Ends (work items tags) session good bad ↔
      Ends installPending session (fun _ later => Ends (takeBatch items tags) later good bad)
        bad := by
  simp only [work, ends_bind, ends_get, haccepting, hwhole, Bool.false_eq_true, if_false,
    ne_eq, not_true_eq_false]

/-- A batch that is refused changes nothing. -/
theorem work_refused {items : Bytes} (tags : List Tag)
    (h : session.recorder.closed = true ∨
      items.length % session.recorder.config.itemSize.toNat ≠ 0) :
    Ends (work items tags) session (fun _ _ => False) fun _ next => next = session := by
  simp only [work, ends_bind, ends_get]
  cases hclosed : session.recorder.closed with
  | true => rfl
  | false =>
      have hbroken := h.resolve_left (by simp [hclosed])
      simp only [Bool.false_eq_true, if_false, if_pos hbroken]
      rfl

theorem work_ends {records : List Bytes} {tags : List Tag} (hvalid : config.validate = .ok ())
    (hserves : session.Serves config target)
    (hrecords : ∀ record ∈ records, record.length = config.itemSize.toNat)
    (hresumes : Resumes config.ceiling config.splitHeader (session.writerOn target) transcript
      (script (cuesOf config.recordSize tags) session.recorder.itemsRead records))
    (hsize : transcript.itemSize = config.recordSize) :
    Ends (work records.flatten tags) session
      (fun total next => total = records.length ∧
        session.Reaches target config.splitHeader (transcript.play config.ceiling
          (script (cuesOf config.recordSize tags) session.recorder.itemsRead records))
          (session.recorder.itemsRead + records.length) next)
      (fun error next => ∃ count cause, error = .write count cause ∧ count < records.length ∧
        session.Stops target config.splitHeader transcript tags records count next) := by
  obtain ⟨rfl, hactive, hidle, haccepting⟩ := hserves
  have hwhole : records.flatten.length % session.recorder.config.itemSize.toNat = 0 := by
    rw [flatten_length hrecords, Nat.mul_mod_left]
  rw [ends_work tags haccepting hwhole, ends_installPending_idle hidle]
  exact takeBatch_ends hvalid hrecords hactive hresumes hsize

/-- The stream goes on to the transcript and stands behind so many records. -/
structure Continues (session : Session) (config : Config) (target : Target) (transcript : Transcript)
    (itemsRead : Nat) (next : Session) (target' : Target) : Prop where
  stands : next.Stands config target' transcript
  follows : (session.writerOn target).outlet.Follows (next.writerOn target').outlet
  itemsRead : next.recorder.itemsRead = itemsRead

theorem Continues.quiet {target' : Target} {itemsRead : Nat}
    (h : session.Continues config target transcript itemsRead next target')
    (hquiet : target.faultsAhead = 0) : target'.faultsAhead = 0 :=
  h.follows.quiet hquiet

theorem Continues.trans {last : Session} {target' target'' : Target} {transcript' : Transcript}
    {itemsRead itemsRead' : Nat}
    (h : session.Continues config target transcript itemsRead next target')
    (h' : next.Continues config target' transcript' itemsRead' last target'') :
    session.Continues config target transcript' itemsRead' last target'' :=
  ⟨h'.stands, h.follows.trans h'.follows, h'.itemsRead⟩

theorem Reaches.continues {itemsRead : Nat}
    (h : session.Reaches target config.splitHeader transcript itemsRead next)
    (hserves : session.Serves config target) (hsize : transcript.itemSize = config.recordSize) :
    ∃ target', session.Continues config target transcript itemsRead next target' := by
  obtain ⟨target', hserves', hkeeps, hfollows, hread⟩ := h.serves hserves
  exact ⟨target', ⟨hserves', hkeeps, hsize⟩, hfollows, hread⟩

theorem Stands.work_ends {records : List Bytes} (hvalid : config.validate = .ok ())
    (hstands : session.Stands config target transcript) (hquiet : target.faultsAhead = 0)
    (tags : List Tag) (hrecords : ∀ record ∈ records, record.length = config.itemSize.toNat) :
    Ends (work records.flatten tags) session
      (fun total next => total = records.length ∧ ∃ target', session.Continues config target
        (transcript.play config.ceiling
          (script (cuesOf config.recordSize tags) session.recorder.itemsRead records))
        (session.recorder.itemsRead + records.length) next target')
      (fun _ _ => False) := by
  refine (Session.work_ends hvalid hstands.serves hrecords (.kept hstands.keeps)
    hstands.itemSize).mono ?_ ?_
  · rintro total next ⟨rfl, hreaches⟩
    refine ⟨rfl, hreaches.continues hstands.serves ?_⟩
    refine Transcript.itemSize_play _ (script_suits _ tags _ ?_) hstands.itemSize
    rwa [Config.recordSize_toNat hvalid]
  · rintro error next ⟨count, cause, -, -, writer, -, hloses, -⟩
    exact not_loses hquiet hloses

theorem Stands.updateAttribute_ends (hstands : session.Stands config target transcript)
    (hquiet : target.faultsAhead = 0) (key : String) (value : Attribute) :
    Ends (updateAttribute key value) session
      (fun _ next => ∃ update, HeaderUpdate.prepare config.recordSize key value = .ok update ∧
        ∃ target', session.Continues config target
          (transcript.step config.ceiling (.cut (some update))) session.recorder.itemsRead next
          target')
      (fun error next => ∃ cause, error = .refused cause ∧
        HeaderUpdate.prepare config.recordSize key value = .error cause ∧ next = session) := by
  have h := Session.updateAttribute_ends hstands.serves.active hstands.keeps hquiet config.ceiling
    key value
  rw [hstands.itemSize] at h
  refine h.mono ?_ fun _ _ h => h
  rintro ⟨⟩ next ⟨update, hupdate, hreaches⟩
  refine ⟨update, hupdate, hreaches.continues hstands.serves ?_⟩
  refine Transcript.itemSize_step _ ?_ hstands.itemSize
  rintro accepted ⟨⟩
  exact HeaderUpdate.prepare_isProper hupdate

theorem shutdown_ends (hserves : session.Serves config target)
    (hkeeps : (session.writerOn target).Keeps config.splitHeader transcript) :
    Ends shutdown session
      (fun _ next => session.Retired target config.splitHeader transcript next ∧
        next.recorder.itemsRead = session.recorder.itemsRead)
      (fun _ _ => target.faultsAhead ≠ 0) := by
  obtain ⟨⟨config', progress, active, ⟨split, staged, abandoned⟩, itemsRead, unbuffered, dropping,
    closed⟩, host⟩ := session
  obtain ⟨rfl, rfl, rfl, rfl⟩ := hserves
  let detached : Session := ⟨⟨config', progress, none, ⟨split, [], abandoned⟩, itemsRead, unbuffered,
    dropping, true⟩, host⟩
  have hdetached : (detached.writerOn target).Keeps config'.splitHeader transcript := hkeeps
  simp only [shutdown, ends_bind, ends_get, Bool.false_eq_true, if_false, ends_change, retireActive,
    ends_attempt]
  refine (retire_ends hdetached).mono ?_ fun _ _ h => h
  rintro ⟨⟩ ⟨recorder, host'⟩ ⟨hretired, hrecorder⟩
  have hread : recorder.itemsRead = itemsRead := congrArg Recorder.itemsRead hrecorder
  have hrotation : recorder.rotation = ⟨split, [], abandoned⟩ :=
    congrArg Recorder.rotation hrecorder
  have hhost : (RotationDesk.closePending ⟨recorder.rotation, host'⟩).host = host' := by
    rw [hrotation]
    rfl
  simp only [onRotation, ends_within, ends_modify, ends_report, ends_pure, hhost]
  exact ⟨⟨hretired.tells, hretired.stored, hretired.elsewhere, hretired.headers⟩, hread⟩

/-! ## Streams from start to end -/

/-- The stream has ended, and only its segments are stored. -/
structure Ended (config : Config) (destination : Destination) (host : Host)
    (transcript : Transcript) (itemsRead : Nat) (done : Session) : Prop where
  tells : done.recorder.progress.Tells config.splitHeader transcript.close
  stored : ∃ target : Target, target.places = destination.places config.splitHeader ∧
    target.stored done.host.store = .ofSegments config.splitHeader transcript.close.closed ∧
    ∀ place, place ∉ target.places → done.host.store.read place = host.store.read place
  headers : ∀ running, transcript.running = some running →
    done.recorder.progress.headers = (transcript.headers.measure (running.records.length *
      transcript.itemSize.toNat)).advance running.records.length
  itemsRead : done.recorder.itemsRead = itemsRead

theorem Ended.read_eq {destination destination' : Destination} {host : Host}
    {transcript' : Transcript} {itemsRead itemsRead' : Nat} {done done' : Session}
    (h : done.Ended config destination host transcript itemsRead)
    (h' : done'.Ended config destination' host transcript' itemsRead')
    (hplaces : destination'.places config.splitHeader = destination.places config.splitHeader)
    (hclosed : transcript'.close.closed = transcript.close.closed) (place : Location) :
    done'.host.store.read place = done.host.store.read place := by
  obtain ⟨first, hfirst, hstored, helsewhere⟩ := h.stored
  obtain ⟨second, hsecond, hstored', helsewhere'⟩ := h'.stored
  have hsame : second.places = first.places := by rw [hfirst, hsecond, hplaces]
  by_cases hplace : place ∈ first.places
  · refine Target.read_of_stored hsame ?_ place hplace
    rw [hstored, hstored', hclosed]
  · rw [helsewhere place hplace, helsewhere' place (hsame ▸ hplace)]

/-- The headers at the end depend on the transcript only, once there is a running segment. -/
theorem Ended.headers_eq {destination destination' : Destination} {host host' : Host}
    {itemsRead itemsRead' : Nat} {done done' : Session}
    (h : done.Ended config destination host transcript itemsRead)
    (h' : done'.Ended config destination' host' transcript itemsRead')
    (hrunning : transcript.running.isSome = true) :
    done'.recorder.progress.headers = done.recorder.progress.headers := by
  obtain ⟨running, hsome⟩ := Option.isSome_iff_exists.mp hrunning
  rw [h.headers running hsome, h'.headers running hsome]

theorem Continues.shutdown_ends {destination : Destination} {headers : HeaderState} {host : Host}
    {itemsRead : Nat} {target' : Target}
    (hstarted : Recorder.Started config destination headers host session target)
    (h : session.Continues config target transcript itemsRead next target') :
    Ends shutdown next (fun _ done => done.Ended config destination host transcript itemsRead)
      (fun _ _ => target'.faultsAhead ≠ 0) := by
  obtain ⟨⟨hserves, hkeeps, -⟩, hfollows, hread⟩ := h
  have hplaces : target'.places = target.places := hfollows.places
  refine (Session.shutdown_ends hserves hkeeps).mono ?_ fun _ _ h => h
  rintro ⟨⟩ done ⟨hretired, hread'⟩
  refine ⟨hretired.tells, ⟨target', hplaces.trans hstarted.places, hretired.stored,
    fun place hplace => ?_⟩, hretired.headers, hread'.trans hread⟩
  have hplace' : place ∉ target.places := by rwa [← hplaces]
  rw [hretired.elsewhere place hplace]
  exact (hfollows.elsewhere place hplace').trans (hstarted.elsewhere place hplace')

theorem started_continues {destination : Destination} {headers : HeaderState} {host : Host}
    (hstarted : Recorder.Started config destination headers host session target)
    (hheaders : HeaderState.start config = .ok headers) :
    session.Continues config target (.opening headers) 0 session target :=
  ⟨⟨hstarted.serves, hstarted.keeps, (HeaderState.of_start hheaders).itemSize⟩, .refl _,
    hstarted.itemsRead⟩

end Stands

end Session

end SegmentStream
