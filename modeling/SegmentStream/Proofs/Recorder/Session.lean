import SegmentStream.Proofs.Recorder.Batch
import SegmentStream.Recorder.Basic

/-!
# Sessions with an active target

A batch, an update and the end of the active target, by what the writer on that
target does.  A session differs afterwards only in what the writer holds and in
how many records it has taken.
-/

namespace SegmentStream

/-! ## Usable configurations -/

namespace Config

/-- Record size as the headers state it. -/
def recordSize (config : Config) : UInt32 := config.itemSize.toUInt32

/-- Most records in a segment. -/
def ceiling (config : Config) : Nat := config.maxSegmentSize.toNat

section Valid

variable {config : Config}

theorem of_validate (h : config.validate = .ok ()) :
    config.itemSize ≠ 0 ∧ config.itemSize.toNat ≤ itemSizeLimit ∧ config.maxSegmentSize ≠ 0 ∧
      config.sampleRate.isPositiveFinite = true ∧ config.relativeRate.isPositiveFinite = true ∧
      config.startTime.fraction.isFraction = true := by
  unfold validate at h
  split at h
  · cases h
  split at h
  · cases h
  split at h
  · cases h
  split at h
  · cases h
  split at h
  · cases h
  split at h
  · cases h
  simp_all

theorem recordSize_toNat (h : config.validate = .ok ()) :
    config.recordSize.toNat = config.itemSize.toNat := by
  have hlimit := (of_validate h).2.1
  rw [recordSize, UInt64.toNat_toUInt32, Nat.mod_eq_of_lt]
  exact Nat.lt_of_le_of_lt hlimit (by decide)

theorem itemSize_pos (h : config.validate = .ok ()) : 0 < config.itemSize.toNat := by
  refine Nat.pos_of_ne_zero fun hzero => (of_validate h).1 ?_
  exact UInt64.toNat_inj.mp hzero

theorem recordSize_pos (h : config.validate = .ok ()) : 0 < config.recordSize.toNat := by
  rw [recordSize_toNat h]
  exact itemSize_pos h

theorem recordSize_ne_zero (h : config.validate = .ok ()) : config.recordSize ≠ 0 := by
  intro hzero
  have hpos := recordSize_pos h
  rw [hzero] at hpos
  exact Nat.lt_irrefl 0 hpos

theorem ceiling_pos (h : config.validate = .ok ()) : 0 < config.ceiling := by
  refine Nat.pos_of_ne_zero fun hzero => (of_validate h).2.2.1 ?_
  exact UInt64.toNat_inj.mp hzero

end Valid

end Config

namespace Session

open SegmentStream.Action Writer

/-! ## The writer on a target -/

def writerOn (session : Session) (target : Target) : Writer :=
  ⟨session.recorder.progress, ⟨target, session.host⟩⟩

def withWriter (session : Session) (writer : Writer) : Session :=
  { recorder := { session.recorder with
      progress := writer.progress
      active := some writer.outlet.target }
    host := writer.outlet.host }

def readTo (session : Session) (itemsRead : Nat) : Session :=
  { session with recorder := { session.recorder with itemsRead } }

theorem withWriter_writerOn {session : Session} {target : Target}
    (h : session.recorder.active = some target) :
    session.withWriter (session.writerOn target) = session := by
  obtain ⟨⟨config, progress, active, rotation, itemsRead, unbuffered, dropping, closed⟩, host⟩ :=
    session
  simp only at h
  subst h
  rfl

def withProgress (session : Session) (writer : Writer) : Session :=
  { recorder := { session.recorder with progress := writer.progress }
    host := writer.outlet.host }

section Ends

variable {fault result : Type} {good : result → Session → Prop} {bad : fault → Session → Prop}
  {session : Session}

@[simp] theorem ends_change {good : Unit → Session → Prop} (update : Recorder → Recorder) :
    Ends (change update : Action fault Session Unit) session good bad ↔
      good () { session with recorder := update session.recorder } :=
  Iff.rfl

@[simp] theorem ends_changeProgress {good : Unit → Session → Prop} (update : Progress → Progress) :
    Ends (changeProgress update : Action fault Session Unit) session good bad ↔
      good () { session with recorder := { session.recorder with
        progress := update session.recorder.progress } } :=
  Iff.rfl

@[simp] theorem ends_report {good : Unit → Session → Prop} (event : Event) :
    Ends (report event : Action fault Session Unit) session good bad ↔
      good () { session with host := session.host.report event } :=
  Iff.rfl

theorem ends_onTarget {good : Except fault result × Target → Session → Prop}
    {bad : fault → Session → Prop} (target : Target) (action : Action fault Writer result) :
    Ends (onTarget target action) session good bad ↔
      Ends action (session.writerOn target)
        (fun value writer => good (.ok value, writer.outlet.target) (session.withProgress writer))
        (fun cause writer =>
          good (.error cause, writer.outlet.target) (session.withProgress writer)) := by
  simp only [Ends, onTarget, writerOn]
  cases action ⟨session.recorder.progress, ⟨target, session.host⟩⟩ <;> rfl

theorem ends_onActive (target : Target) (action : Action fault Writer result) :
    Ends (onActive target action) session good bad ↔
      Ends action (session.writerOn target)
        (fun value writer => good value (session.withWriter writer))
        (fun cause writer => bad cause (session.withWriter writer)) := by
  simp only [Ends, onActive, onTarget, writerOn, bind, EStateM.bind]
  cases action ⟨session.recorder.progress, ⟨target, session.host⟩⟩ <;> rfl

end Ends

/-! ## Batches -/

section Batch

variable {session : Session} {config : Config} {target : Target} {split : Bool}
  {transcript : Transcript} {records : List Bytes} {tags : List Tag}

theorem selectTags_ends (first last : Nat) (tags : List Tag) :
    Ends (selectTags first last tags) session
      (fun entries next => entries = BatchStep.selected first last tags ∧
        ∃ log, next = { session with host := { session.host with log } })
      (fun (_ : StreamError) _ => False) := by
  have hreports : ∀ (outside : List Tag) (current : Session),
      Ends (outside.forM fun tag => report (.tagOutsideBatch tag.offset tag.key first last)) current
        (fun _ next => ∃ log, next = { current with host := { current.host with log } })
        (fun (_ : StreamError) _ => False) := by
    intro outside
    induction outside with
    | nil => exact fun current => ⟨current.host.log, rfl⟩
    | cons tag rest ih =>
        intro current
        rw [List.forM, ends_bind, ends_report]
        refine (ih _).mono ?_ fun _ _ h => h
        rintro ⟨⟩ next ⟨log, rfl⟩
        exact ⟨log, rfl⟩
  simp only [selectTags, ends_bind]
  refine (hreports _ session).mono ?_ fun _ _ h => h
  rintro ⟨⟩ next hlog
  exact ⟨rfl, hlog⟩

/-- The session stands behind so many records, and its active target keeps the transcript. -/
def Reaches (session : Session) (target : Target) (split : Bool) (transcript : Transcript)
    (itemsRead : Nat) (next : Session) : Prop :=
  ∃ writer : Writer, next = (session.withWriter writer).readTo itemsRead ∧
    (session.writerOn target).outlet.Follows writer.outlet ∧ writer.Keeps split transcript

/-- The session stopped in a batch at a planned fault, where the rest of the batch can follow. -/
def Stops (session : Session) (target : Target) (split : Bool) (transcript : Transcript)
    (tags : List Tag) (records : List Bytes) (count : Nat) (next : Session) : Prop :=
  let config := session.recorder.config
  let acts := script (cuesOf config.recordSize tags) session.recorder.itemsRead records
  ∃ writer : Writer,
    next = (session.withWriter writer).readTo (session.recorder.itemsRead + count) ∧
    (session.writerOn target).outlet.Loses writer.outlet ∧
    StopsAt config.ceiling split config.recordSize acts (transcript.play config.ceiling acts)
      count writer

theorem Reaches.trans {target' : Target} {transcript' : Transcript} {count count' : Nat}
    {next last : Session} (h : session.Reaches target split transcript count next)
    (hactive : next.recorder.active = some target')
    (h' : next.Reaches target' split transcript' count' last) :
    session.Reaches target split transcript' count' last := by
  obtain ⟨writer, rfl, hfollows, -⟩ := h
  obtain ⟨writer', rfl, hfollows', hkeeps⟩ := h'
  cases hactive
  exact ⟨writer', rfl, hfollows.trans hfollows', hkeeps⟩

/-- A batch for the active target: the read position follows what was stored. -/
theorem record_ends (session : Session) (hvalid : session.recorder.config.validate = .ok ())
    (hrecords : ∀ record ∈ records, record.length = session.recorder.config.itemSize.toNat)
    (hresumes : Resumes session.recorder.config.ceiling split (session.writerOn target) transcript
      (script (cuesOf session.recorder.config.recordSize tags) session.recorder.itemsRead records))
    (hsize : transcript.itemSize = session.recorder.config.recordSize) :
    Ends (record target records.flatten tags) session
      (fun total next => total = records.length ∧
        session.Reaches target split (transcript.play session.recorder.config.ceiling
          (script (cuesOf session.recorder.config.recordSize tags) session.recorder.itemsRead
            records)) (session.recorder.itemsRead + records.length) next)
      (fun error next => ∃ count cause, error = .write count cause ∧ count < records.length ∧
        session.Stops target split transcript tags records count next) := by
  have hsame := Config.recordSize_toNat hvalid
  have hpos := Config.recordSize_pos hvalid
  rw [← hsame] at hrecords
  have htotal : records.flatten.length / session.recorder.config.itemSize.toNat =
      records.length := by
    rw [flatten_length hrecords, ← hsame, Nat.mul_div_cancel _ hpos]
  simp only [record, ends_bind, ends_get, htotal, ends_attempt]
  refine (selectTags_ends _ _ tags).mono ?_ fun _ _ h => h.elim
  rintro entries logged ⟨rfl, log, rfl⟩
  have hlogged := Outlet.relog_follows (session.writerOn target).outlet log
  rw [ends_onActive, ← hsame]
  refine (runBatch_ends (Config.ceiling_pos hvalid) hpos _ tags hrecords
    (hresumes.congr (relog_matches _ log)) hsize).mono ?_ ?_
  · rintro total writer ⟨rfl, hfollows, hkeeps⟩
    exact ⟨rfl, writer, rfl, hlogged.trans hfollows, hkeeps⟩
  · rintro error writer ⟨count, cause, rfl, hless, hloses, hstops⟩
    exact ⟨count, cause, rfl, hless, writer, rfl, .of_follows hlogged hloses, hstops⟩

theorem flushUnbuffered_ends (session : Session) (asError : IoFault → StreamError)
    (hactive : session.recorder.active = some target)
    (hkeeps : (session.writerOn target).Keeps split transcript) :
    Ends (flushUnbuffered asError) session
      (fun _ next => session.Reaches target split transcript session.recorder.itemsRead next)
      (fun _ _ => False) := by
  simp only [flushUnbuffered, ends_bind, ends_get, hactive]
  cases session.recorder.unbuffered with
  | false =>
      refine ⟨session.writerOn target, ?_, .refl _, hkeeps⟩
      rw [withWriter_writerOn hactive]
      rfl
  | true =>
      rw [ends_onActive]
      simp only [ends_mapFault, onOutlet, ends_within]
      refine (Outlet.flush_ends hkeeps.outlet).mono ?_ fun _ _ h => h
      rintro ⟨⟩ outlet ⟨hfollows, hkeeps'⟩
      exact ⟨⟨session.recorder.progress, outlet⟩, rfl, hfollows, hkeeps.tells, hkeeps',
        hkeeps.slotLength⟩

/-- The session with one more batch counted. -/
def batched (session : Session) : Session :=
  { session with recorder := { session.recorder with progress :=
      { session.recorder.progress with counters := session.recorder.progress.counters.addBatch } } }

theorem ends_takeBatch {good : Nat → Session → Prop} {bad : StreamError → Session → Prop}
    (items : Bytes) (tags : List Tag) (hactive : session.recorder.active = some target) :
    Ends (takeBatch items tags) session good bad ↔
      Ends (record target items tags >>= fun written =>
        flushUnbuffered (.write written) >>= fun _ => pure written) session.batched good bad := by
  obtain ⟨⟨config, progress, active, rotation, itemsRead, unbuffered, dropping, closed⟩, host⟩ :=
    session
  cases hactive
  rfl

theorem ends_takeBatch_detached {good : Nat → Session → Prop} {bad : StreamError → Session → Prop}
    (items : Bytes) (tags : List Tag) (hnone : session.recorder.active = none) :
    Ends (takeBatch items tags) session good bad ↔
      Ends (drop (items.length / session.recorder.config.itemSize.toNat) >>= fun _ =>
        pure (items.length / session.recorder.config.itemSize.toNat)) session.batched good bad := by
  obtain ⟨⟨config, progress, active, rotation, itemsRead, unbuffered, dropping, closed⟩, host⟩ :=
    session
  cases hnone
  rfl

theorem takeBatch_ends (hvalid : session.recorder.config.validate = .ok ())
    (hrecords : ∀ record ∈ records, record.length = session.recorder.config.itemSize.toNat)
    (hactive : session.recorder.active = some target)
    (hresumes : Resumes session.recorder.config.ceiling split (session.writerOn target) transcript
      (script (cuesOf session.recorder.config.recordSize tags) session.recorder.itemsRead records))
    (hsize : transcript.itemSize = session.recorder.config.recordSize) :
    Ends (takeBatch records.flatten tags) session
      (fun total next => total = records.length ∧
        session.Reaches target split (transcript.play session.recorder.config.ceiling
          (script (cuesOf session.recorder.config.recordSize tags) session.recorder.itemsRead
            records)) (session.recorder.itemsRead + records.length) next)
      (fun error next => ∃ count cause, error = .write count cause ∧ count < records.length ∧
        session.Stops target split transcript tags records count next) := by
  have hbatched : Resumes session.recorder.config.ceiling split (session.batched.writerOn target)
      transcript (script (cuesOf session.recorder.config.recordSize tags)
        session.recorder.itemsRead records) := 
          hresumes.congr ⟨rfl, rfl, rfl, rfl, rfl⟩
  rw [ends_takeBatch _ _ hactive]
  simp only [ends_bind]
  refine (record_ends session.batched hvalid hrecords hbatched hsize).mono ?_
    fun _ _ h => h
  rintro total next ⟨rfl, hreaches⟩
  have hreaches' : session.Reaches target split _ _ next := hreaches
  obtain ⟨writer, hnext, -, hkeeps⟩ := hreaches
  have hactive' : next.recorder.active = some writer.outlet.target := by
    rw [hnext]
    rfl
  have hwriter : next.writerOn writer.outlet.target = writer := by
    rw [hnext]
    rfl
  have hread : next.recorder.itemsRead = session.recorder.itemsRead + records.length := by
    rw [hnext]
    rfl
  refine (flushUnbuffered_ends next _ hactive' (hwriter.symm ▸ hkeeps)).mono ?_ fun _ _ h => h.elim
  rintro ⟨⟩ last hlast
  rw [hread] at hlast
  exact ⟨rfl, hreaches'.trans hactive' hlast⟩

end Batch

/-! ## Updates -/

section Update

variable {session : Session} {target : Target} {split : Bool} {transcript : Transcript}

theorem not_loses {outlet next : Outlet} (hquiet : outlet.target.faultsAhead = 0)
    (h : outlet.Loses next) : False := by
  have := h.faultsAhead
  omega

theorem prepare_eq {progress : Progress} (h : progress.Tells split transcript) (key : String)
    (value : Attribute) :
    progress.headers.prepare key value = HeaderUpdate.prepare transcript.itemSize key value := by
  rw [Transcript.itemSize, ← h.headers]
  rfl

/-- An accepted update is a cut; a refused one changes nothing. -/
theorem updateAttribute_ends (hactive : session.recorder.active = some target)
    (hkeeps : (session.writerOn target).Keeps split transcript)
    (hquiet : target.faultsAhead = 0) (ceiling : Nat) (key : String) (value : Attribute) :
    Ends (updateAttribute key value) session
      (fun _ next => ∃ update, HeaderUpdate.prepare transcript.itemSize key value = .ok update ∧
        session.Reaches target split (transcript.step ceiling (.cut (some update)))
          session.recorder.itemsRead next)
      (fun error next => ∃ cause, error = .refused cause ∧
        HeaderUpdate.prepare transcript.itemSize key value = .error cause ∧ next = session) := by
  have hprepare := prepare_eq hkeeps.tells key value
  change session.recorder.progress.headers.prepare key value = _ at hprepare
  simp only [updateAttribute, ends_bind, ends_get, hprepare]
  cases hresult : HeaderUpdate.prepare transcript.itemSize key value with
  | error cause => exact ⟨cause, rfl, rfl, rfl⟩
  | ok update =>
      have hproper : Act.Suits transcript.itemSize (.cut (some update)) := by
        rintro accepted ⟨⟩
        exact HeaderUpdate.prepare_isProper hresult
      let counted : Session := { session with recorder := { session.recorder with
        progress := { session.recorder.progress with
          counters := session.recorder.progress.counters.addTag true } } }
      have hcounts : (session.writerOn target).Counts (some update) (counted.writerOn target) :=
        ⟨rfl, rfl, rfl, .inl rfl⟩
      simp only [ends_bind, ends_changeProgress, ends_get, hactive, ends_onActive]
      refine (cut_ends hcounts (.kept hkeeps : Resumes ceiling split _ transcript
        (.cut (some update) :: [])) (settled_nil hkeeps.tells) hproper rfl).mono ?_ ?_
      · rintro ⟨⟩ writer ⟨hfollows, hresumes⟩
        have hkeeps' := hresumes.keeps_of_nil
        let next := counted.withWriter writer
        have hactive' : next.recorder.active = some writer.outlet.target := rfl
        refine (flushUnbuffered_ends next _ hactive' hkeeps').mono ?_
          fun _ _ h => h.elim
        rintro ⟨⟩ last hlast
        have hreaches : session.Reaches target split (transcript.step ceiling (.cut (some update)))
            session.recorder.itemsRead next := ⟨writer, rfl, hfollows, hkeeps'⟩
        exact ⟨update, rfl, hreaches.trans hactive' hlast⟩
      · rintro error writer ⟨-, hloses, -⟩
        exact (not_loses hquiet hloses).elim

end Update

/-! ## The end of a target -/

section Retire

variable {session : Session} {target : Target} {split : Bool} {transcript : Transcript}

/-- The target holds closed segments only; the session tells so. -/
structure Retired (session : Session) (target : Target) (split : Bool) (transcript : Transcript)
    (next : Session) : Prop where
  tells : next.recorder.progress.Tells split transcript.close
  stored : target.stored next.host.store = .ofSegments split transcript.close.closed
  elsewhere : ∀ place, place ∉ target.places →
    next.host.store.read place = session.host.store.read place
  headers : ∀ running, transcript.running = some running →
    next.recorder.progress.headers = (transcript.headers.measure (running.records.length *
      transcript.itemSize.toNat)).advance running.records.length

theorem retired_of_closed {writer : Writer} {host : Host}
    (hfollows : (session.writerOn target).outlet.Follows writer.outlet)
    (hkeeps : writer.Keeps split transcript.close)
    (hheaders : ∀ running, transcript.running = some running →
      writer.progress.headers = (transcript.headers.measure (running.records.length *
        transcript.itemSize.toNat)).advance running.records.length)
    (hslot : transcript.headers.slot = none)
    (hstored : writer.outlet.target.stored host.store = transcript.close.contents split)
    (helsewhere : ∀ place, place ∉ writer.outlet.target.places →
      host.store.read place = writer.outlet.host.store.read place) :
    session.Retired target split transcript
      { recorder := { session.recorder with progress := { writer.progress with
          headers := writer.progress.headers.releaseSlot
          records := 0 } }
        host } := by
  have hnone : transcript.close.running = none := Transcript.running_close
  obtain ⟨hfresh, -, -, hcounters⟩ := hkeeps.tells
  refine ⟨⟨hfresh, ?_, ?_, hcounters⟩, ?_, fun place hplace => ?_, ?_⟩
  · rw [hnone]
    rfl
  · rw [hnone]
    rfl
  · have hclosed : transcript.close.contents split =
        .ofSegments split transcript.close.closed := by
      rw [Transcript.contents, hnone]
    rw [← hclosed, ← hstored]
    exact Target.stored_congr hfollows.places.symm fun _ _ => rfl
  · have hplace' : place ∉ writer.outlet.target.places := by
      rw [hfollows.places]
      exact hplace
    exact (helsewhere place hplace').trans (hfollows.elsewhere place hplace)
  · intro running hrunning
    change writer.progress.headers.releaseSlot = _
    rw [hheaders running hrunning]
    simp only [HeaderState.releaseSlot, HeaderState.advance, HeaderState.measure, hslot]

/-- Only a planned fault keeps a target from being retired. -/
theorem retire_ends (hkeeps : (session.writerOn target).Keeps split transcript) :
    Ends (retire target) session
      (fun _ next => session.Retired target split transcript next ∧
        next.recorder = { session.recorder with progress := next.recorder.progress })
      (fun _ _ => target.faultsAhead ≠ 0) := by
  have hopen := hkeeps.isOpen
  have hslot : transcript.headers.slot = none := by
    rw [← hkeeps.tells.headers]
    rfl
  change session.recorder.progress.headers.isOpen = _ at hopen
  cases hrunning : transcript.running with
  | none =>
      have hclose : transcript.close = transcript := by rw [Transcript.close, hrunning]
      rw [hrunning] at hopen
      simp only [retire, ends_bind, ends_get, hopen, Option.isSome_none, Bool.false_eq_true,
        if_false, ends_pure, ends_changeProgress, ends_report, ends_attempt, onHost, ends_within]
      refine (Target.close_ends hkeeps.outlet).mono ?_ fun _ _ h => h.elim
      rintro ⟨⟩ host ⟨hstored, helsewhere⟩
      rw [← hclose] at hkeeps hstored
      exact ⟨retired_of_closed (.refl _) hkeeps (by simp [hrunning]) hslot hstored helsewhere,
        trivial⟩
  | some running =>
      rw [hrunning] at hopen
      simp only [retire, ends_bind, ends_get, hopen, Option.isSome_some, if_true, ends_onTarget,
        ends_changeProgress, ends_report, ends_attempt, onHost, ends_within]
      refine (closeSegment_ends (hkeeps.frays hrunning) (hkeeps.slotLength running hrunning)).mono
        ?_ ?_
      · rintro ⟨⟩ writer ⟨hfollows, hkeeps', hheaders⟩
        refine (Target.close_ends hkeeps'.outlet).mono ?_ fun _ _ h => h.elim
        rintro ⟨⟩ host ⟨hstored, helsewhere⟩
        refine ⟨retired_of_closed hfollows hkeeps' ?_ hslot hstored helsewhere, rfl⟩
        rintro running' hrunning'
        cases hrunning.symm.trans hrunning'
        exact hheaders
      · rintro error writer ⟨-, hloses, -⟩
        have hahead : target.faultsAhead ≠ 0 := Nat.ne_zero_of_lt hloses.faultsAhead
        exact ends_of_forall (fun _ _ => hahead) fun _ _ => hahead

end Retire

end Session

end SegmentStream
