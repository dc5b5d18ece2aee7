import SegmentStream.Proofs.Recorder.Enduring

/-!
# Counts that agree

Data is counted in whole records, every segment that is closed had its header
written again, and every segment that is begun had one written.  The recorder
counts in a dozen places, behind calls that can each fail half way, and wherever
it stops these agree.  Its configuration stays what it is, and only the call for it
changes whether it is unbuffered.
-/

namespace SegmentStream

open SegmentStream.Action

/-! ## Actions that keep to a relation -/

namespace Action

variable {fault fault' state part result result' : Type} {related : state → state → Prop}

/-- Wherever the action stops, the state it leaves is related to the one before it. -/
def Respects (related : state → state → Prop) (action : Action fault state result) : Prop :=
  ∀ current, Ends action current (fun _ next => related current next)
    (fun _ next => related current next)

section Rules

variable {action : Action fault state result}

theorem respects_pure (hrefl : ∀ current, related current current) (value : result) :
    Respects related (pure value : Action fault state result) := by
  intro current
  exact hrefl current

theorem respects_throw (hrefl : ∀ current, related current current) (cause : fault) :
    Respects related (throw cause : Action fault state result) := by
  intro current
  exact hrefl current

theorem respects_get (hrefl : ∀ current, related current current) :
    Respects related (get : Action fault state state) := by
  intro current
  exact hrefl current

theorem respects_modify {update : state → state} (h : ∀ current, related current (update current)) :
    Respects related (modify update : Action fault state PUnit) := by
  intro current
  exact h current

theorem Respects.bind {next : result → Action fault state result'}
    (haction : Respects related action)
    (htrans : ∀ {first second third}, related first second → related second third →
      related first third)
    (hnext : ∀ value, Respects related (next value)) : Respects related (action >>= next) := by
  intro current
  rw [ends_bind]
  apply (haction current).mono
  · intro value later hlater
    apply (hnext value later).imp
    exact fun _ hlast => htrans hlater hlast
  · exact fun _ _ hlater => hlater

theorem Respects.attempt (h : Respects related action) :
    Respects related (attempt action : Action fault' state (Except fault result)) := by
  intro current
  rw [ends_attempt]
  exact h current

theorem Respects.mapFault (h : Respects related action) (rename : fault → fault') :
    Respects related (mapFault rename action) := by
  intro current
  rw [ends_mapFault]
  exact h current

theorem respects_within {get : state → part} {put : state → part → state}
    (h : ∀ current later, related current (put current later)) (action : Action fault part result) :
    Respects related (within get put action) := by
  intro current
  rw [ends_within]
  exact ends_of_forall (fun _ later => h current later) fun _ later => h current later

end Rules

end Action

/-! ## What is counted -/

namespace Progress

/-- Segments that have begun: those that are closed, and one whose header is open. -/
def begun (progress : Progress) : Nat :=
  progress.counters.segmentsClosed + if progress.headers.isOpen then 1 else 0

/-- So many batches more are counted, and the other counts have moved together. -/
structure Accrues (itemSize batches : Nat) (progress next : Progress) : Prop where
  batches : next.counters.batches = progress.counters.batches + batches
  data : next.counters.dataBytes + progress.counters.recordsWritten * itemSize =
    progress.counters.dataBytes + next.counters.recordsWritten * itemSize
  closed : next.counters.segmentsClosed + progress.counters.headersFinalized ≤
    progress.counters.segmentsClosed + next.counters.headersFinalized
  begun : next.begun + progress.counters.headersEmitted ≤
    progress.begun + next.counters.headersEmitted

section Rules

variable {itemSize batches batches' : Nat} {progress middle next : Progress}

theorem Accrues.trans (h : progress.Accrues itemSize batches middle)
    (h' : middle.Accrues itemSize batches' next) :
    progress.Accrues itemSize (batches + batches') next := by
  have hdata := h.data
  have hdata' := h'.data
  have hclosed := h.closed
  have hclosed' := h'.closed
  have hbegun := h.begun
  have hbegun' := h'.begun
  constructor
  · rw [h'.batches, h.batches, Nat.add_assoc]
  · omega
  · omega
  · omega

/-- Counts that have nothing to do with data, headers or batches may change. -/
theorem Accrues.of_same (hbatches : next.counters.batches = progress.counters.batches)
    (hdata : next.counters.dataBytes = progress.counters.dataBytes)
    (hwritten : next.counters.recordsWritten = progress.counters.recordsWritten)
    (hclosed : next.counters.segmentsClosed = progress.counters.segmentsClosed)
    (hfinalized : next.counters.headersFinalized = progress.counters.headersFinalized)
    (hemitted : next.counters.headersEmitted = progress.counters.headersEmitted)
    (hopen : next.headers.isOpen = true → progress.headers.isOpen = true) :
    progress.Accrues itemSize 0 next := by
  constructor
  · exact hbatches
  · rw [hdata, hwritten]
  · rw [hclosed, hfinalized]
  · unfold Progress.begun
    rw [hclosed, hemitted]
    split
    · rename_i hnext
      rw [if_pos (hopen hnext)]
    · omega

theorem Accrues.refl (progress : Progress) : progress.Accrues itemSize 0 progress :=
  .of_same rfl rfl rfl rfl rfl rfl id

end Rules

end Progress

/-! ## Writers -/

namespace Writer

def Accrues (itemSize : Nat) (writer next : Writer) : Prop :=
  writer.progress.Accrues itemSize 0 next.progress

section Calls

variable {fault result : Type} {itemSize : Nat}

theorem Accrues.refl (writer : Writer) : writer.Accrues itemSize writer :=
  Progress.Accrues.refl writer.progress

theorem Accrues.trans {writer middle next : Writer} (h : writer.Accrues itemSize middle)
    (h' : middle.Accrues itemSize next) : writer.Accrues itemSize next :=
  Progress.Accrues.trans h h'

theorem onOutlet_accrues (action : Action fault Outlet result) :
    Respects (Accrues itemSize) (onOutlet action) := by
  unfold onOutlet
  exact respects_within (fun writer _ => .refl writer) action

theorem mark_accrues (stage : Stage) :
    Respects (Accrues itemSize) (mark stage : Action fault Writer Unit) := by
  unfold mark changeProgress
  apply respects_modify
  intro writer
  apply Progress.Accrues.of_same <;> simp

theorem apply_accrues (update : Option HeaderUpdate) :
    Respects (Accrues itemSize) (apply update : Action fault Writer Unit) := by
  unfold apply changeProgress
  apply respects_modify
  intro writer
  refine Progress.Accrues.of_same rfl rfl rfl rfl rfl rfl ?_
  intro hopen
  rw [HeaderState.isOpen] at hopen ⊢
  exact (congrArg Option.isSome (applySome_slot writer.progress.headers update)).symm.trans hopen

theorem addRecords_accrues (records : Nat) :
    Respects (Accrues itemSize) (addRecords records itemSize : Action fault Writer Unit) := by
  intro writer
  simp only [addRecords, setRecords, count, changeProgress, ends_bind, ends_get, ends_modify]
  constructor
  · rfl
  · simp only [Counters.addData, Nat.add_mul]
    omega
  · exact Nat.le_refl _
  · exact Nat.le_refl _

theorem writeRecords_accrues (items : Bytes) :
    Respects (Accrues itemSize) (writeRecords itemSize items) := by
  unfold writeRecords
  apply (onOutlet_accrues _).attempt.bind Accrues.trans
  intro outcome
  apply (mark_accrues .write).bind Accrues.trans
  intro _
  cases outcome with
  | ok => exact addRecords_accrues _
  | error partly =>
      apply (addRecords_accrues _).bind Accrues.trans
      intro _
      exact respects_throw Accrues.refl _

theorem prepareTag_accrues (tag : Tag) :
    Respects (Accrues itemSize) (prepareTag tag : Action fault Writer (Option HeaderUpdate)) := by
  intro writer
  simp only [prepareTag, ends_bind, ends_get]
  cases writer.progress.headers.prepare tag.key tag.value with
  | ok update => exact .of_same rfl rfl rfl rfl rfl rfl id
  | error cause => exact .of_same rfl rfl rfl rfl rfl rfl id

end Calls

/-! ### Headers -/

section Headers

variable {itemSize : Nat}

theorem finalize_accrues (dataLength : Nat) :
    Respects (Accrues itemSize) (finalize dataLength) := by
  intro writer
  simp only [finalize, ends_bind, onScribe, ends_within, mark, changeProgress, count, ends_modify]
  cases hslot : writer.progress.headers.slot with
  | none =>
      simp only [Scribe.finalize, ends_bind, ends_get, hslot, ends_throw]
      exact .refl _
  | some slot =>
      apply (Scribe.finalize_stays hslot dataLength).mono
      · intro lengths scribe hscribe
        obtain ⟨-, hheaders, -, -⟩ := hscribe
        constructor
        · simp [Counters.addFinalize]
        · simp [Counters.addFinalize]
        · simp [Counters.addFinalize]
        · simp [Counters.addFinalize, Progress.begun, HeaderState.isOpen, hheaders, hslot]
      · intro error scribe hscribe
        obtain ⟨-, hheaders, -, -⟩ := hscribe
        refine Progress.Accrues.of_same rfl rfl rfl rfl rfl rfl ?_
        intro
        simp [HeaderState.isOpen, hslot]

theorem closeSegment_accrues : Respects (Accrues itemSize) closeSegment := by
  intro writer
  simp only [closeSegment, ends_bind, ends_get, onScribe, ends_within, Scribe.closeSegment,
    Scribe.changeHeaders, ends_modify, ends_pure, mark, changeProgress, count, setRecords]
  cases hslot : writer.progress.headers.slot with
  | none =>
      simp only [Scribe.finalize, ends_bind, ends_get, hslot, ends_throw]
      exact .refl _
  | some slot =>
      apply (Scribe.finalize_stays hslot _).mono
      · intro lengths scribe hscribe
        constructor
        · simp [Counters.addFinalize, Counters.addSegment]
        · simp [Counters.addFinalize, Counters.addSegment]
        · simp [Counters.addFinalize, Counters.addSegment]
          omega
        · simp [Counters.addFinalize, Counters.addSegment, Progress.begun, HeaderState.isOpen,
            HeaderState.releaseSlot, hslot]
      · intro error scribe hscribe
        refine Progress.Accrues.of_same rfl rfl rfl rfl rfl rfl ?_
        intro
        simp [HeaderState.isOpen, hslot]

theorem openSegment_accrues : Respects (Accrues itemSize) openSegment := by
  intro writer
  simp only [openSegment, ends_bind, onScribe, ends_within, mark, changeProgress, count, setRecords,
    ends_modify]
  apply Scribe.emit_stays.mono
  · intro slot scribe hscribe
    obtain ⟨-, hheaders, -, -⟩ := hscribe
    constructor
    · simp [Counters.addHeader]
    · simp [Counters.addHeader]
    · simp [Counters.addHeader]
    · simp [Counters.addHeader, Progress.begun, HeaderState.isOpen, hheaders]
      omega
  · intro error scribe hscribe
    obtain ⟨-, hheaders, -, -⟩ := hscribe
    refine Progress.Accrues.of_same rfl rfl rfl rfl rfl rfl ?_
    intro hopen
    rw [hheaders] at hopen
    exact hopen

theorem roll_accrues : Respects (Accrues itemSize) roll := by
  unfold roll
  apply (respects_get Accrues.refl).bind Accrues.trans
  intro writer
  dsimp only
  split
  · apply closeSegment_accrues.bind Accrues.trans
    intro _
    exact openSegment_accrues
  · exact openSegment_accrues

theorem boundary_accrues (update : Option HeaderUpdate) :
    Respects (Accrues itemSize) (boundary update) := by
  unfold boundary
  apply (respects_get Accrues.refl).bind Accrues.trans
  intro writer
  dsimp only
  split
  · apply closeSegment_accrues.bind Accrues.trans
    intro _
    apply (apply_accrues update).bind Accrues.trans
    intro _
    exact openSegment_accrues
  · apply (apply_accrues update).bind Accrues.trans
    intro _
    split
    · exact finalize_accrues 0
    · exact openSegment_accrues

end Headers

/-! ### Batches -/

section Batches

variable {itemSize : Nat}

theorem perform_accrues (written : Nat) (items : Bytes) (step : BatchStep) :
    Respects (Accrues itemSize) (perform itemSize written items step) := by
  cases step with
  | roll =>
      apply Respects.mapFault
      apply (respects_get Accrues.refl).bind Accrues.trans
      intro writer
      apply (onOutlet_accrues _).bind Accrues.trans
      intro _
      apply roll_accrues.bind Accrues.trans
      intro _
      exact respects_pure Accrues.refl items
  | write records =>
      apply ((writeRecords_accrues _).mapFault _).bind Accrues.trans
      intro _
      exact respects_pure Accrues.refl _
  | boundary tag =>
      apply Respects.mapFault
      apply (prepareTag_accrues tag).bind Accrues.trans
      intro update
      apply (boundary_accrues update).bind Accrues.trans
      intro _
      exact respects_pure Accrues.refl items

theorem follow_accrues (steps : List BatchStep) (written : Nat) (items : Bytes) :
    Respects (Accrues itemSize) (follow itemSize steps written items) := by
  induction steps generalizing written items with
  | nil => exact respects_pure Accrues.refl ()
  | cons step rest ih =>
      unfold follow
      apply (perform_accrues written items step).bind Accrues.trans
      intro later
      exact ih _ later

theorem runBatch_accrues (ceiling : Nat) (items : Bytes) (tags : List (Nat × Tag)) :
    Respects (Accrues itemSize) (runBatch ceiling itemSize items tags) := by
  unfold runBatch
  apply (respects_get Accrues.refl).bind Accrues.trans
  intro writer
  apply (follow_accrues _ _ _).bind Accrues.trans
  intro _
  exact respects_pure Accrues.refl _

end Batches

end Writer

/-! ## Sessions -/

namespace Session

/-- The counts of the recorder have moved together, with no further batch and as it was set. -/
structure Accrues (session next : Session) : Prop where
  config : next.recorder.config = session.recorder.config
  unbuffered : next.recorder.unbuffered = session.recorder.unbuffered
  progress : session.recorder.progress.Accrues session.recorder.config.itemSize.toNat 0
    next.recorder.progress

section Calls

variable {fault result : Type}

theorem Accrues.refl (session : Session) : session.Accrues session :=
  ⟨rfl, rfl, .refl session.recorder.progress⟩

theorem Accrues.trans {session middle next : Session} (h : session.Accrues middle)
    (h' : middle.Accrues next) : session.Accrues next := by
  have hprogress := h'.progress
  rw [h.config] at hprogress
  exact ⟨h'.config.trans h.config, h'.unbuffered.trans h.unbuffered, h.progress.trans hprogress⟩

/-- What is neither a count nor the open header nor a setting may change. -/
theorem change_accrues {update : Recorder → Recorder}
    (h : ∀ recorder, (update recorder).config = recorder.config ∧
      (update recorder).unbuffered = recorder.unbuffered ∧
      (update recorder).progress = recorder.progress) :
    Respects Accrues (change update : Action fault Session Unit) := by
  intro session
  rw [ends_change]
  obtain ⟨hconfig, hunbuffered, hprogress⟩ := h session.recorder
  constructor
  · exact hconfig
  · exact hunbuffered
  · rw [hprogress]
    exact .refl _

theorem report_accrues (event : Event) :
    Respects Accrues (report event : Action fault Session Unit) := by
  intro session
  rw [ends_report]
  exact ⟨rfl, rfl, .refl session.recorder.progress⟩

theorem changeProgress_accrues {update : Progress → Progress}
    (h : ∀ (itemSize : Nat) (progress : Progress),
      progress.Accrues itemSize 0 (update progress)) :
    Respects Accrues (changeProgress update : Action fault Session Unit) := by
  intro session
  rw [ends_changeProgress]
  exact ⟨rfl, rfl, h _ session.recorder.progress⟩

theorem onRotation_accrues (action : Action fault RotationDesk result) :
    Respects Accrues (onRotation action) := by
  unfold onRotation
  exact respects_within (fun session _ => ⟨rfl, rfl, .refl session.recorder.progress⟩) action

/-- A batch may write records of the size that the configuration gives. -/
theorem onActive_accrues (session : Session) (target : Target)
    {action : Action fault Writer result}
    (h : Respects (Writer.Accrues session.recorder.config.itemSize.toNat) action) :
    Ends (onActive target action) session (fun _ next => session.Accrues next)
      (fun _ next => session.Accrues next) := by
  rw [ends_onActive]
  apply (h (session.writerOn target)).imp
  exact fun _ hwriter => ⟨rfl, rfl, hwriter⟩

/-! ### Targets -/

theorem retire_accrues (target : Target) : Respects Accrues (retire target) := by
  intro session
  have hreleased : ∀ closed : Session, session.Accrues closed → ∀ host : Host,
      session.Accrues
        { recorder := { closed.recorder with progress := { closed.recorder.progress with
            headers := closed.recorder.progress.headers.releaseSlot, records := 0 } }
          host } := by
    intro closed hclosed host
    apply hclosed.trans
    constructor
    · rfl
    · rfl
    · refine .of_same rfl rfl rfl rfl rfl rfl ?_
      intro hopen
      cases hopen
  simp only [retire, ends_bind, ends_get]
  cases session.recorder.progress.headers.isOpen with
  | false =>
      simp only [Bool.false_eq_true, if_false, ends_bind, ends_pure, ends_changeProgress,
        ends_report, ends_attempt, onHost, ends_within]
      apply ends_of_forall
      · exact fun _ host => hreleased session (.refl session) _
      · exact fun _ host => hreleased session (.refl session) _
  | true =>
      simp only [if_true, ends_bind, ends_onTarget, ends_changeProgress, ends_report, ends_attempt,
        onHost, ends_within]
      apply (Writer.closeSegment_accrues (session.writerOn target)).mono
      · intro _ writer hwriter
        apply ends_of_forall
        · exact fun _ host => hreleased (session.withProgress writer) ⟨rfl, rfl, hwriter⟩ _
        · exact fun _ host => hreleased (session.withProgress writer) ⟨rfl, rfl, hwriter⟩ _
      · intro error writer hwriter
        apply ends_of_forall
        · exact fun _ host => hreleased (session.withProgress writer) ⟨rfl, rfl, hwriter⟩ _
        · exact fun _ host => hreleased (session.withProgress writer) ⟨rfl, rfl, hwriter⟩ _

theorem retireActive_accrues : Respects Accrues retireActive := by
  unfold retireActive
  apply (respects_get Accrues.refl).bind Accrues.trans
  intro session
  split
  · exact respects_pure Accrues.refl _
  · apply Respects.bind (change_accrues ?_) Accrues.trans
    · intro _
      exact retire_accrues _
    · exact fun _ => ⟨rfl, rfl, rfl⟩

/-- The first header of a target is counted only once it is written. -/
theorem install_accrues (target : Target) : Respects Accrues (install target) := by
  intro session
  simp only [install, ends_bind, ends_changeProgress, ends_onTarget, Writer.onScribe, ends_within]
  apply Scribe.emit_stays.mono
  · intro slot scribe hscribe
    obtain ⟨-, hheaders, -, -⟩ := hscribe
    simp only [ends_report, ends_change]
    constructor
    · rfl
    · rfl
    · constructor
      · rfl
      · rfl
      · exact Nat.le_refl _
      · simp [withProgress, Counters.addHeader, Counters.addRotation, Progress.begun,
          HeaderState.isOpen, hheaders, writerOn]
        omega
  · intro error scribe hscribe
    obtain ⟨-, hheaders, -, -⟩ := hscribe
    simp only [ends_modify, ends_throw]
    constructor
    · rfl
    · rfl
    · refine .of_same rfl rfl rfl rfl rfl rfl ?_
      intro hopen
      simp only [withProgress, hheaders] at hopen
      exact hopen

theorem detach_accrues : Respects Accrues detach := by
  unfold detach
  apply (report_accrues _).bind Accrues.trans
  intro _
  apply change_accrues
  exact fun _ => ⟨rfl, rfl, rfl⟩

theorem turnTo_accrues (command : RotationCommand) (retired : Except StreamError Unit) :
    Respects Accrues (turnTo command retired) := by
  have hmarked : Respects Accrues
      (changeProgress (·.mark .rotate) : Action StreamError Session Unit) := by
    apply changeProgress_accrues
    intro itemSize progress
    apply Progress.Accrues.of_same <;> simp
  unfold turnTo
  cases command
  case' install target => apply (install_accrues target).attempt.bind Accrues.trans
  case' detach => apply detach_accrues.attempt.bind Accrues.trans
  all_goals
    intro outcome
    apply hmarked.bind Accrues.trans
    intro _
    split
    · exact respects_throw Accrues.refl _
    · exact respects_throw Accrues.refl _
    · exact respects_pure Accrues.refl _

theorem installPending_accrues : Respects Accrues installPending := by
  intro session
  cases List.eq_nil_or_concat session.recorder.rotation.staged with
  | inl hidle =>
      rw [ends_installPending_idle hidle]
      exact .refl session
  | inr hstaged =>
      obtain ⟨superseded, command, hcommands⟩ := hstaged
      rw [List.concat_eq_append] at hcommands
      rw [ends_installPending_last hcommands]
      have hunstaged : session.Accrues (session.unstage superseded) := ⟨rfl, rfl, .refl _⟩
      have hturned : ∀ (retired : Except StreamError Unit) (next : Session),
          (session.unstage superseded).Accrues next → Ends (turnTo command retired) next
            (fun _ last => session.Accrues last) (fun _ last => session.Accrues last) := by
        intro retired next hnext
        apply (turnTo_accrues command retired next).imp
        exact fun last hlast => hunstaged.trans (hnext.trans hlast)
      apply (retireActive_accrues (session.unstage superseded)).mono
      · exact fun _ next hnext => hturned _ next hnext
      · exact fun error next hnext => hturned _ next hnext

end Calls

/-! ### Batches and updates -/

section Calls

theorem drop_accrues (records : Nat) :
    Respects Accrues (drop records : Action StreamError Session Unit) := by
  intro session
  simp only [drop, ends_bind, ends_get]
  cases session.recorder.dropping with
  | true => exact ⟨rfl, rfl, .of_same rfl rfl rfl rfl rfl rfl id⟩
  | false => exact ⟨rfl, rfl, .of_same rfl rfl rfl rfl rfl rfl id⟩

theorem record_accrues (target : Target) (items : Bytes) (tags : List Tag) :
    Respects Accrues (record target items tags) := by
  intro session
  simp only [record, ends_bind, ends_get, ends_attempt]
  refine (selectTags_ends _ _ tags).mono ?_ fun _ _ h => h.elim
  rintro entries logged ⟨-, log, rfl⟩
  have hlogged := onActive_accrues { session with host := { session.host with log } } target
    (Writer.runBatch_accrues session.recorder.config.maxSegmentSize.toNat items entries)
  apply hlogged.mono
  · exact fun _ next hnext => ⟨hnext.config, hnext.unbuffered, hnext.progress⟩
  · intro error next hnext
    cases error.persisted? with
    | none => exact ⟨hnext.config, hnext.unbuffered, hnext.progress⟩
    | some persisted => exact ⟨hnext.config, hnext.unbuffered, hnext.progress⟩

theorem flushUnbuffered_accrues (asError : IoFault → StreamError) :
    Respects Accrues (flushUnbuffered asError) := by
  unfold flushUnbuffered
  apply (respects_get Accrues.refl).bind Accrues.trans
  intro session
  dsimp only
  split
  · intro current
    exact onActive_accrues current _ ((Writer.onOutlet_accrues _).mapFault asError)
  · exact respects_pure Accrues.refl _

/-- One batch is counted whatever becomes of it. -/
theorem takeBatch_accrues (session : Session) (items : Bytes) (tags : List Tag) :
    Ends (takeBatch items tags) session (fun _ next => session.batched.Accrues next)
      (fun _ next => session.batched.Accrues next) := by
  cases hactive : session.recorder.active with
  | none =>
      rw [ends_takeBatch_detached _ _ hactive]
      apply (drop_accrues _).bind Accrues.trans
      intro _
      exact respects_pure Accrues.refl _
  | some target =>
      rw [ends_takeBatch _ _ hactive]
      apply (record_accrues target items tags).bind Accrues.trans
      intro written
      apply (flushUnbuffered_accrues _).bind Accrues.trans
      intro _
      exact respects_pure Accrues.refl _

theorem updateAttribute_accrues (key : String) (value : Attribute) :
    Respects Accrues (updateAttribute key value) := by
  unfold updateAttribute
  apply (respects_get Accrues.refl).bind Accrues.trans
  intro session
  split
  · exact respects_throw Accrues.refl _
  · rename_i update _
    have hcounted : Respects Accrues (changeProgress fun progress =>
        { progress with counters := progress.counters.addTag true } :
          Action StreamError Session Unit) := by
      apply changeProgress_accrues
      intro itemSize progress
      exact .of_same rfl rfl rfl rfl rfl rfl id
    apply hcounted.bind Accrues.trans
    intro _
    apply (respects_get Accrues.refl).bind Accrues.trans
    intro counted
    split
    · apply changeProgress_accrues
      intro itemSize progress
      refine .of_same rfl rfl rfl rfl rfl rfl ?_
      intro hopen
      rw [HeaderState.isOpen] at hopen ⊢
      exact (congrArg Option.isSome
        (Writer.applySome_slot progress.headers (some update))).symm.trans hopen
    · rename_i target _
      have hcut : Respects Accrues (onActive target (Writer.boundary (some update))) := by
        intro current
        exact onActive_accrues current target (Writer.boundary_accrues _)
      apply hcut.bind Accrues.trans
      intro _
      exact flushUnbuffered_accrues _

theorem shutdown_accrues : Respects Accrues shutdown := by
  unfold shutdown
  apply (respects_get Accrues.refl).bind Accrues.trans
  intro session
  dsimp only
  split
  · exact respects_pure Accrues.refl _
  · apply Respects.bind (change_accrues ?_) Accrues.trans
    · intro _
      apply retireActive_accrues.attempt.bind Accrues.trans
      intro retired
      apply (onRotation_accrues _).bind Accrues.trans
      intro _
      apply (respects_get Accrues.refl).bind Accrues.trans
      intro later
      apply (report_accrues _).bind Accrues.trans
      intro _
      split
      · exact respects_pure Accrues.refl _
      · exact respects_throw Accrues.refl _
    · exact fun _ => ⟨rfl, rfl, rfl⟩

end Calls

/-! ### Every call -/

/-- The recorder is set as a call asks for. -/
def setBy (session : Session) (call : Call) : Session :=
  let unbuffered := call.unbuffered?.getD session.recorder.unbuffered
  { session with recorder := { session.recorder with unbuffered } }

/-- Only batches that are taken up count as batches. -/
theorem answer_accrues (session : Session) {call : Call}
    (hother : ∀ items tags, call ≠ .work items tags) :
    Ends (answer call) session (fun _ next => (session.setBy call).Accrues next)
      fun _ next => (session.setBy call).Accrues next := by
  cases call with
  | work items tags => exact absurd rfl (hother items tags)
  | update key value => exact updateAttribute_accrues key value session
  | setUnbuffered unbuffered => exact .refl (session.setBy (.setUnbuffered unbuffered))
  | rotate destination => exact onRotation_accrues _ session
  | close => exact onRotation_accrues _ session
  | shutdown => exact shutdown_accrues session

/-- A batch counts once it is taken up, and a result is given only for one that was. -/
theorem work_accrues (session : Session) (items : Bytes) (tags : List Tag) :
    Ends (work items tags) session (fun _ next => session.batched.Accrues next)
      (fun _ next => session.Accrues next ∨ session.batched.Accrues next) := by
  by_cases hrefused : session.recorder.closed = true ∨
      items.length % session.recorder.config.itemSize.toNat ≠ 0
  · apply (work_refused tags hrefused).mono
    · exact fun _ _ => False.elim
    · rintro _ _ rfl
      exact .inl (.refl _)
  · obtain ⟨hopen, hwhole⟩ := not_or.mp hrefused
    rw [ends_work tags (Bool.eq_false_of_not_eq_true hopen) (not_not.mp hwhole)]
    have hbatched : ∀ {turned}, session.Accrues turned →
        session.batched.Accrues turned.batched := by
      intro turned hturned
      obtain ⟨hconfig, hunbuffered, hprogress⟩ := hturned
      constructor
      · exact hconfig
      · exact hunbuffered
      · constructor
        · exact congrArg (· + 1) hprogress.batches
        · exact hprogress.data
        · exact hprogress.closed
        · exact hprogress.begun
    apply (installPending_accrues session).mono
    · intro _ turned hturned
      apply (takeBatch_accrues turned items tags).mono
      · exact fun _ next hnext => (hbatched hturned).trans hnext
      · exact fun _ next hnext => .inr ((hbatched hturned).trans hnext)
    · exact fun _ next hnext => .inl hnext

/-- A call counts one batch at most, and leaves everything set as it asks for. -/
theorem stateAfter_accrues (session : Session) (call : Call) :
    (session.setBy call).Accrues ((answer call).stateAfter session) ∨
      (session.setBy call).batched.Accrues ((answer call).stateAfter session) := by
  by_cases hwork : ∃ items tags, call = .work items tags
  · obtain ⟨items, tags, rfl⟩ := hwork
    have htaken : Ends (answer (.work items tags)) session
        (fun _ next => session.Accrues next ∨ session.batched.Accrues next)
        fun _ next => session.Accrues next ∨ session.batched.Accrues next := by
      rw [answer, ends_discard]
      apply (work_accrues session items tags).mono
      · exact fun _ _ hnext => .inr hnext
      · exact fun _ _ hnext => hnext
    exact htaken.stateAfter
  · have hother : ∀ items tags, call ≠ .work items tags :=
      fun items tags hcall => hwork ⟨items, tags, hcall⟩
    exact .inl (answer_accrues session hother).stateAfter

theorem answer_config (session : Session) (call : Call) :
    ((answer call).stateAfter session).recorder.config = session.recorder.config :=
  (stateAfter_accrues session call).elim Accrues.config Accrues.config

theorem after_config (session : Session) (calls : List Call) :
    (session.after calls).recorder.config = session.recorder.config := by
  induction calls generalizing session with
  | nil => rfl
  | cons call rest ih => exact (ih _).trans (answer_config session call)

theorem answer_unbuffered (session : Session) (call : Call) :
    ((answer call).stateAfter session).recorder.unbuffered =
      call.unbuffered?.getD session.recorder.unbuffered :=
  (stateAfter_accrues session call).elim Accrues.unbuffered Accrues.unbuffered

/-- A recorder is unbuffered as the last call that set it has it. -/
theorem after_unbuffered (session : Session) (calls : List Call) :
    (session.after calls).recorder.unbuffered =
      unbufferedBehind session.recorder.unbuffered calls := by
  induction calls generalizing session with
  | nil => rfl
  | cons call rest ih =>
      rw [unbufferedBehind_cons, ← answer_unbuffered]
      exact ih _

end Session

/-! ## Every state -/

namespace Progress

/-- What holds of the counts of a recorder wherever its storage failed. -/
structure IsConsistent (itemSize : Nat) (progress : Progress) : Prop where
  data : progress.counters.dataBytes = progress.counters.recordsWritten * itemSize
  closed : progress.counters.segmentsClosed ≤ progress.counters.headersFinalized
  begun : progress.begun ≤ progress.counters.headersEmitted

theorem IsConsistent.accrues {itemSize batches : Nat} {progress next : Progress}
    (h : progress.IsConsistent itemSize) (haccrues : progress.Accrues itemSize batches next) :
    next.IsConsistent itemSize := by
  have hdata := haccrues.data
  have hclosed := haccrues.closed
  have hbegun := haccrues.begun
  rw [h.data] at hdata
  constructor
  · omega
  · have := h.closed
    omega
  · have := h.begun
    omega

end Progress

namespace Session

def IsConsistent (session : Session) : Prop :=
  session.recorder.progress.IsConsistent session.recorder.config.itemSize.toNat

section States

variable {session next : Session}

theorem IsConsistent.accrues (h : session.IsConsistent) (haccrues : session.Accrues next) :
    next.IsConsistent := by
  unfold IsConsistent
  rw [haccrues.config]
  exact Progress.IsConsistent.accrues h haccrues.progress

theorem IsConsistent.batched (h : session.IsConsistent) : session.batched.IsConsistent :=
  ⟨h.data, h.closed, h.begun⟩

theorem IsConsistent.answer (h : session.IsConsistent) (call : Call) :
    ((answer call).stateAfter session).IsConsistent := by
  have hset : (session.setBy call).IsConsistent := h
  cases stateAfter_accrues session call with
  | inl haccrues => exact hset.accrues haccrues
  | inr haccrues => exact hset.batched.accrues haccrues

theorem IsConsistent.after (h : session.IsConsistent) (calls : List Call) :
    (session.after calls).IsConsistent := by
  induction calls generalizing session with
  | nil => exact h
  | cons call rest ih => exact ih (h.answer call)

end States

end Session

/-- A recorder starts with one header written, and without a batch. -/
theorem Recorder.start_accrues (config : Config) (destination : Destination) (host : Host) :
    Ends (Recorder.start config destination) host
      (fun recorder _ => recorder.config = config ∧
        recorder.unbuffered = config.unbuffered ∧ ∃ headers,
        HeaderState.start config = .ok headers ∧
          ({ headers } : Progress).Accrues config.itemSize.toNat 0 recorder.progress)
      (fun _ _ => True) := by
  unfold Recorder.start
  cases config.validate with
  | error cause => trivial
  | ok _ =>
      cases hheaders : HeaderState.start config with
      | error error => trivial
      | ok headers =>
          simp only [ends_bind, ends_pure]
          apply ends_of_forall _ fun _ _ => trivial
          intro target opened
          rw [ends_get]
          have hopened : Respects (Writer.Accrues config.itemSize.toNat) Writer.openSegment :=
            Writer.openSegment_accrues
          have hstarted := hopened ⟨{ headers }, ⟨target, opened⟩⟩
          unfold Ends at hstarted ⊢
          cases hresult : Writer.openSegment ⟨{ headers }, ⟨target, opened⟩⟩ with
          | ok _ writer =>
              rw [hresult] at hstarted
              exact ⟨rfl, rfl, headers, rfl, hstarted⟩
          | error error writer => trivial

theorem Recorder.start_isConsistent (config : Config) (destination : Destination) (host : Host) :
    Ends (Recorder.start config destination) host
      (fun recorder next => Session.IsConsistent ⟨recorder, next⟩) (fun _ _ => True) := by
  apply (start_accrues config destination host).mono
  · intro recorder next hstarted
    obtain ⟨hconfig, -, headers, hheaders, haccrues⟩ := hstarted
    have hblank : ({ headers } : Progress).IsConsistent config.itemSize.toNat := by
      have hslot : headers.slot = none :=
        congrArg HeaderState.slot (HeaderState.of_start hheaders).fresh.symm
      constructor
      · simp
      · simp
      · simp [Progress.begun, HeaderState.isOpen, hslot]
    have hconsistent := hblank.accrues haccrues
    rw [← hconfig] at hconsistent
    exact hconsistent
  · exact fun _ _ _ => trivial

end SegmentStream
