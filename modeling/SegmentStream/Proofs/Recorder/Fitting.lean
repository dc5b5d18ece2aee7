import SegmentStream.Proofs.Recorder.Loop
import SegmentStream.Proofs.Recorder.Portraits

/-!
# Headers that fit

As long as no channel fails, an open header has the length of what is to be
written over it, and it stands last until a record is behind it.  So it can always
be written again, whatever an update has made of its length, and storage is all
that is left to refuse a batch or an update.
-/

namespace SegmentStream

open SegmentStream.Action BatchStep

/-- A failure of storage, whatever its cause. -/
def StreamError.IsStorage (error : StreamError) : Prop := error.IsExcused fun _ => True

theorem StreamError.IsStorage.withPersisted {error : StreamError} (h : error.IsStorage)
    (persisted : Nat) : (error.withPersisted persisted).IsStorage :=
  Writer.withPersisted_isExcused _ persisted error h

/-! ## Writers -/

namespace Writer

/-- The open header can be written again at any length, or has the length that it needs. -/
structure IsFitted (writer : Writer) : Prop where
  upright : writer.progress.IsUpright
  fits : ∀ slot, writer.progress.headers.slot = some slot →
    slot.length = writer.progress.headers.regionSize
  last : ∀ slot, writer.progress.headers.slot = some slot →
    writer.outlet.target.isSplit = true ∨ writer.progress.records = 0 →
      slot.stop = writer.outlet.target.cursor

section Fitted

variable {writer next : Writer} {ceiling itemSize : Nat}

/-- Nothing but headers, records and the place of the last header matters. -/
theorem IsFitted.of_same (h : writer.IsFitted)
    (hheaders : next.progress.headers = writer.progress.headers)
    (hrecords : next.progress.records = writer.progress.records)
    (hsplit : next.outlet.target.isSplit = writer.outlet.target.isSplit)
    (hcursor : next.outlet.target.cursor = writer.outlet.target.cursor) : next.IsFitted := by
  obtain ⟨hupright, hfits, hlast⟩ := h
  constructor
  · unfold Progress.IsUpright
    rw [hheaders, hrecords]
    exact hupright
  · rw [hheaders]
    exact hfits
  · rw [hheaders, hrecords, hsplit, hcursor]
    exact hlast

/-- A header that was just written fits. -/
theorem isFitted_of_written (slot : Slot) (hslot : next.progress.headers.slot = some slot)
    (hlength : slot.length = next.progress.headers.regionSize)
    (hstop : slot.stop = next.outlet.target.cursor) : next.IsFitted := by
  constructor
  · intro hnone
    cases hslot.symm.trans hnone
  · intro other hother
    cases hslot.symm.trans hother
    exact hlength
  · rintro other hother -
    cases hslot.symm.trans hother
    exact hstop

theorem openSegment_fitted :
    Ends openSegment writer (fun _ next => next.IsFitted) (fun error _ => error.IsStorage) := by
  simp only [openSegment, ends_bind, onScribe, ends_within, mark, changeProgress, count, setRecords,
    ends_modify]
  refine Scribe.emit_stays.mono ?_ ?_
  · rintro slot ⟨headers, outlet⟩ ⟨hslot, rfl, -, hcursor⟩
    refine isFitted_of_written slot ?_ ?_ hcursor.symm
    · simp only [Progress.mark_headers]
    · simp only [Progress.mark_headers]
      rw [hslot]
      rfl
  · rintro error ⟨headers, outlet⟩ ⟨⟨cause, rfl⟩, -⟩
    trivial

theorem closeSegment_fitted (h : writer.IsFitted) {slot : Slot}
    (hslot : writer.progress.headers.slot = some slot) :
    Ends closeSegment writer (fun _ _ => True) (fun error _ => error.IsStorage) := by
  simp only [closeSegment, ends_bind, ends_get, onScribe, ends_within, Scribe.closeSegment,
    Scribe.changeHeaders, ends_modify, ends_pure, mark, changeProgress, count, setRecords]
  refine (Scribe.finalize_stays hslot _).mono (fun _ _ _ => trivial) ?_
  rintro error scribe ⟨hwithholds, -⟩
  unfold Outlet.Withholds at hwithholds
  split at hwithholds
  · trivial
  · exact absurd (h.fits slot hslot).symm hwithholds.1
  · exact hwithholds.elim

/-- A header that stands last can be written again whatever length it needs now. -/
theorem finalize_fitted {slot : Slot} (hslot : writer.progress.headers.slot = some slot)
    (hlast : slot.stop = writer.outlet.target.cursor) :
    Ends (finalize 0) writer (fun _ next => next.IsFitted) (fun error _ => error.IsStorage) := by
  have htail : slot.isTail writer.outlet.target.cursor = true := by
    rw [Slot.isTail, hlast, beq_self_eq_true]
  simp only [finalize, ends_bind, onScribe, ends_within, mark, changeProgress, count, ends_modify]
  refine (Scribe.finalize_stays hslot 0).mono ?_ ?_
  · rintro lengths ⟨headers, outlet⟩ ⟨-, rfl, -, hcursor⟩
    rw [if_pos htail] at hcursor
    refine isFitted_of_written ⟨slot.offset, writer.progress.headers.regionSize⟩ ?_ ?_
      hcursor.symm
    · simp only [Progress.mark_headers]
    · simp only [Progress.mark_headers]
      rfl
  · rintro error scribe ⟨hwithholds, -⟩
    unfold Outlet.Withholds at hwithholds
    split at hwithholds
    · trivial
    · cases htail.symm.trans hwithholds.2
    · exact hwithholds.elim

theorem boundary_fitted (h : writer.IsFitted) (update : Option HeaderUpdate) :
    Ends (boundary update) writer (fun _ next => next.IsFitted)
      (fun error _ => error.IsStorage) := by
  simp only [boundary, ends_bind, ends_get]
  split
  · rename_i hpos
    cases hslot : writer.progress.headers.slot with
    | none => exact absurd (h.upright hslot) (Nat.ne_of_gt hpos)
    | some slot =>
        simp only [ends_bind]
        refine (closeSegment_fitted h hslot).mono (fun _ closed _ => ?_) fun _ _ h => h
        exact openSegment_fitted
  · rename_i hnot
    have hempty : writer.progress.records = 0 := Nat.eq_zero_of_not_pos hnot
    simp only [apply, changeProgress, ends_bind, ends_modify]
    cases hslot : writer.progress.headers.slot with
    | none =>
        simp only [HeaderState.isOpen, hslot, Option.isSome_none, Bool.false_eq_true, if_false]
        exact openSegment_fitted
    | some slot =>
        simp only [HeaderState.isOpen, hslot, Option.isSome_some, if_true]
        have happlied : (writer.applied update).progress.headers.slot = some slot :=
          (applySome_slot ..).trans hslot
        exact finalize_fitted happlied (h.last slot hslot (.inr hempty))

theorem roll_fitted (h : writer.IsFitted) :
    Ends roll writer (fun _ next => next.IsFitted) (fun error _ => error.IsStorage) := by
  simp only [roll, ends_bind, ends_get]
  cases hslot : writer.progress.headers.slot with
  | none =>
      simp only [HeaderState.isOpen, hslot, Option.isSome_none, Bool.false_eq_true, if_false]
      exact openSegment_fitted
  | some slot =>
      simp only [HeaderState.isOpen, hslot, Option.isSome_some, if_true, ends_bind]
      refine (closeSegment_fitted h hslot).mono (fun _ _ _ => ?_) fun _ _ h => h
      exact openSegment_fitted

/-! ### Batches -/

theorem prepareTag_fitted (h : writer.IsFitted) (tag : Tag) :
    Ends (prepareTag tag : Action StreamError Writer (Option HeaderUpdate)) writer
      (fun _ next => next.IsFitted) (fun _ _ => False) := by
  simp only [prepareTag, ends_bind, ends_get]
  cases writer.progress.headers.prepare tag.key tag.value with
  | ok update => exact h.of_same rfl rfl rfl rfl
  | error cause => exact h.of_same rfl rfl rfl rfl

theorem writeRecords_fitted (h : writer.IsFitted) {items : Bytes}
    (hstored : 0 < items.length / itemSize) (hopen : writer.progress.headers.isOpen = true) :
    Ends (writeRecords itemSize items) writer (fun _ next => next.IsFitted)
      (fun _ _ => True) := by
  simp only [writeRecords, ends_bind, onOutlet, ends_attempt, ends_within, mark, changeProgress,
    ends_modify]
  refine (writer.outlet.writeData_stays items itemSize).mono ?_ fun _ _ _ => trivial
  rintro ⟨⟩ outlet ⟨hstays, hcursor⟩
  have hheaders := Progress.mark_headers writer.progress .write
  refine ⟨fun hnone => ?_, fun slot hslot => ?_, fun slot hslot hwhere => ?_⟩
  · rw [HeaderState.isOpen, ← hheaders, hnone] at hopen
    cases hopen
  · exact (h.fits slot (hheaders ▸ hslot)).trans (congrArg HeaderState.regionSize hheaders.symm)
  · rcases hwhere with hsplit | hnone
    · have hsplit' : writer.outlet.target.isSplit = true := hstays.isSplit.symm.trans hsplit
      exact (h.last slot (hheaders ▸ hslot) (.inl hsplit')).trans (hcursor hsplit').symm
    · exact absurd (Nat.add_eq_zero_iff.mp hnone).2 (Nat.ne_of_gt hstored)

theorem perform_fitted (hsize : 0 < itemSize) (h : writer.IsFitted) (step : BatchStep)
    (rest : List BatchStep) (written left : Nat) {items : Bytes}
    (hitems : left * itemSize ≤ items.length)
    (hfits : Fits ceiling (writer.room ceiling) left (step :: rest)) :
    Ends (perform itemSize written items step) writer (fun _ next => next.IsFitted)
      (fun error _ => error.IsStorage) := by
  cases step with
  | roll =>
      simp only [perform, ends_mapFault, ends_bind, ends_get, onOutlet, Outlet.report, ends_within,
        ends_modify, ends_pure]
      have hreported : Writer.IsFitted { writer with outlet := { writer.outlet with
          host := writer.outlet.host.report (.segmentFull writer.progress.records) } } :=
        h.of_same rfl rfl rfl rfl
      exact (roll_fitted hreported).mono (fun _ _ h => h) fun _ _ h => h.withPersisted written
  | boundary tag =>
      simp only [perform, ends_mapFault, ends_bind, ends_pure]
      refine (prepareTag_fitted h tag).mono (fun update prepared hprepared => ?_) fun _ _ h => h.elim
      exact (boundary_fitted hprepared update).mono (fun _ _ h => h)
        fun _ _ h => h.withPersisted written
  | write count =>
      obtain ⟨hcount, hroom, hleft, -⟩ := hfits
      have hopen := isOpen_of_room (Nat.lt_of_lt_of_le hcount hroom)
      have hnow : (items.take (count * itemSize)).length = count * itemSize :=
        List.length_take_of_le (Nat.le_trans (Nat.mul_le_mul_right itemSize hleft) hitems)
      have hstored : 0 < (items.take (count * itemSize)).length / itemSize := by
        rwa [hnow, Nat.mul_div_cancel _ hsize]
      simp only [perform, List.splitAt_eq, ends_bind, ends_mapFault, ends_pure]
      exact (writeRecords_fitted h hstored hopen).mono (fun _ _ h => h) fun _ _ _ => trivial

theorem follow_fitted (hsize : 0 < itemSize) (h : writer.IsFitted) (steps : List BatchStep)
    (written left : Nat) {items : Bytes} (hitems : left * itemSize ≤ items.length)
    (hfits : Fits ceiling (writer.room ceiling) left steps) :
    Ends (follow itemSize steps written items) writer (fun _ next => next.IsFitted)
      (fun error _ => error.IsStorage) := by
  induction steps generalizing writer written left items with
  | nil => exact h
  | cons step rest ih =>
      simp only [follow, ends_bind]
      refine ((perform_fitted hsize h step rest written left hitems hfits).and
        (perform_tallies hsize step rest written left hitems hfits h.upright)).mono ?_
          fun _ _ h => h.1
      rintro later middle ⟨hmiddle, hlater, hrest, -⟩
      exact ih hmiddle _ _ hlater hrest

theorem runBatch_fitted (hsize : 0 < itemSize) (hceiling : 0 < ceiling) (h : writer.IsFitted)
    {items : Bytes} {tags : List (Nat × Tag)} (htags : InOrder 0 (items.length / itemSize) tags) :
    Ends (runBatch ceiling itemSize items tags) writer
      (fun written next => written = items.length / itemSize ∧ next.IsFitted)
      (fun error _ => error.IsStorage) := by
  have hfits := plan_fits hceiling (writer.room ceiling) htags
  simp only [runBatch, ends_bind, ends_get, ends_pure]
  exact (follow_fitted hsize h _ 0 _ (Nat.div_mul_le_self ..) hfits).mono
    (fun _ _ h => ⟨trivial, h⟩) fun _ _ h => h

end Fitted

end Writer

/-! ## Sessions -/

namespace Session

/-- The header on the active target fits, and without a target none is open. -/
structure IsFitted (session : Session) : Prop where
  active : ∀ target, session.recorder.active = some target → (session.writerOn target).IsFitted
  detached : session.recorder.active = none → session.recorder.progress.headers.slot = none

section Fitted

variable {session next : Session} {target : Target}

theorem IsFitted.of_same (h : session.IsFitted)
    (hactive : next.recorder.active = session.recorder.active)
    (hheaders : next.recorder.progress.headers = session.recorder.progress.headers)
    (hrecords : next.recorder.progress.records = session.recorder.progress.records) :
    next.IsFitted := by
  constructor
  · intro target hsome
    exact (h.active target (hactive.symm.trans hsome)).of_same hheaders hrecords rfl rfl
  · intro hnone
    rw [hheaders]
    exact h.detached (hactive.symm.trans hnone)

theorem isFitted_withWriter (session : Session) {writer : Writer} (h : writer.IsFitted) :
    (session.withWriter writer).IsFitted := by
  constructor
  · rintro target ⟨⟩
    exact h
  · intro hnone
    cases hnone

/-! ### Changing the target -/

theorem retire_fitted (h : (session.writerOn target).IsFitted) :
    Ends (retire target) session (fun _ next => session.Frees next)
      (fun error next => session.Frees next ∧ error.IsStorage) := by
  have hstorage : Ends (retire target) session (fun _ _ => True) fun error _ => error.IsStorage := by
    cases hslot : session.recorder.progress.headers.slot with
    | none =>
        simp only [retire, ends_bind, ends_get, HeaderState.isOpen, hslot, Option.isSome_none,
          Bool.false_eq_true, if_false, ends_pure, ends_changeProgress, ends_report, ends_attempt,
          onHost, ends_within]
        exact ends_of_forall (fun _ _ => trivial) fun _ _ => trivial
    | some slot =>
        simp only [retire, ends_bind, ends_get, HeaderState.isOpen, hslot, Option.isSome_some,
          if_true, ends_onTarget, ends_changeProgress, ends_report, ends_attempt, onHost,
          ends_within]
        refine (Writer.closeSegment_fitted h hslot).mono ?_ ?_
        · exact fun _ _ _ => ends_of_forall (fun _ _ => trivial) fun _ _ => trivial
        · exact fun _ _ hfailed => ends_of_forall (fun _ _ => hfailed) fun _ _ => hfailed
  exact ((retire_frees session target).and hstorage).mono (fun _ _ h => h.1)
    fun _ _ h => ⟨h.1.1, h.2⟩

/-- Without a target, and without an open header. -/
def IsDetached (session : Session) : Prop :=
  session.recorder.active = none ∧ session.recorder.progress.headers.slot = none

theorem IsDetached.isFitted (h : session.IsDetached) : session.IsFitted := by
  constructor
  · intro target hsome
    cases h.1.symm.trans hsome
  · exact fun _ => h.2

theorem retireActive_fitted (h : session.IsFitted) :
    Ends retireActive session (fun _ next => next.IsDetached)
      (fun error next => next.IsDetached ∧ error.IsStorage) := by
  simp only [retireActive, ends_bind, ends_get]
  cases hactive : session.recorder.active with
  | none => exact ⟨hactive, h.detached hactive⟩
  | some target =>
      let freed : Session := { session with recorder := { session.recorder with active := none } }
      have hfreed : (freed.writerOn target).IsFitted := h.active target hactive
      have hdetached : ∀ {next}, freed.Frees next → next.IsDetached := by
        intro next hnext
        have hnone : next.recorder.active = none := by rw [hnext.recorder]
        exact ⟨hnone, hnext.slot⟩
      simp only [ends_bind, ends_change]
      exact (retire_fitted hfreed).mono (fun _ _ hnext => hdetached hnext)
        fun _ _ hnext => ⟨hdetached hnext.1, hnext.2⟩

theorem install_fitted (session : Session) (target : Target) :
    Ends (install target) session (fun _ next => next.IsFitted)
      (fun error _ => error.IsStorage) := by
  simp only [install, ends_bind, ends_changeProgress, ends_onTarget, Writer.onScribe, ends_within]
  refine Scribe.emit_stays.mono ?_ ?_
  · rintro slot ⟨headers, outlet⟩ ⟨rfl, rfl, -, hcursor⟩
    simp only [ends_report, ends_change]
    constructor
    · rintro current ⟨⟩
      exact Writer.isFitted_of_written _ rfl rfl hcursor.symm
    · intro hnone
      cases hnone
  · rintro error ⟨headers, outlet⟩ ⟨⟨cause, rfl⟩, -⟩
    trivial

theorem turnTo_fitted (h : session.IsDetached) (command : RotationCommand)
    {retired : Except StreamError Unit}
    (hretired : ∀ error, retired = .error error → error.IsStorage) :
    Ends (turnTo command retired) session (fun _ next => next.IsFitted)
      (fun error _ => error.IsStorage) := by
  have hmarked : ∀ next : Session, next.IsFitted → Session.IsFitted { next with
      recorder := { next.recorder with progress := next.recorder.progress.mark .rotate } } :=
    fun next hnext => hnext.of_same rfl (Progress.mark_headers ..) (Progress.mark_records ..)
  cases command with
  | detach =>
      simp only [turnTo, ends_bind, ends_attempt, detach, ends_report, ends_change,
        ends_changeProgress]
      let detached : Session :=
        { recorder := { session.recorder with dropping := false }
          host := session.host.report .detached }
      have hdetached : detached.IsFitted := h.isFitted.of_same rfl rfl rfl
      cases retired with
      | ok => exact hmarked detached hdetached
      | error error => exact hretired error rfl
  | install target =>
      simp only [turnTo, ends_bind, ends_attempt]
      refine (install_fitted session target).mono ?_ fun _ _ h => h
      rintro ⟨⟩ next hnext
      simp only [ends_changeProgress]
      cases retired with
      | ok => exact hmarked next hnext
      | error error => exact hretired error rfl

theorem installPending_fitted (h : session.IsFitted) :
    Ends installPending session (fun _ next => next.IsFitted)
      (fun error _ => error.IsStorage) := by
  rcases List.eq_nil_or_concat session.recorder.rotation.staged with hidle | hstaged
  · rw [ends_installPending_idle hidle]
    exact h
  · obtain ⟨superseded, command, hcommands⟩ := hstaged
    rw [List.concat_eq_append] at hcommands
    have hunstaged : (session.unstage superseded).IsFitted := h.of_same rfl rfl rfl
    rw [ends_installPending_last hcommands]
    refine (retireActive_fitted hunstaged).mono ?_ ?_
    · exact fun _ retired hretired => turnTo_fitted hretired command nofun
    · rintro error retired ⟨hretired, hstorage⟩
      refine turnTo_fitted hretired command fun _ h => ?_
      cases h
      exact hstorage

/-! ### Batches and updates -/

theorem flushUnbuffered_fitted (h : session.IsFitted) (asError : IoFault → StreamError)
    (hstorage : ∀ cause, (asError cause).IsStorage) :
    Ends (flushUnbuffered asError) session (fun _ next => next.IsFitted)
      (fun error _ => error.IsStorage) := by
  simp only [flushUnbuffered, ends_bind, ends_get]
  cases session.recorder.unbuffered with
  | false => exact h
  | true =>
      cases hactive : session.recorder.active with
      | none => exact h
      | some target =>
          simp only [ends_onActive, ends_mapFault, Writer.onOutlet, ends_within]
          refine ((session.writerOn target).outlet.flush_stays).mono ?_
            fun cause _ _ => hstorage cause
          rintro ⟨⟩ outlet ⟨hstays, hcursor⟩
          exact isFitted_withWriter session
            ((h.active target hactive).of_same rfl rfl hstays.isSplit hcursor)

theorem record_fitted (hvalid : session.recorder.config.validate = .ok ())
    (h : (session.writerOn target).IsFitted) (items : Bytes) (tags : List Tag) :
    Ends (record target items tags) session (fun _ next => next.IsFitted)
      (fun error _ => error.IsStorage) := by
  let first := session.recorder.itemsRead
  let total := items.length / session.recorder.config.itemSize.toNat
  have horder := selected_inOrder first (first + total) tags
  rw [Nat.add_sub_cancel_left] at horder
  simp only [record, ends_bind, ends_get, ends_attempt]
  refine (selectTags_ends first (first + total) tags).mono ?_ fun _ _ h => h.elim
  rintro entries logged ⟨rfl, log, rfl⟩
  have hlogged : Writer.IsFitted (Session.writerOn { session with
      host := { session.host with log } } target) := h.of_same rfl rfl rfl rfl
  rw [ends_onActive]
  refine (Writer.runBatch_fitted (Config.itemSize_pos hvalid) (Config.ceiling_pos hvalid) hlogged
    horder).mono ?_ ?_
  · rintro written writer ⟨-, hwriter⟩
    have hnext : (session.withWriter writer).IsFitted := isFitted_withWriter session hwriter
    exact hnext.of_same rfl rfl rfl
  · intro error writer hstorage
    cases error.persisted? <;> exact hstorage

theorem takeBatch_fitted (hvalid : session.recorder.config.validate = .ok ())
    (h : session.IsFitted) (items : Bytes) (tags : List Tag) :
    Ends (takeBatch items tags) session (fun _ next => next.IsFitted)
      (fun error _ => error.IsStorage) := by
  have hbatched : session.batched.IsFitted := h.of_same rfl rfl rfl
  cases hactive : session.recorder.active with
  | none =>
      rw [ends_takeBatch_detached _ _ hactive]
      simp only [drop, ends_bind, ends_get, ends_pure]
      cases session.batched.recorder.dropping <;> exact hbatched.of_same rfl rfl rfl
  | some target =>
      have hvalid' : session.batched.recorder.config.validate = .ok () := hvalid
      rw [ends_takeBatch _ _ hactive]
      simp only [ends_bind, ends_pure]
      refine (record_fitted hvalid' (hbatched.active target hactive) items tags).mono ?_
        fun _ _ h => h
      exact fun written recorded hrecorded =>
        flushUnbuffered_fitted hrecorded (.write written) fun _ => trivial

/-- A batch is refused by storage, or before anything is done about it. -/
theorem work_fitted (hvalid : session.recorder.config.validate = .ok ()) (h : session.IsFitted)
    (items : Bytes) (tags : List Tag) :
    Ends (work items tags) session (fun _ next => next.IsFitted)
      (fun error next => error.IsStorage ∨ next = session) := by
  by_cases hrefused : session.recorder.closed = true ∨
      items.length % session.recorder.config.itemSize.toNat ≠ 0
  · exact (work_refused tags hrefused).mono (fun _ _ => False.elim) fun _ _ => .inr
  · obtain ⟨hopen, hwhole⟩ := not_or.mp hrefused
    rw [ends_work tags (Bool.eq_false_of_not_eq_true hopen) (not_not.mp hwhole)]
    have hconfig := installPending_accrues session
    refine ((installPending_fitted h).and hconfig).mono ?_ fun _ _ h => .inl h.1
    rintro ⟨⟩ turned ⟨hturned, hsame⟩
    have hvalid' : turned.recorder.config.validate = .ok () := by rwa [hsame.config]
    exact (takeBatch_fitted hvalid' hturned items tags).mono (fun _ _ h => h) fun _ _ => .inl

/-- An update is refused by storage, or for what it asks for. -/
theorem updateAttribute_fitted (h : session.IsFitted) (key : String) (value : Attribute) :
    Ends (updateAttribute key value) session (fun _ next => next.IsFitted)
      (fun error next => error.IsStorage ∨
        (∃ cause, session.recorder.progress.headers.prepare key value = .error cause ∧
          error = .refused cause) ∧ next = session) := by
  simp only [updateAttribute, ends_bind, ends_get]
  cases hprepare : session.recorder.progress.headers.prepare key value with
  | error cause => exact .inr ⟨⟨cause, rfl, rfl⟩, rfl⟩
  | ok update =>
      simp only [ends_bind, ends_changeProgress, ends_get]
      cases hactive : session.recorder.active with
      | none =>
          constructor
          · intro target hsome
            cases hsome
          · intro _
            exact (Writer.applySome_slot _ (some update)).trans (h.detached hactive)
      | some target =>
          have hcounted : Writer.IsFitted (Session.writerOn { session with recorder :=
              { session.recorder with progress := { session.recorder.progress with
                counters := session.recorder.progress.counters.addTag true } } } target) :=
            (h.active target hactive).of_same rfl rfl rfl rfl
          simp only [ends_bind, ends_onActive]
          refine (Writer.boundary_fitted hcounted (some update)).mono ?_ fun _ _ => .inl
          rintro ⟨⟩ writer hwriter
          have hnext := isFitted_withWriter session hwriter
          exact (flushUnbuffered_fitted hnext .io fun _ => trivial).mono (fun _ _ h => h)
            fun _ _ => .inl

/-! ### Every call -/

theorem shutdown_fitted (h : session.IsFitted) :
    Ends shutdown session (fun _ next => next.IsFitted) (fun error _ => error.IsStorage) := by
  cases hclosed : session.recorder.closed with
  | true =>
      simp only [shutdown, ends_bind, ends_get, hclosed, if_true]
      exact h
  | false =>
      let closing : Session := { session with recorder := { session.recorder with closed := true } }
      have hclosing : closing.IsFitted := h.of_same rfl rfl rfl
      simp only [shutdown, ends_bind, ends_get, hclosed, Bool.false_eq_true, if_false, ends_change,
        ends_attempt, onRotation, ends_within, ends_modify, ends_report]
      refine (retireActive_fitted hclosing).mono ?_ fun _ _ h => h.2
      exact fun _ retired hretired => hretired.isFitted.of_same rfl rfl rfl

theorem onRotation_fitted {result : Type} (h : session.IsFitted)
    (action : Action StreamError RotationDesk result) :
    Ends (onRotation action) session (fun _ next => next.IsFitted) (fun _ next => next.IsFitted) := by
  rw [onRotation, ends_within]
  exact ends_of_forall (fun _ _ => h.of_same rfl rfl rfl) fun _ _ => h.of_same rfl rfl rfl

theorem reply_fitted (hvalid : session.recorder.config.validate = .ok ()) (h : session.IsFitted)
    (call : Call) :
    Ends (reply call) session (fun _ next => next.IsFitted)
      (fun error next => error.IsStorage ∨ next.IsFitted) := by
  cases call with
  | work items tags =>
      rw [reply, ends_map]
      refine (work_fitted hvalid h items tags).mono (fun _ _ h => h) ?_
      rintro error next (hstorage | rfl)
      · exact .inl hstorage
      · exact .inr h
  | update key value =>
      rw [ends_reply (by simp)]
      refine (updateAttribute_fitted h key value).mono (fun _ _ h => h) ?_
      rintro error next (hstorage | ⟨-, rfl⟩)
      · exact .inl hstorage
      · exact .inr h
  | setUnbuffered unbuffered => exact h.of_same rfl rfl rfl
  | rotate destination =>
      rw [ends_reply (by simp)]
      exact (onRotation_fitted h _).mono (fun _ _ h => h) fun _ _ => .inr
  | close =>
      rw [ends_reply (by simp)]
      exact (onRotation_fitted h _).mono (fun _ _ h => h) fun _ _ => .inr
  | shutdown =>
      rw [ends_reply (by simp)]
      exact (shutdown_fitted h).mono (fun _ _ h => h) fun _ _ => .inl

/-- Headers fit as long as no channel has failed a call. -/
theorem after_isFitted (hvalid : session.recorder.config.validate = .ok ()) (h : session.IsFitted)
    {calls : List Call} (hspared : session.IsSpared (fun _ => True) calls) :
    (session.after calls).IsFitted := by
  induction calls generalizing session with
  | nil => exact h
  | cons call rest ih =>
      have hvalid' : ((answer call).stateAfter session).recorder.config.validate = .ok () := by
        rwa [answer_config]
      refine ih hvalid' ?_ fun error herror => hspared error (List.mem_cons_of_mem _ herror)
      change ((answer call).stateAfter session).IsFitted
      rw [← stateAfter_reply]
      obtain ⟨-, -, hfitted⟩ | ⟨error, hreply, hbad⟩ := run_of_ends (reply_fitted hvalid h call)
      · exact hfitted
      · exact hbad.resolve_left (hspared error (hreply ▸ List.mem_cons_self))

end Fitted

end Session

theorem Recorder.start_fitted (config : Config) (destination : Destination) (host : Host) :
    Ends (Recorder.start config destination) host
      (fun recorder started => recorder.config = config ∧ config.validate = .ok () ∧
        (Session.mk recorder started).IsFitted) (fun _ _ => True) := by
  unfold Ends
  cases hstart : Recorder.start config destination host with
  | error error started => trivial
  | ok recorder started =>
      obtain ⟨hvalid, headers, hheaders⟩ := Recorder.isUsable_of_start hstart
      have hends : Ends (Recorder.start config destination) host
          (fun recorder started => recorder.config = config ∧ config.validate = .ok () ∧
            (Session.mk recorder started).IsFitted) fun _ _ => True := by
        rw [Recorder.ends_start hvalid hheaders]
        refine ends_of_forall (fun target opened => ?_) fun _ _ => trivial
        refine Writer.openSegment_fitted.mono ?_ fun _ _ _ => trivial
        rintro ⟨⟩ writer hwriter
        refine ⟨rfl, hvalid, ?_, ?_⟩
        · rintro target ⟨⟩
          exact hwriter.of_same rfl rfl rfl rfl
        · intro hnone
          cases hnone
      exact hends.of_ok hstart

end SegmentStream
