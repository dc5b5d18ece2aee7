import SegmentStream.Proofs.Recorder.Script
import SegmentStream.Proofs.Recorder.Writing
import SegmentStream.Proofs.Target.Failing

/-!
# Writers that fail

What a batch leaves behind wherever it stops: how many records are counted, which
failure is given, and whether the open header can still be written again.  A
header is stale when what is to be written over it has another length.  That can
be mended as long as nothing stands behind it.
-/

namespace SegmentStream

open SegmentStream.Action BatchStep

/-! ## Headers that fail -/

namespace Scribe

section Headers

variable {scribe : Scribe}

/-- What becomes of the open header when it is written again. -/
theorem finalize_stays {slot : Slot} (hslot : scribe.headers.slot = some slot) (dataLength : Nat) :
    let headers := scribe.headers.measure dataLength
    let rewritten : Slot := ⟨slot.offset, scribe.headers.regionSize⟩
    Ends (finalize dataLength) scribe
      (fun lengths next => lengths = (slot.length, scribe.headers.regionSize) ∧
        next.headers = { headers with slot := some rewritten } ∧
        scribe.outlet.Stays next.outlet ∧
        next.outlet.target.cursor = if slot.isTail scribe.outlet.target.cursor then rewritten.stop
          else scribe.outlet.target.cursor)
      (fun error next => scribe.outlet.Withholds slot scribe.headers.regionSize error ∧
        next.headers = headers ∧ scribe.outlet.Stays next.outlet ∧
        next.outlet.target.cursor = scribe.outlet.target.cursor) := by
  intro headers rewritten
  have hlength : headers.region.length = scribe.headers.regionSize :=
    (HeaderState.region_length _).trans (HeaderState.regionSize_measure ..)
  have hrewrite := scribe.outlet.rewriteHeader_stays slot headers.region
  rw [hlength] at hrewrite
  simp only [finalize, ends_bind, ends_get, hslot, changeHeaders, ends_modify, onOutlet,
    ends_within, setSlot, Outlet.report, ends_pure]
  refine hrewrite.mono ?_ ?_
  · rintro slot' outlet ⟨rfl, hstays, hcursor⟩
    exact ⟨rfl, rfl, hstays.trans (.report ..), hcursor⟩
  · rintro error outlet ⟨hwithholds, hstays, hcursor⟩
    exact ⟨hwithholds, rfl, hstays, hcursor⟩

theorem emit_stays :
    Ends emit scribe
      (fun slot next => slot = ⟨scribe.outlet.target.cursor, scribe.headers.regionSize⟩ ∧
        next.headers = { scribe.headers.measure 0 with slot := some slot } ∧
        scribe.outlet.Stays next.outlet ∧ next.outlet.target.cursor = slot.stop)
      (fun error next => (∃ cause, error = .io cause) ∧
        next.headers = scribe.headers.measure 0 ∧ scribe.outlet.Stays next.outlet ∧
        next.outlet.target.cursor = scribe.outlet.target.cursor) := by
  have happend := scribe.outlet.appendHeader_stays (scribe.headers.measure 0).region
  rw [HeaderState.region_length, HeaderState.regionSize_measure] at happend
  simp only [emit, ends_bind, ends_get, changeHeaders, ends_modify, onOutlet, ends_within,
    ends_mapFault, setSlot, Outlet.report, ends_pure]
  refine happend.mono ?_ ?_
  · rintro slot outlet ⟨hslot, hstays, hcursor⟩
    exact ⟨hslot, trivial, hstays.trans (.report ..), hcursor⟩
  · rintro cause outlet ⟨hstays, hcursor⟩
    exact ⟨⟨cause, rfl⟩, trivial, hstays, hcursor⟩

end Headers

end Scribe

namespace Progress

/-- Records stand behind an open header only. -/
def IsUpright (progress : Progress) : Prop :=
  progress.headers.slot = none → progress.records = 0

/-- The open header does not have the length of what is to be written over it. -/
def IsStale (progress : Progress) : Prop :=
  ∃ slot, progress.headers.slot = some slot ∧ slot.length ≠ progress.headers.regionSize

end Progress

namespace Writer

/-- The open header can be written again: it has its length, or nothing stands behind it. -/
structure IsMendable (writer : Writer) : Prop where
  cutsBack : writer.outlet.target.CutsBack
  last : ∀ slot, writer.progress.headers.slot = some slot →
    writer.outlet.target.isSplit = true ∨ writer.progress.records = 0 →
      slot.stop = writer.outlet.target.cursor
  fits : ∀ slot, writer.progress.headers.slot = some slot → 0 < writer.progress.records →
    slot.length = writer.progress.headers.regionSize

/-- A header is open, has its length, and waits for its first record. -/
structure IsReady (writer : Writer) : Prop where
  records : writer.progress.records = 0
  slot : ∃ offset, writer.progress.headers.slot =
    some ⟨offset, writer.progress.headers.regionSize⟩

/-- So many records more are counted; the open header can be written again on a proviso. -/
structure Tallies (writer : Writer) (proviso : Prop) (records : Nat) (next : Writer) : Prop where
  written : next.progress.counters.recordsWritten =
    writer.progress.counters.recordsWritten + records
  dropped : next.progress.counters.recordsDropped = writer.progress.counters.recordsDropped
  upright : next.progress.IsUpright
  mendable : writer.IsMendable → proviso → next.IsMendable

/-- Storage can always fail; a header is refused only if it could not be written again. -/
def Blames (writer : Writer) : StreamError → Prop
  | .io _ => True
  | .format (.regionResized ..) => ¬ writer.IsMendable
  | _ => False

section Rules

variable {writer middle next : Writer} {proviso proviso' : Prop} {first second : Nat}

theorem IsReady.not_isStale (h : writer.IsReady) : ¬ writer.progress.IsStale := by
  rintro ⟨slot, hslot, hlength⟩
  obtain ⟨offset, hoffset⟩ := h.slot
  rw [hoffset] at hslot
  cases hslot
  exact hlength rfl

theorem IsReady.room (h : writer.IsReady) (ceiling : Nat) : writer.room ceiling = ceiling := by
  obtain ⟨offset, hoffset⟩ := h.slot
  rw [Writer.room, HeaderState.isOpen, hoffset, h.records]
  rfl

theorem Tallies.trans (h : writer.Tallies proviso first middle)
    (h' : middle.Tallies proviso' second next) (hproviso : proviso → proviso') :
    writer.Tallies proviso (first + second) next where
  written := by rw [h'.written, h.written, Nat.add_assoc]
  dropped := h'.dropped.trans h.dropped
  upright := h'.upright
  mendable hmendable hfirst := h'.mendable (h.mendable hmendable hfirst) (hproviso hfirst)

theorem Tallies.weaken (h : writer.Tallies proviso first next) (hproviso : proviso' → proviso) :
    writer.Tallies proviso' first next :=
  ⟨h.written, h.dropped, h.upright, fun hmendable hweak => h.mendable hmendable (hproviso hweak)⟩

/-- Nothing is stored, and the open header stands where it stood. -/
theorem Tallies.of_same (hupright : writer.progress.IsUpright)
    (hslot : next.progress.headers.slot = writer.progress.headers.slot)
    (hregion : next.progress.headers.regionSize = writer.progress.headers.regionSize)
    (hrecords : next.progress.records = writer.progress.records)
    (hwritten : next.progress.counters.recordsWritten = writer.progress.counters.recordsWritten)
    (hdropped : next.progress.counters.recordsDropped = writer.progress.counters.recordsDropped)
    (hstays : writer.outlet.Stays next.outlet)
    (hcursor : next.outlet.target.cursor = writer.outlet.target.cursor) :
    writer.Tallies True 0 next := by
  refine ⟨hwritten, hdropped, fun hnone => hrecords.trans (hupright (hslot.symm.trans hnone)),
    fun hmendable _ => ⟨hstays.cutsBack hmendable.cutsBack, ?_, ?_⟩⟩
  · intro slot hopen hlast
    rw [hslot] at hopen
    rw [hstays.isSplit, hrecords] at hlast
    rw [hcursor]
    exact hmendable.last slot hopen hlast
  · intro slot hopen hpos
    rw [hslot] at hopen
    rw [hrecords] at hpos
    rw [hregion]
    exact hmendable.fits slot hopen hpos

end Rules

/-! ## Headers -/

section Headers

variable {writer : Writer} {slot : Slot}

/-- A header that can be written again is refused by storage only. -/
theorem blames_of_withholds (hslot : writer.progress.headers.slot = some slot) {error : StreamError}
    (h : writer.outlet.Withholds slot writer.progress.headers.regionSize error) :
    writer.Blames error := by
  unfold Outlet.Withholds at h
  split at h
  · trivial
  · obtain ⟨hlength, htail⟩ := h
    intro hmendable
    rcases Nat.eq_zero_or_pos writer.progress.records with hzero | hpos
    · have hstop := hmendable.last slot hslot (.inr hzero)
      rw [Slot.isTail, hstop, beq_self_eq_true] at htail
      cases htail
    · exact hlength (hmendable.fits slot hslot hpos).symm
  · exact h.elim

theorem finalize_tallies (hslot : writer.progress.headers.slot = some slot)
    (hempty : writer.progress.records = 0) :
    Ends (finalize 0) writer (fun _ next => writer.Tallies True 0 next ∧ next.IsReady)
      (fun error next => writer.Tallies True 0 next ∧ writer.Blames error) := by
  simp only [finalize, ends_bind, onScribe, ends_within, mark, changeProgress, count, ends_modify]
  refine (Scribe.finalize_stays hslot 0).mono ?_ ?_
  · rintro lengths ⟨headers, outlet⟩ ⟨rfl, rfl, hstays, hcursor⟩
    have hrecords : (({ writer.progress with headers := { writer.progress.headers.measure 0 with
        slot := some ⟨slot.offset, writer.progress.headers.regionSize⟩ } } : Progress).mark
          .finalize).records = 0 := (Progress.mark_records ..).trans hempty
    refine ⟨⟨?_, ?_, fun _ => hrecords, fun hmendable _ => ⟨hstays.cutsBack hmendable.cutsBack,
      ?_, ?_⟩⟩, hrecords, slot.offset, ?_⟩
    · simp [Counters.addFinalize]
    · simp [Counters.addFinalize]
    · rintro rewritten hrewritten -
      have hstop := hmendable.last slot hslot (.inr hempty)
      simp only [Progress.mark_headers, Option.some.injEq] at hrewritten
      rw [Slot.isTail, hstop, beq_self_eq_true, if_pos rfl] at hcursor
      rw [hcursor, ← hrewritten]
    · rintro rewritten - hpos
      rw [hrecords] at hpos
      cases hpos
    · simp only [Progress.mark_headers]
      rfl
  · rintro error ⟨headers, outlet⟩ ⟨hwithholds, rfl, hstays, hcursor⟩
    exact ⟨.of_same (fun _ => hempty) rfl rfl rfl rfl rfl hstays hcursor,
      blames_of_withholds hslot hwithholds⟩

theorem closeSegment_tallies (hslot : writer.progress.headers.slot = some slot) :
    Ends closeSegment writer
      (fun _ next => writer.Tallies True 0 next ∧ next.progress.headers.slot = none ∧
        next.progress.records = 0)
      (fun error next => writer.Tallies True 0 next ∧ writer.Blames error) := by
  simp only [closeSegment, ends_bind, ends_get, onScribe, ends_within, Scribe.closeSegment,
    Scribe.changeHeaders, ends_modify, ends_pure, mark, changeProgress, count, setRecords]
  refine (Scribe.finalize_stays hslot _).mono ?_ ?_
  · rintro lengths ⟨headers, outlet⟩ ⟨rfl, rfl, hstays, -⟩
    have hslot' : ((({ writer.progress with headers := (({ writer.progress.headers.measure
        (writer.progress.records * writer.progress.headers.header.itemSize.toNat) with
          slot := some ⟨slot.offset, writer.progress.headers.regionSize⟩ } : HeaderState).advance
            writer.progress.records).releaseSlot } : Progress).mark .finalize).headers.slot) =
              none := by
      rw [Progress.mark_headers]
      rfl
    refine ⟨⟨?_, ?_, fun _ => rfl, fun hmendable _ => ⟨hstays.cutsBack hmendable.cutsBack,
      ?_, ?_⟩⟩, hslot', trivial⟩
    · simp [Counters.addFinalize, Counters.addSegment]
    · simp [Counters.addFinalize, Counters.addSegment]
    · rintro other hother
      cases hslot'.symm.trans hother
    · rintro other hother
      cases hslot'.symm.trans hother
  · rintro error ⟨headers, outlet⟩ ⟨hwithholds, rfl, hstays, hcursor⟩
    have hupright : writer.progress.IsUpright := by
      intro hclosed
      cases hslot.symm.trans hclosed
    exact ⟨.of_same hupright rfl rfl rfl rfl rfl hstays hcursor,
      blames_of_withholds hslot hwithholds⟩

theorem openSegment_tallies (hempty : writer.progress.records = 0) :
    Ends openSegment writer (fun _ next => writer.Tallies True 0 next ∧ next.IsReady)
      (fun error next => writer.Tallies True 0 next ∧ writer.Blames error) := by
  simp only [openSegment, ends_bind, onScribe, ends_within, mark, changeProgress, count, setRecords,
    ends_modify]
  refine Scribe.emit_stays.mono ?_ ?_
  · rintro slot ⟨headers, outlet⟩ ⟨hslot, rfl, hstays, hcursor⟩
    have hslot' : (({ writer.progress with headers := { writer.progress.headers.measure 0 with
        slot := some slot } } : Progress).mark .emit).headers.slot = some slot := by
      rw [Progress.mark_headers]
    refine ⟨⟨?_, ?_, fun _ => rfl, fun hmendable _ => ⟨hstays.cutsBack hmendable.cutsBack,
      ?_, ?_⟩⟩, rfl, writer.outlet.target.cursor, ?_⟩
    · simp [Counters.addHeader]
    · simp [Counters.addHeader]
    · rintro other hother -
      cases hslot'.symm.trans hother
      exact hcursor.symm
    · rintro other - hpos
      cases hpos
    · simp only [Progress.mark_headers]
      exact congrArg some hslot
  · rintro error ⟨headers, outlet⟩ ⟨⟨cause, rfl⟩, rfl, hstays, hcursor⟩
    exact ⟨.of_same (fun _ => hempty) rfl rfl rfl rfl rfl hstays hcursor, trivial⟩

end Headers

/-! ## Boundaries -/

section Boundaries

variable {writer : Writer}

theorem Tallies.refl (h : writer.progress.IsUpright) (proviso : Prop) :
    writer.Tallies proviso 0 writer :=
  ⟨rfl, rfl, h, fun hmendable _ => hmendable⟩

theorem applied_tallies (hempty : writer.progress.records = 0) (update : Option HeaderUpdate) :
    writer.Tallies True 0 (writer.applied update) := by
  refine ⟨rfl, rfl, fun _ => hempty, fun hmendable _ => ⟨hmendable.cutsBack, ?_, ?_⟩⟩
  · intro slot hslot hlast
    exact hmendable.last slot ((applySome_slot ..).symm.trans hslot) hlast
  · rintro slot - hpos
    rw [applied, hempty] at hpos
    cases hpos

theorem Blames.of_tallies {next : Writer} {error : StreamError}
    (htallies : writer.Tallies True 0 next) (h : next.Blames error) : writer.Blames error := by
  unfold Blames at h ⊢
  split at h
  · trivial
  · exact fun hmendable => h (htallies.mendable hmendable trivial)
  · exact h.elim

/-- What follows on a step that stored no record stores none either. -/
theorem ends_after {middle : Writer} {action : Action StreamError Writer Unit}
    (htallies : writer.Tallies True 0 middle)
    (h : Ends action middle (fun _ next => middle.Tallies True 0 next ∧ next.IsReady)
      (fun error next => middle.Tallies True 0 next ∧ middle.Blames error)) :
    Ends action middle (fun _ next => writer.Tallies True 0 next ∧ next.IsReady)
      (fun error next => writer.Tallies True 0 next ∧ writer.Blames error) :=
  h.mono (fun _ _ h => ⟨htallies.trans h.1 id, h.2⟩)
    fun _ _ h => ⟨htallies.trans h.1 id, h.2.of_tallies htallies⟩

/-- A boundary leaves a header ready, or fails with one that can still be written again. -/
theorem boundary_tallies (hupright : writer.progress.IsUpright) (update : Option HeaderUpdate) :
    Ends (boundary update) writer (fun _ next => writer.Tallies True 0 next ∧ next.IsReady)
      (fun error next => writer.Tallies True 0 next ∧ writer.Blames error) := by
  rcases Nat.eq_zero_or_pos writer.progress.records with hempty | hpos
  · have happlied := applied_tallies hempty update
    have hnot : ¬ 0 < writer.progress.records := Nat.not_lt.mpr (Nat.le_of_eq hempty)
    simp only [boundary, ends_bind, ends_get, if_neg hnot, apply, changeProgress, ends_modify]
    cases hslot : writer.progress.headers.slot with
    | none =>
        simp only [HeaderState.isOpen, hslot, Option.isSome_none, Bool.false_eq_true, if_false]
        exact ends_after happlied (openSegment_tallies hempty)
    | some slot =>
        simp only [HeaderState.isOpen, hslot, Option.isSome_some, if_true]
        exact ends_after happlied (finalize_tallies ((applySome_slot ..).trans hslot) hempty)
  · obtain ⟨slot, hslot⟩ : ∃ slot, writer.progress.headers.slot = some slot := by
      cases hslot : writer.progress.headers.slot with
      | none => exact absurd (hupright hslot) (Nat.ne_of_gt hpos)
      | some slot => exact ⟨slot, rfl⟩
    simp only [boundary, ends_bind, ends_get, hpos, if_true, apply, changeProgress, ends_modify]
    refine (closeSegment_tallies hslot).mono ?_ fun _ _ h => h
    rintro ⟨⟩ closed ⟨htallies, -, hempty⟩
    have happlied := htallies.trans (applied_tallies hempty update) id
    exact ends_after happlied (openSegment_tallies hempty)

theorem roll_tallies (hupright : writer.progress.IsUpright) :
    Ends roll writer (fun _ next => writer.Tallies True 0 next ∧ next.IsReady)
      (fun error next => writer.Tallies True 0 next ∧ writer.Blames error) := by
  simp only [roll, ends_bind, ends_get]
  cases hslot : writer.progress.headers.slot with
  | none =>
      simp only [HeaderState.isOpen, hslot, Option.isSome_none, Bool.false_eq_true, if_false]
      exact openSegment_tallies (hupright hslot)
  | some slot =>
      simp only [HeaderState.isOpen, hslot, Option.isSome_some, if_true, ends_bind]
      refine (closeSegment_tallies hslot).mono ?_ fun _ _ h => h
      rintro ⟨⟩ closed ⟨htallies, -, hempty⟩
      exact ends_after htallies (openSegment_tallies hempty)

end Boundaries

/-! ## Records -/

section Records

variable {writer : Writer} {itemSize : Nat}

theorem Tallies.of_stored (itemSize : Nat) {next : Writer} {count : Nat}
    (hopen : writer.progress.headers.isOpen = true)
    (hheaders : next.progress.headers = writer.progress.headers)
    (hrecords : next.progress.records = writer.progress.records + count)
    (hcounters : next.progress.counters = writer.progress.counters.addData count itemSize)
    (hstays : writer.outlet.Stays next.outlet)
    (hcursor : writer.outlet.target.isSplit = true ∨ writer.outlet.target.CutsBack ∧ count = 0 →
      next.outlet.target.cursor = writer.outlet.target.cursor) :
    writer.Tallies (0 < count → ¬ writer.progress.IsStale) count next := by
  refine ⟨by rw [hcounters]; rfl, by rw [hcounters]; rfl, fun hnone => ?_,
    fun hmendable hfresh => ⟨hstays.cutsBack hmendable.cutsBack, ?_, ?_⟩⟩
  · rw [hheaders] at hnone
    rw [HeaderState.isOpen, hnone] at hopen
    cases hopen
  · intro slot hslot hlast
    rw [hheaders] at hslot
    rw [hstays.isSplit, hrecords] at hlast
    rcases hlast with hsplit | hzero
    · rw [hcursor (.inl hsplit)]
      exact hmendable.last slot hslot (.inl hsplit)
    · obtain ⟨hempty, hnone⟩ := Nat.add_eq_zero_iff.mp hzero
      rw [hcursor (.inr ⟨hmendable.cutsBack, hnone⟩)]
      exact hmendable.last slot hslot (.inr hempty)
  · intro slot hslot hpos
    rw [hheaders] at hslot ⊢
    rw [hrecords] at hpos
    rcases Nat.eq_zero_or_pos count with rfl | hcount
    · exact hmendable.fits slot hslot hpos
    · by_contra hlength
      exact hfresh hcount ⟨slot, hslot, hlength⟩

/-- Records that were stored before a failure are counted, and the failure tells their number. -/
theorem writeRecords_tallies {count : Nat} {items : Bytes} (hsize : 0 < itemSize)
    (hlength : items.length = count * itemSize) (hcount : 0 < count)
    (hopen : writer.progress.headers.isOpen = true) :
    Ends (writeRecords itemSize items) writer
      (fun _ next => writer.Tallies (0 < count → ¬ writer.progress.IsStale) count next ∧
        next.progress.headers = writer.progress.headers ∧
        next.progress.records = writer.progress.records + count)
      (fun failure next =>
        writer.Tallies (0 < failure.1 → ¬ writer.progress.IsStale) failure.1 next) := by
  have hall : items.length / itemSize = count := by rw [hlength, Nat.mul_div_cancel _ hsize]
  simp only [writeRecords, ends_bind, onOutlet, ends_attempt, ends_within, mark, changeProgress,
    ends_modify]
  refine (writer.outlet.writeData_stays items itemSize).mono ?_ ?_
  · rintro ⟨⟩ outlet ⟨hstays, hcursor⟩
    simp only [hall]
    refine ⟨.of_stored itemSize hopen ?_ ?_ ?_ hstays ?_, ?_, ?_⟩
    · exact Progress.mark_headers ..
    · exact congrArg (· + count) (Progress.mark_records ..)
    · exact congrArg (Counters.addData · count itemSize) (Progress.mark_counters ..)
    · rintro (hsplit | ⟨-, hzero⟩)
      · exact hcursor hsplit
      · exact absurd hzero (Nat.ne_of_gt hcount)
    · exact Progress.mark_headers ..
    · exact congrArg (· + count) (Progress.mark_records ..)
  · rintro ⟨written, cause⟩ outlet ⟨hstays, hdvd, hcursor⟩
    rw [Nat.max_eq_left hsize] at hdvd
    obtain ⟨stored, rfl⟩ := hdvd
    have hstored : itemSize * stored / itemSize = stored := Nat.mul_div_cancel_left stored hsize
    simp only [hstored]
    refine .of_stored itemSize hopen ?_ ?_ ?_ hstays ?_
    · exact Progress.mark_headers ..
    · exact congrArg (· + stored) (Progress.mark_records ..)
    · exact congrArg (Counters.addData · stored itemSize) (Progress.mark_counters ..)
    · rintro (hsplit | ⟨hcuts, rfl⟩)
      · exact hcursor (.inl hsplit)
      · exact hcursor (.inr ⟨hcuts, Nat.mul_zero itemSize⟩)

end Records

/-! ## Batches -/

section Batches

variable {writer : Writer} {ceiling itemSize : Nat}

theorem prepareTag_tallies (hupright : writer.progress.IsUpright) (tag : Tag) :
    Ends (prepareTag tag : Action StreamError Writer (Option HeaderUpdate)) writer
      (fun _ next => writer.Tallies True 0 next) (fun _ _ => False) := by
  simp only [prepareTag, ends_bind, ends_get]
  cases writer.progress.headers.prepare tag.key tag.value with
  | ok update => exact .of_same hupright rfl rfl rfl rfl rfl (.refl _) rfl
  | error cause => exact .of_same hupright rfl rfl rfl rfl rfl (.report ..) rfl

/-- Why a batch stopped behind so many records; only mistrust lets a header be refused. -/
def StopsFor (persisted : Nat) (trusted : Prop) : StreamError → Prop
  | .write count _ => count = persisted
  | .format (.regionResized ..) => ¬ trusted
  | _ => False

theorem Blames.stopsFor {error : StreamError} (h : writer.Blames error) (written : Nat) :
    StopsFor written writer.IsMendable (error.withPersisted written) := by
  unfold Blames at h
  split at h
  · rfl
  · exact h
  · exact h.elim

theorem StopsFor.mono {persisted : Nat} {trusted trusted' : Prop} {error : StreamError}
    (h : StopsFor persisted trusted error) (htrusted : trusted' → trusted) :
    StopsFor persisted trusted' error := by
  unfold StopsFor at h ⊢
  split at h
  · exact h
  · exact fun htrust => h (htrusted htrust)
  · exact h.elim

/-- Records are written behind a header that has its length. -/
def Trusts (writer : Writer) (records : Nat) : Prop := 0 < records → ¬ writer.progress.IsStale

/-- Records are written as far as they fit, and counted as far as they are stored. -/
theorem perform_write_tallies (hsize : 0 < itemSize) (rest : List BatchStep)
    (written left : Nat) {count : Nat} {items : Bytes} (hitems : left * itemSize ≤ items.length)
    (hfits : Fits ceiling (writer.room ceiling) left (.write count :: rest)) :
    Ends (perform itemSize written items (.write count)) writer
      (fun later next => (left - count) * itemSize ≤ later.length ∧
        Fits ceiling (next.room ceiling) (left - count) rest ∧
        writer.Tallies (writer.Trusts count) count next ∧
        (writer.Trusts count → ¬ next.progress.IsStale))
      (fun error next => ∃ stored, writer.Tallies (writer.Trusts count) stored next ∧
        StopsFor (written + stored) (writer.IsMendable ∧ writer.Trusts count) error) := by
  obtain ⟨hcount, hroom, hleft, hrest⟩ := hfits
  have hopen : writer.progress.headers.isOpen = true := by
    by_contra hclosed
    rw [room, if_neg hclosed] at hroom
    omega
  have hnow : (items.take (count * itemSize)).length = count * itemSize :=
    List.length_take_of_le (Nat.le_trans (Nat.mul_le_mul_right itemSize hleft) hitems)
  simp only [perform, List.splitAt_eq, ends_bind, ends_mapFault, ends_pure]
  refine (writeRecords_tallies hsize hnow hcount hopen).mono ?_ ?_
  · rintro ⟨⟩ next ⟨htallies, hheaders, hrecords⟩
    refine ⟨?_, ?_, htallies, fun htrusts => ?_⟩
    · rw [List.length_drop, Nat.sub_mul]
      exact Nat.sub_le_sub_right hitems _
    · have hroom' : next.room ceiling = writer.room ceiling - count := by
        rw [room, room, hheaders, hrecords, if_pos hopen, if_pos hopen, Nat.sub_add_eq]
      rwa [hroom']
    · rw [Progress.IsStale, hheaders]
      exact htrusts hcount
  · rintro ⟨stored, cause⟩ next htallies
    exact ⟨stored, htallies.weaken fun htrusts _ => htrusts hcount, rfl⟩

theorem perform_tallies (hsize : 0 < itemSize) (step : BatchStep) (rest : List BatchStep)
    (written left : Nat) {items : Bytes} (hitems : left * itemSize ≤ items.length)
    (hfits : Fits ceiling (writer.room ceiling) left (step :: rest))
    (hupright : writer.progress.IsUpright) :
    Ends (perform itemSize written items step) writer
      (fun later next => (left - step.records) * itemSize ≤ later.length ∧
        Fits ceiling (next.room ceiling) (left - step.records) rest ∧
        writer.Tallies (writer.Trusts step.records) step.records next ∧
        (writer.Trusts step.records → ¬ next.progress.IsStale))
      (fun error next => ∃ stored, writer.Tallies (writer.Trusts step.records) stored next ∧
        StopsFor (written + stored) (writer.IsMendable ∧ writer.Trusts step.records) error) := by
  have hkept : ∀ {next : Writer}, writer.Tallies True 0 next → next.IsReady →
      writer.Tallies (writer.Trusts 0) 0 next ∧ (writer.Trusts 0 → ¬ next.progress.IsStale) :=
    fun htallies hready => ⟨htallies.weaken fun _ => trivial, fun _ => hready.not_isStale⟩
  have hblamed : ∀ {current : Writer} {error : StreamError} {next : Writer},
      writer.Tallies True 0 current → current.Tallies True 0 next → current.Blames error →
      ∃ stored, writer.Tallies (writer.Trusts 0) stored next ∧
        StopsFor (written + stored) (writer.IsMendable ∧ writer.Trusts 0)
          (error.withPersisted written) :=
    fun hcurrent hnext hblames => ⟨0, (hcurrent.trans hnext id).weaken fun _ => trivial,
      ((hblames.of_tallies hcurrent).stopsFor written).mono And.left⟩
  cases step with
  | roll =>
      obtain ⟨-, -, hrest⟩ := hfits
      simp only [perform, ends_mapFault, ends_bind, ends_get, onOutlet, Outlet.report, ends_within,
        ends_modify, ends_pure]
      have hreported : writer.Tallies True 0 { writer with outlet := { writer.outlet with
          host := writer.outlet.host.report (.segmentFull writer.progress.records) } } :=
        .of_same hupright rfl rfl rfl rfl rfl (.report ..) rfl
      refine (roll_tallies hreported.upright).mono ?_ ?_
      · rintro ⟨⟩ next ⟨htallies, hready⟩
        refine ⟨hitems, ?_, hkept (hreported.trans htallies id) hready⟩
        rwa [hready.room]
      · rintro error next ⟨htallies, hblames⟩
        exact hblamed hreported htallies hblames
  | boundary tag =>
      obtain ⟨-, hrest⟩ := hfits
      simp only [perform, ends_mapFault, ends_bind, ends_pure]
      refine (prepareTag_tallies hupright tag).mono ?_ fun _ _ h => h.elim
      rintro update prepared hprepared
      refine (boundary_tallies hprepared.upright update).mono ?_ ?_
      · rintro ⟨⟩ next ⟨htallies, hready⟩
        refine ⟨hitems, ?_, hkept (hprepared.trans htallies id) hready⟩
        rwa [hready.room]
      · rintro error next ⟨htallies, hblames⟩
        exact hblamed hprepared htallies hblames
  | write count => exact perform_write_tallies hsize rest written left hitems hfits

/-- The records that steps write before they come to any header. -/
def leading : List BatchStep → Nat
  | [] => 0
  | step :: _ => step.records

theorem follow_tallies (hsize : 0 < itemSize) (steps : List BatchStep) (written left : Nat)
    {items : Bytes} (hitems : left * itemSize ≤ items.length)
    (hfits : Fits ceiling (writer.room ceiling) left steps)
    (hupright : writer.progress.IsUpright) :
    Ends (follow itemSize steps written items) writer
      (fun _ next =>
        writer.Tallies (writer.Trusts (leading steps)) (steps.map BatchStep.records).sum next)
      (fun error next => ∃ stored, writer.Tallies (writer.Trusts (leading steps)) stored next ∧
        StopsFor (written + stored) (writer.IsMendable ∧ writer.Trusts (leading steps)) error) := by
  induction steps generalizing writer written left items with
  | nil => exact .refl hupright _
  | cons step rest ih =>
      simp only [follow, ends_bind]
      refine (perform_tallies hsize step rest written left hitems hfits hupright).mono ?_
        fun _ _ h => h
      rintro later middle ⟨hlater, hrest, htallies, hfresh⟩
      have htrusts : writer.Trusts step.records → middle.Trusts (leading rest) :=
        fun h _ => hfresh h
      refine (ih (written + step.records) _ hlater hrest htallies.upright).mono ?_ ?_
      · rintro ⟨⟩ next hnext
        exact htallies.trans hnext htrusts
      · rintro error next ⟨stored, hnext, hstops⟩
        refine ⟨step.records + stored, htallies.trans hnext htrusts, ?_⟩
        rw [← Nat.add_assoc]
        exact hstops.mono fun h => ⟨htallies.mendable h.1 h.2, htrusts h.2⟩

/-- A batch with a tag at its first record writes the open header again before any record. -/
theorem leading_plan {room stop : Nat} {tags : List (Nat × Tag)} (htags : InOrder 0 stop tags)
    (h : stop = 0 ∨ ∃ entry ∈ tags, entry.1 = 0) : leading (plan ceiling room 0 stop tags) = 0 := by
  cases tags with
  | nil =>
      rcases h with rfl | ⟨entry, hentry, -⟩
      · rw [plan, BatchStep.run, if_pos rfl]
        rfl
      · cases hentry
  | cons head rest =>
      obtain ⟨offset, tag⟩ := head
      have hfirst : offset = 0 := by
        rcases h with rfl | ⟨entry, hentry, hzero⟩
        · exact absurd (htags.inside _ List.mem_cons_self).2 (Nat.not_lt_zero _)
        · rcases List.mem_cons.mp hentry with rfl | hrest
          · exact hzero
          · exact Nat.le_zero.mp (hzero ▸ (List.pairwise_cons.mp htags.pairwise).1 entry hrest)
      subst hfirst
      rw [plan, BatchStep.run, if_pos rfl]
      rfl

/-- Before its first record a batch writes the open header again, should that be stale. -/
def Mends (writer : Writer) (records : Nat) (tags : List (Nat × Tag)) : Prop :=
  writer.progress.IsStale → records = 0 ∨ ∃ entry ∈ tags, entry.1 = 0

/-- The records of a batch are counted as far as they are stored, whatever fails. -/
theorem runBatch_tallies (hsize : 0 < itemSize) (hceiling : 0 < ceiling) {items : Bytes}
    {tags : List (Nat × Tag)} (htags : InOrder 0 (items.length / itemSize) tags)
    (hupright : writer.progress.IsUpright) :
    let total := items.length / itemSize
    let mends := writer.Mends total tags
    Ends (runBatch ceiling itemSize items tags) writer
      (fun written next => written = total ∧ writer.Tallies mends total next)
      (fun error next => ∃ stored, writer.Tallies mends stored next ∧
        StopsFor stored (writer.IsMendable ∧ mends) error) := by
  intro total mends
  have hfits := plan_fits hceiling (writer.room ceiling) htags
  have htrusts : mends →
      writer.Trusts (leading (plan ceiling (writer.room ceiling) 0 total tags)) :=
    fun hmends hpos hstale => absurd (leading_plan htags (hmends hstale)) (Nat.ne_of_gt hpos)
  simp only [runBatch, ends_bind, ends_get, ends_pure]
  refine (follow_tallies hsize _ 0 _ (Nat.div_mul_le_self ..) hfits hupright).mono ?_ ?_
  · rintro ⟨⟩ next htallies
    rw [plan_records hceiling _ htags] at htallies
    exact ⟨rfl, htallies.weaken htrusts⟩
  · rintro error next ⟨stored, htallies, hstops⟩
    rw [Nat.zero_add] at hstops
    exact ⟨stored, htallies.weaken htrusts, hstops.mono fun h => ⟨h.1, htrusts h.2⟩⟩

end Batches

end Writer

end SegmentStream
