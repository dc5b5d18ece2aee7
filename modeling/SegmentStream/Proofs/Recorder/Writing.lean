import SegmentStream.Proofs.Recorder.Transcript
import SegmentStream.Proofs.Target.Calls
import SegmentStream.Recorder.Writer

/-!
# Writers keep transcripts

Every operation of a writer does to its target what the operation of the same
name does to the transcript.  A failure leaves the writer at an earlier
transcript, with the open header possibly torn; writing that header again from
there mends it.
-/

namespace SegmentStream

/-! ## Batches of whole records -/

section Records

variable {length : Nat} {records : List Bytes}

theorem flatten_length (h : ∀ record ∈ records, record.length = length) :
    records.flatten.length = records.length * length := by
  induction records with
  | nil => simp
  | cons record rest ih =>
      obtain ⟨hrecord, hrest⟩ := List.forall_mem_cons.mp h
      rw [List.flatten_cons, List.length_append, ih hrest, hrecord, List.length_cons,
        Nat.succ_mul, Nat.add_comm]

theorem flatten_splitAt (h : ∀ record ∈ records, record.length = length) (count : Nat) :
    records.flatten.splitAt (count * length) =
      ((records.take count).flatten, (records.drop count).flatten) := by
  rw [List.splitAt_eq]
  induction records generalizing count with
  | nil => simp
  | cons record rest ih =>
      obtain ⟨hrecord, hrest⟩ := List.forall_mem_cons.mp h
      cases count with
      | zero => simp
      | succ count =>
          have := ih hrest count
          simp only [Prod.mk.injEq] at this ⊢
          rw [Nat.succ_mul, Nat.add_comm, ← hrecord, List.flatten_cons,
            List.take_length_add_append, List.drop_length_add_append, hrecord, this.1, this.2]
          simp

end Records

namespace Counters

/-- The counters of a transcript do not count batches. -/
def unbatched (counters : Counters) : Counters := { counters with batches := 0 }

end Counters

namespace Outlet

/-- A planned fault is spent. -/
structure Loses (outlet next : Outlet) : Prop where
  follows : outlet.Follows next
  faultsAhead : next.target.faultsAhead < outlet.target.faultsAhead

theorem Loses.of_follows {first second third : Outlet} (h : first.Follows second)
    (h' : second.Loses third) : first.Loses third :=
  ⟨h.trans h'.follows, Nat.lt_of_lt_of_le h'.faultsAhead h.faultsAhead⟩

end Outlet

namespace Progress

@[simp] theorem mark_headers (progress : Progress) (stage : Stage) :
    (progress.mark stage).headers = progress.headers := by
  unfold mark
  split <;> rfl

@[simp] theorem mark_counters (progress : Progress) (stage : Stage) :
    (progress.mark stage).counters = progress.counters := by
  unfold mark
  split <;> rfl

@[simp] theorem mark_records (progress : Progress) (stage : Stage) :
    (progress.mark stage).records = progress.records := by
  unfold mark
  split <;> rfl

structure Tells (progress : Progress) (split : Bool) (transcript : Transcript) : Prop where
  headers : progress.headers.fresh = transcript.headers
  slot : progress.headers.slot = transcript.running.map fun running =>
    ⟨(Contents.ofSegments split transcript.closed).headerBytes.length, running.slotLength⟩
  records : progress.records = (transcript.running.map fun running => running.records.length).getD 0
  counters : progress.counters.unbatched = transcript.counters

end Progress

namespace Writer

open SegmentStream.Action

/-- The target holds what the transcript tells. -/
structure Keeps (writer : Writer) (split : Bool) (transcript : Transcript) : Prop where
  tells : writer.progress.Tells split transcript
  outlet : writer.outlet.Keeps (transcript.contents split)
  slotLength : ∀ running, transcript.running = some running →
    running.slotLength = transcript.headers.regionSize

/-- Any bytes may stand in the place of the open header, and stale ones behind the contents. -/
structure Frays (writer : Writer) (split : Bool) (transcript : Transcript) (running : Running)
    (stale : Bytes) : Prop where
  tells : writer.progress.Tells split transcript
  isRunning : transcript.running = some running
  outlet : ∃ region : Bytes, region.length = running.slotLength ∧
    writer.outlet.Worn (((Contents.ofSegments split transcript.closed).appendHeader
      region).appendData running.records.flatten) stale

section Keeping

variable {writer : Writer} {split : Bool} {transcript : Transcript} {running : Running}
  {stale : Bytes}

theorem Keeps.frays (h : writer.Keeps split transcript)
    (hrunning : transcript.running = some running) : writer.Frays split transcript running [] := by
  refine ⟨h.tells, hrunning, transcript.headers.region, ?_, ?_⟩
  · rw [HeaderState.region_length, h.slotLength running hrunning]
  · have := h.outlet.worn
    rwa [Transcript.contents, hrunning] at this

theorem Keeps.isOpen (h : writer.Keeps split transcript) :
    writer.progress.headers.isOpen = transcript.running.isSome := by
  rw [HeaderState.isOpen, h.tells.slot, Option.isSome_map]

theorem Frays.slot_eq (h : writer.Frays split transcript running stale) :
    writer.progress.headers.slot =
      some ⟨(Contents.ofSegments split transcript.closed).headerBytes.length,
        running.slotLength⟩ := by
  rw [h.tells.slot, h.isRunning, Option.map_some]

theorem Frays.records_eq (h : writer.Frays split transcript running stale) :
    writer.progress.records = running.records.length := by
  rw [h.tells.records, h.isRunning, Option.map_some, Option.getD_some]

end Keeping

/-! ## Records -/

section Write

variable {writer : Writer} {split : Bool} {transcript : Transcript} {running : Running}

theorem Keeps.append {next : Writer} {records : List Bytes} (h : writer.Keeps split transcript)
    (hrunning : transcript.running = some running)
    (houtlet : next.outlet.Keeps ((transcript.contents split).appendData records.flatten))
    (hheaders : next.progress.headers = writer.progress.headers)
    (hrecords : next.progress.records = writer.progress.records + records.length)
    (hcounters : next.progress.counters = writer.progress.counters.addData records.length
      transcript.headers.header.itemSize.toNat) :
    next.Keeps split (transcript.append records) := by
  obtain ⟨⟨htells, hslot, hcount, hsame⟩, -, hlength⟩ := h
  have hrunning' : (transcript.append records).running =
      some { running with records := running.records ++ records } := by
    rw [Transcript.append, hrunning]
    rfl
  refine ⟨⟨?_, ?_, ?_, ?_⟩, ?_, ?_⟩
  · rw [hheaders, htells]
    rfl
  · rw [hheaders, hslot, hrunning, hrunning']
    rfl
  · rw [hrecords, hcount, hrunning, hrunning']
    simp
  · rw [hcounters]
    simp only [Transcript.append, ← hsame]
    rfl
  · rw [Transcript.contents, hrunning']
    rw [Transcript.contents, hrunning] at houtlet
    simp only [Contents.appendData_appendData, ← List.flatten_append] at houtlet
    exact houtlet
  · intro other hother
    rw [hrunning'] at hother
    cases hother
    exact hlength running hrunning

/-- What is stored of a batch before a failure are whole records, and they are counted. -/
theorem writeRecords_ends {itemSize : Nat} {records : List Bytes}
    (h : writer.Keeps split transcript) (hrunning : transcript.running = some running)
    (hsize : transcript.headers.header.itemSize.toNat = itemSize) (hpos : 0 < itemSize)
    (hrecords : ∀ record ∈ records, record.length = itemSize) :
    Ends (writeRecords itemSize records.flatten) writer
      (fun _ next => writer.outlet.Follows next.outlet ∧
        next.Keeps split (transcript.append records))
      (fun failure next => writer.outlet.Loses next.outlet ∧ failure.1 < records.length ∧
        next.Keeps split (transcript.append (records.take failure.1))) := by
  have hlength := flatten_length hrecords
  simp only [writeRecords, ends_bind, onOutlet, ends_attempt, ends_within, mark, changeProgress,
    ends_modify]
  refine (Outlet.writeData_ends h.outlet records.flatten itemSize).mono ?_ ?_
  · rintro ⟨⟩ outlet ⟨hfollows, hkeeps⟩
    refine ⟨hfollows, h.append hrunning hkeeps ?_ ?_ ?_⟩
    · simp
    · simp [hlength, Nat.mul_div_cancel _ hpos]
    · simp [hlength, Nat.mul_div_cancel _ hpos, hsize]
  · rintro ⟨written, cause⟩ outlet ⟨hfollows, hkeeps, hless, hdvd, hspent⟩
    rw [Nat.max_eq_left hpos] at hdvd
    obtain ⟨count, rfl⟩ := hdvd
    have hcount : itemSize * count / itemSize = count := Nat.mul_div_cancel_left count hpos
    have hshort : count < records.length := by
      rw [hlength, Nat.mul_comm] at hless
      exact Nat.lt_of_mul_lt_mul_right hless
    have htake : records.flatten.take (itemSize * count) = (records.take count).flatten := by
      have := flatten_splitAt hrecords count
      rw [List.splitAt_eq, Prod.mk.injEq, Nat.mul_comm] at this
      exact this.1
    have htaken : (records.take count).length = count := by
      rw [List.length_take]
      omega
    rw [htake] at hkeeps
    refine ⟨⟨hfollows, hspent⟩, by rwa [hcount], ?_⟩
    simp only [hcount]
    refine h.append hrunning hkeeps ?_ ?_ ?_
    · simp
    · simp [htaken]
    · simp [htaken, hsize]

end Write

/-! ## Closing, rewriting and opening -/

section Segments

variable {writer : Writer} {split : Bool} {transcript : Transcript} {running : Running}
  {stale : Bytes}

theorem closeSegment_ends (h : writer.Frays split transcript running [])
    (hlength : running.slotLength = transcript.headers.regionSize) :
    Ends closeSegment writer
      (fun _ next => writer.outlet.Follows next.outlet ∧ next.Keeps split transcript.close ∧
        next.progress.headers = (transcript.headers.measure (running.records.length *
          transcript.headers.header.itemSize.toNat)).advance running.records.length)
      (fun error next => (∃ cause, error = .io cause) ∧ writer.outlet.Loses next.outlet ∧
        next.Frays split transcript running []) := by
  obtain ⟨region, hregion, hworn⟩ := h.outlet
  have hslot := h.slot_eq
  have hrecords := h.records_eq
  rw [← hregion] at hslot
  have hheaders := h.tells.headers
  let dataLength := running.records.length * transcript.headers.header.itemSize.toNat
  have hsize : writer.progress.headers.header.itemSize = transcript.headers.header.itemSize := by
    rw [← hheaders]
    rfl
  have hsame : (writer.progress.headers.measure dataLength).region =
      (transcript.segment running.records).region := by
    rw [Transcript.region_segment, ← hheaders, HeaderState.measure_fresh,
      HeaderState.region_releaseSlot, hheaders]
  have hfit : (transcript.segment running.records).region.length = region.length := by
    rw [← hsame, HeaderState.region_length, hregion, hlength, ← hheaders]
    rfl
  simp only [closeSegment, ends_bind, ends_get, onScribe, ends_within, Scribe.closeSegment,
    Scribe.finalize, hslot, Scribe.changeHeaders, ends_modify, Scribe.onOutlet, Scribe.setSlot,
    Outlet.report, ends_pure, mark, changeProgress, setRecords, count, hrecords, hsize]
  rw [hsame]
  refine (Outlet.rewriteHeader_inside hworn
    (Contents.headerBytes_append _ region running.records.flatten) hfit).mono ?_ ?_
  · rintro slot outlet ⟨rfl, hfollows, hworn', hoffset⟩
    rw [Contents.withHeaderBytes_append] at hworn'
    have hcontents : transcript.close.contents split =
        ((Contents.ofSegments split transcript.closed).appendHeader
          (transcript.segment running.records).region).appendData running.records.flatten := by
      simp only [Transcript.contents, Transcript.close, h.isRunning, Contents.ofSegments_concat]
      rfl
    refine ⟨hfollows.trans (Outlet.report_follows ..), ⟨⟨?_, ?_, ?_, ?_⟩, ?_, ?_⟩, ?_⟩
    · simp only [Progress.mark_headers, Transcript.close, h.isRunning, ← hheaders]
      rfl
    · simp only [Progress.mark_headers, Transcript.close, h.isRunning]
      rfl
    · simp only [Transcript.close, h.isRunning]
      rfl
    · simp only [Progress.mark_counters, Transcript.close, h.isRunning, ← h.tells.counters, hregion,
        hfit, hlength]
      rfl
    · rw [hcontents]
      refine Outlet.Keeps.report ⟨hworn', ?_⟩ _
      rw [hoffset, Contents.headerBytes_append]
    · simp [Transcript.close, h.isRunning]
    · simp only [Progress.mark_headers, ← hheaders]
      rfl
  · rintro error outlet ⟨herror, hfollows, hspent, region', hregion', hworn'⟩
    rw [Contents.withHeaderBytes_append] at hworn'
    refine ⟨herror, ⟨hfollows, hspent⟩, ⟨?_, ?_, ?_, h.tells.counters⟩, h.isRunning,
      region', hregion'.trans hregion, hworn'⟩
    · rw [← hheaders]
      rfl
    · exact h.tells.slot
    · exact hrecords.symm.trans h.tells.records

/-- An open header without records is written again; stale bytes behind it may stay. -/
theorem Frays.amend {next : Writer} {slotLength : Nat} {stale' : Bytes}
    (h : writer.Frays split transcript ⟨slotLength, []⟩ stale)
    (htells : next.progress.Tells split transcript.amend)
    (hworn : next.outlet.Worn (((Contents.ofSegments split transcript.closed).appendHeader
      transcript.headers.region).appendData []) stale')
    (hoffset : next.outlet.headerPort.channel.offset =
      ((Contents.ofSegments split transcript.closed).headerBytes ++
        transcript.headers.region).length) :
    next.Frays split transcript.amend ⟨transcript.headers.regionSize, []⟩ stale' ∧
      (stale' = [] → next.Keeps split transcript.amend) := by
  rw [Transcript.amend_of_running h.isRunning] at htells ⊢
  refine ⟨⟨htells, rfl, transcript.headers.region, transcript.headers.region_length, hworn⟩, ?_⟩
  rintro rfl
  have hbytes := Contents.headerBytes_append (.ofSegments split transcript.closed)
    transcript.headers.region []
  rw [Contents.behind_nil, List.append_nil] at hbytes
  refine ⟨htells, ⟨hworn, ?_⟩, ?_⟩
  · exact hoffset.trans (congrArg List.length hbytes).symm
  · rintro running ⟨⟩
    rfl

theorem finalize_ends {slotLength : Nat}
    (h : writer.Frays split transcript ⟨slotLength, []⟩ stale) :
    Ends (finalize 0) writer
      (fun _ next => writer.outlet.Follows next.outlet ∧ ∃ stale' : Bytes,
        (next.Frays split transcript.amend ⟨transcript.headers.regionSize, []⟩ stale' ∧
          (stale' = [] → next.Keeps split transcript.amend)) ∧
        stale'.length = if transcript.headers.regionSize < slotLength then 0
          else slotLength + stale.length - transcript.headers.regionSize)
      (fun error next => (∃ cause, error = .io cause) ∧ writer.outlet.Loses next.outlet ∧
        ∃ stale' : Bytes, next.Frays split transcript ⟨slotLength, []⟩ stale' ∧
          slotLength + stale'.length ≤
            max (slotLength + stale.length) transcript.headers.regionSize) := by
  obtain ⟨region, hregion, hworn⟩ := h.outlet
  have hslot := h.slot_eq
  have hrecords := h.records_eq
  simp only at hregion hworn hslot
  subst hregion
  have hheaders := h.tells.headers
  have hsame : (writer.progress.headers.measure 0).region = transcript.headers.region := by
    rw [← hheaders, HeaderState.fresh, HeaderState.region_releaseSlot]
  have hsize := transcript.headers.region_length
  have hbytes : (((Contents.ofSegments split transcript.closed).appendHeader region).appendData
      ([] : List Bytes).flatten).headerBytes =
        (Contents.ofSegments split transcript.closed).headerBytes ++ region := by
    simpa using Contents.headerBytes_append (.ofSegments split transcript.closed) region []
  have hexchange : ∀ region' : Bytes,
      (((Contents.ofSegments split transcript.closed).appendHeader region).appendData
        ([] : List Bytes).flatten).withHeaderBytes
          ((Contents.ofSegments split transcript.closed).headerBytes ++ region') =
        ((Contents.ofSegments split transcript.closed).appendHeader region').appendData [] := by
    intro region'
    simpa using Contents.withHeaderBytes_append (.ofSegments split transcript.closed) region
      region' []
  simp only [finalize, ends_bind, ends_get, onScribe, ends_within, Scribe.finalize, hslot,
    Scribe.changeHeaders, ends_modify, Scribe.onOutlet, Scribe.setSlot, Outlet.report, ends_pure,
    mark, changeProgress, count]
  rw [hsame]
  refine (Outlet.rewriteHeader_tail hworn hbytes transcript.headers.region).mono ?_ ?_
  · rintro slot outlet ⟨rfl, hfollows, stale', hworn', hoffset, hstale⟩
    rw [hexchange] at hworn'
    rw [hsize] at hstale ⊢
    refine ⟨hfollows.trans (Outlet.report_follows ..), stale',
      h.amend ?_ (hworn'.report _) hoffset, hstale⟩
    rw [Transcript.amend_of_running h.isRunning]
    refine ⟨?_, ?_, ?_, ?_⟩
    · rw [Progress.mark_headers, ← hheaders]
      rfl
    · rw [Progress.mark_headers]
      rfl
    · rw [Progress.mark_records]
      exact hrecords
    · rw [Progress.mark_counters, ← h.tells.counters]
      rfl
  · rintro error outlet ⟨herror, hfollows, hspent, region', stale', hregion', hworn', hstale⟩
    rw [hexchange] at hworn'
    rw [hsize] at hstale
    refine ⟨herror, ⟨hfollows, hspent⟩, stale', ⟨⟨?_, ?_, ?_, h.tells.counters⟩, h.isRunning,
      region', hregion', hworn'⟩, hstale⟩
    · rw [← hheaders]
      rfl
    · exact h.tells.slot
    · exact h.tells.records

/-- A new header is written.  What else the progress counts does not matter to the target. -/
theorem emit_ends (h : writer.Keeps split transcript) (hnone : transcript.running = none) :
    Ends (onScribe Scribe.emit) writer
      (fun slot next => writer.outlet.Follows next.outlet ∧
        slot.length = transcript.headers.regionSize ∧
        next.progress = { writer.progress with headers := next.progress.headers } ∧
        ∀ progress : Progress, progress.headers = next.progress.headers → progress.records = 0 →
          Keeps ⟨progress, next.outlet⟩ split
            { transcript.openNext with counters := progress.counters.unbatched })
      (fun error next => (∃ cause, error = .io cause) ∧ writer.outlet.Loses next.outlet ∧
        next.Keeps split transcript) := by
  have hheaders := h.tells.headers
  have hslot := h.tells.slot
  rw [hnone, Option.map_none] at hslot
  have hsame : (writer.progress.headers.measure 0).region = transcript.headers.region := by
    rw [← hheaders, HeaderState.fresh, HeaderState.region_releaseSlot]
  have hsize := transcript.headers.region_length
  have hcontents : transcript.contents split = .ofSegments split transcript.closed := by
    rw [Transcript.contents, hnone]
  have houtlet := h.outlet
  rw [hcontents] at houtlet
  simp only [ends_bind, ends_get, onScribe, ends_within, Scribe.emit, Scribe.changeHeaders,
    ends_modify, Scribe.onOutlet, Scribe.setSlot, Outlet.report, ends_pure, ends_mapFault]
  rw [hsame]
  refine (Outlet.appendHeader_ends houtlet transcript.headers.region).mono ?_ ?_
  · rintro slot outlet ⟨rfl, hfollows, hkeeps⟩
    refine ⟨hfollows.trans (Outlet.report_follows ..), hsize, trivial, ?_⟩
    intro progress hprogress hzero
    have hopen : ({ transcript.openNext with counters := progress.counters.unbatched } :
        Transcript).contents split =
          (Contents.ofSegments split transcript.closed).appendHeader transcript.headers.region := by
      simp only [Transcript.contents, Transcript.openNext, List.flatten_nil,
        Contents.appendData_nil]
    refine ⟨⟨?_, ?_, hzero, rfl⟩, ?_, ?_⟩
    · rw [hprogress]
      exact hheaders
    · rw [hprogress]
      simp only [hsize]
      rfl
    · rw [hopen]
      exact hkeeps.report _
    · rintro running hrunning
      cases hrunning
      rfl
  · rintro cause outlet ⟨hfollows, hkeeps, hspent⟩
    refine ⟨⟨cause, rfl⟩, ⟨hfollows, hspent⟩, ⟨⟨?_, ?_, h.tells.records, h.tells.counters⟩, ?_,
      h.slotLength⟩⟩
    · rw [← hheaders]
      rfl
    · rw [hnone]
      exact hslot
    · rw [hcontents]
      exact hkeeps

theorem openSegment_ends (h : writer.Keeps split transcript) (hnone : transcript.running = none) :
    Ends openSegment writer
      (fun _ next => writer.outlet.Follows next.outlet ∧ next.Keeps split transcript.openNext)
      (fun error next => (∃ cause, error = .io cause) ∧ writer.outlet.Loses next.outlet ∧
        next.Keeps split transcript) := by
  simp only [openSegment, ends_bind, mark, count, changeProgress, setRecords, ends_modify]
  refine (emit_ends h hnone).mono ?_ fun _ _ h => h
  rintro slot next ⟨hfollows, hlength, hprogress, hkeeps⟩
  refine ⟨hfollows, ?_⟩
  have hcounters : (next.progress.counters.addHeader slot.length).unbatched =
      transcript.openNext.counters := by
    rw [hprogress, hlength, Transcript.openNext, ← h.tells.counters]
    rfl
  have hopened := hkeeps { (next.progress.mark .emit) with
    counters := next.progress.counters.addHeader slot.length, records := 0 }
    (Progress.mark_headers ..) rfl
  simp only [hcounters] at hopened
  simpa only [Progress.mark_counters] using hopened

end Segments

/-! ## Boundaries -/

section Boundaries

variable {writer : Writer} {split : Bool} {transcript : Transcript} {running : Running}
  {stale : Bytes}

def applied (writer : Writer) (update : Option HeaderUpdate) : Writer :=
  { writer with
    progress := { writer.progress with headers := writer.progress.headers.applySome update } }

theorem applySome_slot (headers : HeaderState) (update : Option HeaderUpdate) :
    (headers.applySome update).slot = headers.slot := by
  cases update with
  | none => rfl
  | some update => cases update <;> rfl

theorem tells_applied (h : writer.progress.Tells split transcript)
    (update : Option HeaderUpdate) :
    (writer.applied update).progress.Tells split (transcript.apply update) := by
  refine ⟨?_, (applySome_slot ..).trans h.slot, h.records, h.counters⟩
  change (writer.progress.headers.applySome update).fresh =
    (transcript.headers.applySome update).fresh
  rw [← h.headers, HeaderState.fresh_applySome]

theorem Keeps.apply (h : writer.Keeps split transcript) (hnone : transcript.running = none)
    (update : Option HeaderUpdate) :
    (writer.applied update).Keeps split (transcript.apply update) := by
  refine ⟨tells_applied h.tells update, ?_, ?_⟩
  · have := h.outlet
    rw [Transcript.contents, hnone] at this
    rw [Transcript.contents, Transcript.apply, hnone]
    exact this
  · intro running hrunning
    rw [Transcript.apply, hnone] at hrunning
    cases hrunning

theorem Frays.apply (h : writer.Frays split transcript running stale)
    (update : Option HeaderUpdate) :
    (writer.applied update).Frays split (transcript.apply update) running stale :=
  ⟨tells_applied h.tells update, h.isRunning, h.outlet⟩

theorem boundary_ends_closed (h : writer.Keeps split transcript)
    (hnone : transcript.running = none) (update : Option HeaderUpdate) :
    Ends (boundary update) writer
      (fun _ next => writer.outlet.Follows next.outlet ∧
        next.Keeps split (transcript.boundary update))
      (fun error next => (∃ cause, error = .io cause) ∧ writer.outlet.Loses next.outlet ∧
        next.Keeps split (transcript.apply update)) := by
  have hempty : ¬ 0 < writer.progress.records := by
    rw [h.tells.records, hnone]
    exact Nat.lt_irrefl 0
  have hopen := h.isOpen
  rw [hnone] at hopen
  have hboundary : transcript.boundary update = (transcript.apply update).openNext := by
    rw [Transcript.boundary, hnone]
  simp only [boundary, ends_bind, ends_get, if_neg hempty, hopen, Option.isSome_none,
    Bool.false_eq_true, if_false, Writer.apply, changeProgress, ends_modify, hboundary]
  exact openSegment_ends (h.apply hnone update) hnone

/-- At an empty segment the open header is written again, wherever the channel stands. -/
theorem boundary_ends_empty {slotLength : Nat}
    (h : writer.Frays split transcript ⟨slotLength, []⟩ stale) (update : Option HeaderUpdate) :
    Ends (boundary update) writer
      (fun _ next => writer.outlet.Follows next.outlet ∧ ∃ stale' : Bytes,
        (next.Frays split (transcript.boundary update)
            ⟨(transcript.apply update).headers.regionSize, []⟩ stale' ∧
          (stale' = [] → next.Keeps split (transcript.boundary update))) ∧
        stale'.length = if (transcript.apply update).headers.regionSize < slotLength then 0
          else slotLength + stale.length - (transcript.apply update).headers.regionSize)
      (fun error next => (∃ cause, error = .io cause) ∧ writer.outlet.Loses next.outlet ∧
        ∃ stale' : Bytes, next.Frays split (transcript.apply update) ⟨slotLength, []⟩ stale' ∧
          slotLength + stale'.length ≤
            max (slotLength + stale.length) (transcript.apply update).headers.regionSize) := by
  have hempty : ¬ 0 < writer.progress.records := by
    rw [h.records_eq]
    exact Nat.lt_irrefl 0
  have hopen : writer.progress.headers.isOpen = true := by
    rw [HeaderState.isOpen, h.slot_eq]
    rfl
  have hboundary : transcript.boundary update = (transcript.apply update).amend := by
    rw [Transcript.boundary, h.isRunning]
  simp only [boundary, ends_bind, ends_get, if_neg hempty, hopen, if_true, Writer.apply,
    changeProgress, ends_modify, hboundary]
  exact finalize_ends (h.apply update)

/-- Behind records the segment is closed first; then nothing is open if the next header fails. -/
theorem boundary_ends_filled (h : writer.Frays split transcript running [])
    (hlength : running.slotLength = transcript.headers.regionSize)
    (hfilled : running.records ≠ []) (update : Option HeaderUpdate) :
    Ends (boundary update) writer
      (fun _ next => writer.outlet.Follows next.outlet ∧
        next.Keeps split (transcript.boundary update))
      (fun error next => (∃ cause, error = .io cause) ∧ writer.outlet.Loses next.outlet ∧
        (next.Frays split transcript running [] ∨
          next.Keeps split (transcript.close.apply update))) := by
  have hpos : 0 < writer.progress.records := by
    rw [h.records_eq]
    exact List.length_pos_iff.mpr hfilled
  have hclosed : transcript.close.running = none := by
    rw [Transcript.close, h.isRunning]
  have hboundary : transcript.boundary update = (transcript.close.apply update).openNext := by
    obtain ⟨slotLength, _ | ⟨record, records⟩⟩ := running
    · exact absurd rfl hfilled
    · rw [Transcript.boundary, h.isRunning]
  simp only [boundary, ends_bind, ends_get, if_pos hpos, hboundary]
  refine (closeSegment_ends h hlength).mono ?_ ?_
  · rintro ⟨⟩ closed ⟨hfollows, hkeeps, -⟩
    simp only [Writer.apply, changeProgress, ends_modify]
    refine (openSegment_ends (hkeeps.apply hclosed update) hclosed).mono ?_ ?_
    · rintro ⟨⟩ next ⟨hfollows', hkeeps'⟩
      exact ⟨hfollows.trans hfollows', hkeeps'⟩
    · rintro error next ⟨herror, hloses, hkeeps'⟩
      exact ⟨herror, Outlet.Loses.of_follows hfollows hloses, .inr hkeeps'⟩
  · rintro error next ⟨herror, hloses, hfrays⟩
    exact ⟨herror, hloses, .inl hfrays⟩

theorem roll_ends_closed (h : writer.Keeps split transcript) (hnone : transcript.running = none) :
    Ends roll writer
      (fun _ next => writer.outlet.Follows next.outlet ∧ next.Keeps split transcript.roll)
      (fun error next => (∃ cause, error = .io cause) ∧ writer.outlet.Loses next.outlet ∧
        next.Keeps split transcript) := by
  have hopen := h.isOpen
  rw [hnone] at hopen
  have hroll : transcript.roll = transcript.openNext := by
    rw [Transcript.roll, Transcript.close, hnone]
  simp only [roll, ends_bind, ends_get, hopen, Option.isSome_none, Bool.false_eq_true, if_false,
    hroll]
  exact openSegment_ends h hnone

theorem roll_ends_running (h : writer.Frays split transcript running [])
    (hlength : running.slotLength = transcript.headers.regionSize) :
    Ends roll writer
      (fun _ next => writer.outlet.Follows next.outlet ∧ next.Keeps split transcript.roll)
      (fun error next => (∃ cause, error = .io cause) ∧ writer.outlet.Loses next.outlet ∧
        (next.Frays split transcript running [] ∨ next.Keeps split transcript.close)) := by
  have hopen : writer.progress.headers.isOpen = true := by
    rw [HeaderState.isOpen, h.slot_eq]
    rfl
  have hclosed : transcript.close.running = none := by
    rw [Transcript.close, h.isRunning]
  simp only [roll, ends_bind, ends_get, hopen, if_true]
  refine (closeSegment_ends h hlength).mono ?_ ?_
  · rintro ⟨⟩ closed ⟨hfollows, hkeeps, -⟩
    refine (openSegment_ends hkeeps hclosed).mono ?_ ?_
    · rintro ⟨⟩ next ⟨hfollows', hkeeps'⟩
      exact ⟨hfollows.trans hfollows', hkeeps'⟩
    · rintro error next ⟨herror, hloses, hkeeps'⟩
      exact ⟨herror, Outlet.Loses.of_follows hfollows hloses, .inr hkeeps'⟩
  · rintro error next ⟨herror, hloses, hfrays⟩
    exact ⟨herror, hloses, .inl hfrays⟩

end Boundaries

end Writer

end SegmentStream
