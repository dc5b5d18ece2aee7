import SegmentStream.Proofs.Recorder.Moves

/-!
# What the counts come to

As long as storage does not fail, each header that was counted is on a target,
and the counts of bytes are the bytes that are on all targets together.  A header
is taken out of the count with the length that it was counted with.
-/

namespace SegmentStream

namespace Segment

/-- How many bytes the headers of segments take, with their attributes. -/
def headerLoad (segments : List Segment) : Nat :=
  (segments.map fun segment => segment.region.length).sum

def dataLoad (segments : List Segment) : Nat :=
  (segments.map fun segment => segment.data.length).sum

@[simp] theorem headerLoad_append (first second : List Segment) :
    headerLoad (first ++ second) = headerLoad first + headerLoad second := by
  simp [headerLoad]

@[simp] theorem dataLoad_append (first second : List Segment) :
    dataLoad (first ++ second) = dataLoad first + dataLoad second := by
  simp [dataLoad]

end Segment

/-! ## Transcripts -/

namespace Transcript

/-- The segments of a transcript as they are on its target; the last header may be open. -/
def segments (transcript : Transcript) : List Segment :=
  transcript.closed ++ (transcript.running.map fun running =>
    ⟨transcript.headers.header, transcript.headers.extras, running.records⟩).toList

theorem contents_eq (split : Bool) (transcript : Transcript) :
    transcript.contents split = .ofSegments split transcript.segments := by
  obtain ⟨closed, headers, _ | running, counters⟩ := transcript
  · simp [contents, segments]
  · simp only [contents, segments, Option.map_some, Option.toList_some,
      Contents.ofSegments_concat]
    rfl

section Load

variable {transcript : Transcript} {running : Running}

theorem segments_of_none (h : transcript.running = none) :
    transcript.segments = transcript.closed := by
  rw [segments, h]
  exact List.append_nil _

theorem headerLoad_of_running (h : transcript.running = some running) :
    Segment.headerLoad transcript.segments =
      Segment.headerLoad transcript.closed + transcript.headers.regionSize := by
  rw [segments, h, Segment.headerLoad_append]
  simp [Segment.headerLoad, Segment.region, HeaderState.regionSize]

theorem dataLoad_of_running (h : transcript.running = some running) :
    Segment.dataLoad transcript.segments =
      Segment.dataLoad transcript.closed + running.records.flatten.length := by
  rw [segments, h, Segment.dataLoad_append]
  simp [Segment.dataLoad, Segment.data]

end Load

/-- The counts, where so many bytes are on targets that were let go of before. -/
structure IsTallied (headerBytes dataBytes : Nat) (transcript : Transcript) : Prop where
  emitted : transcript.counters.headersEmitted =
    transcript.counters.segmentsClosed + transcript.running.toList.length
  headerBytes : transcript.counters.headerBytes =
    headerBytes + Segment.headerLoad transcript.segments
  dataBytes : transcript.counters.dataBytes = dataBytes + Segment.dataLoad transcript.segments
  slotLength : ∀ running, transcript.running = some running →
    running.slotLength = transcript.headers.regionSize

section Tallied

variable {size : UInt32} {headerBytes dataBytes ceiling : Nat} {transcript : Transcript}

theorem close_of_running {running : Running} (h : transcript.running = some running) :
    transcript.close =
      { closed := transcript.closed ++ [transcript.segment running.records]
        headers := transcript.headers.advance running.records.length
        running := none
        counters := (transcript.counters.addFinalize running.slotLength
          transcript.headers.regionSize).addSegment } := by
  rw [close, h]

theorem IsTallied.close (h : transcript.IsTallied headerBytes dataBytes) :
    transcript.close.IsTallied headerBytes dataBytes := by
  obtain ⟨hemitted, hheader, hdata, hslot⟩ := h
  cases hrunning : transcript.running with
  | none =>
      rw [Transcript.close, hrunning]
      exact ⟨hemitted, hheader, hdata, hslot⟩
  | some running =>
      have hregion := hslot running hrunning
      have hlast : Segment.headerLoad [transcript.segment running.records] =
          transcript.headers.regionSize := by
        simp [Segment.headerLoad, Segment.region, Transcript.segment, HeaderState.regionSize,
          HeaderState.measure]
      have hrecords : Segment.dataLoad [transcript.segment running.records] =
          running.records.flatten.length := by
        simp [Segment.dataLoad, Segment.data, Transcript.segment]
      rw [headerLoad_of_running hrunning] at hheader
      rw [dataLoad_of_running hrunning] at hdata
      rw [hrunning] at hemitted
      rw [close_of_running hrunning]
      constructor
      · exact hemitted
      · rw [segments_of_none rfl, Segment.headerLoad_append, hlast]
        simp only [Counters.addSegment, Counters.addFinalize]
        omega
      · rw [segments_of_none rfl, Segment.dataLoad_append, hrecords]
        exact hdata
      · exact fun _ hnone => by cases hnone

theorem IsTallied.openNext (h : transcript.IsTallied headerBytes dataBytes)
    (hnone : transcript.running = none) :
    transcript.openNext.IsTallied headerBytes dataBytes := by
  obtain ⟨hemitted, hheader, hdata, -⟩ := h
  have hopened : transcript.openNext.running = some ⟨transcript.headers.regionSize, []⟩ := rfl
  rw [segments_of_none hnone] at hheader hdata
  rw [hnone] at hemitted
  constructor
  · exact congrArg (· + 1) hemitted
  · rw [headerLoad_of_running hopened]
    simp only [Transcript.openNext, Counters.addHeader]
    omega
  · rw [dataLoad_of_running hopened]
    exact hdata
  · rintro running ⟨⟩
    rfl

/-- An update changes no counts where no header is open. -/
theorem IsTallied.apply (h : transcript.IsTallied headerBytes dataBytes)
    (hnone : transcript.running = none) (update : Option HeaderUpdate) :
    (transcript.apply update).IsTallied headerBytes dataBytes := by
  have happlied : (transcript.apply update).running = none := hnone
  obtain ⟨hemitted, hheader, hdata, -⟩ := h
  rw [segments_of_none hnone] at hheader hdata
  constructor
  · exact hemitted
  · rw [segments_of_none happlied]
    exact hheader
  · rw [segments_of_none happlied]
    exact hdata
  · exact fun _ hsome => by cases happlied.symm.trans hsome

/-- An open header without records is counted anew when an update changes its length. -/
theorem IsTallied.amend_apply {slotLength : Nat} (h : transcript.IsTallied headerBytes dataBytes)
    (hrunning : transcript.running = some ⟨slotLength, []⟩) (update : Option HeaderUpdate) :
    (transcript.apply update).amend.IsTallied headerBytes dataBytes := by
  obtain ⟨hemitted, hheader, hdata, hslot⟩ := h
  have hregion : slotLength = transcript.headers.regionSize := hslot _ hrunning
  have happlied : (transcript.apply update).running = some ⟨slotLength, []⟩ := hrunning
  rw [headerLoad_of_running hrunning] at hheader
  rw [dataLoad_of_running hrunning] at hdata
  rw [hrunning] at hemitted
  rw [amend_of_running happlied]
  constructor
  · exact hemitted
  · rw [headerLoad_of_running rfl]
    simp only [Transcript.apply, Counters.addFinalize]
    omega
  · rw [dataLoad_of_running rfl]
    exact hdata
  · rintro running ⟨⟩
    rfl

theorem IsTallied.countTag (h : transcript.IsTallied headerBytes dataBytes)
    (update : Option HeaderUpdate) :
    (transcript.countTag update).IsTallied headerBytes dataBytes := by
  obtain ⟨hemitted, hheader, hdata, hslot⟩ := h
  cases update <;> exact ⟨hemitted, hheader, hdata, hslot⟩

theorem IsTallied.boundary (h : transcript.IsTallied headerBytes dataBytes)
    (update : Option HeaderUpdate) :
    (transcript.boundary update).IsTallied headerBytes dataBytes := by
  rw [Transcript.boundary]
  split
  · next hnone => exact (h.apply hnone update).openNext hnone
  · next hrunning => exact h.amend_apply hrunning update
  · exact (h.close.apply running_close update).openNext running_close

theorem IsTallied.makeRoom (h : transcript.IsTallied headerBytes dataBytes) :
    (transcript.makeRoom ceiling).IsTallied headerBytes dataBytes := by
  rw [Transcript.makeRoom]
  split
  · exact h.close.openNext running_close
  · exact h

theorem IsTallied.append (h : transcript.IsTallied headerBytes dataBytes)
    (hrunning : transcript.running.isSome = true) {record : Bytes}
    (hrecord : record.length = transcript.itemSize.toNat) :
    (transcript.append [record]).IsTallied headerBytes dataBytes := by
  obtain ⟨running, hrunning⟩ := Option.isSome_iff_exists.mp hrunning
  obtain ⟨hemitted, hheader, hdata, hslot⟩ := h
  have happended : (transcript.append [record]).running =
      some { running with records := running.records ++ [record] } := by
    rw [Transcript.append, hrunning]
    rfl
  rw [headerLoad_of_running hrunning] at hheader
  rw [dataLoad_of_running hrunning] at hdata
  rw [hrunning] at hemitted
  constructor
  · rw [happended]
    exact hemitted
  · rw [headerLoad_of_running happended]
    exact hheader
  · rw [dataLoad_of_running happended]
    simp only [Transcript.append, Counters.addData, List.flatten_append, List.length_append,
      List.flatten_singleton, List.length_singleton, hrecord, Transcript.itemSize]
    omega
  · intro running' hsome
    obtain rfl := Option.some.inj (happended.symm.trans hsome)
    exact hslot running hrunning

theorem isRunning_makeRoom (h : transcript.running.isSome = true) :
    (transcript.makeRoom ceiling).running.isSome = true := by
  rw [Transcript.makeRoom]
  split
  · rfl
  · exact h

theorem IsTallied.step {act : Act} (h : transcript.IsTallied headerBytes dataBytes)
    (hrunning : transcript.running.isSome = true) (hsize : transcript.itemSize = size)
    (hact : act.Suits size) : (transcript.step ceiling act).IsTallied headerBytes dataBytes := by
  cases act with
  | cut update => exact (h.countTag update).boundary update
  | record bytes =>
      have hroomy : (transcript.makeRoom ceiling).itemSize = size := by
        unfold Transcript.makeRoom
        split
        · exact itemSize_close hsize
        · exact hsize
      apply h.makeRoom.append (isRunning_makeRoom hrunning)
      rw [hroomy]
      exact hact

theorem IsTallied.play {acts : List Act} (h : transcript.IsTallied headerBytes dataBytes)
    (hrunning : transcript.running.isSome = true) (hsize : transcript.itemSize = size)
    (hacts : ∀ act ∈ acts, act.Suits size) :
    (transcript.play ceiling acts).IsTallied headerBytes dataBytes := by
  induction acts generalizing transcript with
  | nil => exact h
  | cons act rest ih =>
      obtain ⟨hact, hrest⟩ := List.forall_mem_cons.mp hacts
      exact ih (h.step hrunning hsize hact) (isRunning_step act hrunning)
        (itemSize_step ceiling hact hsize) hrest

theorem IsTallied.dropped (h : transcript.IsTallied headerBytes dataBytes) (records : Nat) :
    (transcript.dropped records).IsTallied headerBytes dataBytes :=
  ⟨h.emitted, h.headerBytes, h.dataBytes, h.slotLength⟩

/-- What was on a target belongs to what came before once the target is let go of. -/
theorem IsTallied.detached (h : transcript.IsTallied headerBytes dataBytes) :
    transcript.detached.IsTallied (headerBytes + Segment.headerLoad transcript.close.closed)
      (dataBytes + Segment.dataLoad transcript.close.closed) := by
  obtain ⟨hemitted, hheader, hdata, -⟩ := h.close
  rw [segments_of_none running_close] at hheader hdata
  rw [running_close] at hemitted
  exact ⟨hemitted, hheader, hdata, fun _ hnone => by cases hnone⟩

theorem IsTallied.installed (h : transcript.IsTallied headerBytes dataBytes)
    (hnone : transcript.running = none) :
    transcript.installed.IsTallied headerBytes dataBytes := by
  obtain ⟨hemitted, hheader, hdata, hslot⟩ := h.openNext hnone
  exact ⟨hemitted, hheader, hdata, hslot⟩

end Tallied

end Transcript

/-! ## Chronicles -/

namespace Chronicle

/-- All targets with what is on them: those that were let go of, and the active one. -/
def chapters (chronicle : Chronicle) : List Chapter :=
  chronicle.past ++ (chronicle.current.map fun places =>
    ⟨places, chronicle.tape.segments⟩).toList

structure IsTallied (size : UInt32) (chronicle : Chronicle) : Prop where
  itemSize : chronicle.tape.itemSize = size
  tape : chronicle.tape.IsTallied (Segment.headerLoad (chronicle.past.flatMap Chapter.segments))
    (Segment.dataLoad (chronicle.past.flatMap Chapter.segments))
  running : ∀ places, chronicle.current = some places → chronicle.tape.running.isSome = true
  rests : chronicle.current = none → chronicle.tape.closed = [] ∧ chronicle.tape.running = none

section Tallied

variable {config : Config} {chronicle : Chronicle} {size : UInt32}

/-- Every move of a recorder counts what it does to its targets. -/
theorem isKept_isTallied (config : Config) :
    IsKept config (HeaderUpdate.IsProper config.recordSize) (IsTallied config.recordSize) := by
  intro chronicle later hmoves h
  obtain ⟨hsize, htape, hrunning, hrests⟩ := h
  cases hmoves with
  | aside hpast hcurrent hsame =>
      constructor
      · rw [hsame]
        exact hsize
      · rw [hsame, hpast]
        exact htape
      · rw [hsame, hcurrent]
        exact hrunning
      · rw [hsame, hcurrent]
        exact hrests
  | play hcurrent hacts =>
      have hopen := hrunning _ hcurrent
      have hsuits := fun act hact => (hacts act hact).suits
      constructor
      · exact Transcript.itemSize_play _ hsuits hsize
      · exact htape.play hopen hsize hsuits
      · exact fun _ _ => Transcript.isRunning_play _ hopen
      · exact fun hnone => by cases hcurrent.symm.trans hnone
  | drop records hcurrent =>
      constructor
      · exact hsize
      · exact htape.dropped records
      · exact fun _ hsome => by cases hcurrent.symm.trans hsome
      · exact fun _ => hrests hcurrent
  | amend hcurrent hupdate =>
      obtain ⟨hclosed, hnone⟩ := hrests hcurrent
      constructor
      · apply Transcript.itemSize_apply _ hsize
        rintro accepted ⟨⟩
        exact hupdate
      · exact (htape.countTag _).apply hnone _
      · exact fun _ hsome => by cases hcurrent.symm.trans hsome
      · exact fun _ => ⟨hclosed, hnone⟩
  | retire hcurrent =>
      constructor
      · exact Transcript.itemSize_close hsize
      · rw [List.flatMap_append, List.flatMap_singleton, Segment.headerLoad_append,
          Segment.dataLoad_append]
        exact htape.detached
      · exact fun _ hsome => by cases hsome
      · exact fun _ => ⟨rfl, rfl⟩
  | install places hcurrent =>
      obtain ⟨hclosed, hnone⟩ := hrests hcurrent
      exact ⟨hsize, htape.installed hnone, fun _ _ => rfl, fun hnone => by cases hnone⟩

theorem start_isTallied (destination : Destination) {headers : HeaderState}
    (h : headers.Starts config) :
    (Chronicle.start config destination headers).IsTallied config.recordSize := by
  have hblank : Transcript.IsTallied 0 0 { headers } :=
    ⟨rfl, rfl, rfl, fun _ hnone => by cases hnone⟩
  exact ⟨h.itemSize, hblank.openNext rfl, fun _ _ => rfl, fun hnone => by cases hnone⟩

theorem IsTallied.run (hvalid : config.validate = .ok ())
    (h : chronicle.IsTallied config.recordSize) (calls : List Call) :
    (chronicle.run config calls).IsTallied config.recordSize :=
  (isKept_isTallied config).run hvalid (fun _ _ _ hupdate => Call.updates_isProper hupdate) h

/-- The counts of bytes are what all targets hold together. -/
theorem IsTallied.loads (h : chronicle.IsTallied size) :
    chronicle.tape.counters.headerBytes =
        Segment.headerLoad (chronicle.chapters.flatMap Chapter.segments) ∧
      chronicle.tape.counters.dataBytes =
        Segment.dataLoad (chronicle.chapters.flatMap Chapter.segments) := by
  obtain ⟨-, ⟨-, hheader, hdata, -⟩, -, hrests⟩ := h
  rw [chapters, List.flatMap_append, Segment.headerLoad_append, Segment.dataLoad_append, hheader,
    hdata]
  cases hcurrent : chronicle.current with
  | some places =>
      rw [Option.map_some, Option.toList_some, List.flatMap_singleton]
      exact ⟨rfl, rfl⟩
  | none =>
      obtain ⟨hclosed, hnone⟩ := hrests hcurrent
      rw [Transcript.segments_of_none hnone, hclosed]
      exact ⟨rfl, rfl⟩

end Tallied

end Chronicle

end SegmentStream
