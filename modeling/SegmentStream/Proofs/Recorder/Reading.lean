import SegmentStream.Proofs.Recorder.Batch
import SegmentStream.Proofs.Target.Reading

/-!
# Reading transcripts back

What a writer leaves is read back as the segments of its transcript, provided
every header is readable.  The headers of a transcript keep all other limits of
a reader: nothing that is recorded can break them.
-/

namespace SegmentStream

/-! ## Headers of a stream -/

namespace HeaderState

/-- What the headers of a stream with records of this size keep to. -/
structure IsProper (size : UInt32) (state : HeaderState) : Prop where
  itemSize : state.header.itemSize = size
  known : state.header.IsKnown

section Proper

variable {size : UInt32} {state : HeaderState}

theorem IsProper.applySome (h : state.IsProper size) {update : Option HeaderUpdate}
    (hproper : ∀ accepted, update = some accepted → accepted.IsProper size) :
    (state.applySome update).IsProper size := by
  refine ⟨applySome_itemSize hproper h.itemSize, ?_⟩
  obtain ⟨-, hversion, hflags⟩ := h
  cases update with
  | none => exact ⟨hversion, hflags⟩
  | some update =>
      cases update with
      | version version => exact ⟨hproper _ rfl, hflags⟩
      | _ => exact ⟨hversion, hflags⟩

theorem IsProper.fresh (h : state.IsProper size) : state.fresh.IsProper size :=
  ⟨h.itemSize, ⟨h.known.version, h.known.flags⟩⟩

theorem IsProper.measure (h : state.IsProper size) (dataLength : Nat) :
    (state.measure dataLength).IsProper size :=
  ⟨h.itemSize, ⟨h.known.version, h.known.flags⟩⟩

theorem IsProper.advance (h : state.IsProper size) (records : Nat) :
    (state.advance records).IsProper size :=
  ⟨h.itemSize, ⟨h.known.version, h.known.flags⟩⟩

/-- The open header as a reader finds it. -/
def reading (state : HeaderState) : Reading := ⟨state.fresh.header, state.fresh.extras, []⟩

/-- An open header states no data, and where its data starts. -/
theorem IsProper.isSound (h : state.IsProper size) (hsize : size ≠ 0)
    (hregion : state.regionSize < 2 ^ 64) : state.reading.IsSound :=
  ⟨⟨h.fresh.known, fun hzero => hsize (h.itemSize.symm.trans hzero),
    UInt64.toNat_ofNat_of_lt' hregion⟩, rfl⟩

end Proper

end HeaderState

/-! ## Segments -/

namespace Segment

def reading (segment : Segment) : Reading := ⟨segment.header, segment.extras, segment.data⟩

/-- A segment of records of this size, as its header states it. -/
structure IsProper (size : UInt32) (segment : Segment) : Prop where
  itemSize : segment.header.itemSize = size
  known : segment.header.IsKnown
  dataOffset : segment.header.dataOffset = .ofNat (headerSize + segment.extras.encodedSize)
  dataLength : segment.header.dataLength = .ofNat (segment.records.length * size.toNat)
  records : ∀ record ∈ segment.records, record.length = size.toNat

theorem IsProper.data_ne_nil {size : UInt32} {segment : Segment} (h : segment.IsProper size)
    (hsize : size ≠ 0) (hfilled : segment.records ≠ []) : segment.data ≠ [] := by
  have hpos : 0 < size.toNat := Nat.pos_of_ne_zero fun hzero => hsize (UInt32.toNat_inj.mp hzero)
  refine List.ne_nil_of_length_pos ?_
  rw [data, flatten_length h.records]
  exact Nat.mul_pos (List.length_pos_iff.mpr hfilled) hpos

/-- Where lengths fit their words, the header of a proper segment is right about them. -/
theorem IsProper.isSound {size : UInt32} {segment : Segment} (h : segment.IsProper size)
    (hsize : size ≠ 0) (hregion : segment.region.length < 2 ^ 64)
    (hdata : segment.data.length < 2 ^ 64) : segment.reading.IsSound := by
  rw [region, encodeRegion_length] at hregion
  have hlength : segment.data.length = segment.records.length * size.toNat :=
    flatten_length h.records
  refine ⟨⟨h.known, fun hzero => hsize (h.itemSize.symm.trans hzero), ?_⟩, ?_⟩
  · exact (congrArg UInt64.toNat h.dataOffset).trans (UInt64.toNat_ofNat_of_lt' hregion)
  · rw [hlength] at hdata
    exact (congrArg UInt64.toNat h.dataLength).trans
      ((UInt64.toNat_ofNat_of_lt' hdata).trans hlength.symm)

end Segment

/-! ## Contents from the front -/

namespace Contents

section Front

variable (contents : Contents) (first second : Bytes)

theorem appendHeader_prependHeader : (contents.prependHeader first).appendHeader second =
    (contents.appendHeader second).prependHeader first := by
  obtain ⟨bytes, _ | header⟩ := contents <;>
    simp [appendHeader, prependHeader, headerBytes, withHeaderBytes]

theorem appendData_prependHeader : (contents.prependHeader first).appendData second =
    (contents.appendData second).prependHeader first := by
  obtain ⟨bytes, _ | header⟩ := contents <;>
    simp [appendData, prependHeader, headerBytes, withHeaderBytes]

theorem appendHeader_prependData : (contents.prependData first).appendHeader second =
    (contents.appendHeader second).prependData first := by
  obtain ⟨bytes, _ | header⟩ := contents <;>
    simp [appendHeader, prependData, headerBytes, withHeaderBytes]

theorem appendData_prependData : (contents.prependData first).appendData second =
    (contents.appendData second).prependData first := by
  simp [appendData, prependData]

end Front

section LayOut

variable (readings : List Reading) (tail : Contents) (bytes : Bytes)

theorem appendHeader_layOut : (Reading.layOut readings tail).appendHeader bytes =
    Reading.layOut readings (tail.appendHeader bytes) := by
  induction readings with
  | nil => rfl
  | cons reading rest ih =>
      rw [Reading.layOut_cons, Reading.layOut_cons, appendHeader_prependHeader,
        appendHeader_prependData, ih]

theorem appendData_layOut : (Reading.layOut readings tail).appendData bytes =
    Reading.layOut readings (tail.appendData bytes) := by
  induction readings with
  | nil => rfl
  | cons reading rest ih =>
      rw [Reading.layOut_cons, Reading.layOut_cons, appendData_prependHeader,
        appendData_prependData, ih]

theorem append_blank (split : Bool) (reading : Reading) (data : Bytes) :
    ((blank split).appendHeader reading.region).appendData data = opening split reading data := by
  cases split <;>
    simp [blank, opening, appendHeader, appendData, prependHeader, prependData, headerBytes,
      withHeaderBytes]

theorem ofSegments_eq_layOut (split : Bool) (segments : List Segment) :
    ofSegments split segments = Reading.layOut (segments.map Segment.reading) (blank split) := by
  induction segments using List.reverseRecOn with
  | nil => rfl
  | append_singleton rest segment ih =>
      have hlast := append_blank split segment.reading segment.data
      rw [ofSegments_concat, add, ih, appendHeader_layOut, appendData_layOut, List.map_append,
        Reading.layOut_append]
      exact congrArg (Reading.layOut _) hlast

theorem ofSegments_append_eq_layOut (split : Bool) (segments : List Segment) (last : Reading) :
    ((ofSegments split segments).appendHeader last.region).appendData bytes =
      Reading.layOut (segments.map Segment.reading) (opening split last bytes) := by
  rw [ofSegments_eq_layOut, appendHeader_layOut, appendData_layOut, append_blank]

theorem length_of_mem_layOut {readings : List Reading} {reading : Reading} (tail : Contents)
    (h : reading ∈ readings) :
    reading.region.length ≤ (Reading.layOut readings tail).headerBytes.length ∧
      reading.data.length ≤ (Reading.layOut readings tail).data.length := by
  have hstep : ∀ (first : Reading) (contents : Contents),
      let whole := (contents.prependData first.data).prependHeader first.region
      first.region.length ≤ whole.headerBytes.length ∧ first.data.length ≤ whole.data.length ∧
        contents.headerBytes.length ≤ whole.headerBytes.length ∧
        contents.data.length ≤ whole.data.length := by
    rintro first ⟨data, _ | header⟩ <;>
      simp [prependData, prependHeader, headerBytes, withHeaderBytes]
    omega
  induction readings with
  | nil => cases h
  | cons first rest ih =>
      obtain ⟨hregion, hdata, hheaders, hall⟩ := hstep first (Reading.layOut rest tail)
      rcases List.mem_cons.mp h with rfl | h
      · exact ⟨hregion, hdata⟩
      · obtain ⟨hregion', hdata'⟩ := ih h
        exact ⟨Nat.le_trans hregion' hheaders, Nat.le_trans hdata' hall⟩

end LayOut

/-- Lengths and offsets fit the words that headers have for them. -/
def IsAddressable (contents : Contents) : Prop :=
  contents.headerBytes.length < 2 ^ 64 ∧ contents.data.length < 2 ^ 64

/-- A stream that has ended as a reader finds it: every header is right about its segment. -/
structure ReadsAs (contents : Contents) (readings : List Reading) : Prop where
  sound : ∀ reading ∈ readings, reading.IsSound
  read : contents.readAll = .ok readings ↔ ∀ reading ∈ readings, reading.header.IsReadable

/-- A stream in use as a reader finds it: only its open header states no data. -/
structure OpensAs (contents : Contents) (found : OpenReading) : Prop where
  closed : ∀ reading ∈ found.closed, reading.IsSound ∧ reading.data ≠ []
  opened : Reading.IsSound ⟨found.header, found.extras, []⟩
  read : contents.readOpen 0 = .ok found ↔
    (∀ reading ∈ found.closed, reading.header.IsReadable) ∧ found.header.IsReadable

theorem ofSegments_readsAs {size : UInt32} (hsize : size ≠ 0) (split : Bool)
    {segments : List Segment} (hproper : ∀ segment ∈ segments, segment.IsProper size)
    (haddressable : (ofSegments split segments).IsAddressable) :
    (ofSegments split segments).ReadsAs (segments.map Segment.reading) := by
  rw [ofSegments_eq_layOut] at haddressable ⊢
  have hsound : ∀ reading ∈ segments.map Segment.reading, reading.IsSound := by
    intro reading hreading
    obtain ⟨hregion, hdata⟩ := length_of_mem_layOut (blank split) hreading
    obtain ⟨segment, hsegment, rfl⟩ := List.mem_map.mp hreading
    exact (hproper segment hsegment).isSound hsize
      (Nat.lt_of_le_of_lt hregion haddressable.1) (Nat.lt_of_le_of_lt hdata haddressable.2)
  exact ⟨hsound, readAll_layOut split hsound⟩

theorem ofSegments_opensAs {size : UInt32} (hsize : size ≠ 0) (split : Bool)
    {segments : List Segment} {state : HeaderState} {data : Bytes}
    (hproper : ∀ segment ∈ segments, segment.IsProper size ∧ segment.records ≠ [])
    (hstate : state.IsProper size)
    (haddressable : (((ofSegments split segments).appendHeader
      state.reading.region).appendData data).IsAddressable) :
    (((ofSegments split segments).appendHeader state.reading.region).appendData data).OpensAs
      ⟨segments.map Segment.reading, ⟨(ofSegments split segments).headerBytes.length,
        state.regionSize⟩, state.fresh.header, state.fresh.extras, data⟩ := by
  have hwhole := headerBytes_append (ofSegments split segments) state.reading.region data
  have hfits : state.regionSize < 2 ^ 64 := by
    have hregion : state.reading.region.length = state.regionSize := encodeRegion_length ..
    have := haddressable.1
    rw [hwhole, List.length_append, List.length_append] at this
    omega
  have hlast := hstate.isSound hsize hfits
  have hstart : state.reading.header.dataOffset.toNat = state.regionSize := hlast.heads.dataOffset
  -- the slot is as far from the end as the open header with its data is long
  have hoffset : (((ofSegments split segments).appendHeader state.reading.region).appendData
      data).headerBytes.length - (opening split state.reading data).headerBytes.length =
        (ofSegments split segments).headerBytes.length := by
    have hblank : (blank split).headerBytes = [] := by cases split <;> rfl
    have hbehind : (ofSegments split segments).behind data = (blank split).behind data := by
      rw [behind, behind, ofSegments_isSome]
      cases split <;> rfl
    rw [← append_blank, hwhole, headerBytes_append, hbehind, hblank]
    simp only [List.length_append, List.length_nil]
    omega
  rw [ofSegments_append_eq_layOut] at haddressable hoffset ⊢
  have hsound : ∀ reading ∈ segments.map Segment.reading, reading.IsSound ∧ reading.data ≠ [] := by
    intro reading hreading
    obtain ⟨hlength, hdata⟩ := length_of_mem_layOut (opening split state.reading data) hreading
    obtain ⟨segment, hsegment, rfl⟩ := List.mem_map.mp hreading
    obtain ⟨hsegment, hfilled⟩ := hproper segment hsegment
    exact ⟨hsegment.isSound hsize (Nat.lt_of_le_of_lt hlength haddressable.1)
      (Nat.lt_of_le_of_lt hdata haddressable.2), hsegment.data_ne_nil hsize hfilled⟩
  have hread := readOpen_layOut split data hsound hlast rfl 0
  rw [hoffset, Nat.zero_add, hstart] at hread
  exact ⟨hsound, hlast, hread⟩

end Contents

/-! ## Transcripts -/

namespace Transcript

/-- Headers, segments and records are what a stream of records of this size can have. -/
structure IsProper (size : UInt32) (ceiling : Nat) (transcript : Transcript) : Prop where
  fresh : transcript.headers.fresh = transcript.headers
  headers : transcript.headers.IsProper size
  closed : ∀ segment ∈ transcript.closed, segment.IsProper size ∧ segment.records ≠ [] ∧
    segment.records.length ≤ ceiling
  running : ∀ running, transcript.running = some running →
    (∀ record ∈ running.records, record.length = size.toNat) ∧ running.records.length ≤ ceiling

section Proper

variable {size : UInt32} {ceiling : Nat} {transcript : Transcript}

theorem IsProper.segment (h : transcript.IsProper size ceiling) {records : List Bytes}
    (hrecords : ∀ record ∈ records, record.length = size.toNat) :
    (transcript.segment records).IsProper size := by
  have hsize := h.headers.itemSize
  obtain ⟨hitemSize, hknown⟩ := h.headers.measure (records.length * size.toNat)
  refine ⟨?_, ?_, ?_, ?_, hrecords⟩ <;> rw [Transcript.segment, hsize]
  · exact hitemSize
  · exact hknown
  · rfl
  · rfl

theorem IsProper.close (h : transcript.IsProper size ceiling)
    (hfilled : ∀ running, transcript.running = some running → running.records ≠ []) :
    transcript.close.IsProper size ceiling := by
  rw [Transcript.close]
  split
  · exact h
  · rename_i running hrunning
    obtain ⟨hrecords, hceiling⟩ := h.running running hrunning
    refine ⟨?_, h.headers.advance _, ?_, fun _ h => by cases h⟩
    · rw [HeaderState.fresh_advance, h.fresh]
    · intro segment hsegment
      rcases List.mem_append.mp hsegment with hsegment | hsegment
      · exact h.closed segment hsegment
      · obtain rfl := List.mem_singleton.mp hsegment
        exact ⟨h.segment hrecords, hfilled running hrunning, hceiling⟩

theorem IsProper.openNext (h : transcript.IsProper size ceiling) :
    transcript.openNext.IsProper size ceiling := by
  refine ⟨h.fresh, h.headers, h.closed, ?_⟩
  rintro running ⟨⟩
  exact ⟨List.forall_mem_nil _, Nat.zero_le _⟩

theorem IsProper.apply (h : transcript.IsProper size ceiling) {update : Option HeaderUpdate}
    (hproper : ∀ accepted, update = some accepted → accepted.IsProper size) :
    (transcript.apply update).IsProper size ceiling :=
  ⟨rfl, (h.headers.applySome hproper).fresh, h.closed, h.running⟩

theorem IsProper.amend (h : transcript.IsProper size ceiling) :
    transcript.amend.IsProper size ceiling := by
  rw [Transcript.amend]
  split
  · exact h
  · rename_i running hrunning
    refine ⟨h.fresh, h.headers, h.closed, ?_⟩
    rintro running' ⟨⟩
    exact h.running running hrunning

theorem IsProper.boundary (h : transcript.IsProper size ceiling) {update : Option HeaderUpdate}
    (hproper : ∀ accepted, update = some accepted → accepted.IsProper size) :
    (transcript.boundary update).IsProper size ceiling := by
  rw [Transcript.boundary]
  split
  · exact (h.apply hproper).openNext
  · exact (h.apply hproper).amend
  · rename_i hrunning
    refine ((h.close fun running hsome => ?_).apply hproper).openNext
    cases hrunning.symm.trans hsome
    exact List.cons_ne_nil _ _

theorem IsProper.makeRoom (hceiling : 0 < ceiling) (h : transcript.IsProper size ceiling) :
    (transcript.makeRoom ceiling).IsProper size ceiling := by
  rw [Transcript.makeRoom]
  split
  · rename_i hroom
    refine IsProper.openNext (h.close fun running hrunning hnil => ?_)
    rw [room, hrunning] at hroom
    simp only [hnil, List.length_nil] at hroom
    omega
  · exact h

theorem room_makeRoom (hceiling : 0 < ceiling) (transcript : Transcript) :
    0 < (transcript.makeRoom ceiling).room ceiling := by
  rw [Transcript.makeRoom]
  split
  · rwa [room_roll]
  · omega

theorem IsProper.append (h : transcript.IsProper size ceiling)
    (hroom : 0 < transcript.room ceiling) {record : Bytes} (hrecord : record.length = size.toNat) :
    (transcript.append [record]).IsProper size ceiling := by
  refine ⟨h.fresh, h.headers, h.closed, ?_⟩
  intro running' hrunning'
  obtain ⟨running, hrunning, rfl⟩ := Option.map_eq_some_iff.mp hrunning'
  obtain ⟨hrecords, hlength⟩ := h.running running hrunning
  simp only [room, hrunning] at hroom
  refine ⟨List.forall_mem_append.mpr ⟨hrecords, List.forall_mem_singleton.mpr hrecord⟩, ?_⟩
  simp only [List.length_append, List.length_singleton]
  omega

theorem IsProper.step (hceiling : 0 < ceiling) (h : transcript.IsProper size ceiling) {act : Act}
    (hsuits : act.Suits size) : (transcript.step ceiling act).IsProper size ceiling := by
  cases act with
  | record bytes => exact (h.makeRoom hceiling).append (room_makeRoom hceiling transcript) hsuits
  | cut update =>
      have hcounted : (transcript.countTag update).IsProper size ceiling :=
        ⟨h.fresh, h.headers, h.closed, h.running⟩
      exact hcounted.boundary hsuits

theorem IsProper.play (hceiling : 0 < ceiling) (h : transcript.IsProper size ceiling)
    {acts : List Act} (hsuits : ∀ act ∈ acts, act.Suits size) :
    (transcript.play ceiling acts).IsProper size ceiling := by
  induction acts generalizing transcript with
  | nil => exact h
  | cons act rest ih =>
      obtain ⟨hact, hrest⟩ := List.forall_mem_cons.mp hsuits
      exact ih (h.step hceiling hact) hrest

theorem IsProper.closed_close (h : transcript.IsProper size ceiling) :
    ∀ segment ∈ transcript.close.closed, segment.IsProper size := by
  rw [Transcript.close]
  split
  · exact fun segment hsegment => (h.closed segment hsegment).1
  · rename_i running hrunning
    refine List.forall_mem_append.mpr ⟨fun segment hsegment => (h.closed segment hsegment).1, ?_⟩
    exact List.forall_mem_singleton.mpr (h.segment (h.running running hrunning).1)

end Proper

end Transcript

end SegmentStream
