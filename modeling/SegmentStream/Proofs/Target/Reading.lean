import SegmentStream.Proofs.Attribute.Reading
import SegmentStream.Proofs.Header.Reading
import SegmentStream.Proofs.Target.Contents

/-!
# Reading what a target holds

A reader goes from header to header: each says where its data starts and how
long it is.  Headers that stand apart are read from their own byte string.  A
header that states no data is the open one of a target in use, and all data from
there on belongs to it.
-/

namespace SegmentStream

/-! ## Headers with their attributes -/

namespace Header

/-- The two fields of a header that a stream can bring out of the limits of a reader. -/
def IsReadable (header : Header) : Prop :=
  header.sampleRate.isPositiveFinite = true ∧ header.time.fraction.isFraction = true

instance (header : Header) : Decidable header.IsReadable := inferInstanceAs (Decidable (_ ∧ _))

/-- A header as it is written before these attributes. -/
structure Heads (header : Header) (extras : Extras) : Prop where
  known : header.IsKnown
  itemSize : header.itemSize ≠ 0
  dataOffset : header.dataOffset.toNat = headerSize + extras.encodedSize

section Heads

variable {header : Header} {extras : Extras}

theorem Heads.validate (h : header.Heads extras) (hreadable : header.IsReadable) :
    header.validate = .ok () := by
  have hoffset : ¬ header.dataOffset.toNat < headerSize := by
    rw [h.dataOffset]
    omega
  simp [Header.validate, h.itemSize, hreadable.1, hreadable.2, hoffset]

theorem Heads.refuses (h : header.Heads extras) (hunreadable : ¬ header.IsReadable) :
    ∃ fault, header.validate = .error fault := by
  unfold Header.validate
  rw [if_neg h.itemSize]
  by_cases hrate : header.sampleRate.isPositiveFinite = true
  · have hfraction : ¬ header.time.fraction.isFraction = true :=
      fun hfraction => hunreadable ⟨hrate, hfraction⟩
    exact ⟨.badFraction header.time.fraction, by simp [hrate, hfraction]⟩
  · exact ⟨.badSampleRate header.sampleRate, by simp [hrate]⟩

theorem Heads.decode_region (h : header.Heads extras) (rest : Bytes) :
    Header.decode (encodeRegion header extras ++ rest) =
      header.validate.map fun _ => header := by
  rw [encodeRegion, List.append_assoc, decode_encode h.known]

theorem Heads.decodeFront (h : header.Heads extras) (rest : Bytes) :
    Extras.decodeFront (header.dataOffset.toNat - headerSize)
      ((encodeRegion header extras ++ rest).drop headerSize) = .ok extras := by
  have hsize : header.dataOffset.toNat - headerSize = extras.encodedSize := by
    rw [h.dataOffset, Nat.add_sub_cancel_left]
  rw [hsize, drop_encodeRegion]
  refine Extras.decodeFront_append (Extras.listable_of_encodedSize ?_) rest
  have := header.dataOffset.toNat_lt
  rw [h.dataOffset] at this
  omega

theorem Heads.drop_region (h : header.Heads extras) (rest : Bytes) :
    ((encodeRegion header extras ++ rest).drop headerSize).drop
      (header.dataOffset.toNat - headerSize) = rest := by
  have hlength : headerSize + (header.dataOffset.toNat - headerSize) =
      (encodeRegion header extras).length := by
    rw [h.dataOffset, encodeRegion_length]
    omega
  rw [List.drop_drop, hlength, List.drop_left]

end Heads

end Header

/-! ## Readers -/

/-- A segment as a reader finds it. -/
structure Reading where
  header : Header
  extras : Extras
  data : Bytes
  deriving DecidableEq

/-- A stream in use as a reader finds it: closed segments, then the open header. -/
structure OpenReading where
  closed : List Reading
  slot : Slot
  header : Header
  extras : Extras
  /-- All data behind the last closed segment. -/
  data : Bytes
  deriving DecidableEq

inductive ReadFault where
  | header (fault : HeaderFault)
  | extras (fault : ExtrasFault)
  | shortData (length need : Nat)
  | looseData (length : Nat)
  | looseHeader (length : Nat)
  deriving DecidableEq

namespace Contents

def readHeader (contents : Contents) : Except ReadFault (Header × Extras × Contents) :=
  match Header.decode contents.headerBytes with
  | .error fault => .error (.header fault)
  | .ok header =>
      let behind := contents.headerBytes.drop headerSize
      let size := header.dataOffset.toNat - headerSize
      match Extras.decodeFront size behind with
      | .error fault => .error (.extras fault)
      | .ok extras => .ok (header, extras, contents.withHeaderBytes (behind.drop size))

/-- The segment at the front, with as much data as its header states. -/
def readSegment (contents : Contents) : Except ReadFault (Reading × Contents) :=
  match contents.readHeader with
  | .error fault => .error fault
  | .ok (header, extras, rest) =>
      let length := header.dataLength.toNat
      if rest.data.length < length then .error (.shortData rest.data.length length)
      else .ok (⟨header, extras, rest.data.take length⟩,
        { rest with data := rest.data.drop length })

theorem headerBytes_length_drop (contents : Contents) (length : Nat) :
    ({ contents with data := contents.data.drop length } : Contents).headerBytes.length ≤
      contents.headerBytes.length := by
  obtain ⟨data, _ | header⟩ := contents
  · exact (List.drop_sublist length data).length_le
  · exact Nat.le_refl _

/-- A segment takes at least its header from what is to be read. -/
theorem readSegment_lt {contents rest : Contents} {reading : Reading}
    (h : contents.readSegment = .ok (reading, rest)) :
    rest.headerBytes.length < contents.headerBytes.length := by
  unfold readSegment readHeader at h
  cases hdecode : Header.decode contents.headerBytes with
  | error fault =>
      rw [hdecode] at h
      cases h
  | ok header =>
      have hpos : 0 < contents.headerBytes.length := by
        refine List.length_pos_iff.mpr fun hnil => ?_
        rw [hnil] at hdecode
        cases hdecode
      simp only [hdecode] at h
      split at h
      · cases h
      rename_i header' extras rest' hheader
      split at hheader
      · cases hheader
      cases hheader
      split at h
      · cases h
      cases h
      refine Nat.lt_of_le_of_lt (headerBytes_length_drop ..) ?_
      rw [headerBytes_withHeaderBytes]
      simp only [List.length_drop, headerSize]
      omega

/-- All segments of a stream that has ended. -/
def readAll (contents : Contents) : Except ReadFault (List Reading) :=
  if contents.headerBytes = [] then
    if contents.data = [] then .ok [] else .error (.looseData contents.data.length)
  else
    match _h : contents.readSegment with
    | .error fault => .error fault
    | .ok (reading, rest) => (readAll rest).map (reading :: ·)
termination_by contents.headerBytes.length
decreasing_by exact readSegment_lt _h

/-- The segments of a stream in use, the first of which stands at `offset`. -/
def readOpen (offset : Nat) (contents : Contents) : Except ReadFault OpenReading :=
  match _h : contents.readSegment with
  | .error fault => .error fault
  | .ok (reading, rest) =>
      if reading.header.dataLength = 0 then
        if rest.header.getD [] = [] then
          .ok ⟨[], ⟨offset, reading.header.dataOffset.toNat⟩, reading.header, reading.extras,
            rest.data⟩
        else .error (.looseHeader (rest.header.getD []).length)
      else
        (readOpen (offset + (contents.headerBytes.length - rest.headerBytes.length)) rest).map
          fun later => { later with closed := reading :: later.closed }
termination_by contents.headerBytes.length
decreasing_by exact readSegment_lt _h

/-! ## Contents from the front -/

def prependData (contents : Contents) (bytes : Bytes) : Contents :=
  { contents with data := bytes ++ contents.data }

def prependHeader (contents : Contents) (region : Bytes) : Contents :=
  contents.withHeaderBytes (region ++ contents.headerBytes)

end Contents

namespace Reading

def region (reading : Reading) : Bytes := encodeRegion reading.header reading.extras

/-- The header says how long the region and the data are. -/
structure IsSound (reading : Reading) : Prop where
  heads : reading.header.Heads reading.extras
  dataLength : reading.header.dataLength.toNat = reading.data.length

/-- The contents that begin with these segments and go on with `tail`. -/
def layOut (readings : List Reading) (tail : Contents) : Contents :=
  readings.foldr (fun reading contents =>
    (contents.prependData reading.data).prependHeader reading.region) tail

@[simp] theorem layOut_nil (tail : Contents) : layOut [] tail = tail := rfl

@[simp] theorem layOut_cons (reading : Reading) (rest : List Reading) (tail : Contents) :
    layOut (reading :: rest) tail =
      ((layOut rest tail).prependData reading.data).prependHeader reading.region := rfl

theorem layOut_append (first second : List Reading) (tail : Contents) :
    layOut (first ++ second) tail = layOut first (layOut second tail) :=
  List.foldr_append

end Reading

namespace Contents

section Front

variable (contents : Contents)

@[simp] theorem headerBytes_prependHeader (region : Bytes) :
    (contents.prependHeader region).headerBytes = region ++ contents.headerBytes :=
  headerBytes_withHeaderBytes ..

theorem headerBytes_prepend_length (region data : Bytes) :
    contents.headerBytes.length ≤
      ((contents.prependData data).prependHeader region).headerBytes.length := by
  obtain ⟨bytes, _ | header⟩ := contents <;>
    simp [prependData, prependHeader, headerBytes, withHeaderBytes]
  omega

theorem readHeader_prepend {header : Header} {extras : Extras} (h : header.Heads extras)
    (hreadable : header.IsReadable) :
    (contents.prependHeader (encodeRegion header extras)).readHeader =
      .ok (header, extras, contents) := by
  rw [readHeader, headerBytes_prependHeader, h.decode_region, h.validate hreadable]
  simp only [Except.map, h.decodeFront, h.drop_region, prependHeader,
    withHeaderBytes_withHeaderBytes, withHeaderBytes_headerBytes]

theorem readHeader_refuses {header : Header} {extras : Extras} (h : header.Heads extras)
    (hunreadable : ¬ header.IsReadable) :
    ∃ fault, (contents.prependHeader (encodeRegion header extras)).readHeader = .error fault := by
  obtain ⟨fault, hfault⟩ := h.refuses hunreadable
  refine ⟨.header fault, ?_⟩
  rw [readHeader, headerBytes_prependHeader, h.decode_region, hfault]
  rfl

theorem readSegment_prepend {reading : Reading} (h : reading.IsSound)
    (hreadable : reading.header.IsReadable) :
    ((contents.prependData reading.data).prependHeader reading.region).readSegment =
      .ok (reading, contents) := by
  have hfits : ¬ (reading.data ++ contents.data).length < reading.data.length := by
    rw [List.length_append]
    omega
  rw [readSegment, Reading.region, readHeader_prepend _ h.heads hreadable]
  simp only [h.dataLength, prependData, hfits, if_false, List.take_left, List.drop_left]

theorem readSegment_refuses {reading : Reading} (h : reading.IsSound)
    (hunreadable : ¬ reading.header.IsReadable) :
    ∃ fault, ((contents.prependData reading.data).prependHeader reading.region).readSegment =
      .error fault := by
  obtain ⟨fault, hfault⟩ := readHeader_refuses (contents.prependData reading.data) h.heads
    hunreadable
  refine ⟨fault, ?_⟩
  rw [readSegment, Reading.region, hfault]

end Front

/-! ## One step of a reader -/

section Step

variable {contents rest : Contents} {reading : Reading} {fault : ReadFault}

theorem readAll_of_segment (h : contents.readSegment = .ok (reading, rest)) :
    contents.readAll = rest.readAll.map (reading :: ·) := by
  have hne : contents.headerBytes ≠ [] := by
    have := readSegment_lt h
    exact List.ne_nil_of_length_pos (by omega)
  rw [readAll, if_neg hne]
  split
  · rename_i other hother
    cases h.symm.trans hother
  · rename_i other rest' hother
    cases h.symm.trans hother
    rfl

theorem readAll_of_fault (hne : contents.headerBytes ≠ [])
    (h : contents.readSegment = .error fault) : contents.readAll = .error fault := by
  rw [readAll, if_neg hne]
  split
  · rename_i other hother
    cases h.symm.trans hother
    rfl
  · rename_i other rest' hother
    cases h.symm.trans hother

theorem readOpen_of_segment (h : contents.readSegment = .ok (reading, rest))
    (hclosed : reading.header.dataLength ≠ 0) (offset : Nat) :
    contents.readOpen offset =
      (rest.readOpen (offset + (contents.headerBytes.length - rest.headerBytes.length))).map
        fun later => { later with closed := reading :: later.closed } := by
  rw [readOpen]
  split
  · rename_i other hother
    cases h.symm.trans hother
  · rename_i other rest' hother
    cases h.symm.trans hother
    rw [if_neg hclosed]

theorem readOpen_of_last (h : contents.readSegment = .ok (reading, rest))
    (hopen : reading.header.dataLength = 0) (hlast : rest.header.getD [] = []) (offset : Nat) :
    contents.readOpen offset = .ok ⟨[], ⟨offset, reading.header.dataOffset.toNat⟩, reading.header,
      reading.extras, rest.data⟩ := by
  rw [readOpen]
  split
  · rename_i other hother
    cases h.symm.trans hother
  · rename_i other rest' hother
    cases h.symm.trans hother
    rw [if_pos hopen, if_pos hlast]

theorem readOpen_of_fault (h : contents.readSegment = .error fault) (offset : Nat) :
    contents.readOpen offset = .error fault := by
  rw [readOpen]
  split
  · rename_i other hother
    cases h.symm.trans hother
    rfl
  · rename_i other rest' hother
    cases h.symm.trans hother

end Step

/-! ## Reading back what was laid out -/

section ReadBack

variable {readings : List Reading}

/-- A stream that has ended is read back exactly if every header is readable. -/
theorem readAll_layOut (split : Bool) (hsound : ∀ reading ∈ readings, reading.IsSound) :
    (Reading.layOut readings (blank split)).readAll = .ok readings ↔
      ∀ reading ∈ readings, reading.header.IsReadable := by
  induction readings with
  | nil =>
      have hblank : (blank split).readAll = .ok [] := by
        rw [readAll]
        cases split <;> rfl
      simp [hblank]
  | cons reading rest ih =>
      obtain ⟨hhead, hrest⟩ := List.forall_mem_cons.mp hsound
      rw [List.forall_mem_cons, ← ih hrest, Reading.layOut_cons]
      by_cases hreadable : reading.header.IsReadable
      · rw [readAll_of_segment (readSegment_prepend _ hhead hreadable)]
        cases (Reading.layOut rest (blank split)).readAll <;> simp [Except.map, hreadable]
      · obtain ⟨fault, hfault⟩ :=
          readSegment_refuses (Reading.layOut rest (blank split)) hhead hreadable
        have hne : (((Reading.layOut rest (blank split)).prependData reading.data).prependHeader
            reading.region).headerBytes ≠ [] := by
          rw [headerBytes_prependHeader, Reading.region]
          refine List.ne_nil_of_length_pos ?_
          rw [List.length_append, encodeRegion_length, headerSize]
          omega
        rw [readAll_of_fault hne hfault]
        simp [hreadable]

theorem headerBytes_layOut_length (readings : List Reading) (tail : Contents) :
    tail.headerBytes.length ≤ (Reading.layOut readings tail).headerBytes.length := by
  induction readings with
  | nil => exact Nat.le_refl _
  | cons reading rest ih => exact Nat.le_trans ih (headerBytes_prepend_length ..)

/-- A stream in use, from where its open header stands. -/
def opening (split : Bool) (reading : Reading) (data : Bytes) : Contents :=
  ((blank split).prependData data).prependHeader reading.region

/--
A stream in use is read back exactly if every header is readable.  Only its open
header states no data.
-/
theorem readOpen_layOut (split : Bool) {last : Reading} (data : Bytes)
    (hsound : ∀ reading ∈ readings, reading.IsSound ∧ reading.data ≠ [])
    (hlast : last.IsSound) (hempty : last.data = []) (offset : Nat) :
    (Reading.layOut readings (opening split last data)).readOpen offset =
        .ok ⟨readings, ⟨offset +
          ((Reading.layOut readings (opening split last data)).headerBytes.length -
            (opening split last data).headerBytes.length), last.header.dataOffset.toNat⟩,
          last.header, last.extras, data⟩ ↔
      (∀ reading ∈ readings, reading.header.IsReadable) ∧ last.header.IsReadable := by
  induction readings generalizing offset with
  | nil =>
      have hzero : last.header.dataLength = 0 := by
        refine UInt64.toNat_inj.mp ?_
        rw [hlast.dataLength, hempty]
        rfl
      have htail : ((blank split).prependData data).header.getD [] = [] ∧
          ((blank split).prependData data).data = data := by
        cases split <;> simp [blank, prependData]
      have hfront : opening split last data =
          (((blank split).prependData data).prependData last.data).prependHeader last.region := by
        rw [hempty]
        rfl
      rw [Reading.layOut_nil, Nat.sub_self]
      by_cases hreadable : last.header.IsReadable
      · have hread := readSegment_prepend ((blank split).prependData data) hlast hreadable
        rw [← hfront] at hread
        rw [readOpen_of_last hread hzero htail.1, htail.2]
        simp [hreadable]
      · obtain ⟨fault, hfault⟩ :=
          readSegment_refuses ((blank split).prependData data) hlast hreadable
        rw [← hfront] at hfault
        rw [readOpen_of_fault hfault]
        simp [hreadable]
  | cons reading rest ih =>
      obtain ⟨⟨hhead, hdata⟩, hrest⟩ := List.forall_mem_cons.mp hsound
      have hmore := headerBytes_layOut_length rest (opening split last data)
      have hlater := ih hrest
      rw [List.forall_mem_cons, and_assoc, Reading.layOut_cons]
      generalize Reading.layOut rest (opening split last data) = later at hmore hlater ⊢
      have hne : reading.header.dataLength ≠ 0 := by
        intro hzero
        have hlength := hhead.dataLength
        rw [hzero] at hlength
        exact hdata (List.eq_nil_of_length_eq_zero hlength.symm)
      by_cases hreadable : reading.header.IsReadable
      · -- the open header stands behind this segment and what is read after it
        have hmost := headerBytes_prepend_length later reading.region reading.data
        have hsum : ∀ all some one : Nat, one ≤ some → some ≤ all →
            offset + (all - some) + (some - one) = offset + (all - one) := by
          omega
        have hlater := hlater (offset +
          (((later.prependData reading.data).prependHeader reading.region).headerBytes.length -
            later.headerBytes.length))
        rw [hsum _ _ _ hmore hmost] at hlater
        rw [readOpen_of_segment (readSegment_prepend later hhead hreadable) hne, ← hlater]
        cases later.readOpen _ with
        | error fault => simp [Except.map, hreadable]
        | ok found =>
            obtain ⟨closed, slot, header, extras, data'⟩ := found
            simp [Except.map, hreadable]
      · obtain ⟨fault, hfault⟩ := readSegment_refuses later hhead hreadable
        rw [readOpen_of_fault hfault]
        simp [hreadable]

end ReadBack

end Contents

end SegmentStream
