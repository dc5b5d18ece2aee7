import Mathlib.Data.List.Induction
import SegmentStream.Proofs.Header.Updates
import SegmentStream.Proofs.Target.Contents
import SegmentStream.Telemetry.Counters

/-!
# Transcripts

What a writer has written to a target, as a list of segments.  A transcript
moves in acts: a record comes, or a cut with the update that takes effect there.
Room is made only when a record needs it, so where batches begin and end does
not show.
-/

namespace SegmentStream

/-! ## Segments -/

/-- A closed segment: its header as it was written last, and its records. -/
structure Segment where
  header : Header
  extras : Extras
  records : List Bytes
  deriving DecidableEq

namespace Segment

def region (segment : Segment) : Bytes := encodeRegion segment.header segment.extras

def data (segment : Segment) : Bytes := segment.records.flatten

end Segment

namespace Contents

def add (contents : Contents) (segment : Segment) : Contents :=
  (contents.appendHeader segment.region).appendData segment.data

def ofSegments (split : Bool) (segments : List Segment) : Contents :=
  segments.foldl add (blank split)

@[simp] theorem ofSegments_nil (split : Bool) : ofSegments split [] = blank split := rfl

@[simp] theorem ofSegments_concat (split : Bool) (segments : List Segment) (segment : Segment) :
    ofSegments split (segments ++ [segment]) = (ofSegments split segments).add segment := by
  simp [ofSegments]

theorem ofSegments_isSome (split : Bool) (segments : List Segment) :
    (ofSegments split segments).header.isSome = split := by
  induction segments using List.reverseRecOn with
  | nil => cases split <;> rfl
  | append_singleton rest segment ih =>
      rw [ofSegments_concat]
      exact (withHeaderBytes_isSome ..).trans ih

/-- The data behind the last header in the byte string of the headers. -/
def behind (contents : Contents) (data : Bytes) : Bytes :=
  if contents.header.isSome then [] else data

@[simp] theorem behind_nil (contents : Contents) : contents.behind [] = [] := by
  simp [behind]

theorem headerBytes_append (contents : Contents) (region data : Bytes) :
    ((contents.appendHeader region).appendData data).headerBytes =
      contents.headerBytes ++ region ++ contents.behind data := by
  obtain ⟨bytes, _ | header⟩ := contents <;>
    simp [appendHeader, appendData, headerBytes, withHeaderBytes, behind]

/-- The last header can be exchanged. -/
theorem withHeaderBytes_append (contents : Contents) (region region' data : Bytes) :
    ((contents.appendHeader region).appendData data).withHeaderBytes
        (contents.headerBytes ++ region' ++ contents.behind data) =
      (contents.appendHeader region').appendData data := by
  obtain ⟨bytes, _ | header⟩ := contents <;>
    simp [appendHeader, appendData, headerBytes, withHeaderBytes, behind]

end Contents

/-! ## Transcripts -/

/-- The segment whose header is still open. -/
structure Running where
  /-- Length of the region the header stands in. -/
  slotLength : Nat
  records : List Bytes

structure Transcript where
  closed : List Segment := []
  headers : HeaderState
  running : Option Running := none
  counters : Counters := {}

inductive Act where
  | record (bytes : Bytes)
  | cut (update : Option HeaderUpdate)

namespace Transcript

/-- The running segment, closed behind these records. -/
def segment (transcript : Transcript) (records : List Bytes) : Segment :=
  let measured := transcript.headers.measure
    (records.length * transcript.headers.header.itemSize.toNat)
  ⟨measured.header, measured.extras, records⟩

theorem region_segment (transcript : Transcript) (records : List Bytes) :
    (transcript.segment records).region = (transcript.headers.measure
      (records.length * transcript.headers.header.itemSize.toNat)).region := rfl

def close (transcript : Transcript) : Transcript :=
  match transcript.running with
  | none => transcript
  | some running =>
      { closed := transcript.closed ++ [transcript.segment running.records]
        headers := transcript.headers.advance running.records.length
        running := none
        counters := (transcript.counters.addFinalize running.slotLength
          transcript.headers.regionSize).addSegment }

def openNext (transcript : Transcript) : Transcript :=
  { transcript with
    running := some ⟨transcript.headers.regionSize, []⟩
    counters := transcript.counters.addHeader transcript.headers.regionSize }

def apply (transcript : Transcript) (update : Option HeaderUpdate) : Transcript :=
  { transcript with headers := (transcript.headers.applySome update).fresh }

def amend (transcript : Transcript) : Transcript :=
  match transcript.running with
  | none => transcript
  | some running =>
      { transcript with
        running := some { running with slotLength := transcript.headers.regionSize }
        counters := transcript.counters.addFinalize running.slotLength
          transcript.headers.regionSize }

def countTag (transcript : Transcript) (update : Option HeaderUpdate) : Transcript :=
  { transcript with counters := transcript.counters.addTag update.isSome }

def append (transcript : Transcript) (records : List Bytes) : Transcript :=
  { transcript with
    running := transcript.running.map fun running =>
      { running with records := running.records ++ records }
    counters := transcript.counters.addData records.length
      transcript.headers.header.itemSize.toNat }

def roll (transcript : Transcript) : Transcript := transcript.close.openNext

/-- A boundary closes a segment that holds records; an open header without any is written again. -/
def boundary (transcript : Transcript) (update : Option HeaderUpdate) : Transcript :=
  match transcript.running with
  | none => (transcript.apply update).openNext
  | some ⟨_, []⟩ => (transcript.apply update).amend
  | some ⟨_, _ :: _⟩ => (transcript.close.apply update).openNext

def room (ceiling : Nat) (transcript : Transcript) : Nat :=
  match transcript.running with
  | none => 0
  | some running => ceiling - running.records.length

def makeRoom (ceiling : Nat) (transcript : Transcript) : Transcript :=
  if transcript.room ceiling = 0 then transcript.roll else transcript

def step (ceiling : Nat) (transcript : Transcript) : Act → Transcript
  | .record bytes => (transcript.makeRoom ceiling).append [bytes]
  | .cut update => (transcript.countTag update).boundary update

def play (ceiling : Nat) (transcript : Transcript) (acts : List Act) : Transcript :=
  acts.foldl (step ceiling) transcript

def contents (split : Bool) (transcript : Transcript) : Contents :=
  match transcript.running with
  | none => .ofSegments split transcript.closed
  | some running =>
      ((Contents.ofSegments split transcript.closed).appendHeader
        transcript.headers.region).appendData running.records.flatten

/-! ## Playing acts -/

section Play

variable {ceiling : Nat} {transcript : Transcript}

@[simp] theorem play_nil : transcript.play ceiling [] = transcript := rfl

@[simp] theorem play_cons (act : Act) (rest : List Act) :
    transcript.play ceiling (act :: rest) = (transcript.step ceiling act).play ceiling rest := rfl

theorem play_append (first second : List Act) :
    transcript.play ceiling (first ++ second) =
      (transcript.play ceiling first).play ceiling second :=
  List.foldl_append

theorem append_append (first second : List Bytes) :
    (transcript.append first).append second = transcript.append (first ++ second) := by
  obtain ⟨closed, headers, running, counters⟩ := transcript
  cases running <;>
    simp [append, Counters.addData, Nat.add_mul, Nat.add_assoc]

@[simp] theorem append_nil : transcript.append [] = transcript := by
  obtain ⟨closed, headers, running, counters⟩ := transcript
  cases running <;> simp [append, Counters.addData]

theorem makeRoom_of_pos (h : 0 < transcript.room ceiling) :
    transcript.makeRoom ceiling = transcript :=
  if_neg (Nat.ne_of_gt h)

theorem room_append {records : List Bytes} (h : records.length ≤ transcript.room ceiling) :
    (transcript.append records).room ceiling = transcript.room ceiling - records.length := by
  obtain ⟨closed, headers, running, counters⟩ := transcript
  cases running with
  | none => simp [room, append]
  | some running =>
      simp only [room, append, Option.map_some, List.length_append] at h ⊢
      omega

@[simp] theorem room_openNext : transcript.openNext.room ceiling = ceiling := rfl

@[simp] theorem room_roll : transcript.roll.room ceiling = ceiling := rfl

@[simp] theorem close_close : transcript.close.close = transcript.close := by
  obtain ⟨closed, headers, running, counters⟩ := transcript
  cases running <;> rfl

theorem amend_of_running {running : Running} (h : transcript.running = some running) :
    transcript.amend = { transcript with
      running := some { running with slotLength := transcript.headers.regionSize }
      counters := transcript.counters.addFinalize running.slotLength
        transcript.headers.regionSize } := by
  rw [amend, h]

@[simp] theorem running_close : transcript.close.running = none := by
  obtain ⟨closed, headers, running, counters⟩ := transcript
  cases running <;> rfl

@[simp] theorem room_close : transcript.close.room ceiling = 0 := by
  obtain ⟨closed, headers, running, counters⟩ := transcript
  cases running <;> rfl

theorem room_boundary (update : Option HeaderUpdate) :
    (transcript.boundary update).room ceiling = ceiling := by
  obtain ⟨closed, headers, _ | ⟨slotLength, _ | ⟨record, records⟩⟩, counters⟩ := transcript <;> rfl

theorem isRunning_step (act : Act) (h : transcript.running.isSome = true) :
    (transcript.step ceiling act).running.isSome = true := by
  cases act with
  | record bytes =>
      have hroom : (transcript.makeRoom ceiling).running.isSome = true := by
        unfold makeRoom
        split
        · rfl
        · exact h
      rwa [step, append, Option.isSome_map]
  | cut update =>
      obtain ⟨closed, headers, _ | ⟨slotLength, _ | ⟨record, records⟩⟩, counters⟩ := transcript <;>
        rfl

theorem isRunning_play (acts : List Act) (h : transcript.running.isSome = true) :
    (transcript.play ceiling acts).running.isSome = true := by
  induction acts generalizing transcript with
  | nil => exact h
  | cons act rest ih => exact ih (isRunning_step act h)

/-- Records that fit are appended as they are. -/
theorem play_records {records : List Bytes} (h : records.length ≤ transcript.room ceiling) :
    transcript.play ceiling (records.map .record) = transcript.append records := by
  induction records generalizing transcript with
  | nil => simp
  | cons record rest ih =>
      have hpos : 0 < transcript.room ceiling := Nat.lt_of_lt_of_le (Nat.succ_pos _) h
      have hroom : (transcript.append [record]).room ceiling = transcript.room ceiling - 1 :=
        room_append hpos
      rw [List.map_cons, play_cons, step, makeRoom_of_pos hpos, ih, append_append]
      · rfl
      · rw [hroom]
        simp only [List.length_cons] at h ⊢
        omega

/-- A record that finds no room rolls the segment itself. -/
theorem play_roll (hceiling : 0 < ceiling) (hroom : transcript.room ceiling = 0) (record : Bytes)
    (rest : List Act) :
    transcript.roll.play ceiling (.record record :: rest) =
      transcript.play ceiling (.record record :: rest) := by
  have hroll : transcript.roll.makeRoom ceiling = transcript.roll :=
    makeRoom_of_pos (by rwa [room_roll])
  rw [play_cons, play_cons, step, step, hroll, makeRoom, if_pos hroom]

end Play

/-! ## Transcripts that tell the same -/

/-- The same segments and headers; how often headers were written may differ. -/
structure Alike (first second : Transcript) : Prop where
  closed : first.closed = second.closed
  headers : first.headers = second.headers
  records : first.running.map Running.records = second.running.map Running.records
  recordsWritten : first.counters.recordsWritten = second.counters.recordsWritten

namespace Alike

variable {first second third : Transcript}

theorem refl (transcript : Transcript) : transcript.Alike transcript := ⟨rfl, rfl, rfl, rfl⟩

theorem trans (h : first.Alike second) (h' : second.Alike third) : first.Alike third :=
  ⟨h.closed.trans h'.closed, h.headers.trans h'.headers, h.records.trans h'.records,
    h.recordsWritten.trans h'.recordsWritten⟩

theorem symm (h : first.Alike second) : second.Alike first :=
  ⟨h.closed.symm, h.headers.symm, h.records.symm, h.recordsWritten.symm⟩

theorem close (h : first.Alike second) : first.close.Alike second.close := by
  obtain ⟨closed, headers, running, counters⟩ := first
  obtain ⟨closed', headers', running', counters'⟩ := second
  obtain ⟨rfl, rfl, hrecords, hwritten⟩ := h
  cases running with
  | none => cases running' with
    | none => exact ⟨rfl, rfl, rfl, hwritten⟩
    | some => simp at hrecords
  | some running => cases running' with
    | none => simp at hrecords
    | some running' =>
        simp only [Option.map_some, Option.some.injEq] at hrecords
        exact ⟨by simp [Transcript.close, segment, hrecords],
          by simp [Transcript.close, hrecords], rfl, hwritten⟩

theorem openNext (h : first.Alike second) : first.openNext.Alike second.openNext :=
  ⟨h.closed, h.headers, rfl, h.recordsWritten⟩

theorem apply (h : first.Alike second) (update : Option HeaderUpdate) :
    (first.apply update).Alike (second.apply update) :=
  ⟨h.closed, by simp [Transcript.apply, h.headers], h.records, h.recordsWritten⟩

theorem amend_left (transcript : Transcript) : transcript.amend.Alike transcript := by
  obtain ⟨closed, headers, running, counters⟩ := transcript
  cases running <;> exact ⟨rfl, rfl, rfl, rfl⟩

theorem countTag_left (transcript : Transcript) (update : Option HeaderUpdate) :
    (transcript.countTag update).Alike transcript := by
  refine ⟨rfl, rfl, rfl, ?_⟩
  simp only [countTag, Counters.addTag]
  split <;> rfl

theorem append (h : first.Alike second) (records : List Bytes) :
    (first.append records).Alike (second.append records) := by
  refine ⟨h.closed, h.headers, ?_, ?_⟩
  · have hrecords := congrArg (Option.map (· ++ records)) h.records
    simpa [Transcript.append, Option.map_map, Function.comp_def] using hrecords
  · simp [Transcript.append, Counters.addData, h.recordsWritten]

theorem room (h : first.Alike second) (ceiling : Nat) :
    first.room ceiling = second.room ceiling := by
  obtain ⟨closed, headers, running, counters⟩ := first
  obtain ⟨closed', headers', running', counters'⟩ := second
  have hrecords := h.records
  cases running <;> cases running' <;> simp_all [Transcript.room]

theorem boundary (h : first.Alike second) (update : Option HeaderUpdate) :
    (first.boundary update).Alike (second.boundary update) := by
  have hempty := ((amend_left (first.apply update)).trans (h.apply update)).trans
    (amend_left (second.apply update)).symm
  have hnone := (h.apply update).openNext
  have hsome := (h.close.apply update).openNext
  obtain ⟨closed, headers, _ | ⟨slotLength, _ | ⟨record, records⟩⟩, counters⟩ := first <;>
    obtain ⟨closed', headers', _ | ⟨slotLength', _ | ⟨record', records'⟩⟩, counters'⟩ := second <;>
    first
      | exact hempty
      | exact hnone
      | exact hsome
      | exact absurd h.records (by simp)

theorem step (h : first.Alike second) (ceiling : Nat) (act : Act) :
    (first.step ceiling act).Alike (second.step ceiling act) := by
  cases act with
  | record bytes =>
      refine append ?_ [bytes]
      simp only [makeRoom, h.room ceiling]
      split
      · exact h.close.openNext
      · exact h
  | cut update =>
      have hcount := (countTag_left first update).trans
        (h.trans (countTag_left second update).symm)
      exact hcount.boundary update

theorem play (h : first.Alike second) (ceiling : Nat) (acts : List Act) :
    (first.play ceiling acts).Alike (second.play ceiling acts) := by
  induction acts generalizing first second with
  | nil => exact h
  | cons act rest ih => exact ih (h.step ceiling act)

end Alike

/-! ## Cuts without records between them -/

section Cuts

variable (ceiling : Nat)

theorem play_cuts {transcript : Transcript} {slotLength : Nat}
    (hrunning : transcript.running = some ⟨slotLength, []⟩)
    (hfresh : transcript.headers.fresh = transcript.headers)
    (updates : List (Option HeaderUpdate)) :
    (transcript.play ceiling (updates.map .cut)).Alike
      { transcript with headers := (transcript.headers.applyAll updates).fresh } := by
  induction updates generalizing transcript slotLength with
  | nil => exact ⟨rfl, hfresh.symm, rfl, rfl⟩
  | cons update rest ih =>
      have hstep : transcript.step ceiling (.cut update) =
          ((transcript.countTag update).apply update).amend := by
        simp only [step, boundary, countTag, hrunning]
      let next := ((transcript.countTag update).apply update).amend
      have hnext : next.running = some ⟨next.headers.regionSize, []⟩ ∧
          next.headers = (transcript.headers.applySome update).fresh := by
        simp only [next, amend, countTag, apply, hrunning, and_self]
      rw [List.map_cons, play_cons, hstep]
      refine (ih hnext.1 (by rw [hnext.2, HeaderState.fresh_fresh])).trans ?_
      have halike := (Alike.amend_left ((transcript.countTag update).apply update)).trans
        ((Alike.countTag_left transcript update).apply update)
      refine ⟨halike.closed, ?_, halike.records, halike.recordsWritten⟩
      rw [hnext.2, HeaderState.fresh_applyAll]
      rfl

/-- Cuts that were carried out already change nothing when they come again before the rest. -/
theorem play_again {transcript : Transcript} {slotLength : Nat} {headers : HeaderState}
    {before : List (Option HeaderUpdate)}
    (hrunning : transcript.running = some ⟨slotLength, []⟩)
    (hheaders : transcript.headers = (headers.applyAll before).fresh)
    (updates : List (Option HeaderUpdate)) (acts : List Act) :
    (transcript.play ceiling ((before ++ updates).map .cut ++ acts)).Alike
      (transcript.play ceiling (updates.map .cut ++ acts)) := by
  have hfresh : transcript.headers.fresh = transcript.headers := by
    rw [hheaders, HeaderState.fresh_fresh]
  have hagain : (transcript.headers.applyAll (before ++ updates)).fresh =
      (transcript.headers.applyAll updates).fresh := by
    have hsubset : ∀ update ∈ before, update ∈ before ++ updates :=
      fun _ => List.mem_append_left _
    calc (transcript.headers.applyAll (before ++ updates)).fresh
        = ((headers.applyAll before).applyAll (before ++ updates)).fresh := by
          rw [hheaders, HeaderState.fresh_applyAll]
      _ = ((headers.applyAll before).applyAll updates).fresh := by
          rw [HeaderState.applyAll_applyAll_of_subset hsubset, HeaderState.applyAll_append]
      _ = (transcript.headers.applyAll updates).fresh := by
          rw [hheaders, HeaderState.fresh_applyAll]
  have hall := play_cuts ceiling hrunning hfresh (before ++ updates)
  rw [hagain] at hall
  rw [play_append, play_append]
  exact (hall.trans (play_cuts ceiling hrunning hfresh updates).symm).play ceiling acts

end Cuts

end Transcript

end SegmentStream
