import SegmentStream.Proofs.Recorder.Installed
import SegmentStream.Proofs.Recorder.Serving

/-!
# The counts of a run

Wherever channels fail, the counts of a recorder agree with each other.  As long
as none fails, they also agree with what is on all the targets that were
installed, the active one among them.
-/

namespace SegmentStream

open SegmentStream.Action

/-! ## Segments that are stated -/

namespace Segment

/-- The header says where the data starts, and that it has this length. -/
structure States (segment : Segment) (length : Nat) : Prop where
  dataOffset : segment.header.dataOffset = .ofNat segment.region.length
  dataLength : segment.header.dataLength = .ofNat length

/-- Closed segments state all their data.  One that is still open is the last, and states none. -/
inductive AreStated : Bool → List Segment → Prop
  | closed {segments : List Segment}
      (hclosed : ∀ segment ∈ segments, segment.States segment.data.length) :
      AreStated false segments
  | running {segments : List Segment} {last : Segment}
      (hclosed : ∀ segment ∈ segments, segment.States segment.data.length)
      (hlast : last.States 0) : AreStated true (segments ++ [last])

theorem IsProper.states {size : UInt32} {segment : Segment} (h : segment.IsProper size) :
    segment.States segment.data.length := by
  constructor
  · rw [region, encodeRegion_length]
    exact h.dataOffset
  · rw [data, flatten_length h.records]
    exact h.dataLength

end Segment

theorem Transcript.IsProper.areStated {size : UInt32} {ceiling : Nat} {transcript : Transcript}
    (h : transcript.IsProper size ceiling) :
    Segment.AreStated transcript.running.isSome transcript.segments := by
  have hclosed : ∀ segment ∈ transcript.closed, segment.States segment.data.length :=
    fun segment hsegment => (h.closed segment hsegment).1.states
  rw [segments]
  cases transcript.running with
  | none =>
      rw [Option.map_none, Option.toList_none, List.append_nil]
      exact .closed hclosed
  | some running =>
      apply Segment.AreStated.running hclosed
      constructor
      · rw [Segment.region, encodeRegion_length, ← h.fresh]
        rfl
      · rw [← h.fresh]
        rfl

namespace Session

/-! ## Counts and targets -/

/-- The counts are exactly what is on the targets, each of which has a chapter. -/
structure IsExact (session : Session) (split : Bool) (chapters : List Chapter) : Prop where
  emitted : session.recorder.progress.counters.headersEmitted = session.recorder.progress.begun
  headerBytes : session.recorder.progress.counters.headerBytes =
    Segment.headerLoad (chapters.flatMap Chapter.segments)
  dataBytes : session.recorder.progress.counters.dataBytes =
    Segment.dataLoad (chapters.flatMap Chapter.segments)
  /-- What a rewritten header is taken out of the count with has been counted. -/
  slot : ∀ slot, session.recorder.progress.headers.slot = some slot →
    slot.length ≤ session.recorder.progress.counters.headerBytes
  seen : ∀ chapter ∈ chapters, session.seen chapter.places = .ofSegments split chapter.segments
  stated : ∀ chapter ∈ chapters,
    Segment.AreStated (session.isAt chapter.places) chapter.segments

section Exact

variable {config : Config} {chronicle : Chronicle} {others : List Possession} {album : Album}
  {session image : Session} {unlabel : String → Location}

theorem Tells.progress (h : session.Tells config chronicle others) :
    session.recorder.progress.Tells config.splitHeader chronicle.tape := by
  cases hactive : session.recorder.active with
  | none => exact (h.rests hactive).tells
  | some target => exact (h.records target hactive).keeps.tells

theorem Tells.proper (h : session.Tells config chronicle others) :
    chronicle.tape.IsProper config.recordSize config.ceiling := by
  cases hactive : session.recorder.active with
  | none => exact (h.rests hactive).proper
  | some target => exact (h.records target hactive).proper

/-- What holds of proper segments and of those on the active target holds of all. -/
theorem Tells.forall_segments {holds : Segment → Prop}
    (h : session.Tells config chronicle others)
    (hproper : ∀ segment : Segment, segment.IsProper config.recordSize → holds segment)
    (htape : ∀ segment ∈ chronicle.tape.segments, holds segment) :
    ∀ chapter ∈ chronicle.chapters, ∀ segment ∈ chapter.segments, holds segment := by
  intro chapter hchapter
  cases Chronicle.eq_of_mem_chapters hchapter with
  | inl hpast =>
      intro segment hsegment
      exact hproper segment ((h.stands_past hpast).2 segment hsegment)
  | inr hcurrent =>
      rw [hcurrent.2]
      exact htape

/-- Only the active target has a segment that is open, by whatever name it goes. -/
theorem areStated_of_mem_chapters {rename : List Location → List Location}
    (h : image.Tells config chronicle others)
    (hactive : session.recorder.active.map Target.places = chronicle.current.map rename)
    (happart : ((chronicle.chapters.map fun chapter => rename chapter.places).flatten).Nodup)
    {chapter : Chapter} (hchapter : chapter ∈ chronicle.chapters) :
    Segment.AreStated (session.isAt (rename chapter.places)) chapter.segments := by
  rcases Chronicle.eq_of_mem_chapters hchapter with hpast | ⟨hcurrent, hsegments⟩
  · have haway : session.isAt (rename chapter.places) = false := by
      have hne := places_ne_of_mem_past hactive happart hpast
      cases hsome : session.recorder.active with
      | none => simp [isAt, hsome]
      | some target => simp [isAt, hsome, hne target hsome]
    rw [haway]
    exact .closed fun segment hsegment => ((h.stands_past hpast).2 segment hsegment).states
  · have hthere : session.isAt (rename chapter.places) = true := by
      simp [isAt, hactive, hcurrent]
    obtain ⟨target, htarget, -⟩ := Option.map_eq_some_iff.mp (h.current.trans hcurrent)
    have hrecords := h.records target htarget
    have hstated := hrecords.proper.areStated
    rwa [hrecords.isRunning, ← hthere, ← hsegments] at hstated

theorem Tells.areStated {chapter : Chapter} (h : session.Tells config chronicle others)
    (hchapter : chapter ∈ chronicle.chapters) :
    Segment.AreStated (session.isAt chapter.places) chapter.segments :=
  areStated_of_mem_chapters h h.active_places h.chapters_apart hchapter

/-- What the chronicle of its image has counted, a recorder has on its targets. -/
theorem Portrays.isExact {size : UInt32}
    (h : Portrays unlabel config album chronicle others session image)
    (htallied : chronicle.IsTallied size) :
    session.IsExact config.splitHeader
      (chronicle.chapters.map (Chapter.rename (Location.origin unlabel))) := by
  have hprogress : image.recorder.progress = session.recorder.progress := by
    obtain ⟨pair, hshows⟩ := h.mirrors
    exact hshows.progress
  obtain ⟨-, hslot, -, hcounters⟩ := h.tells.progress
  rw [hprogress] at hslot hcounters
  obtain ⟨hheader, hdata⟩ := htallied.loads
  rw [← hcounters] at hheader hdata
  have hsegments := Chapter.segments_rename (Location.origin unlabel) chronicle.chapters
  constructor
  · have hemitted := htallied.tape.emitted
    rw [← hcounters] at hemitted
    rw [Progress.begun, HeaderState.isOpen, hslot]
    cases hrunning : chronicle.tape.running <;> rw [hrunning] at hemitted <;> exact hemitted
  · rw [hsegments]
    exact hheader
  · rw [hsegments]
    exact hdata
  · intro slot hsome
    rw [hslot] at hsome
    obtain ⟨running, hrunning, rfl⟩ := Option.map_eq_some_iff.mp hsome
    have hregion := htallied.tape.slotLength running hrunning
    have hbytes := htallied.tape.headerBytes
    rw [← hcounters, Transcript.headerLoad_of_running hrunning] at hbytes
    change _ ≤ session.recorder.progress.counters.unbatched.headerBytes
    rw [hbytes, hregion]
    dsimp only
    omega
  · rw [List.forall_mem_map]
    exact fun chapter hchapter => h.seen_eq hchapter
  · rw [List.forall_mem_map]
    exact fun chapter hchapter =>
      areStated_of_mem_chapters h.tells h.active_places h.chapters_apart hchapter

end Exact

end Session

/-! ## Runs -/

/--
Whatever calls come and wherever channels fail, the data that is counted is that
of the records, no segment is closed whose header is not finalized, and none has
begun whose header was not emitted.  As long as no channel fails and all targets
are apart, the counts are what is on the targets that were installed, and all
headers state their data but the last on the active target, which is still open.
-/
theorem Session.after_counts {config : Config} {destination : Destination} {host : Host}
    {first : Opening} {session : Session}
    (h : Recorder.Launches config destination host first session) (calls : List Call) :
    (session.after calls).recorder.config = config ∧ (session.after calls).IsConsistent ∧
      (session.IsServed first calls → ∃ chapters : List Chapter,
        (chapters.map Chapter.places).Perm (session.installed calls) ∧
          (session.after calls).IsExact config.splitHeader chapters) := by
  obtain ⟨hvalid, headers, hheaders⟩ := Recorder.isUsable_of_start h.starts
  refine ⟨(after_config session calls).trans h.config_eq,
    IsConsistent.after ((Recorder.start_isConsistent ..).of_ok h.starts) calls, ?_⟩
  intro hserved
  obtain ⟨label, unlabel, hlabel⟩ := Location.exists_label
  obtain ⟨album, image, -, hportrays⟩ := h.portrays hheaders hlabel calls hserved
  have hstart := Chronicle.start_isTallied (first.target.portrait label)
    (HeaderState.of_start hheaders)
  refine ⟨_, ?_, hportrays.isExact (hstart.run hvalid _)⟩
  rw [List.map_map]
  exact h.installed_perm hheaders hlabel hserved

/-- A header that grows in place, a target let go of, and one that is never turned to. -/
theorem Session.after_counts_two_targets :
    let run : Run :=
      { config := { maxSegmentSize := 2, splitHeader := true }
        destination := .memory "first" "first headers"
        calls := [.update "note" (.uint 7), .work [1, 2, 3] [⟨2, "version", .uint 2⟩],
          .rotate (.memory "second" "second headers"), .work [4] [],
          .rotate (.memory "third" "third headers")] }
    ∃ first session, Recorder.Launches run.config run.destination {} first session ∧
      session.IsServed first run.calls ∧
      (session.after run.calls).recorder.config = run.config ∧
      (session.after run.calls).IsConsistent ∧
      ∃ chapters : List Chapter,
        (chapters.map Chapter.places).Perm (session.installed run.calls) ∧
          (session.after run.calls).IsExact true chapters := by
  intro run
  have hclean : run.IsClean := by
    have husable : Config.IsUsable { maxSegmentSize := 2, splitHeader := true } := ⟨rfl, _, rfl⟩
    refine ⟨husable, ?_, by decide⟩
    simp [run, Run.destinations, destinationsOf, Destination.fits, Destination.IsBlank,
      Destination.faultsAhead]
  obtain ⟨first, session, hlaunches, hserved⟩ := hclean.exists_served
  obtain ⟨hconfig, hconsistent, hexact⟩ := after_counts hlaunches run.calls
  exact ⟨first, session, hlaunches, hserved, hconfig, hconsistent, hexact hserved⟩

end SegmentStream
