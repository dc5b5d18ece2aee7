import SegmentStream.Proofs.Header.Limits
import SegmentStream.Proofs.Recorder.Accounts
import SegmentStream.Proofs.Recorder.Unfolding

/-!
# Headers that a reader accepts

Of what a reader checks, only the rate and the time of a header are not settled
by how headers are made.  Both stay within their limits as long as every rate is
moderate once it is scaled: then no update, no record and no new target brings a
header about that is refused.
-/

namespace SegmentStream

/-! ## Headers alone -/

/-- A header that is accepted exactly if its rate and its time are within their limits. -/
structure Header.IsRegular (header : Header) (extras : Extras) : Prop where
  known : header.IsKnown
  decoded : (encodeRegion header extras).length < 2 ^ 64 → ∀ rest,
    (Header.decode (encodeRegion header extras ++ rest) = .ok header ↔ header.IsReadable)

theorem Header.Heads.decode_iff {header : Header} {extras : Extras} (h : header.Heads extras)
    (rest : Bytes) :
    Header.decode (encodeRegion header extras ++ rest) = .ok header ↔ header.IsReadable := by
  rw [h.decode_region]
  constructor
  · intro hdecoded
    by_contra hunreadable
    obtain ⟨fault, hfault⟩ := h.refuses hunreadable
    rw [hfault] at hdecoded
    cases hdecoded
  · intro hreadable
    rw [h.validate hreadable]
    rfl

/-- A header that says where its data starts, before these attributes. -/
theorem Header.isRegular_of {header : Header} {extras : Extras} (hknown : header.IsKnown)
    (hsize : header.itemSize ≠ 0)
    (hoffset : header.dataOffset = .ofNat (headerSize + extras.encodedSize)) :
    header.IsRegular extras := by
  constructor
  · exact hknown
  · intro haddressable rest
    rw [encodeRegion_length] at haddressable
    apply Header.Heads.decode_iff
    constructor
    · exact hknown
    · exact hsize
    · rw [hoffset]
      exact UInt64.toNat_ofNat_of_lt' haddressable

theorem Segment.IsProper.isRegular {size : UInt32} {segment : Segment}
    (h : segment.IsProper size) (hsize : size ≠ 0) : segment.header.IsRegular segment.extras := by
  apply Header.isRegular_of h.known
  · rw [h.itemSize]
    exact hsize
  · exact h.dataOffset

theorem HeaderState.IsProper.isRegular {size : UInt32} {state : HeaderState}
    (h : state.IsProper size) (hsize : size ≠ 0) :
    state.fresh.header.IsRegular state.fresh.extras := by
  apply Header.isRegular_of h.fresh.known
  · rw [h.fresh.itemSize]
    exact hsize
  · rfl

namespace HeaderState

/-- A clock at a moderate rate that stands at a fraction of a second. -/
structure IsTempered (relativeRate : Binary64) (state : HeaderState) : Prop where
  timed : state.IsTimed
  relativeRate : state.clock.relativeRate = relativeRate
  rate : state.clock.effectiveRate.IsModerate
  anchor : state.clock.anchor.fraction.isFraction = true
  now : state.clock.now.fraction.isFraction = true

section Tempered

variable {relativeRate : Binary64} {state : HeaderState}

theorem IsTempered.isReadable (h : state.IsTempered relativeRate) : state.header.IsReadable := by
  constructor
  · rw [h.timed.rate]
    exact h.rate.isPositiveFinite
  · rw [h.timed.time]
    exact h.now

theorem IsTempered.fresh (h : state.IsTempered relativeRate) :
    state.fresh.IsTempered relativeRate :=
  ⟨h.timed.fresh, h.relativeRate, h.rate, h.anchor, h.now⟩

/-- No number of records brings the clock where it has no fraction. -/
theorem IsTempered.advance (h : state.IsTempered relativeRate) (records : Nat) :
    (state.advance records).IsTempered relativeRate := by
  by_cases hnone : records = 0
  · rw [hnone, h.timed.advance_zero]
    exact h
  · have hclock : (state.advance records).clock = { state.clock with
        records := state.clock.records + records
        now := Clock.timeAfter state.clock.anchor state.clock.effectiveRate
          (state.clock.records + records) } := if_neg hnone
    constructor
    · exact h.timed.advance records
    · rw [hclock]
      exact h.relativeRate
    · rw [hclock]
      exact h.rate
    · rw [hclock]
      exact h.anchor
    · rw [hclock]
      apply (splitSeconds_isFraction_iff _).mpr
      exact Binary64.add_count_ne_infinity h.rate h.anchor _

theorem IsTempered.applySome (h : state.IsTempered relativeRate) {update : Option HeaderUpdate}
    (hupdate : ∀ accepted, update = some accepted → accepted.IsTempered relativeRate) :
    (state.applySome update).IsTempered relativeRate := by
  have htimed := h.timed.applySome update
  cases update with
  | none => exact h
  | some update =>
      have haccepted := hupdate update rfl
      cases update with
      | sampleRate rate =>
          constructor
          · exact htimed
          · exact h.relativeRate
          · change (rate * state.clock.relativeRate).IsModerate
            rw [h.relativeRate]
            exact haccepted
          · exact h.now
          · exact h.now
      | time moment => exact ⟨htimed, h.relativeRate, h.rate, haccepted, haccepted⟩
      | _ => exact ⟨htimed, h.relativeRate, h.rate, h.anchor, h.now⟩

theorem start_isTempered {config : Config} (h : HeaderState.start config = .ok state)
    (hvalid : config.validate = .ok ()) (hrate : config.effectiveRate.IsModerate) :
    state.IsTempered config.relativeRate := by
  obtain ⟨-, -, -, -, -, hfraction⟩ := Config.of_validate hvalid
  have hclock := (HeaderState.of_start h).clock
  constructor
  · exact start_isTimed h
  · rw [hclock]
    rfl
  · rw [hclock]
    exact hrate
  · rw [hclock]
    exact hfraction
  · rw [hclock]
    exact hfraction

end Tempered

end HeaderState

/-! ## Transcripts -/

namespace Transcript

/-- Every header that is written or comes next is readable, and stays so as records come. -/
structure IsTempered (relativeRate : Binary64) (transcript : Transcript) : Prop where
  headers : transcript.headers.IsTempered relativeRate
  closed : ∀ segment ∈ transcript.closed, segment.header.IsReadable

theorem IsProper.segments_isRegular {size : UInt32} {ceiling : Nat} {transcript : Transcript}
    (h : transcript.IsProper size ceiling) (hsize : size ≠ 0) :
    ∀ segment ∈ transcript.segments, segment.header.IsRegular segment.extras := by
  rw [Transcript.segments, List.forall_mem_append]
  constructor
  · exact fun segment hsegment => (h.closed segment hsegment).1.isRegular hsize
  · intro segment hsegment
    obtain ⟨running, -, rfl⟩ := Option.map_eq_some_iff.mp (Option.mem_toList.mp hsegment)
    have hopen := h.headers.isRegular hsize
    rw [h.fresh] at hopen
    exact hopen

section Tempered

variable {relativeRate : Binary64} {ceiling : Nat} {transcript : Transcript}

theorem IsTempered.segments (h : transcript.IsTempered relativeRate) :
    ∀ segment ∈ transcript.segments, segment.header.IsReadable := by
  rw [Transcript.segments, List.forall_mem_append]
  constructor
  · exact h.closed
  · intro segment hsegment
    obtain ⟨running, -, rfl⟩ := Option.map_eq_some_iff.mp (Option.mem_toList.mp hsegment)
    exact h.headers.isReadable

theorem IsTempered.close (h : transcript.IsTempered relativeRate) :
    transcript.close.IsTempered relativeRate := by
  cases hrunning : transcript.running with
  | none =>
      rw [Transcript.close, hrunning]
      exact h
  | some running =>
      rw [close_of_running hrunning]
      constructor
      · exact h.headers.advance _
      · rw [List.forall_mem_append, List.forall_mem_singleton]
        exact ⟨h.closed, h.headers.isReadable⟩

theorem IsTempered.openNext (h : transcript.IsTempered relativeRate) :
    transcript.openNext.IsTempered relativeRate := ⟨h.headers, h.closed⟩

theorem IsTempered.apply (h : transcript.IsTempered relativeRate) {update : Option HeaderUpdate}
    (hupdate : ∀ accepted, update = some accepted → accepted.IsTempered relativeRate) :
    (transcript.apply update).IsTempered relativeRate :=
  ⟨(h.headers.applySome hupdate).fresh, h.closed⟩

theorem IsTempered.amend (h : transcript.IsTempered relativeRate) :
    transcript.amend.IsTempered relativeRate := by
  unfold Transcript.amend
  split
  · exact h
  · exact ⟨h.headers, h.closed⟩

theorem IsTempered.countTag (h : transcript.IsTempered relativeRate)
    (update : Option HeaderUpdate) : (transcript.countTag update).IsTempered relativeRate :=
  ⟨h.headers, h.closed⟩

theorem IsTempered.boundary (h : transcript.IsTempered relativeRate) {update : Option HeaderUpdate}
    (hupdate : ∀ accepted, update = some accepted → accepted.IsTempered relativeRate) :
    (transcript.boundary update).IsTempered relativeRate := by
  unfold Transcript.boundary
  split
  · exact (h.apply hupdate).openNext
  · exact (h.apply hupdate).amend
  · exact (h.close.apply hupdate).openNext

theorem IsTempered.makeRoom (h : transcript.IsTempered relativeRate) :
    (transcript.makeRoom ceiling).IsTempered relativeRate := by
  unfold Transcript.makeRoom
  split
  · exact h.close.openNext
  · exact h

theorem IsTempered.step {size : UInt32} {act : Act} (h : transcript.IsTempered relativeRate)
    (hact : act.IsOf size (HeaderUpdate.IsTempered relativeRate)) :
    (transcript.step ceiling act).IsTempered relativeRate := by
  cases act with
  | record bytes =>
      have hroomy : (transcript.makeRoom ceiling).IsTempered relativeRate := h.makeRoom
      exact ⟨hroomy.headers, hroomy.closed⟩
  | cut update => exact (h.countTag update).boundary hact

theorem IsTempered.play {size : UInt32} {acts : List Act} (h : transcript.IsTempered relativeRate)
    (hacts : ∀ act ∈ acts, act.IsOf size (HeaderUpdate.IsTempered relativeRate)) :
    (transcript.play ceiling acts).IsTempered relativeRate := by
  induction acts generalizing transcript with
  | nil => exact h
  | cons act rest ih =>
      obtain ⟨hact, hrest⟩ := List.forall_mem_cons.mp hacts
      exact ih (h.step hact) hrest

end Tempered

end Transcript

/-! ## Chronicles -/

namespace Chronicle

structure IsTempered (relativeRate : Binary64) (chronicle : Chronicle) : Prop where
  tape : chronicle.tape.IsTempered relativeRate
  past : ∀ chapter ∈ chronicle.past, ∀ segment ∈ chapter.segments, segment.header.IsReadable

section Tempered

variable {config : Config} {chronicle : Chronicle} {relativeRate : Binary64}

/-- No move of a recorder brings about a header that is refused. -/
theorem isKept_isTempered (config : Config) (relativeRate : Binary64) :
    IsKept config (HeaderUpdate.IsTempered relativeRate) (IsTempered relativeRate) := by
  intro chronicle later hmoves h
  obtain ⟨htape, hpast⟩ := h
  cases hmoves with
  | aside hsame hcurrent htape' =>
      constructor
      · rw [htape']
        exact htape
      · rw [hsame]
        exact hpast
  | play hcurrent hacts => exact ⟨htape.play hacts, hpast⟩
  | drop records hcurrent => exact ⟨⟨htape.headers, htape.closed⟩, hpast⟩
  | amend hcurrent hupdate =>
      constructor
      · apply (htape.countTag _).apply
        rintro accepted ⟨⟩
        exact hupdate
      · exact hpast
  | retire hcurrent =>
      constructor
      · constructor
        · exact htape.close.headers
        · exact fun _ hsegment => by cases hsegment
      · rw [List.forall_mem_append, List.forall_mem_singleton]
        exact ⟨hpast, htape.close.closed⟩
  | install places hcurrent => exact ⟨⟨htape.headers, htape.closed⟩, hpast⟩

theorem IsTempered.chapters (h : chronicle.IsTempered relativeRate) :
    ∀ chapter ∈ chronicle.chapters, ∀ segment ∈ chapter.segments, segment.header.IsReadable := by
  intro chapter hchapter
  cases eq_of_mem_chapters hchapter with
  | inl hpast => exact h.past chapter hpast
  | inr hcurrent =>
      rw [hcurrent.2]
      exact h.tape.segments

theorem start_isTempered (destination : Destination) {headers : HeaderState}
    (h : headers.IsTempered relativeRate) :
    (Chronicle.start config destination headers).IsTempered relativeRate := by
  constructor
  · constructor
    · exact h
    · exact fun _ hsegment => by cases hsegment
  · exact fun _ hchapter => by cases hchapter

end Tempered

end Chronicle

/-! ## Runs -/

/-- The rate at the start and every rate that an update asks for are moderate once scaled. -/
structure Config.RunsModerately (config : Config) (calls : List Call) : Prop where
  start : config.effectiveRate.IsModerate
  updates : ∀ call ∈ calls, ∀ update ∈ call.updates config.recordSize,
    update.IsModerate config.relativeRate

theorem Config.RunsModerately.isTempered {config : Config} {calls : List Call}
    (h : config.RunsModerately calls) {call : Call} (hcall : call ∈ calls) :
    ∀ update ∈ call.updates config.recordSize, update.IsTempered config.relativeRate := by
  intro update hupdate
  obtain ⟨key, value, hprepare⟩ := Call.exists_prepare hupdate
  exact (h.updates call hcall update hupdate).isTempered hprepare

namespace Session

/-- What holds of all headers: those on these targets and the one that comes next. -/
def AllHeaders (session : Session) (chapters : List Chapter)
    (holds : Header → Extras → Prop) : Prop :=
  (∀ chapter ∈ chapters, ∀ segment ∈ chapter.segments, holds segment.header segment.extras) ∧
    holds session.recorder.progress.headers.fresh.header
      session.recorder.progress.headers.fresh.extras

section Legible

variable {config : Config} {chronicle : Chronicle} {others : List Possession} {album : Album}
  {session image : Session} {unlabel : String → Location}

theorem Tells.allHeaders_isRegular (h : session.Tells config chronicle others)
    (hvalid : config.validate = .ok ()) :
    session.AllHeaders chronicle.chapters Header.IsRegular := by
  have hsize := Config.recordSize_ne_zero hvalid
  have hnext := h.proper.headers.isRegular hsize
  rw [h.proper.fresh] at hnext
  constructor
  · exact h.forall_segments (fun _ hsegment => hsegment.isRegular hsize)
      (h.proper.segments_isRegular hsize)
  · rw [h.progress.headers]
    exact hnext

theorem Tells.allHeaders_isReadable (h : session.Tells config chronicle others)
    {relativeRate : Binary64} (htempered : chronicle.IsTempered relativeRate) :
    session.AllHeaders chronicle.chapters fun header _ => header.IsReadable := by
  constructor
  · exact htempered.chapters
  · rw [h.progress.headers]
    exact htempered.tape.headers.isReadable

/-- A recorder has the headers of its image, on the places that these are named after. -/
theorem Portrays.allHeaders (h : Portrays unlabel config album chronicle others session image)
    {holds : Header → Extras → Prop} (himage : image.AllHeaders chronicle.chapters holds) :
    session.AllHeaders (chronicle.chapters.map (Chapter.rename (Location.origin unlabel)))
      holds := by
  obtain ⟨pair, hshows⟩ := h.mirrors
  have hprogress : image.recorder.progress = session.recorder.progress := hshows.progress
  obtain ⟨hchapters, hnext⟩ := himage
  rw [hprogress] at hnext
  constructor
  · rw [List.forall_mem_map]
    exact hchapters
  · exact hnext

end Legible

/--
On every target each header has a known version and flags, and a reader accepts
it exactly if its rate is positive and finite and the fraction of its time is
below one; so is the header that comes next.  All of them are accepted if the
rate at the start and each rate that is asked for are moderate once scaled.
-/
theorem after_legible {config : Config} {destination : Destination} {host : Host}
    {first : Opening} {session : Session} {calls : List Call}
    (h : Recorder.Launches config destination host first session)
    (hserved : session.IsServed first calls) :
    ∃ chapters : List Chapter,
      (chapters.map Chapter.places).Perm (session.installed calls) ∧
      (∀ chapter ∈ chapters, (session.after calls).seen chapter.places =
        .ofSegments config.splitHeader chapter.segments) ∧
      (session.after calls).AllHeaders chapters Header.IsRegular ∧
      (config.RunsModerately calls →
        (session.after calls).AllHeaders chapters fun header _ => header.IsReadable) := by
  obtain ⟨hvalid, headers, hheaders⟩ := Recorder.isUsable_of_start h.starts
  obtain ⟨label, unlabel, hlabel⟩ := Location.exists_label
  obtain ⟨album, image, -, hportrays⟩ := h.portrays hheaders hlabel calls hserved
  refine ⟨_, ?_, ?_, hportrays.allHeaders (hportrays.tells.allHeaders_isRegular hvalid), ?_⟩
  · rw [List.map_map]
    exact h.installed_perm hheaders hlabel hserved
  · rw [List.forall_mem_map]
    exact fun chapter hchapter => hportrays.seen_eq hchapter
  · intro hmoderate
    apply hportrays.allHeaders
    apply hportrays.tells.allHeaders_isReadable
    apply (Chronicle.isKept_isTempered config config.relativeRate).run hvalid
    · intro call hcall
      cases mem_portraits hcall with
      | inl hmem => exact hmoderate.isTempered hmem
      | inr hrotate =>
          obtain ⟨data, header, rfl⟩ := hrotate
          exact List.forall_mem_nil _
    · apply Chronicle.start_isTempered
      exact HeaderState.start_isTempered hheaders hvalid hmoderate.start

/-- A scaled rate, changed by a tag and between batches, on two targets. -/
theorem after_legible_two_rates :
    let run : Run :=
      { config := { maxSegmentSize := 2, splitHeader := true, relativeRate := ⟨0x3fe0000000000000⟩ }
        destination := .memory "first" "first headers"
        calls := [.work [1, 2, 3] [⟨1, "rx_rate", .uint 48000⟩],
          .update "rx_rate" (.double ⟨0x4059000000000000⟩),
          .update "rx_time" (.double ⟨0x3ff8000000000000⟩),
          .rotate (.memory "second" "second headers"), .work [4] []] }
    ∃ first session, Recorder.Launches run.config run.destination {} first session ∧
      session.IsServed first run.calls ∧ run.config.RunsModerately run.calls ∧
      ∃ chapters : List Chapter,
        (chapters.map Chapter.places).Perm (session.installed run.calls) ∧
        (∀ chapter ∈ chapters, (session.after run.calls).seen chapter.places =
          .ofSegments true chapter.segments) ∧
        (session.after run.calls).AllHeaders chapters Header.IsRegular ∧
        (session.after run.calls).AllHeaders chapters fun header _ => header.IsReadable := by
  intro run
  have hclean : run.IsClean := by
    have husable : Config.IsUsable
        { maxSegmentSize := 2, splitHeader := true, relativeRate := ⟨0x3fe0000000000000⟩ } :=
      ⟨rfl, _, rfl⟩
    refine ⟨husable, ?_, by decide⟩
    simp [run, Run.destinations, destinationsOf, Destination.fits, Destination.IsBlank,
      Destination.faultsAhead]
  have hmoderate : run.config.RunsModerately run.calls := by
    constructor <;> decide +kernel
  obtain ⟨first, session, hlaunches, hserved⟩ := hclean.exists_served
  obtain ⟨chapters, hperm, hseen, hregular, hreadable⟩ := after_legible hlaunches hserved
  exact ⟨first, session, hlaunches, hserved, hmoderate, chapters, hperm, hseen, hregular,
    hreadable hmoderate⟩

end Session

end SegmentStream
