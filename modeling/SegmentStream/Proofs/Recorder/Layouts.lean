import Mathlib.Data.List.Flatten
import SegmentStream.Proofs.Header.Reading
import SegmentStream.Proofs.Recorder.Accounts
import SegmentStream.Proofs.Recorder.Files
import SegmentStream.Proofs.Recorder.Recasting

/-!
# Headers apart and headers between

A recorder puts headers on a channel of their own or between the data.  Given the
same calls it writes the same stream both ways.  The replies and the counts are
the same, and so are the targets.  Each header differs in its flags, and with them
in its checksum.
-/

namespace SegmentStream

open SegmentStream.Action

/-! ## Regions -/

namespace Header

/-- What a written header has before its flags. -/
def front (header : Header) : Bytes :=
  headerMagic ++ encodeLE 2 header.version.toNat ++ encodeLE 2 header.sampleType.code ++
    [if header.isComplex then 1 else 0]

/-- What it has from its flags to its checksum. -/
def middle (header : Header) : Bytes :=
  encodeLE 2 0 ++ encodeLE 4 header.itemSize.toNat ++ encodeLE 8 header.sampleRate.bits.toNat ++
    encodeLE 8 header.time.seconds.toNat ++ encodeLE 8 header.time.fraction.bits.toNat ++
    encodeLE 8 header.dataOffset.toNat ++ encodeLE 8 header.dataLength.toNat

def flagsOffset : Nat := 9

/-- The bytes of a region but for the flags, and for the checksum that covers them. -/
def unflagged (region : Bytes) : Bytes :=
  slice region 0 flagsOffset ++
    slice region (flagsOffset + 1) (checkedSize - (flagsOffset + 1)) ++
      region.drop (checkedSize + 4)

section Flags

variable (header : Header) (rest : Bytes)

theorem encodeBody_eq : header.encodeBody = header.front ++ header.flags :: header.middle := by
  simp [encodeBody, front, middle]

theorem front_length : header.front.length = flagsOffset := by
  simp [front, headerMagic, flagsOffset]

theorem middle_length : header.middle.length = checkedSize - (flagsOffset + 1) := by
  simp [middle, checkedSize, flagsOffset]

theorem unflagged_encode :
    unflagged (header.encode ++ rest) = header.front ++ header.middle ++ (encodeLE 4 0 ++ rest) := by
  have hfront := header.front_length
  have hmiddle := header.middle_length
  let checksum := encodeLE 4 (Crc32.checksum header.encodeBody).toNat
  have hregion : header.encode ++ rest =
      header.front ++ ([header.flags] ++ (header.middle ++ (checksum ++ (encodeLE 4 0 ++ rest)))) := by
    rw [encode, ← List.append_assoc checksum]
    simp [checksum, encodeBody_eq]
  have hfirst : slice (header.encode ++ rest) 0 flagsOffset = header.front := by
    rw [hregion, ← hfront, slice_append]
  have hsecond : slice (header.encode ++ rest) (flagsOffset + 1)
      (checkedSize - (flagsOffset + 1)) = header.middle := by
    have hflags : [header.flags].length ≤ flagsOffset + 1 - header.front.length := by
      simp [hfront]
    have hnone : flagsOffset + 1 - header.front.length - [header.flags].length = 0 := by
      simp [hfront]
    rw [hregion, slice_skip (by omega), slice_skip hflags, hnone, ← hmiddle, slice_append]
  have hthird : (header.encode ++ rest).drop (checkedSize + 4) = encodeLE 4 0 ++ rest := by
    have hchecked : (header.encodeBody ++ checksum).length = checkedSize + 4 := by
      simp [checksum]
    rw [encode, List.append_assoc (header.encodeBody ++ _)]
    exact List.drop_left' hchecked
  rw [unflagged, hfirst, hsecond, hthird]

/-- Other flags change nothing but the flags and the checksum. -/
theorem unflagged_withFlags (flags : UInt8) :
    unflagged ((header.withFlags flags).encode ++ rest) = unflagged (header.encode ++ rest) := by
  rw [unflagged_encode, unflagged_encode]
  rfl

end Flags

end Header

/-! ## Contents -/

namespace Contents

/-- Headers that stand apart are one behind the other, and so is the data. -/
theorem ofSegments_apart (segments : List Segment) :
    ofSegments true segments =
      { data := segments.flatMap Segment.data
        header := some (segments.flatMap Segment.region) } := by
  induction segments using List.reverseRecOn with
  | nil => rfl
  | append_singleton front segment ih =>
      simp [ih, add, appendHeader, appendData, withHeaderBytes, headerBytes]

/-- Otherwise each header has its data behind it. -/
theorem ofSegments_inline (segments : List Segment) :
    ofSegments false segments =
      { data := segments.flatMap fun segment => segment.region ++ segment.data } := by
  induction segments using List.reverseRecOn with
  | nil => rfl
  | append_singleton front segment ih =>
      simp [ih, add, appendHeader, appendData, withHeaderBytes, headerBytes]

end Contents

/-- The same segment with its header apart, and with its header before its data. -/
structure Segment.Corresponds (apart inline : Segment) : Prop where
  data : inline.data = apart.data
  length : inline.region.length = apart.region.length
  unflagged : Header.unflagged inline.region = Header.unflagged apart.region
  detached : Header.wordAt apart.region Header.flagsOffset 1 = detachedFlag.toNat
  attached : Header.wordAt inline.region Header.flagsOffset 1 = 0

theorem Segment.withFlags_corresponds {segment : Segment}
    (h : segment.withFlags detachedFlag = segment) :
    segment.Corresponds (segment.withFlags 0) := by
  have hregion : ∀ flags : UInt8, (segment.withFlags flags).region =
      (segment.header.withFlags flags).encode ++ segment.extras.encode := fun _ => rfl
  constructor
  · rfl
  · simp [region, withFlags]
  · exact Header.unflagged_withFlags ..
  · have hshows := (Header.encode_shows (segment.header.withFlags detachedFlag)
      segment.extras.encode).flags
    rw [← hregion, h] at hshows
    exact hshows
  · exact (Header.encode_shows (segment.header.withFlags 0) segment.extras.encode).flags

/--
One stream on two targets.  On the first the headers stand apart, one behind the
other; on the second each header has its data behind it.  The last segment may
still be open.
-/
structure Contents.Interleaves (isOpen : Bool) (apart inline : Contents)
    (segments segments' : List Segment) : Prop where
  corresponds : List.Forall₂ Segment.Corresponds segments segments'
  stated : Segment.AreStated isOpen segments
  apart : apart =
    { data := segments.flatMap Segment.data
      header := some (segments.flatMap Segment.region) }
  inline : inline =
    { data := segments'.flatMap fun segment => segment.region ++ segment.data }

/-! ## Batches -/

theorem Counters.eq_of_unbatched {first second : Counters}
    (h : first.unbatched = second.unbatched) (hbatches : first.batches = second.batches) :
    first = second := by
  calc
    first = { first.unbatched with batches := first.batches } := rfl
    _ = { second.unbatched with batches := second.batches } := by rw [h, hbatches]
    _ = second := rfl

/-- The batches that were given a result. -/
def takenIn (replies : List (Except StreamError (Option Nat))) : Nat :=
  replies.countP fun
    | .ok (some _) => true
    | _ => false

theorem takenIn_cons (reply : Except StreamError (Option Nat))
    (replies : List (Except StreamError (Option Nat))) :
    takenIn (reply :: replies) = takenIn [reply] + takenIn replies := by
  simp [takenIn, List.countP_cons, Nat.add_comm]

namespace Session

section Batches

variable {session : Session} {config : Config} {chronicle : Chronicle} {others : List Possession}

theorem Tells.batches_work (hvalid : config.validate = .ok ())
    (h : session.Tells config chronicle others) (items : Bytes) (tags : List Tag) :
    ((answer (.work items tags)).stateAfter session).recorder.progress.counters.batches =
      session.recorder.progress.counters.batches +
        takenIn [chronicle.reply config (.work items tags)] := by
  by_cases hrefused : chronicle.closed = true ∨ items.length % config.itemSize.toNat ≠ 0
  · have hnone : takenIn [chronicle.reply config (.work items tags)] = 0 := by
      simp only [Chronicle.reply]
      split
      · rfl
      · rw [if_pos (hrefused.resolve_left ‹_›)]
        rfl
    rw [← h.closed, ← h.config] at hrefused
    have hsame : Ends (answer (.work items tags)) session (fun _ next => next = session)
        fun _ next => next = session := by
      rw [answer, ends_discard]
      apply (work_refused tags hrefused).mono
      · exact fun _ _ => False.elim
      · exact fun _ _ hnext => hnext
    rw [hsame.stateAfter, hnone]
    rfl
  · have hone : takenIn [chronicle.reply config (.work items tags)] = 1 := by
      obtain ⟨hopen, hwhole⟩ := not_or.mp hrefused
      rw [Chronicle.reply, if_neg hopen, if_neg hwhole]
      rfl
    have htaken := (work_tells hvalid h items tags).mono (fun _ _ htotal => htotal)
      fun _ _ hbad => hrefused hbad.1
    obtain ⟨total, next, hok, -⟩ := htaken.exists_ok
    have haccrues := (work_accrues session items tags).of_ok hok
    have hnext : Ends (answer (.work items tags)) session (fun _ later => later = next)
        fun _ later => later = next := by
      rw [answer, ends_discard, ends_iff_of_ok hok]
    rw [hnext.stateAfter, hone]
    exact haccrues.progress.batches

/-- Only a batch that is given a result is counted as one. -/
theorem Tells.batches_answer (hvalid : config.validate = .ok ()) (call : Call)
    (h : session.Tells config chronicle others) :
    ((answer call).stateAfter session).recorder.progress.counters.batches =
      session.recorder.progress.counters.batches + takenIn [chronicle.reply config call] := by
  have hother : (∀ items tags, call ≠ .work items tags) →
      takenIn [chronicle.reply config call] = 0 →
      ((answer call).stateAfter session).recorder.progress.counters.batches =
        session.recorder.progress.counters.batches + takenIn [chronicle.reply config call] := by
    intro hcall hnone
    rw [hnone]
    exact (answer_accrues session hcall).stateAfter.progress.batches
  cases call with
  | work items tags => exact h.batches_work hvalid items tags
  | update key value =>
      apply hother (by simp)
      simp only [Chronicle.reply]
      split <;> rfl
  | rotate destination =>
      apply hother (by simp)
      simp only [Chronicle.reply]
      split
      · rfl
      · split <;> rfl
  | _ => exact hother (by simp) rfl

theorem Tells.batches_after (hvalid : config.validate = .ok ()) (calls : List Call)
    (h : session.Tells config chronicle
      ((destinationsOf config.splitHeader calls).map .reserved ++ others)) :
    (session.after calls).recorder.progress.counters.batches =
      session.recorder.progress.counters.batches + takenIn (chronicle.replies config calls) := by
  induction calls generalizing session chronicle with
  | nil => rfl
  | cons call rest ih =>
      rw [destinationsOf_cons, List.map_append, List.append_assoc] at h
      have hrest := ih (answer_tells hvalid call h).stateAfter
      have hcall := h.batches_answer hvalid call
      rw [hcall, Nat.add_assoc, ← takenIn_cons] at hrest
      exact hrest

end Batches

end Session

/-! ## Chronicles -/

namespace Chronicle

variable {config : Config} {destination : Destination} {headers : HeaderState}

/-- Every chapter is about a destination that was named. -/
theorem exists_destination_of_mem_chapters (hpos : 0 < config.itemSize.toNat) (calls : List Call)
    {chapter : Chapter}
    (h : chapter ∈ ((start config destination headers).run config calls).chapters) :
    ∃ named ∈ destination :: destinationsOf config.splitHeader calls,
      named.places config.splitHeader = chapter.places := by
  have hfollows := (follows_start config destination headers).run hpos calls
  apply List.mem_map.mp
  apply hfollows.opened.mem_iff.mp
  apply List.mem_append_left
  rcases eq_of_mem_chapters h with hpast | ⟨hcurrent, -⟩
  · exact List.mem_append_left _ (List.mem_map_of_mem hpast)
  · apply List.mem_append_right
    rw [hcurrent]
    exact List.mem_singleton_self _

/-- All headers have the flags that the first one has. -/
theorem withFlags_of_mem_chapters (hheaders : headers.Starts config) {calls : List Call}
    (hcalls : ∀ call ∈ calls, call.Recasts id config.splitHeader config.splitHeader)
    {chapter : Chapter}
    (h : chapter ∈ ((start config destination headers).run config calls).chapters) :
    ∀ segment ∈ chapter.segments,
      segment.withFlags (if config.splitHeader then detachedFlag else 0) = segment := by
  have hfixed := run_recast (if config.splitHeader then detachedFlag else 0) id
    (start config destination headers) hcalls
  rw [start_recast rfl, HeaderState.withFlags_eq hheaders.flags] at hfixed
  have hchapters := congrArg chapters hfixed
  rw [chapters_recast] at hchapters
  have hchapter := List.map_inj_left.mp (hchapters.symm.trans (List.map_id _).symm) chapter h
  have hsegments := congrArg Chapter.segments hchapter
  exact List.map_inj_left.mp (hsegments.trans (List.map_id _).symm)

end Chronicle

namespace Session

/-! ## Recorders and chronicles -/

/-- Behind calls a recorder is as the chronicle says, and replied as it says. -/
structure Recounts (session : Session) (config : Config) (chronicle : Chronicle)
    (calls : List Call) : Prop where
  tells : ∃ others, (session.after calls).Tells config (chronicle.run config calls) others
  replies : session.replies calls = chronicle.replies config calls
  batches : (session.after calls).recorder.progress.counters.batches =
    takenIn (chronicle.replies config calls)

section Recounts

variable {session : Session} {config : Config} {chronicle : Chronicle} {others : List Possession}
  {calls : List Call} {places : List Location}

/-- In memory nothing is held back. -/
theorem Tells.isFlushed (h : session.Tells config chronicle others) : session.IsFlushed := by
  intro target hactive channel hchannel
  exact ((h.records target hactive).direct channel hchannel).2

theorem Tells.stored_eq (h : session.Tells config chronicle others) {chapter : Chapter}
    (hchapter : chapter ∈ chronicle.chapters) :
    Contents.ofPlaces session.host.store chapter.places =
      .ofSegments config.splitHeader chapter.segments := by
  rw [← seen_of_isFlushed h.isFlushed]
  exact h.seen_eq hchapter

/-- The targets that were installed are those with a chapter. -/
theorem mem_installed_iff (hpast : chronicle.past = [])
    (h : ∀ front, front <+: calls → session.Recounts config chronicle front) :
    places ∈ session.installed calls ↔
      ∃ chapter ∈ (chronicle.run config calls).chapters, chapter.places = places := by
  rw [mem_installed, Chronicle.exists_chapter_iff hpast]
  have hcurrent : ∀ front, front <+: calls →
      (session.after front).recorder.active.map Target.places =
        (chronicle.run config front).current := by
    intro front hfront
    obtain ⟨others, htells⟩ := (h front hfront).tells
    exact htells.current
  constructor
  · rintro ⟨front, hfront, hactive⟩
    exact ⟨front, hfront, (hcurrent front hfront).symm.trans hactive⟩
  · rintro ⟨front, hfront, hactive⟩
    exact ⟨front, hfront, (hcurrent front hfront).trans hactive⟩

end Recounts

end Session

/-- A clean run starts, and its chronicle recounts it. -/
theorem Run.IsClean.exists_recounts {run : Run} (h : run.IsClean) :
    ∃ (headers : HeaderState) (session : Session),
      HeaderState.start run.config = .ok headers ∧
      Recorder.start run.config run.destination run.host = .ok session.recorder session.host ∧
      ∀ calls, calls <+: run.calls →
        session.Recounts run.config (.start run.config run.destination headers) calls := by
  obtain ⟨headers, recorder, started, hheaders, hstart, hbegun⟩ := h.exists_tells
  refine ⟨headers, ⟨recorder, started⟩, hheaders, hstart, ?_⟩
  rintro calls ⟨later, hcalls⟩
  have htells := hbegun [] run.calls rfl
  rw [← hcalls, destinationsOf_append, List.map_append] at htells
  obtain ⟨-, -, _, -, haccrues⟩ := (Recorder.start_accrues ..).of_ok hstart
  constructor
  · exact ⟨_, hbegun calls later hcalls.symm⟩
  · exact Session.replies_eq h.usable.1 calls htells
  · have hnone : recorder.progress.counters.batches = 0 := haccrues.batches
    have hbatches : ((Session.mk recorder started).after calls).recorder.progress.counters.batches =
        recorder.progress.counters.batches + takenIn
          ((Chronicle.start run.config run.destination headers).replies run.config calls) :=
      htells.batches_after h.usable.1 calls
    rw [hnone, Nat.zero_add] at hbatches
    exact hbatches

/-! ## Two layouts -/

def Destination.IsMemory : Destination → Prop
  | memory _ _ => True
  | _ => False

theorem Destination.IsMemory.fits {destination : Destination} (h : destination.IsMemory)
    (split : Bool) : destination.fits split = true := by
  cases destination with
  | memory data header => rfl
  | _ => exact h.elim

/-- Without a buffer for headers the data stays where it is. -/
theorem Destination.IsMemory.take_places {destination : Destination} (h : destination.IsMemory) :
    (destination.places true).take 1 = destination.places false := by
  cases destination with
  | memory data header => rfl
  | _ => exact h.elim

namespace Run

/-- The same run with headers apart, or with headers between the data. -/
def laidOut (run : Run) (split : Bool) : Run :=
  { run with config := { run.config with splitHeader := split } }

/-- All targets are in memory. -/
structure IsInMemory (run : Run) : Prop where
  first : run.destination.IsMemory
  later : ∀ destination, .rotate destination ∈ run.calls → destination.IsMemory

section Layouts

variable {run : Run} {calls : List Call}

theorem IsInMemory.recasts (h : run.IsInMemory) (hcalls : calls <+: run.calls)
    {place : List Location → List Location} {split split' : Bool}
    (hplace : ∀ destination : Destination, destination.IsMemory →
      place (destination.places split) = destination.places split') :
    ∀ call ∈ calls, call.Recasts place split split' := by
  intro call hcall
  cases call with
  | rotate destination =>
      have hmemory := h.later destination (hcalls.subset hcall)
      exact ⟨hmemory.fits split, hmemory.fits split', hplace destination hmemory⟩
  | _ => trivial

theorem IsInMemory.destinations_eq (h : run.IsInMemory) (split split' : Bool) :
    (run.laidOut split).destinations = (run.laidOut split').destinations := by
  have hrotated : destinationsOf split run.calls = destinationsOf split' run.calls := by
    apply List.filterMap_congr
    intro call hcall
    cases call with
    | rotate destination =>
        have hmemory := h.later destination hcall
        simp [hmemory.fits]
    | _ => rfl
  exact congrArg (run.destination :: ·) hrotated

theorem IsInMemory.of_mem_destinations (h : run.IsInMemory) {split : Bool} :
    ∀ destination ∈ (run.laidOut split).destinations, destination.IsMemory := by
  intro destination hdestination
  rcases List.mem_cons.mp hdestination with rfl | hrotated
  · exact h.first
  · obtain ⟨call, hcall, hsome⟩ := List.mem_filterMap.mp hrotated
    cases call with
    | rotate other =>
        have hmemory := h.later other hcall
        obtain rfl : other = destination := by simpa [hmemory.fits] using hsome
        exact hmemory
    | _ => cases hsome

/-- What is clean with headers apart is clean without the buffers for these. -/
theorem IsInMemory.isClean (h : run.IsInMemory) (hclean : (run.laidOut true).IsClean) :
    (run.laidOut false).IsClean := by
  obtain ⟨⟨hvalid, headers, hheaders⟩, -, happart⟩ := hclean
  constructor
  · exact ⟨hvalid, _, HeaderState.start_withFlags hheaders false⟩
  · intro destination hdestination
    have hmemory := h.of_mem_destinations destination hdestination
    cases destination with
    | memory data header => exact ⟨fun hsplit => (Bool.false_ne_true hsplit).elim, rfl⟩
    | _ => exact hmemory.elim
  · rw [h.destinations_eq false true]
    have hsub : ∀ destination ∈ (run.laidOut true).destinations,
        (destination.places false).Sublist (destination.places true) := by
      intro destination hdestination
      rw [← (h.of_mem_destinations destination hdestination).take_places]
      exact List.take_sublist _ _
    exact happart.sublist (List.Sublist.flatMap_right _ hsub)

end Layouts

end Run

/-- Behind the same calls both recorders are in the same place in the same stream. -/
structure Session.Corresponds (apart inline : Session) (destinations : List Destination)
    (calls : List Call) : Prop where
  replies : apart.replies calls = inline.replies calls
  counters : (apart.after calls).recorder.progress.counters =
    (inline.after calls).recorder.progress.counters
  itemsRead : (apart.after calls).recorder.itemsRead = (inline.after calls).recorder.itemsRead
  installed : ∀ destination ∈ destinations, destination.places true ∈ apart.installed calls ↔
    destination.places false ∈ inline.installed calls
  contents : ∀ destination ∈ destinations, destination.places true ∈ apart.installed calls →
    ∃ segments segments', Contents.Interleaves ((apart.after calls).isAt (destination.places true))
      (.ofPlaces (apart.after calls).host.store (destination.places true))
      (.ofPlaces (inline.after calls).host.store (destination.places false)) segments segments'

namespace Session

section Corresponds

variable {apart inline : Session} {config : Config} {chronicle : Chronicle} {calls : List Call}

theorem Recounts.counters_eq {flags : UInt8} {place : List Location → List Location}
    {split : Bool} (h : apart.Recounts config chronicle calls)
    (h' : inline.Recounts { config with splitHeader := split } (chronicle.recast flags place) calls)
    (hcalls : ∀ call ∈ calls, call.Recasts place config.splitHeader split) :
    (apart.after calls).recorder.progress.counters =
      (inline.after calls).recorder.progress.counters := by
  obtain ⟨others, htells⟩ := h.tells
  obtain ⟨others', htells'⟩ := h'.tells
  have hreplies := Chronicle.replies_recast flags place chronicle hcalls
  have hbatches := h'.batches
  rw [hreplies, ← h.batches] at hbatches
  have hcounters := htells'.counters
  rw [Chronicle.run_recast flags place chronicle hcalls] at hcounters
  exact Counters.eq_of_unbatched (htells.counters.trans hcounters.symm) hbatches.symm

theorem Recounts.itemsRead_eq {flags : UInt8} {place : List Location → List Location}
    {split : Bool} (h : apart.Recounts config chronicle calls)
    (h' : inline.Recounts { config with splitHeader := split } (chronicle.recast flags place) calls)
    (hcalls : ∀ call ∈ calls, call.Recasts place config.splitHeader split) :
    (apart.after calls).recorder.itemsRead = (inline.after calls).recorder.itemsRead := by
  obtain ⟨others, htells⟩ := h.tells
  obtain ⟨others', htells'⟩ := h'.tells
  have hread := htells'.itemsRead
  rw [Chronicle.run_recast flags place chronicle hcalls] at hread
  exact htells.itemsRead.trans hread.symm

end Corresponds

end Session

namespace Run

section Layouts

variable {run : Run} {headers : HeaderState} {apart inline : Session} {calls : List Call}
  {destination : Destination}

/-- What the recorder writes and replies with headers apart. -/
def chronicle (run : Run) (headers : HeaderState) : Chronicle :=
  .start (run.laidOut true).config run.destination headers

/-- The recorders of both layouts are recounted by one chronicle, on fewer places for the second. -/
structure Pairs (run : Run) (headers : HeaderState) (apart inline : Session) : Prop where
  inMemory : run.IsInMemory
  clean : (run.laidOut true).IsClean
  starts : headers.Starts (run.laidOut true).config
  apart : ∀ calls, calls <+: run.calls →
    apart.Recounts (run.laidOut true).config (run.chronicle headers) calls
  inline : ∀ calls, calls <+: run.calls → inline.Recounts (run.laidOut false).config
    ((run.chronicle headers).recast 0 (List.take 1)) calls

theorem IsInMemory.exists_pairs (h : run.IsInMemory) (hclean : (run.laidOut true).IsClean) :
    ∃ (headers : HeaderState) (apart inline : Session),
      Recorder.start (run.laidOut true).config run.destination run.host =
        .ok apart.recorder apart.host ∧
      Recorder.start (run.laidOut false).config run.destination run.host =
        .ok inline.recorder inline.host ∧
      run.Pairs headers apart inline := by
  obtain ⟨headers, apart, hheaders, hstart, happart⟩ := hclean.exists_recounts
  obtain ⟨headers', inline, hheaders', hstart', hinline⟩ := (h.isClean hclean).exists_recounts
  have hother := HeaderState.start_withFlags hheaders false
  obtain rfl := Except.ok.inj (hheaders'.symm.trans hother)
  have hrecast : (run.chronicle headers).recast 0 (List.take 1) =
      .start (run.laidOut false).config run.destination (headers.withFlags 0) :=
    Chronicle.start_recast h.first.take_places headers
  refine ⟨headers, apart, inline, hstart, hstart', h, hclean, HeaderState.of_start hheaders,
    happart, ?_⟩
  rw [hrecast]
  exact hinline

theorem Pairs.recasts (h : run.Pairs headers apart inline) (hcalls : calls <+: run.calls) :
    ∀ call ∈ calls, call.Recasts (List.take 1) (run.laidOut true).config.splitHeader false :=
  h.inMemory.recasts hcalls fun _ => Destination.IsMemory.take_places

theorem Pairs.chapters_eq (h : run.Pairs headers apart inline) (hcalls : calls <+: run.calls) :
    (((run.chronicle headers).recast 0 (List.take 1)).run (run.laidOut false).config
        calls).chapters =
      ((run.chronicle headers).run (run.laidOut true).config calls).chapters.map
        (Chapter.recast 0 (List.take 1)) := by
  rw [← Chronicle.chapters_recast, ← Chronicle.run_recast 0 (List.take 1) _ (h.recasts hcalls)]
  rfl

theorem Pairs.mem_installed_apart (h : run.Pairs headers apart inline)
    (hcalls : calls <+: run.calls) :
    destination.places true ∈ apart.installed calls ↔
      ∃ chapter ∈ ((run.chronicle headers).run (run.laidOut true).config calls).chapters,
        chapter.places = destination.places true :=
  Session.mem_installed_iff rfl fun front hfront => h.apart front (hfront.trans hcalls)

/-- The same targets are installed. -/
theorem Pairs.installed_iff (h : run.Pairs headers apart inline) (hcalls : calls <+: run.calls)
    (hdestination : destination ∈ (run.laidOut true).destinations) :
    destination.places true ∈ apart.installed calls ↔
      destination.places false ∈ inline.installed calls := by
  have hinline : ∀ front, front <+: calls → inline.Recounts _ _ front :=
    fun front hfront => h.inline front (hfront.trans hcalls)
  rw [h.mem_installed_apart hcalls, Session.mem_installed_iff rfl hinline, h.chapters_eq hcalls]
  have hmemory := h.inMemory.of_mem_destinations destination hdestination
  constructor
  · rintro ⟨chapter, hchapter, hplaces⟩
    refine ⟨_, List.mem_map_of_mem hchapter, ?_⟩
    rw [Chapter.recast, hplaces, hmemory.take_places]
  · rintro ⟨_, hmapped, hplaces⟩
    obtain ⟨chapter, hchapter, rfl⟩ := List.mem_map.mp hmapped
    refine ⟨chapter, hchapter, ?_⟩
    obtain ⟨named, hnamed, hsame⟩ := Chronicle.exists_destination_of_mem_chapters
      (Config.itemSize_pos h.clean.usable.1) calls hchapter
    have hnamed' : named ∈ (run.laidOut true).destinations := by
      have hdestinations : (run.laidOut true).destinations =
          run.destination :: destinationsOf true run.calls := rfl
      obtain ⟨later, hlater⟩ := hcalls
      rw [hdestinations, ← hlater, destinationsOf_append, ← List.cons_append]
      exact List.mem_append_left _ hnamed
    -- the place for the data tells the targets of the run apart
    have hone : named.places false = destination.places false := by
      rw [← (h.inMemory.of_mem_destinations named hnamed').take_places, ← hplaces, Chapter.recast,
        ← hsame]
      rfl
    rw [h.inMemory.destinations_eq true false] at hdestination hnamed'
    obtain rfl := (h.inMemory.isClean h.clean).eq_of_places hnamed' hdestination hone
    exact hsame.symm

/-- What is on a target is the same stream. -/
theorem Pairs.interleaves (h : run.Pairs headers apart inline) (hcalls : calls <+: run.calls)
    (hmemory : destination.IsMemory)
    (hinstalled : destination.places true ∈ apart.installed calls) :
    ∃ segments segments', Contents.Interleaves ((apart.after calls).isAt (destination.places true))
      (.ofPlaces (apart.after calls).host.store (destination.places true))
      (.ofPlaces (inline.after calls).host.store (destination.places false))
      segments segments' := by
  obtain ⟨chapter, hchapter, hplaces⟩ := (h.mem_installed_apart hcalls).mp hinstalled
  obtain ⟨others, htells⟩ := (h.apart calls hcalls).tells
  obtain ⟨others', htells'⟩ := (h.inline calls hcalls).tells
  have hchapter' : chapter.recast 0 (List.take 1) ∈ _ := List.mem_map_of_mem hchapter
  rw [← h.chapters_eq hcalls] at hchapter'
  have hstored := htells.stored_eq hchapter
  have hstored' := htells'.stored_eq hchapter'
  rw [hplaces] at hstored
  rw [Chapter.recast, hplaces, hmemory.take_places] at hstored'
  refine ⟨chapter.segments, chapter.segments.map (Segment.withFlags 0), ?_⟩
  constructor
  · rw [List.forall₂_map_right_iff, List.forall₂_same]
    intro segment hsegment
    apply Segment.withFlags_corresponds
    exact Chronicle.withFlags_of_mem_chapters h.starts
      (h.inMemory.recasts hcalls fun _ _ => rfl) hchapter segment hsegment
  · rw [← hplaces]
    exact htells.areStated hchapter
  · exact hstored.trans (Contents.ofSegments_apart _)
  · exact hstored'.trans (Contents.ofSegments_inline _)

theorem Pairs.corresponds (h : run.Pairs headers apart inline) (hcalls : calls <+: run.calls) :
    apart.Corresponds inline (run.laidOut true).destinations calls := by
  have hrecasts := h.recasts hcalls
  have happart := h.apart calls hcalls
  have hinline := h.inline calls hcalls
  constructor
  · rw [happart.replies, hinline.replies]
    exact (Chronicle.replies_recast 0 (List.take 1) _ hrecasts).symm
  · exact happart.counters_eq hinline hrecasts
  · exact happart.itemsRead_eq hinline hrecasts
  · exact fun destination => h.installed_iff hcalls
  · intro destination hdestination
    exact h.interleaves hcalls (h.inMemory.of_mem_destinations destination hdestination)

end Layouts

end Run

/--
Headers apart or between the data, the stream is the same.  On targets in memory
that are apart from each other, the same calls are given the same replies and
come to the same counts, and the same targets are installed.  Each holds the same
segments, one by one, and their headers differ in the flags and the checksum.  All
headers state their data but the last on the active target, which is still open.
-/
theorem Run.layouts_correspond (run : Run) (hmemory : run.IsInMemory)
    (hclean : (run.laidOut true).IsClean) :
    ∃ apart inline : Session,
      Recorder.start (run.laidOut true).config run.destination run.host =
        .ok apart.recorder apart.host ∧
      Recorder.start (run.laidOut false).config run.destination run.host =
        .ok inline.recorder inline.host ∧
      ∀ calls, calls <+: run.calls →
        apart.Corresponds inline (run.laidOut true).destinations calls := by
  obtain ⟨headers, apart, inline, hstart, hstart', hpairs⟩ := hmemory.exists_pairs hclean
  exact ⟨apart, inline, hstart, hstart', fun calls hcalls => hpairs.corresponds hcalls⟩

/-- A header that grows in place, a second target, and a batch that goes to none. -/
theorem Run.layouts_correspond_two_targets :
    let run : Run :=
      { config := { maxSegmentSize := 2 }
        destination := .memory "first" "first headers"
        calls := [.work [1, 2, 3] [⟨2, "version", .uint 2⟩], .update "note" (.uint 7),
          .rotate (.memory "second" "second headers"), .work [4] [], .close, .work [5] [],
          .shutdown] }
    run.IsInMemory ∧ (run.laidOut true).IsClean ∧ ∃ apart inline : Session,
      Recorder.start (run.laidOut true).config run.destination {} =
        .ok apart.recorder apart.host ∧
      Recorder.start (run.laidOut false).config run.destination {} =
        .ok inline.recorder inline.host ∧
      ∀ calls, calls <+: run.calls →
        apart.Corresponds inline (run.laidOut true).destinations calls := by
  intro run
  have hmemory : run.IsInMemory := by
    constructor
    · trivial
    · simp [run, Destination.IsMemory]
  have hclean : (run.laidOut true).IsClean := by
    have husable : Config.IsUsable { maxSegmentSize := 2, splitHeader := true } := ⟨rfl, _, rfl⟩
    refine ⟨husable, ?_, by decide⟩
    simp [run, laidOut, destinations, destinationsOf, Destination.fits, Destination.IsBlank,
      Destination.faultsAhead]
  exact ⟨hmemory, hclean, layouts_correspond run hmemory hclean⟩

end SegmentStream
