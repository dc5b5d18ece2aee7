import SegmentStream.Proofs.Recorder.Hearing

/-!
# Timestamps do not drift

The time of a record is that of the last update of time or rate, or of the
start, with the records since counted at the rate in force.  It depends on nothing
else.  So two recordings of a stream give a record the same timestamp, however
they are cut into batches, segments and targets.
-/

namespace SegmentStream

open SegmentStream.Action

/-! ## The time in force -/

/-- Where a stream is in time: so many records behind an anchor. -/
structure Pace where
  anchor : Timestamp
  sampleRate : Binary64
  relativeRate : Binary64
  records : Nat := 0
  deriving DecidableEq

/-- Updates that move the anchor. -/
def HeaderUpdate.isTiming : HeaderUpdate → Bool
  | time _ | sampleRate _ => true
  | _ => false

def Act.isTiming : Act → Bool
  | record _ => false
  | cut update => update.any HeaderUpdate.isTiming

/-- The updates among cues that move the anchor. -/
def timingIn (cues : List (Option HeaderUpdate)) : List HeaderUpdate :=
  cues.reduceOption.filter HeaderUpdate.isTiming

namespace Pace

def rate (pace : Pace) : Binary64 := pace.sampleRate * pace.relativeRate

/-- The anchor, and the seconds that the records since have taken. -/
def now (pace : Pace) : Timestamp :=
  if pace.records = 0 then pace.anchor
  else
    let elapsed := Binary64.ofCount pace.records / pace.rate
    let (carry, fraction) := splitSeconds (pace.anchor.fraction + elapsed)
    ⟨pace.anchor.seconds + carry, fraction⟩

def count (pace : Pace) (records : Nat) : Pace :=
  { pace with records := pace.records + records }

def apply (pace : Pace) : HeaderUpdate → Pace
  | .time time => { pace with anchor := time, records := 0 }
  | .sampleRate rate => { pace with anchor := pace.now, sampleRate := rate, records := 0 }
  | _ => pace

def step (pace : Pace) : Act → Pace
  | .record _ => pace.count 1
  | .cut update => update.elim pace pace.apply

/-- The pace behind acts of a stream. -/
def behind (pace : Pace) (acts : List Act) : Pace := acts.foldl step pace

/-- The pace at a record, with the updates that come before each record. -/
def reach (pace : Pace) (updates : Nat → List HeaderUpdate) : Nat → Pace
  | 0 => (updates 0).foldl apply pace
  | index + 1 => (updates (index + 1)).foldl apply ((pace.reach updates index).count 1)

/-- The clock that has come so far. -/
def clock (pace : Pace) : Clock :=
  { anchor := pace.anchor
    sampleRate := pace.sampleRate
    relativeRate := pace.relativeRate
    records := pace.records
    now := pace.now }

section Rules

variable (pace : Pace)

theorem now_of_records_eq_zero (h : pace.records = 0) : pace.now = pace.anchor := if_pos h

theorem now_of_records_ne_zero (h : pace.records ≠ 0) :
    pace.now = Clock.timeAfter pace.anchor pace.rate pace.records := if_neg h

theorem clock_advance : pace.clock.advance 1 = (pace.count 1).clock := by
  have hlater := now_of_records_ne_zero (pace.count 1) (Nat.succ_ne_zero pace.records)
  rw [Clock.advance, if_neg Nat.one_ne_zero, clock, clock, hlater]
  rfl

theorem clock_setTime (time : Timestamp) :
    pace.clock.setTime time = (pace.apply (.time time)).clock := by
  rw [clock, clock, now_of_records_eq_zero (pace.apply (.time time)) rfl]
  rfl

theorem clock_setSampleRate (rate : Binary64) :
    pace.clock.setSampleRate rate = (pace.apply (.sampleRate rate)).clock := by
  rw [clock, clock, now_of_records_eq_zero (pace.apply (.sampleRate rate)) rfl]
  rfl

theorem apply_of_not_isTiming {update : HeaderUpdate} (h : update.isTiming = false) :
    pace.apply update = pace := by
  cases update <;> first | rfl | cases h

theorem reach_congr {updates updates' : Nat → List HeaderUpdate} {index : Nat}
    (h : ∀ position ≤ index, updates position = updates' position) :
    pace.reach updates index = pace.reach updates' index := by
  induction index with
  | zero => rw [reach, reach, h 0 (Nat.le_refl _)]
  | succ index ih =>
      rw [reach, reach, ih fun position hle => h position (Nat.le_succ_of_le hle),
        h (index + 1) (Nat.le_refl _)]

theorem behind_cuts (cues : List (Option HeaderUpdate)) :
    pace.behind (cues.map .cut) = (timingIn cues).foldl apply pace := by
  induction cues generalizing pace with
  | nil => rfl
  | cons cue rest ih =>
      rw [List.map_cons, behind, List.foldl_cons, ← behind, ih]
      cases cue with
      | none => rfl
      | some update => cases update <;> rfl

/-- As long as neither time nor rate is set, the anchor stays and all records count. -/
theorem behind_of_not_isTiming {acts : List Act} (h : ∀ act ∈ acts, act.isTiming = false) :
    pace.behind acts = pace.count (recordCount acts) := by
  induction acts generalizing pace with
  | nil => rfl
  | cons act rest ih =>
      obtain ⟨hact, hrest⟩ := List.forall_mem_cons.mp h
      rw [behind, List.foldl_cons, ← behind, ih _ hrest]
      cases act with
      | record bytes =>
          have hcount : recordCount (.record bytes :: rest) = 1 + recordCount rest :=
            recordCount_append [.record bytes] rest
          rw [hcount, step, count, count, count, Nat.add_assoc]
      | cut update =>
          cases update with
          | none => rfl
          | some update =>
              have happly : pace.step (.cut (some update)) = pace :=
                pace.apply_of_not_isTiming hact
              rw [happly]
              rfl

end Rules

end Pace

/-- No record has come since the start. -/
def Config.pace (config : Config) : Pace :=
  { anchor := config.startTime
    sampleRate := config.sampleRate
    relativeRate := config.relativeRate }

/-! ## Headers that keep pace -/

namespace HeaderState

section Paced

variable {state : HeaderState} {pace : Pace}

theorem start_clock {config : Config} {headers : HeaderState}
    (h : HeaderState.start config = .ok headers) : headers.clock = config.pace.clock :=
  (of_start h).clock

theorem clock_applySome (h : state.clock = pace.clock) (update : Option HeaderUpdate) :
    (state.applySome update).clock = (update.elim pace pace.apply).clock := by
  cases update with
  | none => exact h
  | some update =>
      cases update with
      | time time => exact (congrArg (·.setTime time) h).trans (pace.clock_setTime time)
      | sampleRate rate =>
          exact (congrArg (·.setSampleRate rate) h).trans (pace.clock_setSampleRate rate)
      | _ => exact h

theorem clock_advance (h : state.clock = pace.clock) :
    (state.advance 1).clock = (pace.count 1).clock := by
  rw [← Pace.clock_advance, ← h]
  rfl

theorem clock_play (h : state.clock = pace.clock) (acts : List Act) :
    (state.play acts).clock = (pace.behind acts).clock := by
  induction acts generalizing state pace with
  | nil => exact h
  | cons act rest ih =>
      cases act with
      | record bytes => exact ih (clock_advance h)
      | cut update => exact ih (clock_applySome h update)

theorem IsTimed.play (h : state.IsTimed) (acts : List Act) : (state.play acts).IsTimed := by
  induction acts generalizing state with
  | nil => exact h
  | cons act rest ih =>
      cases act with
      | record bytes => exact ih (h.advance 1)
      | cut update => exact ih (h.applySome update)

theorem clock_applyAll (h : state.clock = pace.clock) (cues : List (Option HeaderUpdate)) :
    (state.applyAll cues).clock = ((timingIn cues).foldl Pace.apply pace).clock := by
  rw [← play_cuts, ← Pace.behind_cuts]
  exact clock_play h _

theorem IsTimed.applyAll (h : state.IsTimed) (cues : List (Option HeaderUpdate)) :
    (state.applyAll cues).IsTimed := by
  rw [← play_cuts]
  exact h.play _

/-- A header shows the time and the rate of the pace that its clock keeps. -/
theorem IsTimed.shows (h : state.IsTimed) (hclock : state.clock = pace.clock) :
    state.header.time = pace.now ∧ state.header.sampleRate = pace.rate := by
  rw [h.time, h.rate, hclock]
  exact ⟨rfl, rfl⟩

end Paced

end HeaderState

section InForce

variable {origin : HeaderState} {pace : Pace} (cues : Cues) (index : Nat)

theorem inForce_clock (h : origin.clock = pace.clock) : (inForce cues origin index).clock =
    (pace.reach (fun position => timingIn (cues position)) index).clock := by
  induction index with
  | zero => exact HeaderState.clock_applyAll h _
  | succ index ih =>
      rw [inForce, HeaderState.clock_applyAll (HeaderState.clock_advance ih), Pace.reach]

theorem inForce_isTimed (h : origin.IsTimed) : (inForce cues origin index).IsTimed := by
  induction index with
  | zero => exact h.applyAll _
  | succ index ih => exact (ih.advance 1).applyAll _

end InForce

/-! ## Segments of two runs -/

namespace Run

/-- The accepted updates of time and rate at a record, in the order in which they came. -/
def timings (run : Run) (position : Nat) : List HeaderUpdate :=
  timingIn (cuesAt run.arrived position)

/-- A segment with records, the first of which is this one of the stream. -/
def StartsAt (chapters : List Chapter) (index : Nat) (segment : Segment) : Prop :=
  segment.records ≠ [] ∧ ∃ front back,
    chapters.flatMap Chapter.segments = front ++ segment :: back ∧ recordsHeld front = index

/-- No record of the run was dropped. -/
def Keeps (run : Run) (session : Session) : Prop :=
  (session.after run.calls).recorder.progress.counters.recordsDropped = 0

section Runs

variable {run : Run} {first : Opening} {session : Session}

/-- Where no record is dropped, all is heard. -/
theorem Succeeds.heard_deeds (h : run.Succeeds first session) (hkept : run.Keeps session) :
    ∀ deed ∈ session.deedsOf run.calls, deed.heard = true := by
  obtain ⟨hvalid, headers, hheaders⟩ := h.isUsable
  obtain ⟨label, unlabel, hlabel⟩ := Location.exists_label
  have hdropped := h.launches.dropped_eq hheaders hlabel h.served.of_append
  rw [hkept, Nat.zero_mul] at hdropped
  rw [h.launches.deedsOf_eq hheaders hlabel h.served.of_append]
  exact Route.heard_deedsOf (Config.itemSize_pos hvalid) 0 _ rfl
    (List.length_eq_zero_iff.mp hdropped.symm)

/-- Records are dropped only where the end of a target was asked for. -/
theorem Succeeds.keeps (h : run.Succeeds first session) (hcalls : .close ∉ run.calls) :
    run.Keeps session := by
  obtain ⟨hvalid, headers, hheaders⟩ := h.isUsable
  obtain ⟨label, unlabel, hlabel⟩ := Location.exists_label
  have hdropped := h.launches.dropped_eq hheaders hlabel h.served.of_append
  have hportraits : .close ∉ session.portraits label run.calls :=
    fun hmem => (Session.mem_portraits hmem).elim hcalls (by simp)
  have hwhole : ((Route.start (first.target.portrait label)).run run.config
      (session.portraits label run.calls)).IsWhole :=
    (Route.isWhole_start _).run hportraits
  rw [hwhole.share_eq] at hdropped
  exact (Nat.mul_eq_zero.mp hdropped).resolve_right (Nat.ne_of_gt (Config.itemSize_pos hvalid))

/-- The header in force at a record shows its time and rate. -/
theorem shows_pace (run : Run) {headers : HeaderState}
    (hheaders : HeaderState.start run.config = .ok headers) (index : Nat) :
    let header := (inForce (cuesAt run.arrived) headers index).header
    let pace := run.config.pace.reach run.timings index
    header.time = pace.now ∧ header.sampleRate = pace.rate :=
  (inForce_isTimed _ index (HeaderState.start_isTimed hheaders)).shows
    (inForce_clock _ index (HeaderState.start_clock hheaders))

/-- Where no record is dropped, a segment has the header in force at its first record. -/
theorem Succeeds.exists_leaves (h : run.Succeeds first session) (hkept : run.Keeps session) :
    ∃ headers chapters, HeaderState.start run.config = .ok headers ∧ run.Leaves session chapters ∧
      ∀ index segment, StartsAt chapters index segment →
        segment = (inForce (cuesAt run.arrived) headers index).segment segment.records := by
  obtain ⟨headers, chapters, hheaders, hleaves, hplayed⟩ := h.exists_played
  have hheard : heardActs (session.deedsOf run.calls) = weave (cuesAt run.arrived) 0
      (recordsIn (requestsOf run.config.itemSize.toNat run.calls)) :=
    (heardActs_of_forall (h.heard_deeds hkept)).trans h.deeds_acts
  have hcount := congrArg List.length hleaves.records
  change recordsHeld _ = recordCount _ at hcount
  rw [hheard] at hplayed hcount
  rw [recordCount_weave] at hcount
  refine ⟨headers, chapters, hheaders, hleaves, ?_⟩
  rintro index segment ⟨hfilled, front, back, hsegments, rfl⟩
  rw [hsegments] at hplayed hcount
  exact hplayed.eq_segment hcount hfilled

end Runs

/--
Two runs of a stream, on any storage and without dropped records, give a record the
same timestamp and the same rate wherever it is the first of a segment in both, if
the updates of time and rate up to it are the same.  The time is that of the last of
these updates, or of the start, and the records since over the rate.
-/
theorem timestamps_eq {first second : Run} {opening opening' : Opening}
    {session session' : Session} (hfirst : first.Succeeds opening session)
    (hsecond : second.Succeeds opening' session')
    (htime : first.config.startTime = second.config.startTime)
    (hrate : first.config.sampleRate = second.config.sampleRate)
    (hrelative : first.config.relativeRate = second.config.relativeRate)
    (hkept : first.Keeps session) (hkept' : second.Keeps session') :
    ∃ chapters chapters', first.Leaves session chapters ∧ second.Leaves session' chapters' ∧
      ∀ index segment segment', StartsAt chapters index segment →
        StartsAt chapters' index segment' →
        (∀ position ≤ index, first.timings position = second.timings position) →
        let pace := first.config.pace.reach first.timings index
        segment.header.time = segment'.header.time ∧
          segment.header.sampleRate = segment'.header.sampleRate ∧
          segment.header.time = pace.now ∧ segment.header.sampleRate = pace.rate := by
  obtain ⟨headers, chapters, hheaders, hleaves, hforce⟩ := hfirst.exists_leaves hkept
  obtain ⟨headers', chapters', hheaders', hleaves', hforce'⟩ := hsecond.exists_leaves hkept'
  refine ⟨chapters, chapters', hleaves, hleaves', ?_⟩
  intro index segment segment' hstarts hstarts' htimings pace
  have hpace : second.config.pace.reach second.timings index = pace := by
    have hconfig : second.config.pace = first.config.pace := by
      rw [Config.pace, Config.pace, htime, hrate, hrelative]
    rw [hconfig]
    exact (Pace.reach_congr _ htimings).symm
  obtain ⟨hnow, hat⟩ := first.shows_pace hheaders index
  obtain ⟨hnow', hat'⟩ := second.shows_pace hheaders' index
  rw [hpace] at hnow' hat'
  rw [hforce index segment hstarts, hforce' index segment' hstarts']
  exact ⟨hnow.trans hnow'.symm, hat.trans hat'.symm, hnow, hat⟩

/-- Five records on one target, and with other batches, tags and segments on two. -/
theorem timestamps_eq_two_layouts :
    let time := Attribute.time 100 ⟨0x3fe0000000000000⟩
    let rate := Attribute.double ⟨0x4059000000000000⟩
    let first : Run :=
      { config := { maxSegmentSize := 2 }
        destination := .memory "data" "headers"
        calls := [.update "rx_rate" rate, .work [1, 2, 3] [⟨2, "rx_time", time⟩],
          .work [4, 5] []] }
    let second : Run :=
      { config := { maxSegmentSize := 3, splitHeader := true }
        destination := .memory "first data" "first headers"
        calls := [.work [1, 2] [⟨0, "rx_rate", rate⟩, ⟨1, "note", .uint 1⟩],
          .update "rx_time" time, .rotate (.memory "second data" "second headers"),
          .work [3, 4, 5] []] }
    (∀ position ≤ 4, first.timings position = second.timings position) ∧
      ∃ opening session opening' session', first.Succeeds opening session ∧
        second.Succeeds opening' session' ∧ first.Keeps session ∧ second.Keeps session' ∧
        ∃ chapters chapters', first.Leaves session chapters ∧ second.Leaves session' chapters' ∧
          ∀ index ≤ 4, ∀ segment segment', StartsAt chapters index segment →
            StartsAt chapters' index segment' →
            segment.header.time = segment'.header.time ∧
              segment.header.sampleRate = segment'.header.sampleRate ∧
              (index = 2 → segment.header.time = ⟨100, ⟨0x3fe0000000000000⟩⟩ ∧
                segment.header.sampleRate = ⟨0x4059000000000000⟩ * .one) := by
  intro time rate first second
  have hfirst : first.IsClean := by
    have husable : Config.IsUsable { maxSegmentSize := 2 } := ⟨rfl, _, rfl⟩
    refine ⟨husable, ?_, by decide⟩
    simp [first, destinations, destinationsOf, Destination.IsBlank, Destination.faultsAhead]
  have hsecond : second.IsClean := by
    have husable : Config.IsUsable { maxSegmentSize := 3, splitHeader := true } := ⟨rfl, _, rfl⟩
    refine ⟨husable, ?_, by decide⟩
    simp [second, destinations, destinationsOf, Destination.fits, Destination.IsBlank,
      Destination.faultsAhead]
  have htimings : ∀ position ≤ 4, first.timings position = second.timings position := by
    decide +kernel
  have hpace : first.config.pace.reach first.timings 2 =
      { anchor := ⟨100, ⟨0x3fe0000000000000⟩⟩
        sampleRate := ⟨0x4059000000000000⟩
        relativeRate := .one } := by decide +kernel
  obtain ⟨opening, session, hsucceeds⟩ := hfirst.exists_succeeds
  obtain ⟨opening', session', hsucceeds'⟩ := hsecond.exists_succeeds
  have hkept := hsucceeds.keeps (by simp [first])
  have hkept' := hsucceeds'.keeps (by simp [second])
  obtain ⟨chapters, chapters', hleaves, hleaves', hsame⟩ :=
    timestamps_eq hsucceeds hsucceeds' rfl rfl rfl hkept hkept'
  refine ⟨htimings, opening, session, opening', session', hsucceeds, hsucceeds', hkept, hkept',
    chapters, chapters', hleaves, hleaves', ?_⟩
  intro index hindex segment segment' hstarts hstarts'
  obtain ⟨htime, hrate, hnow, hat⟩ := hsame index segment segment' hstarts hstarts'
    fun position hposition => htimings position (Nat.le_trans hposition hindex)
  refine ⟨htime, hrate, ?_⟩
  rintro rfl
  rw [hpace] at hnow hat
  exact ⟨hnow, hat⟩

end Run

end SegmentStream
