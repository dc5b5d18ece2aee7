import SegmentStream.Proofs.Recorder.Script
import SegmentStream.Proofs.Recorder.Writing

/-!
# Writing a batch

A batch plays its script, or stops at a planned fault.  Where it stops, the
writer can go on with what is left of the script: either the target is whole, or
the first act left writes the torn header again.  Cuts at the record where it
stopped come again, which changes nothing.
-/

namespace SegmentStream

/-! ## Acts for records of one size -/

theorem Tag.prepare_of_update? {size : UInt32} {tag : Tag} {update : HeaderUpdate}
    (h : tag.update? size = some update) :
    HeaderUpdate.prepare size tag.key tag.value = .ok update := by
  unfold Tag.update? at h
  cases hresult : HeaderUpdate.prepare size tag.key tag.value with
  | error cause =>
      rw [hresult] at h
      cases h
  | ok accepted =>
      rw [hresult] at h
      cases h
      rfl

theorem Tag.update?_isProper {size : UInt32} {tag : Tag} {update : HeaderUpdate}
    (h : tag.update? size = some update) : update.IsProper size :=
  HeaderUpdate.prepare_isProper (prepare_of_update? h)

def Act.Suits (size : UInt32) : Act → Prop
  | .record bytes => bytes.length = size.toNat
  | .cut update => ∀ accepted, update = some accepted → accepted.IsProper size

/-- A record of this size, or a cut with an update out of these. -/
def Act.IsOf (size : UInt32) (allowed : HeaderUpdate → Prop) : Act → Prop
  | .record bytes => bytes.length = size.toNat
  | .cut update => ∀ accepted, update = some accepted → allowed accepted

theorem Act.IsOf.suits {size : UInt32} {act : Act}
    (h : act.IsOf size (HeaderUpdate.IsProper size)) : act.Suits size := by
  cases act <;> exact h

theorem script_isOf {size : UInt32} {allowed : HeaderUpdate → Prop} {tags : List Tag}
    (htags : ∀ update ∈ tags.filterMap (Tag.update? size), allowed update) (first : Nat)
    {records : List Bytes} (hrecords : ∀ record ∈ records, record.length = size.toNat) :
    ∀ act ∈ script (cuesOf size tags) first records, act.IsOf size allowed := by
  induction records generalizing first with
  | nil => exact List.forall_mem_nil _
  | cons record rest ih =>
      obtain ⟨hrecord, hrest⟩ := List.forall_mem_cons.mp hrecords
      intro act hact
      rcases List.mem_append.mp hact with hcut | hact
      · obtain ⟨update, hupdate, rfl⟩ := List.mem_map.mp hcut
        obtain ⟨tag, htag, rfl⟩ := List.mem_map.mp hupdate
        intro accepted haccepted
        exact htags accepted (List.mem_filterMap.mpr ⟨tag, List.mem_of_mem_filter htag, haccepted⟩)
      · rcases List.mem_cons.mp hact with rfl | hact
        · exact hrecord
        · exact ih _ hrest act hact

theorem script_suits (size : UInt32) (tags : List Tag) (first : Nat) {records : List Bytes}
    (hrecords : ∀ record ∈ records, record.length = size.toNat) :
    ∀ act ∈ script (cuesOf size tags) first records, act.Suits size := by
  have htags : ∀ update ∈ tags.filterMap (Tag.update? size), update.IsProper size := by
    intro update hupdate
    obtain ⟨tag, -, haccepted⟩ := List.mem_filterMap.mp hupdate
    exact Tag.update?_isProper haccepted
  exact fun act hact => (script_isOf htags first hrecords act hact).suits

namespace Transcript

def itemSize (transcript : Transcript) : UInt32 := transcript.headers.header.itemSize

section ItemSize

variable {transcript : Transcript} {size : UInt32}

theorem itemSize_close (h : transcript.itemSize = size) : transcript.close.itemSize = size := by
  obtain ⟨closed, headers, running, counters⟩ := transcript
  cases running <;> exact h

theorem itemSize_apply {update : Option HeaderUpdate}
    (hproper : ∀ accepted, update = some accepted → accepted.IsProper size)
    (h : transcript.itemSize = size) : (transcript.apply update).itemSize = size :=
  HeaderState.applySome_itemSize hproper h

theorem itemSize_boundary {update : Option HeaderUpdate}
    (hproper : ∀ accepted, update = some accepted → accepted.IsProper size)
    (h : transcript.itemSize = size) : (transcript.boundary update).itemSize = size := by
  have hclosed := itemSize_apply hproper (itemSize_close h)
  have hhere := itemSize_apply hproper h
  obtain ⟨closed, headers, _ | ⟨slotLength, _ | ⟨record, records⟩⟩, counters⟩ := transcript
  · exact hhere
  · exact hhere
  · exact hclosed

theorem itemSize_step {act : Act} (ceiling : Nat) (hsuits : act.Suits size)
    (h : transcript.itemSize = size) : (transcript.step ceiling act).itemSize = size := by
  cases act with
  | cut update => exact itemSize_boundary hsuits h
  | record bytes =>
      change (transcript.makeRoom ceiling).itemSize = size
      unfold makeRoom
      split
      · exact itemSize_close h
      · exact h

theorem itemSize_play {acts : List Act} (ceiling : Nat) (hsuits : ∀ act ∈ acts, act.Suits size)
    (h : transcript.itemSize = size) : (transcript.play ceiling acts).itemSize = size := by
  induction acts generalizing transcript with
  | nil => exact h
  | cons act rest ih =>
      obtain ⟨hact, hrest⟩ := List.forall_mem_cons.mp hsuits
      exact ih hrest (itemSize_step ceiling hact h)

end ItemSize

/-! ## Where a writer can go on -/

/-- The cuts of `before` were carried out at the record where the transcript stands. -/
structure Settled (transcript : Transcript) (before : List (Option HeaderUpdate)) : Prop where
  headers : ∃ base : HeaderState, transcript.headers = (base.applyAll before).fresh
  empty : before ≠ [] → ∃ slotLength, transcript.running = some ⟨slotLength, []⟩

theorem Settled.play_again {transcript : Transcript} {before : List (Option HeaderUpdate)}
    (h : transcript.Settled before) (ceiling : Nat) (acts : List Act) :
    (transcript.play ceiling (before.map .cut ++ acts)).Alike (transcript.play ceiling acts) := by
  cases before with
  | nil => exact .refl _
  | cons update rest =>
      obtain ⟨base, hbase⟩ := h.headers
      obtain ⟨slotLength, hrunning⟩ := h.empty (List.cons_ne_nil _ _)
      have hagain := Transcript.play_again ceiling hrunning hbase [] acts
      rwa [List.append_nil] at hagain

/-- Nothing was cut at a record that has one before it in its segment, or none open. -/
theorem Settled.eq_nil {transcript : Transcript} {before : List (Option HeaderUpdate)}
    (h : transcript.Settled before)
    (hrunning : ∀ slotLength, transcript.running ≠ some ⟨slotLength, []⟩) : before = [] := by
  by_contra hne
  obtain ⟨slotLength, hempty⟩ := h.empty hne
  exact hrunning slotLength hempty

theorem Settled.step_cut {transcript : Transcript} {before : List (Option HeaderUpdate)}
    (h : transcript.Settled before) (ceiling : Nat) (update : Option HeaderUpdate) :
    (transcript.step ceiling (.cut update)).Settled (before ++ [update]) := by
  have hnone := h.eq_nil
  obtain ⟨⟨base, hbase⟩, -⟩ := h
  have hheaders : (transcript.headers.applySome update).fresh =
      (base.applyAll (before ++ [update])).fresh := by
    rw [hbase, HeaderState.fresh_applySome, HeaderState.applyAll_append]
    rfl
  obtain ⟨closed, headers, _ | ⟨slotLength, _ | ⟨record, records⟩⟩, counters⟩ := transcript
  · exact ⟨⟨base, hheaders⟩, fun _ => ⟨_, rfl⟩⟩
  · exact ⟨⟨base, hheaders⟩, fun _ => ⟨_, rfl⟩⟩
  · refine ⟨⟨headers.advance (record :: records).length, ?_⟩, fun _ => ⟨_, rfl⟩⟩
    rw [hnone (by simp)]
    rfl

theorem Alike.apply_apply (transcript : Transcript) (update : Option HeaderUpdate) :
    ((transcript.apply update).apply update).Alike (transcript.apply update) := by
  refine ⟨rfl, ?_, rfl, rfl⟩
  change ((transcript.headers.applySome update).fresh.applySome update).fresh =
    (transcript.headers.applySome update).fresh
  rw [HeaderState.fresh_applySome]
  have hagain := HeaderState.applyAll_applyAll_of_subset (fun _ h => h :
    ∀ again ∈ [update], again ∈ [update]) transcript.headers
  exact congrArg HeaderState.fresh hagain

theorem Alike.step_cut {transcript : Transcript} (hnone : transcript.running = none)
    (ceiling : Nat) (update : Option HeaderUpdate) :
    (transcript.step ceiling (.cut update)).Alike (transcript.apply update).openNext := by
  have hboundary : (transcript.countTag update).boundary update =
      ((transcript.countTag update).apply update).openNext := by
    have hnone' : (transcript.countTag update).running = none := hnone
    rw [Transcript.boundary, hnone']
  rw [Transcript.step, hboundary]
  exact ((countTag_left transcript update).apply update).openNext

theorem Alike.step_cut_again {transcript : Transcript} (hnone : transcript.running = none)
    (ceiling : Nat) (update : Option HeaderUpdate) :
    ((transcript.apply update).step ceiling (.cut update)).Alike
      (transcript.apply update).openNext := by
  have hnone' : (transcript.apply update).running = none := hnone
  exact (step_cut hnone' ceiling update).trans (apply_apply transcript update).openNext

end Transcript

namespace Writer

open SegmentStream.Action BatchStep

/-- The writer can go on with these acts as if its target were whole. -/
inductive Resumes (ceiling : Nat) (split : Bool) (writer : Writer) (transcript : Transcript)
    (acts : List Act) : Prop where
  | kept (h : writer.Keeps split transcript)
  /-- The header of a segment with records is torn; the first act closes the segment. -/
  | torn (running : Running) (h : writer.Frays split transcript running [])
      (hlength : running.slotLength = transcript.headers.regionSize)
      (hfilled : running.records ≠ [])
      (hfirst : (∃ update rest, acts = .cut update :: rest) ∨
        ((∃ bytes rest, acts = .record bytes :: rest) ∧ transcript.room ceiling = 0))
  /-- The header of an empty segment is torn; the cuts that come cover all stale bytes. -/
  | worn (slotLength : Nat) (stale : Bytes) (update : Option HeaderUpdate)
      (updates : List (Option HeaderUpdate)) (rest : List Act)
      (h : writer.Frays split transcript ⟨slotLength, []⟩ stale)
      (hacts : acts = (update :: updates).map .cut ++ rest)
      (hstale : stale = [] ∨ slotLength + stale.length ≤
        (transcript.headers.applyAll (update :: updates)).regionSize)

section Resumes

variable {ceiling : Nat} {split : Bool} {writer : Writer} {transcript : Transcript}

theorem Resumes.tells {acts : List Act} (h : Resumes ceiling split writer transcript acts) :
    writer.progress.Tells split transcript := by
  cases h with
  | kept h => exact h.tells
  | torn running h => exact h.tells
  | worn slotLength stale update updates rest h => exact h.tells

theorem Resumes.keeps_of_nil (h : Resumes ceiling split writer transcript []) :
    writer.Keeps split transcript := by
  cases h with
  | kept h => exact h
  | torn running h hlength hfilled hfirst =>
      rcases hfirst with ⟨update, rest, hacts⟩ | ⟨⟨bytes, rest, hacts⟩, -⟩ <;> cases hacts
  | worn slotLength stale update updates rest h hacts => cases hacts

/-- A record is written only to a whole target with room, unless it rolls the segment. -/
theorem Resumes.keeps_of_record {bytes : Bytes} {rest : List Act}
    (h : Resumes ceiling split writer transcript (.record bytes :: rest))
    (hroom : 0 < transcript.room ceiling) : writer.Keeps split transcript := by
  cases h with
  | kept h => exact h
  | torn running h hlength hfilled hfirst =>
      rcases hfirst with ⟨update, later, hacts⟩ | ⟨-, hfull⟩
      · cases hacts
      · exact absurd hroom (by omega)
  | worn slotLength stale update updates later h hacts => cases hacts

theorem Tells.room_eq {progress : Progress} (outlet : Outlet)
    (h : progress.Tells split transcript) (ceiling : Nat) :
    room ⟨progress, outlet⟩ ceiling = transcript.room ceiling := by
  have hslot := h.slot
  have hrecords := h.records
  unfold room HeaderState.isOpen Transcript.room
  cases hrunning : transcript.running with
  | none => simp_all
  | some running => simp_all

end Resumes

/-! ## Tags -/

/-- A tag was counted, and perhaps reported. -/
structure Counts (writer : Writer) (update : Option HeaderUpdate) (next : Writer) : Prop where
  headers : next.progress.headers = writer.progress.headers
  records : next.progress.records = writer.progress.records
  counters : next.progress.counters = writer.progress.counters.addTag update.isSome
  outlet : next.outlet = writer.outlet ∨
    ∃ event, next.outlet = { writer.outlet with host := writer.outlet.host.report event }

section Counts

variable {split : Bool} {writer next : Writer} {transcript : Transcript}
  {update : Option HeaderUpdate}

theorem Counts.follows (h : writer.Counts update next) : writer.outlet.Follows next.outlet := by
  rcases h.outlet with hsame | ⟨event, hreport⟩
  · rw [hsame]
    exact .refl _
  · rw [hreport]
    exact Outlet.report_follows ..

theorem Counts.tells (h : writer.Counts update next)
    (htells : writer.progress.Tells split transcript) :
    next.progress.Tells split (transcript.countTag update) := by
  refine ⟨h.headers ▸ htells.headers, h.headers ▸ htells.slot, h.records ▸ htells.records, ?_⟩
  rw [h.counters, Transcript.countTag, ← htells.counters]
  cases update <;> rfl

theorem Counts.keeps (h : writer.Counts update next) (hkeeps : writer.Keeps split transcript) :
    next.Keeps split (transcript.countTag update) := by
  refine ⟨h.tells hkeeps.tells, ?_, hkeeps.slotLength⟩
  rcases h.outlet with hsame | ⟨event, hreport⟩
  · rw [hsame]
    exact hkeeps.outlet
  · rw [hreport]
    exact hkeeps.outlet.report event

theorem Counts.frays (h : writer.Counts update next) {running : Running} {stale : Bytes}
    (hfrays : writer.Frays split transcript running stale) :
    next.Frays split (transcript.countTag update) running stale := by
  obtain ⟨region, hregion, hworn⟩ := hfrays.outlet
  refine ⟨h.tells hfrays.tells, hfrays.isRunning, region, hregion, ?_⟩
  rcases h.outlet with hsame | ⟨event, hreport⟩
  · rw [hsame]
    exact hworn
  · rw [hreport]
    exact hworn.report event

theorem prepareTag_ends (writer : Writer) (tag : Tag) :
    Ends (prepareTag tag) writer
      (fun update next => update = tag.update? writer.progress.headers.header.itemSize ∧
        writer.Counts update next)
      (fun (_ : StreamError) _ => False) := by
  unfold Tag.update?
  cases hprepare : writer.progress.headers.prepare tag.key tag.value with
  | ok update =>
      have hprepare' : HeaderUpdate.prepare writer.progress.headers.header.itemSize tag.key
          tag.value = .ok update := hprepare
      simp only [prepareTag, ends_bind, ends_get, hprepare, hprepare', count, changeProgress,
        ends_modify]
      exact ⟨rfl, rfl, rfl, rfl, .inl rfl⟩
  | error cause =>
      have hprepare' : HeaderUpdate.prepare writer.progress.headers.header.itemSize tag.key
          tag.value = .error cause := hprepare
      simp only [prepareTag, ends_bind, ends_get, hprepare, hprepare', count, changeProgress,
        onOutlet, ends_within, Outlet.report, ends_modify]
      exact ⟨rfl, rfl, rfl, rfl, .inr ⟨_, rfl⟩⟩

end Counts

/-! ## Steps -/

/-- The writer stopped behind so many records; what is left of the acts leads to the goal. -/
def StopsAt (ceiling : Nat) (split : Bool) (size : UInt32) (acts : List Act) (goal : Transcript)
    (count : Nat) (next : Writer) : Prop :=
  ∃ transcript, Resumes ceiling split next transcript (resumeAt count acts) ∧
    transcript.itemSize = size ∧ (transcript.play ceiling (resumeAt count acts)).Alike goal

/-- The writer stands behind the first of these steps, before the others. -/
structure Advances (ceiling : Nat) (split : Bool) (size : UInt32) (step : BatchStep)
    (rest : List BatchStep) (records : List Bytes) (all : List Act) (goal : Transcript)
    (next : Writer) (transcript : Transcript) (before : List (Option HeaderUpdate)) : Prop where
  resumes : Resumes ceiling split next transcript (acts size rest (records.drop step.records))
  fits : Fits ceiling (transcript.room ceiling) (records.drop step.records).length rest
  settled : transcript.Settled before
  itemSize : transcript.itemSize = size
  play : transcript.play ceiling (acts size rest (records.drop step.records)) = goal
  resumeAt : ∀ count, resumeAt count
      (before.map .cut ++ acts size rest (records.drop step.records)) =
    SegmentStream.resumeAt (step.records + count) all

section Steps

variable {ceiling : Nat} {split : Bool} {size : UInt32} {writer : Writer}
  {transcript : Transcript} {rest : List BatchStep} {records : List Bytes}
  {before : List (Option HeaderUpdate)}

theorem fresh_of_tells {progress : Progress} (h : progress.Tells split transcript) :
    transcript.headers.fresh = transcript.headers := by
  rw [← h.headers, HeaderState.fresh_fresh]

theorem settled_nil {progress : Progress} (h : progress.Tells split transcript) :
    transcript.Settled [] :=
  ⟨⟨transcript.headers, (fresh_of_tells h).symm⟩, fun hne => absurd rfl hne⟩

theorem acts_of_fits_roll {room : Nat} (h : Fits ceiling room records.length (.roll :: rest)) :
    ∃ bytes later, acts size rest records = .record bytes :: later := by
  obtain ⟨-, ⟨count, later, rfl⟩, hpos, -, hleft, -⟩ := h
  cases records with
  | nil => exact absurd hleft (by simp; omega)
  | cons bytes more =>
      obtain ⟨count, rfl⟩ := Nat.exists_eq_succ_of_ne_zero (Nat.ne_of_gt hpos)
      exact ⟨bytes, _, rfl⟩

section Congr

variable {next : Writer}

/-- Only the log of the host and the number of batches differ. -/
structure Matches (writer next : Writer) : Prop where
  headers : next.progress.headers = writer.progress.headers
  records : next.progress.records = writer.progress.records
  counters : next.progress.counters.unbatched = writer.progress.counters.unbatched
  target : next.outlet.target = writer.outlet.target
  store : next.outlet.host.store = writer.outlet.host.store

theorem relog_matches (writer : Writer) (log : List Event) :
    writer.Matches { writer with
      outlet := { writer.outlet with host := { writer.outlet.host with log } } } :=
  ⟨rfl, rfl, rfl, rfl, rfl⟩

theorem Matches.tells (h : writer.Matches next) (htells : writer.progress.Tells split transcript) :
    next.progress.Tells split transcript :=
  ⟨h.headers ▸ htells.headers, h.headers ▸ htells.slot, h.records ▸ htells.records,
    h.counters.trans htells.counters⟩

theorem Matches.outlet (h : writer.Matches next) : next.outlet =
    { writer.outlet with host := { writer.outlet.host with log := next.outlet.host.log } } := by
  obtain ⟨progress, target, store, log⟩ := writer
  obtain ⟨progress', target', store', log'⟩ := next
  obtain ⟨-, -, -, rfl, rfl⟩ := h
  rfl

theorem Keeps.congr (h : writer.Keeps split transcript) (hmatches : writer.Matches next) :
    next.Keeps split transcript := by
  refine ⟨hmatches.tells h.tells, ?_, h.slotLength⟩
  rw [hmatches.outlet]
  exact h.outlet.relog _

theorem Frays.congr {running : Running} {stale : Bytes}
    (h : writer.Frays split transcript running stale) (hmatches : writer.Matches next) :
    next.Frays split transcript running stale := by
  obtain ⟨htells, hrunning, region, hregion, hworn⟩ := h
  refine ⟨hmatches.tells htells, hrunning, region, hregion, ?_⟩
  rw [hmatches.outlet]
  exact hworn.relog _

theorem Resumes.congr {acts : List Act} (h : Resumes ceiling split writer transcript acts)
    (hmatches : writer.Matches next) : Resumes ceiling split next transcript acts := by
  cases h with
  | kept h => exact .kept (h.congr hmatches)
  | torn running h hlength hfilled hfirst =>
      exact .torn running (h.congr hmatches) hlength hfilled hfirst
  | worn slotLength stale update updates rest h hacts hstale =>
      exact .worn slotLength stale update updates rest (h.congr hmatches) hacts hstale

end Congr

theorem roll_ends (hceiling : 0 < ceiling) {bytes : Bytes} {later : List Act}
    (h : Resumes ceiling split writer transcript (.record bytes :: later))
    (hfull : transcript.room ceiling = 0) :
    Ends roll writer
      (fun _ next => writer.outlet.Follows next.outlet ∧ next.Keeps split transcript.roll)
      (fun error next => (∃ cause, error = .io cause) ∧ writer.outlet.Loses next.outlet ∧
        ∃ transcript', Resumes ceiling split next transcript' (.record bytes :: later) ∧
          (transcript' = transcript ∨ transcript' = transcript.close)) := by
  cases hrunning : transcript.running with
  | none =>
      have hkeeps : writer.Keeps split transcript := by
        cases h with
        | kept h => exact h
        | torn running h => exact absurd (hrunning.symm.trans h.isRunning) (by simp)
        | worn slotLength stale update updates rest h =>
            exact absurd (hrunning.symm.trans h.isRunning) (by simp)
      refine (roll_ends_closed hkeeps hrunning).mono (fun _ _ h => h) ?_
      rintro error next ⟨herror, hloses, hkeeps'⟩
      exact ⟨herror, hloses, transcript, .kept hkeeps', .inl rfl⟩
  | some running =>
      have hfilled : running.records ≠ [] := by
        intro hempty
        rw [Transcript.room, hrunning] at hfull
        simp only [hempty, List.length_nil, Nat.sub_zero] at hfull
        omega
      have hfrays : writer.Frays split transcript running [] ∧
          running.slotLength = transcript.headers.regionSize := by
        cases h with
        | kept h => exact ⟨h.frays hrunning, h.slotLength running hrunning⟩
        | torn running' h hlength =>
            have := hrunning.symm.trans h.isRunning
            cases this
            exact ⟨h, hlength⟩
        | worn slotLength stale update updates rest h hacts => cases hacts
      obtain ⟨hfrays, hlength⟩ := hfrays
      refine (roll_ends_running hfrays hlength).mono (fun _ _ h => h) ?_
      rintro error next ⟨herror, hloses, hfrays' | hkeeps'⟩
      · exact ⟨herror, hloses, transcript,
          .torn running hfrays' hlength hfilled (.inr ⟨⟨bytes, later, rfl⟩, hfull⟩), .inl rfl⟩
      · exact ⟨herror, hloses, transcript.close, .kept hkeeps', .inr rfl⟩

theorem perform_roll_ends (hceiling : 0 < ceiling) (written : Nat) (items : Bytes)
    (hfits : Fits ceiling (transcript.room ceiling) records.length (.roll :: rest))
    (hresumes : Resumes ceiling split writer transcript (acts size (.roll :: rest) records))
    (hsettled : transcript.Settled before) (hsize : transcript.itemSize = size) :
    let all := before.map .cut ++ acts size (.roll :: rest) records
    let goal := transcript.play ceiling (acts size (.roll :: rest) records)
    Ends (perform size.toNat written items .roll) writer
      (fun left next => left = items ∧ writer.outlet.Follows next.outlet ∧
        ∃ transcript' before', Advances ceiling split size .roll rest records all goal next
          transcript' before')
      (fun error next => (∃ cause, error = .write written cause) ∧
        writer.outlet.Loses next.outlet ∧ StopsAt ceiling split size all goal 0 next) := by
  intro all goal
  obtain ⟨bytes, later, hacts⟩ : ∃ bytes later,
      acts size rest records = .record bytes :: later := acts_of_fits_roll hfits
  have hall : acts size (.roll :: rest) records = .record bytes :: later := hacts
  obtain ⟨hfull, -, hrest⟩ := hfits
  have hnil : before = [] := by
    refine hsettled.eq_nil fun slotLength hrunning => ?_
    rw [Transcript.room, hrunning] at hfull
    simp only [List.length_nil, Nat.sub_zero] at hfull
    omega
  subst hnil
  have hplay : transcript.roll.play ceiling (.record bytes :: later) = goal := by
    simp only [goal, hall, Transcript.play_roll hceiling hfull]
  have hgood : ∀ next : Writer, next.Keeps split transcript.roll →
      Advances ceiling split size .roll rest records all goal next transcript.roll [] := by
    intro next hkeeps
    refine ⟨.kept hkeeps, ?_, settled_nil hkeeps.tells,
      Transcript.itemSize_close hsize, ?_, fun count => ?_⟩
    · rwa [Transcript.room_roll]
    · simp only [BatchStep.records, List.drop_zero, hacts, hplay]
    · simp only [BatchStep.records, List.drop_zero, Nat.zero_add]
      rfl
  have hstops : ∀ (next : Writer) (transcript' : Transcript),
      Resumes ceiling split next transcript' (.record bytes :: later) →
      transcript'.itemSize = size →
      transcript'.play ceiling (.record bytes :: later) = goal →
      StopsAt ceiling split size all goal 0 next := by
    intro next transcript' hresumes' hsize' hplay'
    refine ⟨transcript', ?_, hsize', ?_⟩
    · simpa [all, hall] using hresumes'
    · simp only [all, hall, resumeAt_zero, List.map_nil, List.nil_append, hplay']
      exact .refl _
  rw [hall] at hresumes
  simp only [perform, ends_mapFault, ends_bind, ends_get, onOutlet, ends_within, Outlet.report,
    ends_modify]
  refine (roll_ends hceiling (hresumes.congr (relog_matches writer _)) hfull).mono ?_ ?_
  · rintro ⟨⟩ next ⟨hfollows, hkeeps⟩
    exact ⟨rfl, (Outlet.report_follows ..).trans hfollows, _, _, hgood next hkeeps⟩
  · rintro error next ⟨⟨cause, rfl⟩, hloses, transcript', hresumes', hwhere⟩
    refine ⟨⟨cause, rfl⟩, Outlet.Loses.of_follows (Outlet.report_follows ..) hloses, ?_⟩
    rcases hwhere with rfl | rfl
    · exact hstops next _ hresumes' hsize (by simp only [goal, hall])
    · refine hstops next _ hresumes' (Transcript.itemSize_close hsize) ?_
      rw [← Transcript.play_roll hceiling Transcript.room_close, Transcript.roll,
        Transcript.close_close]
      exact hplay

theorem perform_write_ends (written : Nat) {count : Nat}
    (hpositive : 0 < size.toNat) (hrecords : ∀ record ∈ records, record.length = size.toNat)
    (hfits : Fits ceiling (transcript.room ceiling) records.length (.write count :: rest))
    (hresumes : Resumes ceiling split writer transcript (acts size (.write count :: rest) records))
    (hsettled : transcript.Settled before) (hsize : transcript.itemSize = size) :
    let all := before.map .cut ++ acts size (.write count :: rest) records
    let goal := transcript.play ceiling (acts size (.write count :: rest) records)
    Ends (perform size.toNat written records.flatten (.write count)) writer
      (fun left next => left = (records.drop count).flatten ∧
        writer.outlet.Follows next.outlet ∧ ∃ transcript' before',
          Advances ceiling split size (.write count) rest records all goal next transcript' before')
      (fun error next => ∃ stored cause, error = .write (written + stored) cause ∧
        stored < records.length ∧ writer.outlet.Loses next.outlet ∧
        StopsAt ceiling split size all goal stored next) := by
  intro all goal
  obtain ⟨hpos, hroom, hleft, hrest⟩ := hfits
  have htaken : (records.take count).length = count := by
    rw [List.length_take]
    omega
  have hacts : acts size (.write count :: rest) records =
      (records.take count).map .record ++ acts size rest (records.drop count) := rfl
  have hfirst : ∃ bytes more, records.take count = bytes :: more := by
    cases hcase : records.take count with
    | nil =>
        rw [hcase, List.length_nil] at htaken
        omega
    | cons bytes more => exact ⟨bytes, more, rfl⟩
  have hkeeps : writer.Keeps split transcript := by
    obtain ⟨bytes, more, hcons⟩ := hfirst
    rw [hacts, hcons] at hresumes
    exact hresumes.keeps_of_record (by omega)
  obtain ⟨running, hrunning⟩ : ∃ running, transcript.running = some running := by
    cases hcase : transcript.running with
    | none =>
        rw [Transcript.room, hcase] at hroom
        exact absurd hpos (Nat.not_lt.mpr hroom)
    | some running => exact ⟨running, rfl⟩
  have hwritten : ∀ front : List Bytes, front.length ≤ transcript.room ceiling →
      ∀ back : List Act, (transcript.append front).play ceiling back =
        transcript.play ceiling (front.map .record ++ back) := by
    intro front hfront back
    rw [Transcript.play_append, Transcript.play_records hfront]
  have hpast : ∀ stored, resumeAt (stored + 1) all =
      resumeAt (stored + 1) ((records.take count).map .record ++
        acts size rest (records.drop count)) := fun stored => resumeAt_cuts stored before _
  simp only [perform, flatten_splitAt hrecords, ends_bind, ends_mapFault]
  refine (writeRecords_ends hkeeps hrunning (congrArg UInt32.toNat hsize) hpositive
    fun record hrecord => hrecords record (List.mem_of_mem_take hrecord)).mono ?_ ?_
  · rintro ⟨⟩ next ⟨hfollows, hkeeps'⟩
    refine ⟨rfl, hfollows, _, [], ⟨.kept hkeeps', ?_, settled_nil hkeeps'.tells, hsize, ?_, ?_⟩⟩
    · rw [Transcript.room_append (by rwa [htaken]), htaken, List.length_drop]
      exact hrest
    · exact hwritten _ (by rwa [htaken]) _
    · intro more
      have hsplit := resumeAt_records (records.take count) more (acts size rest (records.drop count))
      rw [htaken] at hsplit
      obtain ⟨count, rfl⟩ := Nat.exists_eq_succ_of_ne_zero (Nat.ne_of_gt hpos)
      have hnext := hpast (count + more)
      rw [BatchStep.records, Nat.succ_eq_add_one, Nat.add_right_comm, hnext,
        ← Nat.add_right_comm, hsplit]
      rfl
  · rintro ⟨stored, cause⟩ next ⟨hloses, hless, hkeeps'⟩
    simp only at hless hkeeps'
    rw [htaken] at hless
    refine ⟨stored, cause, rfl, by omega, hloses, _, .kept hkeeps', hsize, ?_⟩
    cases stored with
    | zero =>
        rw [List.take_zero, Transcript.append_nil, resumeAt_zero]
        exact hsettled.play_again ceiling _
    | succ stored =>
        rw [hpast, resumeAt_records_of_le (by omega), hwritten, ← List.append_assoc,
          ← List.map_append, List.take_append_drop]
        · exact .refl _
        · rw [List.length_take]
          omega

theorem cut_closed_ends {next : Writer} {update : Option HeaderUpdate} {later : List Act}
    (hcounts : writer.Counts update next) (hkeeps : writer.Keeps split transcript)
    (hnone : transcript.running = none) (hproper : Act.Suits size (.cut update))
    (hsize : transcript.itemSize = size) :
    Ends (boundary update) next
      (fun _ last => next.outlet.Follows last.outlet ∧
        last.Keeps split (transcript.step ceiling (.cut update)))
      (fun error last => (∃ cause, error = .io cause) ∧ next.outlet.Loses last.outlet ∧
        ∃ transcript', Resumes ceiling split last transcript' (.cut update :: later) ∧
          transcript'.itemSize = size ∧ (transcript'.play ceiling (.cut update :: later)).Alike
            (transcript.play ceiling (.cut update :: later))) := by
  refine (boundary_ends_closed (hcounts.keeps hkeeps) hnone update).mono (fun _ _ h => h) ?_
  rintro error last ⟨herror, hloses, hkeeps'⟩
  refine ⟨herror, hloses, _, .kept hkeeps', Transcript.itemSize_apply hproper hsize, ?_⟩
  have hcount := Transcript.Alike.countTag_left transcript update
  have hnone' : (transcript.countTag update).running = none := hnone
  refine Transcript.Alike.play ?_ ceiling later
  refine (Transcript.Alike.step_cut_again hnone' ceiling update).trans ?_
  exact (hcount.apply update).openNext.trans (Transcript.Alike.step_cut hnone ceiling update).symm

theorem cut_filled_ends {next : Writer} {running : Running} {update : Option HeaderUpdate}
    {later : List Act} (hcounts : writer.Counts update next)
    (hfrays : writer.Frays split transcript running [])
    (hlength : running.slotLength = transcript.headers.regionSize)
    (hfilled : running.records ≠ []) (hproper : Act.Suits size (.cut update))
    (hsize : transcript.itemSize = size) :
    Ends (boundary update) next
      (fun _ last => next.outlet.Follows last.outlet ∧
        last.Keeps split (transcript.step ceiling (.cut update)))
      (fun error last => (∃ cause, error = .io cause) ∧ next.outlet.Loses last.outlet ∧
        ∃ transcript', Resumes ceiling split last transcript' (.cut update :: later) ∧
          transcript'.itemSize = size ∧ (transcript'.play ceiling (.cut update :: later)).Alike
            (transcript.play ceiling (.cut update :: later))) := by
  have hfrays' := hcounts.frays hfrays
  refine (boundary_ends_filled hfrays' hlength hfilled update).mono (fun _ _ h => h) ?_
  rintro error last ⟨herror, hloses, hcase⟩
  refine ⟨herror, hloses, ?_⟩
  rcases hcase with hfrays'' | hkeeps
  · -- the segment is still open
    refine ⟨_, .torn running hfrays'' hlength hfilled (.inl ⟨update, later, rfl⟩), hsize, ?_⟩
    exact (Transcript.Alike.countTag_left transcript update).play ceiling _
  · -- the segment is closed, and the next one not open
    refine ⟨_, .kept hkeeps, Transcript.itemSize_apply hproper (Transcript.itemSize_close hsize),
      Transcript.Alike.play ?_ ceiling later⟩
    have hclosed : (transcript.countTag update).close.running = none := by
      rw [Transcript.close, hfrays'.isRunning]
    obtain ⟨slotLength, _ | ⟨record, records⟩⟩ := running
    · exact absurd rfl hfilled
    let closed := (transcript.countTag update).close
    have hhere : transcript.step ceiling (.cut update) = (closed.apply update).openNext := by
      rw [Transcript.step, Transcript.boundary, hfrays'.isRunning]
    rw [hhere]
    exact Transcript.Alike.step_cut_again hclosed ceiling update

/-- Cuts carried out at an empty segment, one more of them, and all of them again. -/
theorem applyAll_again {headers : HeaderState} (hsettled : ∃ base : HeaderState,
    headers = (base.applyAll before).fresh) (update : Option HeaderUpdate)
    (updates : List (Option HeaderUpdate)) :
    (((headers.applySome update).fresh).applyAll (before ++ update :: updates)).regionSize =
      (headers.applyAll (update :: updates)).regionSize := by
  obtain ⟨base, rfl⟩ := hsettled
  have hsubset : ∀ again ∈ before ++ [update], again ∈ before ++ update :: updates := by
    intro again hagain
    rcases List.mem_append.mp hagain with hagain | hagain
    · exact List.mem_append_left _ hagain
    · rw [List.mem_singleton.mp hagain]
      exact List.mem_append_right _ List.mem_cons_self
  have hleft : (((base.applyAll before).fresh.applySome update).fresh.applyAll
      (before ++ update :: updates)).fresh = (base.applyAll (before ++ update :: updates)).fresh := by
    calc (((base.applyAll before).fresh.applySome update).fresh.applyAll
          (before ++ update :: updates)).fresh
        = (((base.applyAll before).applySome update).applyAll
            (before ++ update :: updates)).fresh := by
          rw [HeaderState.fresh_applySome, HeaderState.fresh_applyAll]
      _ = ((base.applyAll (before ++ [update])).applyAll (before ++ update :: updates)).fresh := by
          rw [HeaderState.applyAll_append base before [update]]
          rfl
      _ = (base.applyAll (before ++ update :: updates)).fresh := by
          rw [HeaderState.applyAll_applyAll_of_subset hsubset]
  have hright : ((base.applyAll before).fresh.applyAll (update :: updates)).fresh =
      (base.applyAll (before ++ update :: updates)).fresh := by
    rw [HeaderState.fresh_applyAll, HeaderState.applyAll_append]
  rw [← HeaderState.regionSize_fresh, hleft, ← hright, HeaderState.regionSize_fresh]

theorem Resumes.of_cuts {slotLength : Nat} {stale : Bytes} {updates : List (Option HeaderUpdate)}
    (later : List Act) (h : writer.Frays split transcript ⟨slotLength, []⟩ stale)
    (hne : updates ≠ []) (hstale : stale = [] ∨
      slotLength + stale.length ≤ (transcript.headers.applyAll updates).regionSize) :
    Resumes ceiling split writer transcript (updates.map .cut ++ later) := by
  cases updates with
  | nil => exact absurd rfl hne
  | cons update rest => exact .worn slotLength stale update rest later h rfl hstale

/-- Bytes stay behind a rewritten header only if a later cut covers them. -/
theorem Resumes.of_amend {torn : Transcript} {slotLength : Nat} {stale stale' : Bytes}
    {updates : List (Option HeaderUpdate)} (later : List Act)
    (hfrays : writer.Frays split torn.amend ⟨torn.headers.regionSize, []⟩ stale')
    (hkeeps : stale' = [] → writer.Keeps split torn.amend)
    (hlength : stale'.length = if torn.headers.regionSize < slotLength then 0
      else slotLength + stale.length - torn.headers.regionSize)
    (hstale : stale = [] ∨
      slotLength + stale.length ≤ (torn.headers.applyAll updates).regionSize) :
    Resumes ceiling split writer torn.amend (updates.map .cut ++ later) := by
  have hamend : torn.amend.headers = torn.headers := by
    obtain ⟨closed, headers, running, counters⟩ := torn
    cases running <;> rfl
  by_cases hempty : stale' = []
  · exact .kept (hkeeps hempty)
  · have hpos := List.length_pos_iff.mpr hempty
    split at hlength
    · omega
    · rcases hstale with hnone | hcover
      · rw [hnone, List.length_nil] at hlength
        omega
      · refine .of_cuts later hfrays ?_ (.inr ?_)
        · rintro rfl
          rw [HeaderState.applyAll_nil] at hcover
          omega
        · rw [hamend]
          omega

/-- A torn header is written again with all cuts of its record, and so are stale bytes. -/
theorem Resumes.of_torn {torn : Transcript} {slotLength : Nat} {stale stale' : Bytes}
    {update : Option HeaderUpdate} {updates : List (Option HeaderUpdate)} (later : List Act)
    (hfrays : writer.Frays split torn ⟨slotLength, []⟩ stale')
    (hlength : slotLength + stale'.length ≤
      max (slotLength + stale.length) torn.headers.regionSize)
    (hstale : stale = [] ∨
      slotLength + stale.length ≤ (torn.headers.applyAll updates).regionSize)
    (hagain : ∀ more, (torn.headers.applyAll (before ++ update :: more)).regionSize =
      (torn.headers.applyAll more).regionSize) :
    Resumes ceiling split writer torn
      (before.map .cut ++ .cut update :: (updates.map .cut ++ later)) := by
  by_cases hcovered : stale' = [] ∨ slotLength + stale'.length ≤ torn.headers.regionSize
  · have hone : before.map Act.cut ++ .cut update :: (updates.map .cut ++ later) =
        (before ++ [update]).map .cut ++ (updates.map .cut ++ later) := by simp
    rw [hone]
    refine .of_cuts _ hfrays (by simp) (hcovered.imp_right fun hle => ?_)
    exact Nat.le_trans hle (Nat.le_of_eq (hagain []).symm)
  · have hmany : before.map Act.cut ++ .cut update :: (updates.map .cut ++ later) =
        (before ++ update :: updates).map .cut ++ later := by simp
    rw [not_or] at hcovered
    have hpos := List.length_pos_iff.mpr hcovered.1
    rw [hmany]
    refine .of_cuts _ hfrays (by simp) (.inr ?_)
    rw [hagain]
    rcases hstale with hnone | hcover
    · rw [hnone, List.length_nil] at hlength
      omega
    · omega

theorem cut_empty_ends {next : Writer} {slotLength : Nat} {stale : Bytes}
    {update : Option HeaderUpdate} {updates : List (Option HeaderUpdate)} {later : List Act}
    (hcounts : writer.Counts update next)
    (hfrays : writer.Frays split transcript ⟨slotLength, []⟩ stale)
    (hstale : stale = [] ∨ slotLength + stale.length ≤
      (transcript.headers.applyAll (update :: updates)).regionSize)
    (hsettled : transcript.Settled before) (hproper : Act.Suits size (.cut update))
    (hsize : transcript.itemSize = size) :
    Ends (boundary update) next
      (fun _ last => next.outlet.Follows last.outlet ∧
        Resumes ceiling split last (transcript.step ceiling (.cut update))
          (updates.map .cut ++ later))
      (fun error last => (∃ cause, error = .io cause) ∧ next.outlet.Loses last.outlet ∧
        ∃ transcript',
          Resumes ceiling split last transcript'
            (before.map .cut ++ .cut update :: (updates.map .cut ++ later)) ∧
          transcript'.itemSize = size ∧ (transcript'.play ceiling
              (before.map .cut ++ .cut update :: (updates.map .cut ++ later))).Alike
            (transcript.play ceiling (.cut update :: (updates.map .cut ++ later)))) := by
  let torn := (transcript.countTag update).apply update
  have hboundary : (transcript.countTag update).boundary update = torn.amend := by
    rw [Transcript.boundary]
    simp only [Transcript.countTag, hfrays.isRunning, torn]
  have hstep : transcript.step ceiling (.cut update) = torn.amend := hboundary
  have htorn : ∀ more, (transcript.headers.applyAll (update :: more)).regionSize =
      (torn.headers.applyAll more).regionSize := by
    intro more
    change _ = ((transcript.headers.applySome update).fresh.applyAll more).regionSize
    rw [← HeaderState.regionSize_fresh (HeaderState.applyAll _ more), HeaderState.fresh_applyAll]
    rfl
  rw [htorn] at hstale
  refine (boundary_ends_empty (hcounts.frays hfrays) update).mono ?_ ?_
  · rintro ⟨⟩ last ⟨hfollows, stale', ⟨hfrays', hkeeps⟩, hlength⟩
    rw [hboundary] at hfrays' hkeeps
    rw [hstep]
    exact ⟨hfollows, .of_amend later hfrays' hkeeps hlength hstale⟩
  · rintro error last ⟨herror, hloses, stale', hfrays', hlength⟩
    have hsettled' : torn.Settled (before ++ [update]) := by
      refine ⟨?_, fun _ => ⟨slotLength, hfrays'.isRunning⟩⟩
      obtain ⟨base, hbase⟩ := hsettled.headers
      refine ⟨base, ?_⟩
      change (transcript.headers.applySome update).fresh = _
      rw [hbase, HeaderState.fresh_applySome, HeaderState.applyAll_append]
      rfl
    have hagain : ∀ more, (torn.headers.applyAll (before ++ update :: more)).regionSize =
        (torn.headers.applyAll more).regionSize :=
      fun more => (applyAll_again hsettled.headers update more).trans (htorn more)
    refine ⟨herror, hloses, torn, .of_torn later hfrays' hlength hstale hagain,
      Transcript.itemSize_apply hproper hsize, ?_⟩
    have hone : before.map Act.cut ++ .cut update :: (updates.map .cut ++ later) =
        (before ++ [update]).map .cut ++ (updates.map .cut ++ later) := by simp
    rw [hone]
    refine (hsettled'.play_again ceiling _).trans ?_
    rw [Transcript.play_cons, hstep]
    exact (Transcript.Alike.amend_left torn).symm.play ceiling _

theorem cut_ends {next : Writer} {update : Option HeaderUpdate} {later : List Act}
    (hcounts : writer.Counts update next)
    (hresumes : Resumes ceiling split writer transcript (.cut update :: later))
    (hsettled : transcript.Settled before) (hproper : Act.Suits size (.cut update))
    (hsize : transcript.itemSize = size) :
    Ends (boundary update) next
      (fun _ last => next.outlet.Follows last.outlet ∧
        Resumes ceiling split last (transcript.step ceiling (.cut update)) later)
      (fun error last => (∃ cause, error = .io cause) ∧ next.outlet.Loses last.outlet ∧
        ∃ transcript',
          Resumes ceiling split last transcript' (before.map .cut ++ .cut update :: later) ∧
          transcript'.itemSize = size ∧
          (transcript'.play ceiling (before.map .cut ++ .cut update :: later)).Alike
            (transcript.play ceiling (.cut update :: later))) := by
  cases hrunning : transcript.running with
  | none =>
      have hnil : before = [] := hsettled.eq_nil fun slotLength => by simp [hrunning]
      subst hnil
      have hkeeps : writer.Keeps split transcript := by
        cases hresumes with
        | kept h => exact h
        | torn running h => exact absurd (hrunning.symm.trans h.isRunning) (by simp)
        | worn slotLength stale update' updates rest h =>
            exact absurd (hrunning.symm.trans h.isRunning) (by simp)
      refine (cut_closed_ends hcounts hkeeps hrunning hproper hsize).mono ?_ fun _ _ h => h
      rintro ⟨⟩ last ⟨hfollows, hkeeps'⟩
      exact ⟨hfollows, .kept hkeeps'⟩
  | some running =>
      obtain ⟨slotLength, _ | ⟨record, more⟩⟩ := running
      · obtain ⟨stale, updates, rest, hlater, hfrays, hstale⟩ : ∃ (stale : Bytes)
            (updates : List (Option HeaderUpdate)) (rest : List Act),
            later = updates.map .cut ++ rest ∧
            writer.Frays split transcript ⟨slotLength, []⟩ stale ∧
            (stale = [] ∨ slotLength + stale.length ≤
              (transcript.headers.applyAll (update :: updates)).regionSize) := by
          cases hresumes with
          | kept h => exact ⟨[], [], later, rfl, h.frays hrunning, .inl rfl⟩
          | torn running h hlength hfilled =>
              have hsame := hrunning.symm.trans h.isRunning
              cases hsame
              exact absurd rfl hfilled
          | worn slotLength' stale update' updates rest h hacts hstale =>
              have hsame := hrunning.symm.trans h.isRunning
              cases hsame
              rw [List.map_cons, List.cons_append] at hacts
              cases hacts
              exact ⟨stale, updates, rest, rfl, h, hstale⟩
        subst hlater
        exact cut_empty_ends hcounts hfrays hstale hsettled hproper hsize
      · have hnil : before = [] := hsettled.eq_nil fun slotLength' => by simp [hrunning]
        subst hnil
        obtain ⟨hfrays, hlength⟩ : writer.Frays split transcript ⟨slotLength, record :: more⟩ [] ∧
            slotLength = transcript.headers.regionSize := by
          cases hresumes with
          | kept h => exact ⟨h.frays hrunning, h.slotLength _ hrunning⟩
          | torn running h hlength =>
              have hsame := hrunning.symm.trans h.isRunning
              cases hsame
              exact ⟨h, hlength⟩
          | worn slotLength' stale update' updates rest h =>
              exact absurd (hrunning.symm.trans h.isRunning) (by simp)
        refine (cut_filled_ends hcounts hfrays hlength (by simp) hproper hsize).mono ?_
          fun _ _ h => h
        rintro ⟨⟩ last ⟨hfollows, hkeeps'⟩
        exact ⟨hfollows, .kept hkeeps'⟩

theorem perform_boundary_ends (written : Nat) (items : Bytes) (tag : Tag)
    (hfits : Fits ceiling (transcript.room ceiling) records.length (.boundary tag :: rest))
    (hresumes : Resumes ceiling split writer transcript (acts size (.boundary tag :: rest) records))
    (hsettled : transcript.Settled before) (hsize : transcript.itemSize = size) :
    let all := before.map .cut ++ acts size (.boundary tag :: rest) records
    let goal := transcript.play ceiling (acts size (.boundary tag :: rest) records)
    Ends (perform size.toNat written items (.boundary tag)) writer
      (fun left next => left = items ∧ writer.outlet.Follows next.outlet ∧
        ∃ transcript' before', Advances ceiling split size (.boundary tag) rest records all goal next
          transcript' before')
      (fun error next => (∃ cause, error = .write written cause) ∧
        writer.outlet.Loses next.outlet ∧ StopsAt ceiling split size all goal 0 next) := by
  intro all goal
  have hproper : Act.Suits size (.cut (tag.update? size)) := fun _ => Tag.update?_isProper
  have hheaders : writer.progress.headers.header.itemSize = size := by
    rw [← hsize, Transcript.itemSize, ← hresumes.tells.headers]
    rfl
  simp only [perform, ends_mapFault, ends_bind]
  refine (prepareTag_ends writer tag).mono ?_ fun _ _ h => h.elim
  rintro update counted ⟨rfl, hcounts⟩
  rw [hheaders] at hcounts ⊢
  have hfollows := hcounts.follows
  refine (cut_ends hcounts hresumes hsettled hproper hsize).mono ?_ ?_
  · rintro ⟨⟩ next ⟨hfollows', hresumes'⟩
    refine ⟨rfl, hfollows.trans hfollows', _, _, hresumes', ?_, hsettled.step_cut ceiling _,
      Transcript.itemSize_step ceiling hproper hsize, rfl, fun count => ?_⟩
    · rw [Transcript.step, Transcript.room_boundary]
      exact hfits.2
    · simp only [BatchStep.records, List.drop_zero, Nat.zero_add, all, acts, List.map_append,
        List.map_cons, List.map_nil, List.append_assoc, List.cons_append, List.nil_append]
  · rintro error next ⟨⟨cause, rfl⟩, hloses, transcript', hresumes', hsize', halike⟩
    refine ⟨⟨cause, rfl⟩, Outlet.Loses.of_follows hfollows hloses, transcript', ?_, hsize', ?_⟩
    · rwa [resumeAt_zero]
    · rwa [resumeAt_zero]

theorem perform_ends (hceiling : 0 < ceiling) (hpositive : 0 < size.toNat) (written : Nat)
    (step : BatchStep) (hrecords : ∀ record ∈ records, record.length = size.toNat)
    (hfits : Fits ceiling (transcript.room ceiling) records.length (step :: rest))
    (hresumes : Resumes ceiling split writer transcript (acts size (step :: rest) records))
    (hsettled : transcript.Settled before) (hsize : transcript.itemSize = size) :
    let all := before.map .cut ++ acts size (step :: rest) records
    let goal := transcript.play ceiling (acts size (step :: rest) records)
    Ends (perform size.toNat written records.flatten step) writer
      (fun left next => left = (records.drop step.records).flatten ∧
        writer.outlet.Follows next.outlet ∧ ∃ transcript' before',
          Advances ceiling split size step rest records all goal next transcript' before')
      (fun error next => ∃ count cause, error = .write (written + count) cause ∧
        count < records.length ∧ writer.outlet.Loses next.outlet ∧
        StopsAt ceiling split size all goal count next) := by
  intro all goal
  cases step with
  | roll =>
      have hsome : 0 < records.length := by
        obtain ⟨-, ⟨count, later, rfl⟩, hpos, -, hleft, -⟩ := hfits
        exact Nat.lt_of_lt_of_le hpos hleft
      refine (perform_roll_ends hceiling written _ hfits hresumes hsettled hsize).mono
        (fun _ _ h => h) ?_
      rintro error next ⟨⟨cause, rfl⟩, hloses, hstops⟩
      exact ⟨0, cause, rfl, hsome, hloses, hstops⟩
  | write count =>
      exact perform_write_ends written hpositive hrecords hfits hresumes hsettled hsize
  | boundary tag =>
      refine (perform_boundary_ends written _ tag hfits hresumes hsettled hsize).mono
        (fun _ _ h => h) ?_
      rintro error next ⟨⟨cause, rfl⟩, hloses, hstops⟩
      exact ⟨0, cause, rfl, hfits.1, hloses, hstops⟩

end Steps

/-! ## Batches -/

section Follow

variable {ceiling : Nat} {split : Bool} {size : UInt32}

/-- A plan is carried out to its end, or stops at a planned fault where it can be resumed. -/
theorem follow_ends (hceiling : 0 < ceiling) (hpositive : 0 < size.toNat)
    (steps : List BatchStep) {writer : Writer} {transcript : Transcript} {records : List Bytes}
    {before : List (Option HeaderUpdate)} (written : Nat)
    (hrecords : ∀ record ∈ records, record.length = size.toNat)
    (hfits : Fits ceiling (transcript.room ceiling) records.length steps)
    (hresumes : Resumes ceiling split writer transcript (acts size steps records))
    (hsettled : transcript.Settled before) (hsize : transcript.itemSize = size) :
    Ends (follow size.toNat steps written records.flatten) writer
      (fun _ next => writer.outlet.Follows next.outlet ∧
        next.Keeps split (transcript.play ceiling (acts size steps records)))
      (fun error next => ∃ count cause, error = .write (written + count) cause ∧
        count < records.length ∧ writer.outlet.Loses next.outlet ∧
        StopsAt ceiling split size (before.map .cut ++ acts size steps records)
          (transcript.play ceiling (acts size steps records)) count next) := by
  induction steps generalizing writer transcript records before written with
  | nil => exact ⟨.refl _, hresumes.keeps_of_nil⟩
  | cons step rest ih =>
      rw [follow, ends_bind]
      refine (perform_ends hceiling hpositive written step hrecords hfits hresumes hsettled
        hsize).mono ?_ fun _ _ h => h
      rintro left next ⟨rfl, hfollows, transcript', before', hadvances⟩
      refine (ih (written + step.records)
        (fun record hrecord => hrecords record (List.mem_of_mem_drop hrecord)) hadvances.fits
        hadvances.resumes hadvances.settled hadvances.itemSize).mono ?_ ?_
      · rintro ⟨⟩ last ⟨hfollows', hkeeps⟩
        rw [hadvances.play] at hkeeps
        exact ⟨hfollows.trans hfollows', hkeeps⟩
      · rintro error last ⟨count, cause, rfl, hless, hloses, hstops⟩
        rw [List.length_drop] at hless
        refine ⟨step.records + count, cause, by rw [Nat.add_assoc], by omega,
          Outlet.Loses.of_follows hfollows hloses, ?_⟩
        unfold StopsAt at hstops ⊢
        rwa [hadvances.resumeAt, hadvances.play] at hstops

/-- A batch of whole records with tags by their offset in it. -/
theorem runBatch_ends (hceiling : 0 < ceiling) (hpositive : 0 < size.toNat) {writer : Writer}
    {transcript : Transcript} {records : List Bytes} (first : Nat) (tags : List Tag)
    (hrecords : ∀ record ∈ records, record.length = size.toNat)
    (hresumes : Resumes ceiling split writer transcript
      (script (cuesOf size tags) first records))
    (hsize : transcript.itemSize = size) :
    Ends (runBatch ceiling size.toNat records.flatten
        (selected first (first + records.length) tags)) writer
      (fun total next => total = records.length ∧ writer.outlet.Follows next.outlet ∧
        next.Keeps split (transcript.play ceiling (script (cuesOf size tags) first records)))
      (fun error next => ∃ count cause, error = .write count cause ∧ count < records.length ∧
        writer.outlet.Loses next.outlet ∧
        StopsAt ceiling split size (script (cuesOf size tags) first records)
          (transcript.play ceiling (script (cuesOf size tags) first records)) count next) := by
  have htotal : records.flatten.length / size.toNat = records.length := by
    rw [flatten_length hrecords, Nat.mul_div_cancel _ hpositive]
  have hroom : writer.room ceiling = transcript.room ceiling :=
    Tells.room_eq writer.outlet hresumes.tells ceiling
  have horder := selected_inOrder first (first + records.length) tags
  rw [Nat.add_sub_cancel_left] at horder
  have hfits := plan_fits hceiling (transcript.room ceiling) horder
  rw [Nat.sub_zero] at hfits
  have hacts := acts_selected first tags hceiling size (transcript.room ceiling) records
  rw [← hacts] at hresumes ⊢
  simp only [runBatch, ends_bind, ends_get, htotal, hroom]
  refine (follow_ends hceiling hpositive _ 0 hrecords hfits hresumes
    (settled_nil hresumes.tells) hsize).mono ?_ ?_
  · rintro ⟨⟩ next ⟨hfollows, hkeeps⟩
    exact ⟨rfl, hfollows, hkeeps⟩
  · rintro error next ⟨count, cause, rfl, hless, hloses, hstops⟩
    exact ⟨count, cause, by rw [Nat.zero_add], hless, hloses, hstops⟩

end Follow

end Writer

end SegmentStream
