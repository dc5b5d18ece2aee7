import SegmentStream.Proofs.Recorder.Routing

/-!
# Segments as they unfold

Every segment that holds records has the header that was in force at the first
of them: one record's time has passed for each record before, on whatever
target it is, and all updates up to there have been applied.  Where segments
end and which targets they are on leaves no trace in it.
-/

namespace SegmentStream

open SegmentStream.Action

/-! ## Headers alone -/

namespace HeaderState

/-- The header states the time and the rate of the clock. -/
structure IsTimed (state : HeaderState) : Prop where
  time : state.header.time = state.clock.now
  rate : state.header.sampleRate = state.clock.effectiveRate

section Timed

variable {state : HeaderState}

theorem start_isTimed {config : Config} {headers : HeaderState}
    (h : HeaderState.start config = .ok headers) : headers.IsTimed := by
  cases hextras : Extras.decode config.extras with
  | error fault =>
      simp only [start, hextras] at h
      cases h
  | ok extras =>
      by_cases hlimit : Config.itemSizeLimit < config.itemSize.toNat
      · simp only [start, hextras, if_pos hlimit] at h
        cases h
      simp only [start, hextras, if_neg hlimit, pure_bind] at h
      split at h
      · cases h
        exact ⟨rfl, rfl⟩
      · cases h

theorem IsTimed.fresh (h : state.IsTimed) : state.fresh.IsTimed := ⟨h.time, h.rate⟩

theorem IsTimed.advance (h : state.IsTimed) (records : Nat) : (state.advance records).IsTimed := by
  refine ⟨rfl, ?_⟩
  have hclock : (state.clock.advance records).effectiveRate = state.clock.effectiveRate := by
    rw [Clock.advance]
    split <;> rfl
  exact h.rate.trans hclock.symm

theorem IsTimed.applySome (h : state.IsTimed) (update : Option HeaderUpdate) :
    (state.applySome update).IsTimed := by
  cases update with
  | none => exact h
  | some update =>
      cases update with
      | sampleRate rate => exact ⟨h.time, rfl⟩
      | time time => exact ⟨rfl, h.rate⟩
      | _ => exact ⟨h.time, h.rate⟩

theorem IsTimed.advance_zero (h : state.IsTimed) : state.advance 0 = state := by
  have hclock : state.clock.advance 0 = state.clock := rfl
  rw [HeaderState.advance, hclock, ← h.time]

end Timed

/-- What an act makes of the header state, wherever it is written. -/
def step (state : HeaderState) : Act → HeaderState
  | .record _ => state.advance 1
  | .cut update => state.applySome update

def play (state : HeaderState) (acts : List Act) : HeaderState := acts.foldl step state

theorem play_append (state : HeaderState) (front back : List Act) :
    state.play (front ++ back) = (state.play front).play back :=
  List.foldl_append

theorem play_cuts (state : HeaderState) (updates : List (Option HeaderUpdate)) :
    state.play (updates.map .cut) = state.applyAll updates :=
  List.foldl_map

end HeaderState

/-! ## Acts up to a record -/

def recordCount (acts : List Act) : Nat := (acts.flatMap Transcript.recordsOf).length

/-- The acts before a record, with the cuts in front of it. -/
def actsUpTo : Nat → List Act → List Act
  | _, [] => []
  | index, .cut update :: rest => .cut update :: actsUpTo index rest
  | 0, .record _ :: _ => []
  | index + 1, .record bytes :: rest => .record bytes :: actsUpTo index rest

section Acts

theorem recordCount_append (front back : List Act) :
    recordCount (front ++ back) = recordCount front + recordCount back := by
  rw [recordCount, List.flatMap_append, List.length_append]
  rfl

theorem recordCount_script (cues : Cues) (first : Nat) (records : List Bytes) :
    recordCount (script cues first records) = records.length := by
  rw [recordCount, Transcript.recordsOf_script]

theorem actsUpTo_append {index : Nat} {acts : List Act} (h : index < recordCount acts)
    (more : List Act) : actsUpTo index (acts ++ more) = actsUpTo index acts := by
  induction acts generalizing index with
  | nil => cases h
  | cons act rest ih =>
      cases act with
      | cut update => exact congrArg (Act.cut update :: ·) (ih h)
      | record bytes =>
          cases index with
          | zero => rfl
          | succ index =>
              exact congrArg (Act.record bytes :: ·) (ih (Nat.lt_of_succ_lt_succ h))

theorem actsUpTo_append_record (acts : List Act) (bytes : Bytes) (more : List Act) :
    actsUpTo (recordCount acts) (acts ++ .record bytes :: more) = acts := by
  induction acts with
  | nil => rfl
  | cons act rest ih =>
      cases act with
      | cut update => exact congrArg (Act.cut update :: ·) ih
      | record other => exact congrArg (Act.record other :: ·) ih

end Acts

/-! ## Segments -/

def recordsHeld (segments : List Segment) : Nat := (segments.flatMap Segment.records).length

/-- Segments with records, the first of them at `start`, have the headers in force there. -/
def AsPlayed (headers : HeaderState) (acts : List Act) : Nat → List Segment → Prop
  | _, [] => True
  | start, segment :: rest =>
      (segment.records ≠ [] →
        segment = (headers.play (actsUpTo start acts)).segment segment.records) ∧
      AsPlayed headers acts (start + segment.records.length) rest

section Segments

variable {headers : HeaderState} {acts : List Act}

theorem recordsHeld_append (front back : List Segment) :
    recordsHeld (front ++ back) = recordsHeld front + recordsHeld back := by
  rw [recordsHeld, List.flatMap_append, List.length_append]
  rfl

theorem recordsHeld_cons (segment : Segment) (rest : List Segment) :
    recordsHeld (segment :: rest) = segment.records.length + recordsHeld rest :=
  List.length_append

theorem asPlayed_append {start : Nat} {front back : List Segment} :
    AsPlayed headers acts start (front ++ back) ↔
      AsPlayed headers acts start front ∧
        AsPlayed headers acts (start + recordsHeld front) back := by
  induction front generalizing start with
  | nil => simp [AsPlayed, recordsHeld]
  | cons segment rest ih =>
      rw [List.cons_append, AsPlayed, AsPlayed, ih, recordsHeld_cons, Nat.add_assoc, and_assoc]

/-- What comes later does not change what a header says. -/
theorem AsPlayed.more {start : Nat} {segments : List Segment}
    (h : AsPlayed headers acts start segments)
    (hcount : start + recordsHeld segments ≤ recordCount acts) (later : List Act) :
    AsPlayed headers (acts ++ later) start segments := by
  induction segments generalizing start with
  | nil => trivial
  | cons segment rest ih =>
      obtain ⟨hfirst, hrest⟩ := h
      rw [recordsHeld_cons] at hcount
      refine ⟨fun hfilled => ?_, ih hrest (by omega)⟩
      have hpos : 0 < segment.records.length := List.length_pos_iff.mpr hfilled
      rw [actsUpTo_append (by omega)]
      exact hfirst hfilled

end Segments

/-! ## Transcripts unfold -/

namespace Transcript

/-- The transcript stands behind these acts, with these segments on targets before. -/
structure Unfolds (transcript : Transcript) (before : List Segment) (origin : HeaderState)
    (acts : List Act) : Prop where
  timed : transcript.headers.IsTimed
  headers : transcript.close.headers = (origin.play acts).fresh
  closed : AsPlayed origin acts 0 (before ++ transcript.closed)
  running : ∀ running, transcript.running = some running → running.records ≠ [] →
    transcript.headers =
      (origin.play (actsUpTo (recordsHeld (before ++ transcript.closed)) acts)).fresh
  records : (before ++ transcript.closed).flatMap Segment.records ++
    (transcript.running.map Running.records).getD [] = acts.flatMap recordsOf

section Unfolds

variable {transcript : Transcript} {before : List Segment} {origin : HeaderState}
  {acts : List Act}

theorem Unfolds.count (h : transcript.Unfolds before origin acts) :
    recordsHeld (before ++ transcript.closed) +
      ((transcript.running.map Running.records).getD []).length = recordCount acts := by
  rw [recordCount, ← h.records, List.length_append]
  rfl

theorem Unfolds.held_le (h : transcript.Unfolds before origin acts) :
    recordsHeld (before ++ transcript.closed) ≤ recordCount acts :=
  Nat.le_trans (Nat.le_add_right _ _) (Nat.le_of_eq h.count)

/-- Before the first record of a segment its header says all that came. -/
theorem Unfolds.headers_of_empty (h : transcript.Unfolds before origin acts)
    (hempty : ∀ running, transcript.running = some running → running.records = []) :
    transcript.headers = (origin.play acts).fresh := by
  rw [← h.headers, Transcript.close]
  split
  · rfl
  · next running hrunning =>
      rw [hempty running hrunning]
      exact h.timed.advance_zero.symm

theorem Unfolds.recount (h : transcript.Unfolds before origin acts) (counters : Counters) :
    { transcript with counters }.Unfolds before origin acts := by
  refine ⟨h.timed, ?_, h.closed, h.running, h.records⟩
  rw [← h.headers, close, close]
  split <;> simp_all

theorem Unfolds.close (h : transcript.Unfolds before origin acts) :
    transcript.close.Unfolds before origin acts := by
  obtain ⟨htimed, hheaders, hclosed, hrunning, hrecords⟩ := h
  rw [Transcript.close] at hheaders ⊢
  split at hheaders
  · next hnone =>
      refine ⟨htimed, ?_, hclosed, hrunning, hrecords⟩
      rw [Transcript.close, hnone]
      exact hheaders
  · next running hsome =>
      rw [hsome, Option.map_some, Option.getD_some] at hrecords
      refine ⟨htimed.advance _, hheaders, ?_, fun _ hsome => (by cases hsome), ?_⟩
      · rw [← List.append_assoc]
        refine asPlayed_append.mpr ⟨hclosed, fun hfilled => ?_, trivial⟩
        rw [Nat.zero_add, Transcript.segment, hrunning running hsome hfilled]
        rfl
      · rw [← List.append_assoc, List.flatMap_append, ← hrecords]
        simp [Transcript.segment]

theorem Unfolds.openNext (h : transcript.Unfolds before origin acts)
    (hnone : transcript.running = none) : transcript.openNext.Unfolds before origin acts := by
  obtain ⟨htimed, hheaders, hclosed, -, hrecords⟩ := h
  rw [Transcript.close, hnone] at hheaders
  rw [hnone] at hrecords
  refine ⟨htimed, htimed.advance_zero.trans hheaders, hclosed, ?_, hrecords⟩
  rintro running ⟨⟩ hfilled
  exact absurd rfl hfilled

/-- An update takes effect where no record has come since the last header. -/
theorem Unfolds.apply (h : transcript.Unfolds before origin acts)
    (hempty : ∀ running, transcript.running = some running → running.records = [])
    (update : Option HeaderUpdate) :
    (transcript.apply update).Unfolds before origin (acts ++ [.cut update]) := by
  have hheaders : (transcript.headers.applySome update).fresh =
      (origin.play (acts ++ [.cut update])).fresh := by
    rw [h.headers_of_empty hempty, HeaderState.fresh_applySome, HeaderState.play_append]
    rfl
  have htimed : (transcript.apply update).headers.IsTimed := (h.timed.applySome update).fresh
  have hempty' : ∀ running, (transcript.apply update).running = some running →
      running.records = [] := hempty
  refine ⟨htimed, ?_, h.closed.more ?_ _, fun running hrunning hfilled => ?_, ?_⟩
  · rw [Transcript.close]
    split
    · exact hheaders
    · next running hrunning =>
        rw [hempty' running hrunning]
        exact htimed.advance_zero.trans hheaders
  · rw [Nat.zero_add]
    exact h.held_le
  · exact absurd (hempty running hrunning) hfilled
  · have hsame : (acts ++ [Act.cut update]).flatMap recordsOf = acts.flatMap recordsOf := by
      rw [List.flatMap_append]
      exact List.append_nil _
    exact h.records.trans hsame.symm

theorem Unfolds.amend (h : transcript.Unfolds before origin acts) :
    transcript.amend.Unfolds before origin acts := by
  obtain ⟨closed, headers, _ | running, counters⟩ := transcript
  · exact h
  · obtain ⟨htimed, hheaders, hclosed, hrunning, hrecords⟩ := h
    refine ⟨htimed, hheaders, hclosed, ?_, hrecords⟩
    rintro running' ⟨⟩ hfilled
    exact hrunning running rfl hfilled

theorem Unfolds.boundary (h : transcript.Unfolds before origin acts)
    (update : Option HeaderUpdate) :
    (transcript.boundary update).Unfolds before origin (acts ++ [.cut update]) := by
  rw [Transcript.boundary]
  split
  · next hrunning =>
      refine (h.apply (fun running hsome => ?_) update).openNext hrunning
      cases hrunning.symm.trans hsome
  · next hrunning =>
      refine (h.apply (fun running hsome => ?_) update).amend
      cases hrunning.symm.trans hsome
      rfl
  · refine (h.close.apply (fun running hsome => ?_) update).openNext running_close
    cases running_close.symm.trans hsome

theorem Unfolds.append (h : transcript.Unfolds before origin acts)
    (hrunning : transcript.running.isSome = true) (bytes : Bytes) :
    (transcript.append [bytes]).Unfolds before origin (acts ++ [.record bytes]) := by
  obtain ⟨running, hrunning⟩ := Option.isSome_iff_exists.mp hrunning
  have happend : transcript.append [bytes] =
      { transcript with
        running := some { running with records := running.records ++ [bytes] }
        counters := transcript.counters.addData 1 transcript.headers.header.itemSize.toNat } := by
    rw [Transcript.append, hrunning]
    rfl
  have hheaders := h.headers
  rw [Transcript.close, hrunning] at hheaders
  have hcount := h.count
  rw [hrunning, Option.map_some, Option.getD_some] at hcount
  rw [happend]
  refine ⟨h.timed, ?_, h.closed.more ?_ _, ?_, ?_⟩
  · calc transcript.headers.advance (running.records ++ [bytes]).length
        = (transcript.headers.advance running.records.length).advance 1 := by
          rw [List.length_append, HeaderState.advance_advance]
          rfl
      _ = (origin.play acts).fresh.advance 1 := congrArg (HeaderState.advance · 1) hheaders
      _ = (origin.play (acts ++ [.record bytes])).fresh := by
          rw [HeaderState.play_append]
          rfl
  · rw [Nat.zero_add]
    exact h.held_le
  · rintro running' ⟨⟩ -
    by_cases hfilled : running.records = []
    · have hempty : ∀ running', transcript.running = some running' → running'.records = [] := by
        rintro running' hsome
        cases hrunning.symm.trans hsome
        exact hfilled
      have hhere : recordsHeld (before ++ transcript.closed) = recordCount acts := by
        rwa [hfilled] at hcount
      have hsame : actsUpTo (recordsHeld (before ++ transcript.closed))
          (acts ++ [.record bytes]) = acts := by
        rw [hhere, actsUpTo_append_record]
      exact (h.headers_of_empty hempty).trans
        (congrArg (fun acts => (origin.play acts).fresh) hsame.symm)
    · have hpos : 0 < running.records.length := List.length_pos_iff.mpr hfilled
      have hsame : actsUpTo (recordsHeld (before ++ transcript.closed))
          (acts ++ [.record bytes]) = actsUpTo (recordsHeld (before ++ transcript.closed)) acts :=
        actsUpTo_append (by omega) _
      exact (h.running running hrunning hfilled).trans
        (congrArg (fun acts => (origin.play acts).fresh) hsame.symm)
  · have hrecords := h.records
    have hmore : (acts ++ [Act.record bytes]).flatMap recordsOf =
        acts.flatMap recordsOf ++ [bytes] := List.flatMap_append
    rw [hrunning] at hrecords
    rw [hmore, ← hrecords, List.append_assoc]
    rfl

theorem Unfolds.step (h : transcript.Unfolds before origin acts)
    (hrunning : transcript.running.isSome = true) (ceiling : Nat) (act : Act) :
    (transcript.step ceiling act).Unfolds before origin (acts ++ [act]) := by
  cases act with
  | cut update => exact (h.recount _).boundary update
  | record bytes =>
      rw [Transcript.step, Transcript.makeRoom]
      split
      · exact (h.close.openNext running_close).append rfl bytes
      · exact h.append hrunning bytes

theorem Unfolds.play (h : transcript.Unfolds before origin acts)
    (hrunning : transcript.running.isSome = true) (ceiling : Nat) (more : List Act) :
    (transcript.play ceiling more).Unfolds before origin (acts ++ more) := by
  induction more generalizing transcript acts with
  | nil =>
      rw [List.append_nil]
      exact h
  | cons act rest ih =>
      rw [List.append_cons]
      exact ih (h.step hrunning ceiling act) (isRunning_step act hrunning)

/-- What is on the target moves in front, and nothing is on the next one yet. -/
theorem Unfolds.detached (h : transcript.Unfolds before origin acts) :
    transcript.detached.Unfolds (before ++ transcript.close.closed) origin acts := by
  obtain ⟨htimed, hheaders, hclosed, -, hrecords⟩ := h.close
  rw [close_close] at hheaders
  rw [running_close] at hrecords
  refine ⟨htimed, hheaders, ?_, fun _ hsome => (by cases hsome), ?_⟩ <;>
    rw [Transcript.detached, List.append_nil]
  · exact hclosed
  · exact hrecords

theorem Unfolds.installed (h : transcript.Unfolds before origin acts)
    (hnone : transcript.running = none) : transcript.installed.Unfolds before origin acts :=
  (h.openNext hnone).recount _

theorem unfolds_opening {origin : HeaderState} (htimed : origin.IsTimed)
    (hfresh : origin.fresh = origin) : (opening origin).Unfolds [] origin [] :=
  ⟨htimed, htimed.advance_zero.trans hfresh.symm, trivial,
    by rintro running ⟨⟩ hfilled; exact absurd rfl hfilled, rfl⟩

end Unfolds

end Transcript

/-! ## Acts that are heard -/

/-- An act that a call passes; the headers hear of it unless its batch goes nowhere. -/
structure Deed where
  act : Act
  heard : Bool

def heardActs (deeds : List Deed) : List Act := (deeds.filter Deed.heard).map Deed.act

/-- The batches and updates that calls pass before the end. -/
def requestsOf (itemSize : Nat) : List Call → List Request
  | [] => []
  | .shutdown :: _ => []
  | .work items tags :: rest =>
      if items.length % itemSize = 0 then
        .batch (wholeRecords itemSize items) tags :: requestsOf itemSize rest
      else requestsOf itemSize rest
  | .update key value :: rest => .update key value :: requestsOf itemSize rest
  | _ :: rest => requestsOf itemSize rest

namespace Route

/-- The deeds of one call before the end, which comes behind `first` records. -/
def deeds (config : Config) (route : Route) (first : Nat) (call : Call) : List Deed :=
  match call with
  | .work items tags =>
      if items.length % config.itemSize.toNat = 0 then
        (script (cuesOf config.recordSize tags) first
          (wholeRecords config.itemSize.toNat items)).map (⟨·, route.turn.current.isKept⟩)
      else []
  | .update key value =>
      match HeaderUpdate.prepare config.recordSize key value with
      | .error _ => []
      | .ok update => [⟨.cut (some update), true⟩]
  | _ => []

/-- The deeds of calls up to the end, in order. -/
def deedsOf (config : Config) : Route → Nat → List Call → List Deed
  | _, _, [] => []
  | _, _, .shutdown :: _ => []
  | route, first, call :: rest =>
      let here := route.deeds config first call
      here ++ deedsOf config (route.step config call)
        (first + recordCount (here.map Deed.act)) rest

end Route

section Deeds

variable {config : Config} {route : Route}

theorem heardActs_append (front back : List Deed) :
    heardActs (front ++ back) = heardActs front ++ heardActs back := by
  rw [heardActs, List.filter_append, List.map_append]
  rfl

theorem heardActs_of_forall {deeds : List Deed} (h : ∀ deed ∈ deeds, deed.heard = true) :
    heardActs deeds = deeds.map Deed.act := by
  rw [heardActs, List.filter_eq_self.mpr h]

theorem requestsOf_cons {itemSize : Nat} {call : Call} (h : call ≠ .shutdown)
    (rest : List Call) :
    requestsOf itemSize (call :: rest) = requestsOf itemSize [call] ++ requestsOf itemSize rest := by
  cases call with
  | work items tags =>
      rw [requestsOf, requestsOf]
      split <;> rfl
  | shutdown => exact absurd rfl h
  | _ => rfl

theorem actsOf_append (size : UInt32) (first : Nat) (front back : List Request) :
    actsOf size first (front ++ back) = actsOf size first front ++
      actsOf size (first + recordCount (actsOf size first front)) back := by
  induction front generalizing first with
  | nil => rfl
  | cons request rest ih =>
      cases request with
      | batch records tags =>
          rw [List.cons_append, actsOf, ih, actsOf, recordCount_append, recordCount_script,
            List.append_assoc, Nat.add_assoc]
      | update key value =>
          rw [List.cons_append, actsOf, actsOf]
          split
          · next update _ => exact congrArg (Act.cut (some update) :: ·) (ih first)
          · exact ih first

theorem Route.deedsOf_cons {call : Call} (h : call ≠ .shutdown) (first : Nat)
    (rest : List Call) :
    route.deedsOf config first (call :: rest) = route.deeds config first call ++
      (route.step config call).deedsOf config
        (first + recordCount ((route.deeds config first call).map Deed.act)) rest := by
  cases call with
  | shutdown => exact absurd rfl h
  | _ => rfl

theorem Route.deeds_acts (first : Nat) {call : Call} (h : call ≠ .shutdown) :
    (route.deeds config first call).map Deed.act =
      actsOf config.recordSize first (requestsOf config.itemSize.toNat [call]) := by
  cases call with
  | work items tags =>
      rw [deeds, requestsOf]
      split
      · rw [requestsOf, actsOf, actsOf, List.append_nil, List.map_map]
        exact List.map_id _
      · rfl
  | update key value =>
      rw [deeds, requestsOf, actsOf]
      cases HeaderUpdate.prepare config.recordSize key value <;> rfl
  | shutdown => exact absurd rfl h
  | _ => rfl

theorem Route.deedsOf_acts (first : Nat) (calls : List Call) :
    (route.deedsOf config first calls).map Deed.act =
      actsOf config.recordSize first (requestsOf config.itemSize.toNat calls) := by
  induction calls generalizing route first with
  | nil => rfl
  | cons call rest ih =>
      by_cases hcall : call = .shutdown
      · subst hcall
        rfl
      · rw [deedsOf_cons hcall, List.map_append, ih, deeds_acts first hcall,
          requestsOf_cons hcall rest, actsOf_append]

theorem Route.heard_deeds (hpos : 0 < config.itemSize.toNat) (first : Nat) {call : Call}
    (hopen : route.closed = false) (hkept : (route.step config call).share false = []) :
    ∀ deed ∈ route.deeds config first call, deed.heard = true := by
  cases call with
  | work items tags =>
      rw [deeds]
      split
      · next hwhole =>
          have htaken : ¬ (route.closed = true ∨ items.length % config.itemSize.toNat ≠ 0) := by
            simp [hopen, hwhole]
          rintro _ hdeed
          obtain ⟨act, hact, rfl⟩ := List.mem_map.mp hdeed
          cases hdropped : route.turn.current.isKept with
          | true => rfl
          | false =>
              -- a batch that is dropped has no records, and so no acts
              rw [Route.step, if_neg htaken, Route.share_take, if_pos hdropped] at hkept
              have hitems : items = [] := (List.append_eq_nil_iff.mp hkept).2
              rw [hitems, wholeRecords, if_pos (.inr hpos)] at hact
              cases hact
      · exact fun _ hdeed => (List.not_mem_nil hdeed).elim
  | update key value =>
      rw [deeds]
      cases HeaderUpdate.prepare config.recordSize key value with
      | error cause => exact fun _ hdeed => (List.not_mem_nil hdeed).elim
      | ok update => exact List.forall_mem_singleton.mpr rfl
  | _ => exact fun _ hdeed => (List.not_mem_nil hdeed).elim

theorem Route.heard_deedsOf (hpos : 0 < config.itemSize.toNat) (first : Nat) (calls : List Call)
    (hopen : route.closed = false) (hkept : (route.run config calls).share false = []) :
    ∀ deed ∈ route.deedsOf config first calls, deed.heard = true := by
  induction calls generalizing route first with
  | nil => exact fun _ hdeed => (List.not_mem_nil hdeed).elim
  | cons call rest ih =>
      by_cases hcall : call = .shutdown
      · subst hcall
        exact fun _ hdeed => (List.not_mem_nil hdeed).elim
      · have hbegun := Route.share_run config (route.step config call) false rest
        have hhere := heard_deeds hpos first hopen (List.prefix_nil.mp (hkept ▸ hbegun))
        rw [deedsOf_cons hcall]
        exact List.forall_mem_append.mpr
          ⟨hhere, ih _ ((Route.closed_step call hcall).trans hopen) hkept⟩

end Deeds

/-! ## Chronicles unfold -/

namespace Chronicle

/-- All segments, in the order in which they were written, stand behind these acts. -/
def Unfolds (chronicle : Chronicle) (origin : HeaderState) (acts : List Act) : Prop :=
  chronicle.tape.Unfolds (chronicle.past.flatMap Chapter.segments) origin acts

/-- All segments of a stream that ends here, on whatever targets. -/
structure HasUnfolded (chronicle : Chronicle) (origin : HeaderState) (acts : List Act) : Prop where
  played : AsPlayed origin acts 0 (chronicle.past.flatMap Chapter.segments)
  records : (chronicle.past.flatMap Chapter.segments).flatMap Segment.records =
    acts.flatMap Transcript.recordsOf

section Unfolds

variable {chronicle : Chronicle} {config : Config} {origin : HeaderState} {acts : List Act}
  {opened : List Destination} {route : Route}

theorem Unfolds.retire (h : chronicle.Unfolds origin acts) :
    chronicle.retire.Unfolds origin acts := by
  rw [Chronicle.retire]
  split
  · exact h
  · next places _ =>
      let chapter : Chapter := ⟨places, chronicle.tape.close.closed⟩
      have hsegments : (chronicle.past ++ [chapter]).flatMap Chapter.segments =
          chronicle.past.flatMap Chapter.segments ++ chronicle.tape.close.closed := by
        rw [List.flatMap_append, List.flatMap_singleton]
      have hdetached := Transcript.Unfolds.detached h
      rwa [← hsegments] at hdetached

theorem Unfolds.install (h : chronicle.Unfolds origin acts)
    (hnone : chronicle.tape.running = none) (command : Option (List Location)) :
    (chronicle.install command).Unfolds origin acts := by
  cases command with
  | none => exact h
  | some places => exact Transcript.Unfolds.installed h hnone

theorem Unfolds.turn (h : chronicle.Unfolds origin acts)
    (hfollows : chronicle.Follows config opened route) (hopen : route.closed = false) :
    chronicle.turn.Unfolds origin acts := by
  rcases List.eq_nil_or_concat chronicle.staged with hstaged | ⟨front, command, hstaged⟩
  · rw [Chronicle.turn, hstaged]
    exact h
  · rw [List.concat_eq_append] at hstaged
    rw [turn_of_concat hstaged]
    have hrests := ((hfollows.retire hopen).rests (current_retire chronicle)).1
    exact Unfolds.install (show Unfolds { chronicle.retire with staged := [], unused := _ } _ _ from
      h.retire) hrests command

/-- Of a batch that goes nowhere nothing is heard. -/
theorem Unfolds.take (h : chronicle.Unfolds origin acts)
    (hfollows : chronicle.Follows config opened route) (hopen : route.closed = false)
    (records : List Bytes) (tags : List Tag) :
    (chronicle.take config records tags).Unfolds origin
      (acts ++ heardActs ((script (cuesOf config.recordSize tags) chronicle.itemsRead records).map
        (⟨·, route.current.isKept⟩))) := by
  rw [hfollows.isKept hopen]
  cases hcurrent : chronicle.current with
  | some places =>
      rw [take_of_some hcurrent, heardActs_of_forall (List.forall_mem_map.mpr fun _ _ => rfl),
        List.map_map]
      have hrunning := (hfollows.active (by rw [hcurrent]; rfl)).1
      have hplayed := Transcript.Unfolds.play h hrunning config.ceiling
        (script (cuesOf config.recordSize tags) chronicle.itemsRead records)
      exact (List.map_id (script _ _ records)).symm ▸ hplayed
  | none =>
      have hnothing : heardActs ((script (cuesOf config.recordSize tags) chronicle.itemsRead
          records).map (⟨·, false⟩)) = [] := by
        rw [heardActs, List.filter_eq_nil_iff.mpr, List.map_nil]
        exact List.forall_mem_map.mpr fun _ _ => Bool.false_ne_true
      rw [take_of_none hcurrent, Option.isSome_none, hnothing, List.append_nil]
      exact Transcript.Unfolds.recount h _

theorem Unfolds.amend (h : chronicle.Unfolds origin acts)
    (hfollows : chronicle.Follows config opened route) (update : HeaderUpdate) :
    (chronicle.amend config update).Unfolds origin (acts ++ [.cut (some update)]) := by
  cases hcurrent : chronicle.current with
  | some places =>
      rw [amend_of_some hcurrent]
      have hrunning := (hfollows.active (by rw [hcurrent]; rfl)).1
      exact Transcript.Unfolds.step h hrunning config.ceiling (.cut (some update))
  | none =>
      rw [amend_of_none hcurrent]
      have hrunning := (hfollows.rests hcurrent).1
      refine (Transcript.Unfolds.recount h _).apply (fun running hsome => ?_) _
      cases hrunning.symm.trans hsome

theorem Unfolds.finish (h : chronicle.Unfolds origin acts)
    (hfollows : chronicle.Follows config opened route) (hopen : route.closed = false) :
    chronicle.finish.HasUnfolded origin acts := by
  obtain ⟨-, -, hplayed, -, hrecords⟩ := h.retire
  obtain ⟨hrunning, hclosed⟩ := (hfollows.retire hopen).rests (current_retire chronicle)
  have hrunning : chronicle.retire.tape.running = none := hrunning
  have hclosed : chronicle.retire.tape.closed = [] := hclosed
  rw [hclosed, List.append_nil] at hplayed hrecords
  rw [hrunning] at hrecords
  exact ⟨hplayed, (List.append_nil _).symm.trans hrecords⟩

end Unfolds

/-! ## Streams unfold -/

section Run

variable {chronicle : Chronicle} {config : Config} {origin : HeaderState} {acts : List Act}
  {opened : List Destination} {route : Route}

theorem itemsRead_turn : chronicle.turn.itemsRead = chronicle.itemsRead := by
  have hretire : ∀ earlier : Chronicle, earlier.retire.itemsRead = earlier.itemsRead := by
    intro earlier
    rw [retire]
    split <;> rfl
  rw [turn]
  split
  · rfl
  · next command _ =>
      cases command <;> exact hretire _

theorem itemsRead_step (hfollows : chronicle.Follows config opened route)
    (hopen : route.closed = false) (call : Call) :
    (chronicle.step config call).itemsRead = chronicle.itemsRead +
      recordCount ((route.deeds config chronicle.itemsRead call).map Deed.act) := by
  cases call with
  | work items tags =>
      rw [step, Route.deeds, hfollows.closed, hopen]
      by_cases hwhole : items.length % config.itemSize.toNat = 0
      · rw [if_neg (by simp [hwhole]), if_pos hwhole, List.map_map]
        have hscript := recordCount_script (cuesOf config.recordSize tags) chronicle.itemsRead
          (wholeRecords config.itemSize.toNat items)
        exact congrArg₂ (· + ·) itemsRead_turn
          (((congrArg recordCount (List.map_id _)).trans hscript).symm)
      · rw [if_pos (.inr hwhole), if_neg hwhole]
        rfl
  | update key value =>
      rw [step, Route.deeds]
      cases HeaderUpdate.prepare config.recordSize key value <;> rfl
  | rotate destination =>
      rw [step]
      split <;> rfl
  | shutdown =>
      rw [step, hfollows.closed, hopen]
      change chronicle.retire.itemsRead = _
      rw [retire]
      split <;> rfl
  | _ => rfl

theorem Unfolds.step {call : Call} (h : chronicle.Unfolds origin acts)
    (hfollows : chronicle.Follows config opened route) (hopen : route.closed = false)
    (hcall : call ≠ .shutdown) :
    (chronicle.step config call).Unfolds origin
      (acts ++ heardActs (route.deeds config chronicle.itemsRead call)) := by
  have hsilent : chronicle.Unfolds origin (acts ++ heardActs []) := by
    rwa [show heardActs [] = [] from rfl, List.append_nil]
  cases call with
  | work items tags =>
      rw [Chronicle.step, Route.deeds, hfollows.closed, hopen]
      by_cases hwhole : items.length % config.itemSize.toNat = 0
      · rw [if_neg (by simp [hwhole]), if_pos hwhole, ← itemsRead_turn]
        exact (h.turn hfollows hopen).take (hfollows.turn hopen)
          (Route.closed_turn.trans hopen) _ tags
      · rw [if_pos (.inr hwhole), if_neg hwhole]
        exact hsilent
  | update key value =>
      rw [Chronicle.step, Route.deeds]
      cases HeaderUpdate.prepare config.recordSize key value with
      | error cause => exact hsilent
      | ok update => exact h.amend hfollows update
  | rotate destination =>
      rw [Chronicle.step]
      split <;> exact hsilent
  | setUnbuffered unbuffered => exact hsilent
  | close => exact hsilent
  | shutdown => exact absurd rfl hcall

theorem Follows.step_shutdown (h : chronicle.Follows config opened route)
    (hopen : route.closed = false) : chronicle.step config .shutdown = chronicle.finish := by
  rw [Chronicle.step, h.closed, hopen]
  rfl

/-- At the end the stream that was heard is on the targets. -/
theorem Unfolds.run (hpos : 0 < config.itemSize.toNat) (calls : List Call)
    (h : chronicle.Unfolds origin acts) (hfollows : chronicle.Follows config opened route)
    (hopen : route.closed = false) :
    (chronicle.run config (calls ++ [.shutdown])).HasUnfolded origin
      (acts ++ heardActs (route.deedsOf config chronicle.itemsRead calls)) := by
  -- a call adds what was heard of it to the acts; calls behind the end add nothing
  induction calls generalizing chronicle route opened acts with
  | nil =>
      have hfinish : chronicle.run config ([] ++ [.shutdown]) = chronicle.finish :=
        hfollows.step_shutdown hopen
      rw [hfinish, Route.deedsOf, heardActs, List.filter_nil, List.map_nil, List.append_nil]
      exact h.finish hfollows hopen
  | cons call rest ih =>
      have hrun : chronicle.run config (call :: rest ++ [.shutdown]) =
          (chronicle.step config call).run config (rest ++ [.shutdown]) := rfl
      rw [hrun]
      by_cases hcall : call = .shutdown
      · subst hcall
        have hfinish := h.finish hfollows hopen
        have hpast := past_run_of_closed config (show chronicle.finish.closed = true from rfl)
          (rest ++ [.shutdown])
        rw [hfollows.step_shutdown hopen, Route.deedsOf, heardActs, List.filter_nil,
          List.map_nil, List.append_nil]
        exact ⟨hpast ▸ hfinish.played, hpast ▸ hfinish.records⟩
      · have hnext := h.step hfollows hopen hcall
        have hopen' : (route.step config call).closed = false :=
          (Route.closed_step call hcall).trans hopen
        have hrest := ih hnext (hfollows.step hpos call) hopen'
        rwa [itemsRead_step hfollows hopen, List.append_assoc, ← heardActs_append,
          ← Route.deedsOf_cons hcall] at hrest

end Run

end Chronicle

/-! ## What is in force at a record -/

section Weave

variable (cues : Cues) (origin : HeaderState)

theorem weave_append_cons (first : Nat) (front : List Bytes) (record : Bytes)
    (back : List Bytes) : weave cues first (front ++ record :: back) =
      weave cues first front ++ .record record :: weave cues (first + front.length + 1) back := by
  have hlength : first + (front ++ record :: back).length =
      first + front.length + 1 + back.length := by
    rw [List.length_append, List.length_cons]
    omega
  rw [weave, weave, weave, script_append, script, hlength]
  simp only [List.append_assoc, List.cons_append]

theorem recordCount_weave (first : Nat) (records : List Bytes) :
    recordCount (weave cues first records) = records.length := by
  have hcuts : recordCount ((cues (first + records.length)).map Act.cut) = 0 := by
    rw [recordCount, List.flatMap_map]
    exact List.length_eq_zero_iff.mpr (List.flatMap_eq_nil_iff.mpr fun _ _ => rfl)
  rw [weave, recordCount_append, hcuts, recordCount_script, Nat.add_zero]

theorem play_weave (records : List Bytes) :
    origin.play (weave cues 0 records) = inForce cues origin records.length := by
  induction records using List.reverseRecOn with
  | nil => exact HeaderState.play_cuts origin (cues 0)
  | append_singleton front record ih =>
      rw [weave_append_cons, HeaderState.play_append, ih, Nat.zero_add, List.length_append]
      exact HeaderState.play_cuts _ _

theorem actsUpTo_weave {records : List Bytes} {index : Nat} (h : index < records.length) :
    actsUpTo index (weave cues 0 records) = weave cues 0 (records.take index) := by
  have hweave := weave_append_cons cues 0 (records.take index) records[index]
    (records.drop (index + 1))
  rw [← List.drop_eq_getElem_cons h, List.take_append_drop] at hweave
  have htaken : (records.take index).length = index := List.length_take_of_le (Nat.le_of_lt h)
  have hupTo := actsUpTo_append_record (weave cues 0 (records.take index)) records[index]
  rw [recordCount_weave, htaken] at hupTo
  rw [hweave, hupTo]

/-- Before a record of a whole stream all updates up to it are applied. -/
theorem play_actsUpTo_weave {records : List Bytes} {index : Nat} (h : index < records.length) :
    origin.play (actsUpTo index (weave cues 0 records)) = inForce cues origin index := by
  rw [actsUpTo_weave cues h, play_weave, List.length_take_of_le (Nat.le_of_lt h)]

theorem AsPlayed.eq_segment {cues : Cues} {origin : HeaderState} {records : List Bytes}
    {front back : List Segment} {segment : Segment}
    (h : AsPlayed origin (weave cues 0 records) 0 (front ++ segment :: back))
    (hcount : recordsHeld (front ++ segment :: back) = records.length)
    (hfilled : segment.records ≠ []) :
    segment = (inForce cues origin (recordsHeld front)).segment segment.records := by
  have hpos : 0 < segment.records.length := List.length_pos_iff.mpr hfilled
  rw [recordsHeld_append, recordsHeld_cons] at hcount
  have hsegment := (asPlayed_append.mp h).2.1 hfilled
  rwa [Nat.zero_add, play_actsUpTo_weave cues origin (by omega)] at hsegment

end Weave

end SegmentStream
