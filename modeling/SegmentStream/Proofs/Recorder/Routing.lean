import Mathlib.Data.List.Pairwise
import Mathlib.Data.List.ReduceOption
import SegmentStream.Proofs.Recorder.Rotating
import SegmentStream.Proofs.Recorder.Route

/-!
# Recorders follow routes

What is on the targets of a recorder is what the route of its calls says: each
target holds the stretch of the input that went to it, and those that no batch
went to hold nothing.
-/

namespace SegmentStream

open SegmentStream.Action

/-! ## What a tape holds -/

namespace Transcript

/-- The data on a target once its last segment is closed. -/
def items (transcript : Transcript) : Bytes := transcript.close.closed.flatMap Segment.data

/-- These records were added; nothing was dropped and no target installed. -/
structure Gains (transcript : Transcript) (records : List Bytes) (next : Transcript) : Prop where
  items : next.items = transcript.items ++ records.flatten
  written : next.counters.recordsWritten = transcript.counters.recordsWritten + records.length
  dropped : next.counters.recordsDropped = transcript.counters.recordsDropped
  rotations : next.counters.rotations = transcript.counters.rotations

section Gains

variable {transcript second third : Transcript} {front back : List Bytes}

theorem Gains.refl (transcript : Transcript) : transcript.Gains [] transcript :=
  ⟨(List.append_nil _).symm, rfl, rfl, rfl⟩

theorem Gains.trans (h : transcript.Gains front second) (h' : second.Gains back third) :
    transcript.Gains (front ++ back) third := by
  refine ⟨?_, ?_, h'.dropped.trans h.dropped, h'.rotations.trans h.rotations⟩
  · rw [h'.items, h.items, List.flatten_append, List.append_assoc]
  · rw [h'.written, h.written, List.length_append, Nat.add_assoc]

theorem gains_close (transcript : Transcript) : transcript.Gains [] transcript.close := by
  have hitems : transcript.close.items = transcript.items ++ [] := by
    rw [items, close_close, List.append_nil, items]
  rw [close] at hitems ⊢
  split at hitems <;> exact ⟨hitems, rfl, rfl, rfl⟩

theorem gains_openNext (h : transcript.running = none) :
    transcript.Gains [] transcript.openNext := by
  refine ⟨?_, rfl, rfl, rfl⟩
  have hclosed : transcript.close = transcript := by rw [close, h]
  rw [items, items, hclosed]
  exact List.flatMap_append

theorem gains_apply (transcript : Transcript) (update : Option HeaderUpdate) :
    transcript.Gains [] (transcript.apply update) := by
  obtain ⟨closed, headers, _ | running, counters⟩ := transcript
  · exact ⟨(List.append_nil _).symm, rfl, rfl, rfl⟩
  · refine ⟨?_, rfl, rfl, rfl⟩
    simp [items, close, apply, segment, Segment.data]

theorem gains_amend (transcript : Transcript) : transcript.Gains [] transcript.amend := by
  obtain ⟨closed, headers, _ | running, counters⟩ := transcript <;>
    exact ⟨(List.append_nil _).symm, rfl, rfl, rfl⟩

theorem gains_countTag (transcript : Transcript) (update : Option HeaderUpdate) :
    transcript.Gains [] (transcript.countTag update) := by
  have hitems : (transcript.countTag update).items = transcript.items ++ [] := by
    obtain ⟨closed, headers, _ | running, counters⟩ := transcript <;>
      exact (List.append_nil _).symm
  cases update <;> exact ⟨hitems, rfl, rfl, rfl⟩

theorem gains_append (h : transcript.running.isSome = true) (records : List Bytes) :
    transcript.Gains records (transcript.append records) := by
  obtain ⟨closed, headers, running, counters⟩ := transcript
  obtain ⟨running, rfl⟩ := Option.isSome_iff_exists.mp h
  refine ⟨?_, rfl, rfl, rfl⟩
  simp [items, close, append, segment, Segment.data]

theorem gains_roll (transcript : Transcript) : transcript.Gains [] transcript.roll :=
  (gains_close transcript).trans (gains_openNext running_close)

theorem gains_boundary (transcript : Transcript) (update : Option HeaderUpdate) :
    transcript.Gains [] (transcript.boundary update) := by
  rw [boundary]
  split
  · next hrunning => exact (gains_apply transcript update).trans (gains_openNext hrunning)
  · exact (gains_apply transcript update).trans (gains_amend _)
  · exact (gains_close transcript).trans
      ((gains_apply _ update).trans (gains_openNext running_close))

/-- The records that an act brings. -/
def recordsOf : Act → List Bytes
  | .record bytes => [bytes]
  | .cut _ => []

theorem gains_step (ceiling : Nat) (act : Act) (h : transcript.running.isSome = true) :
    transcript.Gains (recordsOf act) (transcript.step ceiling act) := by
  cases act with
  | cut update => exact (gains_countTag transcript update).trans (gains_boundary _ update)
  | record bytes =>
      rw [step, makeRoom]
      split
      · exact (gains_roll transcript).trans (gains_append rfl [bytes])
      · exact gains_append h [bytes]

theorem gains_play (ceiling : Nat) (acts : List Act) (h : transcript.running.isSome = true) :
    transcript.Gains (acts.flatMap recordsOf) (transcript.play ceiling acts) := by
  induction acts generalizing transcript with
  | nil => exact .refl _
  | cons act rest ih => exact (gains_step ceiling act h).trans (ih (isRunning_step act h))

theorem recordsOf_script (cues : Cues) (first : Nat) (records : List Bytes) :
    (script cues first records).flatMap recordsOf = records := by
  induction records generalizing first with
  | nil => rfl
  | cons record rest ih =>
      have hcuts : ((cues first).map Act.cut).flatMap recordsOf = [] := by
        rw [List.flatMap_map]
        exact List.flatMap_eq_nil_iff.mpr fun _ _ => rfl
      rw [script, List.flatMap_append, hcuts, List.flatMap_cons, ih]
      rfl

end Gains

end Transcript

/-! ## Chronicles follow routes -/

/-- The places that a stretch goes to, and what goes there. -/
def Stretch.told (split : Bool) (stretch : Stretch) : Option (List Location × Bytes) :=
  stretch.destination.map fun destination => (destination.places split, stretch.items)

def Chapter.told (chapter : Chapter) : List Location × Bytes :=
  (chapter.places, chapter.segments.flatMap Segment.data)

namespace Chronicle

/--
Every opened target is past, active, unused or staged, and the past ones are
those of the route.
-/
structure Follows (chronicle : Chronicle) (config : Config) (opened : List Destination)
    (route : Route) : Prop where
  closed : chronicle.closed = route.closed
  next : route.closed = false → chronicle.staged.getLast? =
    route.next.map (Option.map (Destination.places config.splitHeader))
  current : chronicle.current = route.target.map (Destination.places config.splitHeader)
  active : chronicle.current.isSome = true →
    chronicle.tape.running.isSome = true ∧ chronicle.tape.items = route.current.items
  rests : chronicle.current = none → chronicle.tape.running = none ∧ chronicle.tape.closed = []
  past : chronicle.past.map Chapter.told =
    route.ended.filterMap (Stretch.told config.splitHeader)
  filled : ∀ chapter ∈ chronicle.past, chapter.segments ≠ []
  written : chronicle.tape.counters.recordsWritten * config.itemSize.toNat =
    (route.share true).length
  dropped : chronicle.tape.counters.recordsDropped * config.itemSize.toNat =
    (route.share false).length
  rotations : chronicle.tape.counters.rotations + 1 = route.installs
  opened : (chronicle.past.map Chapter.places ++ chronicle.current.toList ++
    (chronicle.unused ++ chronicle.staged.reduceOption)).Perm
      (opened.map (Destination.places config.splitHeader))

section Follows

variable {chronicle : Chronicle} {config : Config} {opened : List Destination} {route : Route}

theorem Follows.isOpen (h : chronicle.Follows config opened route)
    (hcurrent : chronicle.current.isSome = true) : route.closed = false := by
  rw [h.current, Option.isSome_map, Route.target] at hcurrent
  split at hcurrent
  · cases hcurrent
  · next hopen => exact Bool.eq_false_of_not_eq_true hopen

theorem Follows.isKept (h : chronicle.Follows config opened route)
    (hopen : route.closed = false) : route.current.isKept = chronicle.current.isSome := by
  rw [h.current, Option.isSome_map, Route.target, hopen]
  rfl

/-- Records go to the active target. -/
theorem Follows.gain {records : List Bytes} {tape : Transcript} {itemsRead : Nat}
    (h : chronicle.Follows config opened route) (hcurrent : chronicle.current.isSome = true)
    (hgains : chronicle.tape.Gains records tape) (hrunning : tape.running.isSome = true)
    (hrecords : ∀ record ∈ records, record.length = config.itemSize.toNat) :
    { chronicle with tape, itemsRead }.Follows config opened (route.take records.flatten) := by
  have hopen := h.isOpen hcurrent
  have hkept : route.current.isKept = true := (h.isKept hopen).trans hcurrent
  have hended : (route.take records.flatten).ended = route.ended := by
    simp only [Route.ended, Route.take, hopen]
    rfl
  refine ⟨h.closed, h.next, h.current, fun _ => ⟨hrunning, ?_⟩, fun hnone => ?_, ?_, h.filled,
    ?_, ?_, ?_, h.opened⟩
  · rw [hgains.items, (h.active hcurrent).2]
    rfl
  · rw [hnone] at hcurrent
    cases hcurrent
  · rw [hended]
    exact h.past
  · rw [hgains.written, Nat.add_mul, h.written, Route.share_take, if_pos hkept,
      List.length_append, flatten_length hrecords]
  · rw [hgains.dropped, h.dropped, Route.share_take, if_neg (by simp [hkept]), List.append_nil]
  · rw [hgains.rotations, h.rotations]
    exact (Route.installs_take _).symm

/-- The active target is let go of. -/
theorem Follows.retire (h : chronicle.Follows config opened route)
    (hopen : route.closed = false) :
    { chronicle.retire with closed := true }.Follows config opened
      { route with closed := true } := by
  have hended : route.ended = route.past := by rw [Route.ended, hopen]; rfl
  have htarget : route.target = route.current.destination := by rw [Route.target, hopen]; rfl
  have hall : Route.ended { route with closed := true } = route.past ++ [route.current] := rfl
  have hpast := h.past
  have hcurrent := h.current
  rw [hended] at hpast
  rw [htarget] at hcurrent
  cases hdestination : route.current.destination with
  | none =>
      rw [hdestination] at hcurrent
      have hretire : chronicle.retire = chronicle := by
        rw [Chronicle.retire, hcurrent]
        rfl
      rw [hretire]
      refine ⟨rfl, fun h => (by cases h), hcurrent, fun hsome => ?_, h.rests, ?_, h.filled,
        h.written, h.dropped, h.rotations, h.opened⟩
      · rw [hcurrent] at hsome
        cases hsome
      · rw [hall, List.filterMap_append, ← hpast]
        simp [Stretch.told, hdestination]
  | some destination =>
      rw [hdestination] at hcurrent
      obtain ⟨hrunning, hitems⟩ := h.active (by rw [hcurrent]; rfl)
      obtain ⟨-, hwritten, hdropped, hrotations⟩ := Transcript.gains_close chronicle.tape
      have hretire : chronicle.retire =
          { chronicle with
            past := chronicle.past ++
              [⟨destination.places config.splitHeader, chronicle.tape.close.closed⟩]
            current := none
            tape := chronicle.tape.detached } := by
        rw [Chronicle.retire, hcurrent]
        rfl
      rw [hretire]
      refine ⟨rfl, fun h => (by cases h), rfl, fun h => (by cases h), fun _ => ⟨rfl, rfl⟩, ?_, ?_,
        ?_, ?_, ?_, ?_⟩
      · rw [hall, List.filterMap_append, List.map_append, hpast]
        simp only [List.map_cons, List.map_nil, List.filterMap_cons, List.filterMap_nil,
          Stretch.told, hdestination, Option.map_some, ← hitems]
        rfl
      · refine List.forall_mem_append.mpr ⟨h.filled, List.forall_mem_singleton.mpr ?_⟩
        obtain ⟨running, hrunning⟩ := Option.isSome_iff_exists.mp hrunning
        rw [Transcript.close, hrunning]
        exact List.append_ne_nil_of_right_ne_nil _ (List.cons_ne_nil _ _)
      · exact (congrArg (· * _) hwritten).trans h.written
      · exact (congrArg (· * _) hdropped).trans h.dropped
      · exact (congrArg (· + 1) hrotations).trans h.rotations
      · have hopened := h.opened
        rw [hcurrent] at hopened
        simpa using hopened

/-- A target is installed, or none is to follow. -/
theorem Follows.install {destination : Option Destination} {front : List (Option (List Location))}
    (h : chronicle.Follows config opened { route with closed := true })
    (hopen : route.closed = false) (hnext : route.next = some destination)
    (hstaged : chronicle.staged =
      front ++ [destination.map (Destination.places config.splitHeader)]) :
    ({ chronicle with
      staged := []
      unused := chronicle.unused ++ front.reduceOption
      closed := false }.install
        (destination.map (Destination.places config.splitHeader))).Follows config opened
          route.turn := by
  obtain ⟨-, -, hcurrent, -, hrests, hpast, hfilled, hwritten, hdropped, hrotations, hopened⟩ := h
  obtain ⟨hrunning, hclosed⟩ := hrests hcurrent
  have hitems : chronicle.tape.items = [] := by
    rw [Transcript.items, Transcript.close, hrunning, hclosed]
    rfl
  have hinstalls := Route.installs_turn hnext
  have hturn : route.turn =
      { past := route.stretches, current := ⟨destination, []⟩, next := none, closed := false } := by
    rw [Route.turn, hnext, hopen]
    rfl
  have hshare : ∀ kept, route.share kept = route.turn.share kept :=
    fun kept => (Route.share_turn kept).symm
  change _ = (route.share true).length at hwritten
  change _ = (route.share false).length at hdropped
  rw [hcurrent, hstaged, List.reduceOption_append] at hopened
  rw [hshare] at hwritten hdropped
  rw [hturn] at hwritten hdropped hinstalls ⊢
  cases destination with
  | none =>
      refine ⟨rfl, fun _ => rfl, hcurrent, fun hsome => ?_, fun _ => ⟨hrunning, hclosed⟩, hpast,
        hfilled, hwritten, hdropped, hrotations.trans hinstalls.symm, ?_⟩
      · cases hsome.symm.trans (congrArg Option.isSome hcurrent)
      · change (chronicle.past.map Chapter.places ++ chronicle.current.toList ++
          (chronicle.unused ++ front.reduceOption ++ [])).Perm _
        rw [hcurrent]
        simpa using hopened
  | some destination =>
      obtain ⟨hgained, hwritten', hdropped', hrotations'⟩ := Transcript.gains_openNext hrunning
      refine ⟨rfl, fun _ => rfl, rfl, fun _ => ⟨rfl, ?_⟩, fun h => (by cases h), hpast, hfilled,
        ?_, ?_, ?_, ?_⟩
      · exact hgained.trans (by rw [hitems]; rfl)
      · exact (congrArg (· * _) hwritten').trans hwritten
      · exact (congrArg (· * _) hdropped').trans hdropped
      · rw [hinstalls]
        exact congrArg (· + 1) ((congrArg (· + 1) hrotations').trans hrotations)
      · refine List.Perm.trans ?_ hopened
        let places := destination.places config.splitHeader
        change (chronicle.past.map Chapter.places ++ [places] ++ (chronicle.unused ++
          front.reduceOption ++ [])).Perm (chronicle.past.map Chapter.places ++ [] ++
            (chronicle.unused ++ (front.reduceOption ++ [places])))
        rw [List.append_nil, List.append_nil, ← List.append_assoc chronicle.unused,
          List.append_assoc (chronicle.past.map Chapter.places)]
        exact List.perm_append_comm.append_left _

/-- The last request takes effect. -/
theorem Follows.turn (h : chronicle.Follows config opened route)
    (hopen : route.closed = false) : chronicle.turn.Follows config opened route.turn := by
  have hnext := h.next hopen
  rcases List.eq_nil_or_concat chronicle.staged with hstaged | ⟨front, command, hstaged⟩
  · rw [hstaged, List.getLast?_nil] at hnext
    rw [Route.turn_of_none (Option.map_eq_none_iff.mp hnext.symm), Chronicle.turn, hstaged]
    exact h
  rw [List.concat_eq_append] at hstaged
  rw [hstaged, List.getLast?_concat] at hnext
  obtain ⟨destination, hrequest, rfl⟩ := Option.map_eq_some_iff.mp hnext.symm
  have hclosed : chronicle.retire.closed = false :=
    (closed_retire chronicle).trans (h.closed.trans hopen)
  have hinstall := (h.retire hopen).install hopen hrequest ((staged_retire _).trans hstaged)
  rw [turn_of_concat hstaged, ← unused_retire]
  rw [← hclosed] at hinstall
  exact hinstall

/-- Records go to the active target, or are dropped. -/
theorem Follows.take (hpos : 0 < config.itemSize.toNat)
    (h : chronicle.Follows config opened route) (hopen : route.closed = false) {items : Bytes}
    (hwhole : items.length % config.itemSize.toNat = 0) (tags : List Tag) :
    (chronicle.take config (wholeRecords config.itemSize.toNat items) tags).Follows config opened
      (route.take items) := by
  have hflatten := wholeRecords_flatten hpos hwhole
  have hrecords := length_of_mem_wholeRecords config.itemSize.toNat items
  generalize wholeRecords config.itemSize.toNat items = records at hflatten hrecords
  subst hflatten
  cases hcurrent : chronicle.current with
  | some places =>
      have hsome : chronicle.current.isSome = true := by rw [hcurrent]; rfl
      have hrunning := (h.active hsome).1
      rw [take_of_some hcurrent]
      have hplays := Transcript.gains_play config.ceiling
        (script (cuesOf config.recordSize tags) chronicle.itemsRead records) hrunning
      rw [Transcript.recordsOf_script] at hplays
      exact h.gain hsome hplays (Transcript.isRunning_play _ hrunning) hrecords
  | none =>
      have hkept : route.current.isKept = false := (h.isKept hopen).trans (by rw [hcurrent]; rfl)
      have hended : (route.take records.flatten).ended = route.ended := by
        simp only [Route.ended, Route.take, hopen]
        rfl
      rw [take_of_none hcurrent]
      refine ⟨h.closed, h.next, h.current, fun hsome => ?_, h.rests, ?_, h.filled, ?_, ?_, ?_,
        h.opened⟩
      · cases hsome.symm.trans (congrArg Option.isSome hcurrent)
      · rw [hended]
        exact h.past
      · rw [Route.share_take, if_neg (by simp [hkept]), List.append_nil]
        exact h.written
      · rw [Route.share_take, if_pos hkept, List.length_append, flatten_length hrecords,
          ← h.dropped]
        exact Nat.add_mul ..
      · rw [Route.installs_take]
        exact h.rotations

/-- Updates move no records. -/
theorem Follows.amend (h : chronicle.Follows config opened route) (update : HeaderUpdate) :
    (chronicle.amend config update).Follows config opened route := by
  cases hcurrent : chronicle.current with
  | some places =>
      have hsome : chronicle.current.isSome = true := by rw [hcurrent]; rfl
      have hrunning := (h.active hsome).1
      have hgains := Transcript.gains_step config.ceiling (.cut (some update)) hrunning
      let tape := chronicle.tape.step config.ceiling (.cut (some update))
      have hgained : { chronicle with tape }.Follows config opened _ :=
        h.gain hsome hgains (Transcript.isRunning_step _ hrunning) (List.forall_mem_nil _)
      rw [amend_of_some hcurrent]
      rwa [Transcript.recordsOf, List.flatten_nil, Route.take_nil] at hgained
  | none =>
      obtain ⟨-, hwritten, hdropped, hrotations⟩ :=
        (Transcript.gains_countTag chronicle.tape (some update)).trans
          (Transcript.gains_apply _ (some update))
      rw [amend_of_none hcurrent]
      refine ⟨h.closed, h.next, h.current, fun hsome => ?_, h.rests, h.past, h.filled, ?_, ?_, ?_,
        h.opened⟩
      · cases hsome.symm.trans (congrArg Option.isSome hcurrent)
      · exact (congrArg (· * _) hwritten).trans h.written
      · exact (congrArg (· * _) hdropped).trans h.dropped
      · exact (congrArg (· + 1) hrotations).trans h.rotations

theorem Follows.stage (h : chronicle.Follows config opened route) (request : Option Destination) :
    (chronicle.stage (request.map (Destination.places config.splitHeader))).Follows config
      (opened ++ request.toList) { route with next := some request } := by
  refine ⟨h.closed, fun _ => List.getLast?_concat, h.current, h.active, h.rests, h.past, h.filled,
    h.written, h.dropped, h.rotations, ?_⟩
  have hopened := h.opened.append_right (request.map (Destination.places config.splitHeader)).toList
  rw [Chronicle.stage, List.reduceOption_append, List.map_append,
    ← List.append_assoc chronicle.unused, ← List.append_assoc]
  cases request <;> exact hopened

theorem Follows.step (hpos : 0 < config.itemSize.toNat)
    (h : chronicle.Follows config opened route) (call : Call) :
    (chronicle.step config call).Follows config
      (opened ++ destinationsOf config.splitHeader [call]) (route.step config call) := by
  cases call with
  | work items tags =>
      rw [destinationsOf, List.filterMap_cons_none rfl, List.filterMap_nil, List.append_nil,
        Chronicle.step, Route.step, h.closed]
      split
      · exact h
      · next hopen =>
          obtain ⟨hopen, hwhole⟩ := not_or.mp hopen
          have hopen := Bool.eq_false_of_not_eq_true hopen
          exact (h.turn hopen).take hpos (Route.closed_turn.trans hopen) (not_not.mp hwhole) tags
  | update key value =>
      rw [destinationsOf, List.filterMap_cons_none rfl, List.filterMap_nil, List.append_nil,
        Chronicle.step]
      split
      · exact h
      · exact h.amend _
  | setUnbuffered unbuffered =>
      rw [destinationsOf, List.filterMap_cons_none rfl, List.filterMap_nil, List.append_nil]
      exact h
  | rotate destination =>
      rw [Chronicle.step, Route.step]
      by_cases hfits : destination.fits config.splitHeader = true
      · rw [destinationsOf_rotate, if_pos hfits, if_pos hfits, if_pos hfits]
        exact h.stage (some destination)
      · rw [destinationsOf_rotate, if_neg hfits, if_neg hfits, if_neg hfits, List.append_nil]
        exact h
  | close => exact h.stage none
  | shutdown =>
      rw [destinationsOf, List.filterMap_cons_none rfl, List.filterMap_nil, List.append_nil,
        Chronicle.step, Route.step, h.closed]
      cases hclosed : route.closed with
      | true =>
          rw [if_pos rfl]
          rwa [← hclosed]
      | false =>
          obtain ⟨-, -, hcurrent, hactive, hrests, hpast, hfilled, hwritten, hdropped, hrotations,
            hopened⟩ := h.retire hclosed
          rw [if_neg Bool.false_ne_true]
          refine ⟨rfl, fun h => (by cases h), hcurrent, hactive, hrests, hpast, hfilled, hwritten,
            hdropped, hrotations, ?_⟩
          rw [Chronicle.finish, List.reduceOption_nil, List.append_nil]
          rwa [unused_retire, staged_retire] at hopened

theorem Follows.run (hpos : 0 < config.itemSize.toNat)
    (h : chronicle.Follows config opened route) (calls : List Call) :
    (chronicle.run config calls).Follows config
      (opened ++ destinationsOf config.splitHeader calls) (route.run config calls) := by
  induction calls generalizing chronicle opened route with
  | nil =>
      rw [destinationsOf, List.filterMap_nil, List.append_nil]
      exact h
  | cons call rest ih =>
      rw [destinationsOf_cons, ← List.append_assoc]
      exact ih (h.step hpos call)

theorem follows_start (config : Config) (destination : Destination) (headers : HeaderState) :
    (start config destination headers).Follows config [destination] (.start destination) := by
  refine ⟨rfl, fun _ => rfl, rfl, fun _ => ⟨rfl, rfl⟩, fun h => (by cases h), rfl,
    List.forall_mem_nil _, ?_, ?_, rfl, .refl _⟩
  · exact Nat.zero_mul _
  · exact Nat.zero_mul _

end Follows

end Chronicle

/-! ## What targets hold -/

namespace Contents

/-- A stream that has ended and holds just these items. -/
def Carries (contents : Contents) (split : Bool) (items : Bytes) : Prop :=
  ∃ readings, readings ≠ [] ∧ contents = Reading.layOut readings (.blank split) ∧
    readings.flatMap Reading.data = items ∧
    (contents.IsAddressable → contents.ReadsAs readings)

/-- A stream in use that holds just these items so far. -/
def IsCarrying (contents : Contents) (split : Bool) (items : Bytes) : Prop :=
  ∃ readings last data, contents = Reading.layOut readings (.opening split last data) ∧
    readings.flatMap Reading.data ++ data = items

theorem ofSegments_carries {size : UInt32} (hsize : size ≠ 0) (split : Bool)
    {segments : List Segment} (hproper : ∀ segment ∈ segments, segment.IsProper size)
    (hfilled : segments ≠ []) :
    (ofSegments split segments).Carries split (segments.flatMap Segment.data) := by
  refine ⟨segments.map Segment.reading, ?_, ofSegments_eq_layOut .., List.flatMap_map .., ?_⟩
  · rwa [ne_eq, List.map_eq_nil_iff]
  · exact ofSegments_readsAs hsize split hproper

end Contents

theorem Transcript.contents_isCarrying {transcript : Transcript}
    (hfresh : transcript.headers.fresh = transcript.headers)
    (hrunning : transcript.running.isSome = true) (split : Bool) :
    (transcript.contents split).IsCarrying split transcript.items := by
  obtain ⟨running, hrunning⟩ := Option.isSome_iff_exists.mp hrunning
  refine ⟨transcript.closed.map Segment.reading, transcript.headers.reading,
    running.records.flatten, ?_, ?_⟩
  · rw [Transcript.contents, hrunning, ← Contents.ofSegments_append_eq_layOut]
    let closed := Contents.ofSegments split transcript.closed
    exact congrArg (fun headers : HeaderState =>
      (closed.appendHeader headers.region).appendData running.records.flatten) hfresh.symm
  · rw [Transcript.items, Transcript.close, hrunning, List.flatMap_append, List.flatMap_map]
    exact congrArg (_ ++ ·) (List.append_nil _).symm

namespace Session

/-- The session stands where the route does, and its targets hold what the route says. -/
structure Follows (session : Session) (config : Config) (opened : List Destination)
    (route : Route) : Prop where
  closed : session.recorder.closed = route.closed
  active : session.recorder.active.map Target.places =
    route.target.map (Destination.places config.splitHeader)
  ended : ∀ stretch ∈ route.ended, ∀ destination, stretch.destination = some destination →
    (Contents.ofPlaces session.host.store (destination.places config.splitHeader)).Carries
      config.splitHeader stretch.items
  current : ∀ destination, route.target = some destination →
    (Contents.ofPlaces session.host.store (destination.places config.splitHeader)).IsCarrying
      config.splitHeader route.current.items
  idle : ∀ destination ∈ opened,
    (∀ stretch ∈ route.stretches, stretch.destination ≠ some destination) →
      Contents.ofPlaces session.host.store (destination.places config.splitHeader) =
        .blank config.splitHeader
  written : session.recorder.progress.counters.recordsWritten * config.itemSize.toNat =
    (route.share true).length
  dropped : session.recorder.progress.counters.recordsDropped * config.itemSize.toNat =
    (route.share false).length
  /-- The first target was installed at the start. -/
  rotations : session.recorder.progress.counters.rotations + 1 = route.installs

section Follows

variable {session : Session} {config : Config} {chronicle : Chronicle} {route : Route}
  {opened : List Destination} {others : List Possession}

theorem Tells.carries (hvalid : config.validate = .ok ())
    (h : session.Tells config chronicle others) (hfollows : chronicle.Follows config opened route)
    {stretch : Stretch} (hstretch : stretch ∈ route.ended) {destination : Destination}
    (hdestination : stretch.destination = some destination) :
    (Contents.ofPlaces session.host.store (destination.places config.splitHeader)).Carries
      config.splitHeader stretch.items := by
  have htold : (destination.places config.splitHeader, stretch.items) ∈
      chronicle.past.map Chapter.told := by
    rw [hfollows.past, List.mem_filterMap]
    exact ⟨stretch, hstretch, by rw [Stretch.told, hdestination]; rfl⟩
  obtain ⟨chapter, hchapter, hsame⟩ := List.mem_map.mp htold
  obtain ⟨hplaces, hitems⟩ := Prod.mk.inj hsame
  obtain ⟨hcontents, hproper⟩ := h.stands_past hchapter
  rw [← hplaces, ← hitems, hcontents]
  exact Contents.ofSegments_carries (Config.recordSize_ne_zero hvalid) _ hproper
    (hfollows.filled chapter hchapter)

theorem Tells.isCarrying (h : session.Tells config chronicle others)
    (hfollows : chronicle.Follows config opened route) {destination : Destination}
    (htarget : route.target = some destination) :
    (Contents.ofPlaces session.host.store (destination.places config.splitHeader)).IsCarrying
      config.splitHeader route.current.items := by
  have hcurrent : chronicle.current = some (destination.places config.splitHeader) := by
    rw [hfollows.current, htarget]
    rfl
  obtain ⟨target, hactive, hplaces⟩ := Option.map_eq_some_iff.mp (h.current.trans hcurrent)
  obtain ⟨hkeeps, hproper, hrunning, hdirect, -⟩ := h.records target hactive
  rw [← hplaces, ← Target.stored_eq]
  have hstored : target.stored session.host.store = chronicle.tape.contents config.splitHeader :=
    hkeeps.outlet.stored hdirect
  rw [hstored, ← (hfollows.active (by rw [hcurrent]; rfl)).2]
  exact Transcript.contents_isCarrying hproper.fresh hrunning _

theorem Tells.isIdle (h : session.Tells config chronicle others)
    (hfollows : chronicle.Follows config opened route) {destination : Destination}
    (hopened : destination ∈ opened)
    (hunnamed : ∀ stretch ∈ route.stretches, ∀ other, stretch.destination = some other →
      other.places config.splitHeader ≠ destination.places config.splitHeader) :
    Contents.ofPlaces session.host.store (destination.places config.splitHeader) =
      .blank config.splitHeader := by
  have hstand := h.possessions.stand
  have hended : ∀ stretch ∈ route.ended, stretch ∈ route.stretches := by
    intro stretch hstretch
    rw [Route.ended] at hstretch
    split at hstretch
    · exact hstretch
    · exact List.mem_append_left _ hstretch
  have hmem : destination.places config.splitHeader ∈ _ :=
    hfollows.opened.mem_iff.mpr (List.mem_map_of_mem hopened)
  rcases List.mem_append.mp hmem with hmem | hmem
  · rcases List.mem_append.mp hmem with hpast | hcurrent
    · obtain ⟨chapter, hchapter, hplaces⟩ := List.mem_map.mp hpast
      have htold : chapter.told ∈ chronicle.past.map Chapter.told := List.mem_map_of_mem hchapter
      rw [hfollows.past, List.mem_filterMap] at htold
      obtain ⟨stretch, hstretch, htold⟩ := htold
      obtain ⟨other, hother, hsame⟩ := Option.map_eq_some_iff.mp htold
      exact absurd ((Prod.mk.inj hsame).1.trans hplaces)
        (hunnamed stretch (hended stretch hstretch) other hother)
    · rw [Option.mem_toList, hfollows.current] at hcurrent
      obtain ⟨other, htarget, hplaces⟩ := Option.map_eq_some_iff.mp hcurrent
      rw [Route.target] at htarget
      split at htarget
      · cases htarget
      · exact absurd hplaces (hunnamed route.current
          (List.mem_append_right _ List.mem_cons_self) other htarget)
  · rcases List.mem_append.mp hmem with hunused | hstaged
    · have hsettled : Possession.settled (destination.places config.splitHeader) [] ∈
          chronicle.settled :=
        List.mem_append_right _ (List.mem_map_of_mem hunused)
      exact (hstand _ (List.mem_append_right _ (List.mem_append_left _ hsettled))).1
    · rw [List.reduceOption_mem_iff, ← h.staged] at hstaged
      obtain ⟨command, hcommand, hplaces⟩ := List.mem_map.mp hstaged
      cases command with
      | detach => cases hplaces
      | install target =>
          have hpossession : Possession.staged target ∈
              stagedIn session.recorder.rotation.staged :=
            List.mem_filterMap.mpr ⟨_, hcommand, rfl⟩
          obtain ⟨hkeeps, hdirect, -⟩ := hstand _ (List.mem_append_left _ hpossession)
          rw [← Option.some.inj hplaces, ← Target.stored_eq]
          exact hkeeps.stored hdirect

end Follows

end Session

/-! ## Runs -/

/-- A recorder at its start, and the calls that come. -/
structure Run where
  config : Config
  destination : Destination
  host : Host := {}
  calls : List Call

namespace Run

def destinations (run : Run) : List Destination :=
  run.destination :: destinationsOf run.config.splitHeader run.calls

/-- Nothing can fail: the targets are in memory, blank, and apart from each other. -/
structure IsClean (run : Run) : Prop where
  usable : run.config.IsUsable
  blank : ∀ destination ∈ run.destinations,
    destination.IsBlank run.config.splitHeader run.host.store ∧ destination.faultsAhead = 0
  apart : (run.destinations.flatMap (Destination.places run.config.splitHeader)).Nodup

theorem IsClean.exists_tells {run : Run} (h : run.IsClean) :
    ∃ headers recorder started,
      HeaderState.start run.config = .ok headers ∧
      Recorder.start run.config run.destination run.host = .ok recorder started ∧
      ∀ first later, run.calls = first ++ later →
        (Session.after ⟨recorder, started⟩ first).Tells run.config
          ((Chronicle.start run.config run.destination headers).run run.config first)
          ((destinationsOf run.config.splitHeader later).map .reserved) := by
  obtain ⟨husable, hblank, hapart⟩ := h
  obtain ⟨⟨hfirst, hquiet⟩, hothers⟩ := List.forall_mem_cons.mp hblank
  obtain ⟨headers, recorder, started, target, hheaders, hstart, hstarted⟩ :=
    Recorder.exists_start husable hfirst hquiet
  refine ⟨headers, recorder, started, hheaders, hstart, fun first later hcalls => ?_⟩
  have htells := hstarted.tells (HeaderState.of_start hheaders) hquiet hothers hapart
  rw [hcalls, destinationsOf_append, List.map_append] at htells
  exact Session.after_tells husable.1 first htells

/-- Destinations apart from each other differ in their places. -/
theorem IsClean.eq_of_places {run : Run} (h : run.IsClean) {first second : Destination}
    (hfirst : first ∈ run.destinations) (hsecond : second ∈ run.destinations)
    (hplaces : first.places run.config.splitHeader = second.places run.config.splitHeader) :
    first = second := by
  have hpairwise := (List.nodup_flatMap.mp h.apart).2
  have hsymmetric : Std.Symm (Function.onFun List.Disjoint
      (Destination.places run.config.splitHeader)) := 
    ⟨fun _ _ hdisjoint _ hfirst hsecond => hdisjoint hsecond hfirst⟩
  by_contra hne
  have hdisjoint := hpairwise.forall hfirst hsecond hne
  have hsome : second.places run.config.splitHeader ≠ [] := by
    have hblank := (h.blank second hsecond).1
    cases second with
    | file path => exact hblank.elim
    | memory data header => exact List.cons_ne_nil _ _
    | channels data header => exact List.cons_ne_nil _ _
  obtain ⟨place, rest, hplace⟩ := List.exists_cons_of_ne_nil hsome
  have hmem : place ∈ second.places run.config.splitHeader := by
    rw [hplace]
    exact List.mem_cons_self
  exact hdisjoint (hplaces ▸ hmem) hmem

/--
At every point of a run a batch of whole records is taken whole unless the run
has ended, and only then does a request take effect, the last one since the
batch before.  The accepted input is in order what went to the targets and what
was dropped; each target holds its stretch of it and, once it is let go of, is
a stream that has ended; targets that no batch went to hold nothing; and the
counts are those of the stretches.
-/
theorem after_follows (run : Run) (hclean : run.IsClean) :
    ∃ recorder started,
      Recorder.start run.config run.destination run.host = .ok recorder started ∧
      ∀ first later, run.calls = first ++ later →
        let session := Session.after ⟨recorder, started⟩ first
        let route := (Route.start run.destination).run run.config first
        session.Follows run.config
            (run.destination :: destinationsOf run.config.splitHeader first) route ∧
          route.items = acceptedItems run.config.itemSize.toNat first ∧
          ∀ items tags, route.closed = false →
            items.length % run.config.itemSize.toNat = 0 →
            ∃ next,
              session.work items tags = .ok (items.length / run.config.itemSize.toNat) next := by
  obtain ⟨headers, recorder, started, -, hstart, hbegun⟩ := hclean.exists_tells
  have hvalid := hclean.usable.1
  refine ⟨recorder, started, hstart, fun first later hcalls => ?_⟩
  have htells := hbegun first later hcalls
  have hfollows := (Chronicle.follows_start run.config run.destination headers).run
    (Config.itemSize_pos hvalid) first
  rw [List.singleton_append] at hfollows
  have hopened : ∀ destination ∈ run.destination :: destinationsOf run.config.splitHeader first,
      destination ∈ run.destinations := by
    intro destination hdestination
    rw [destinations, hcalls, destinationsOf_append, ← List.cons_append]
    exact List.mem_append_left _ hdestination
  refine ⟨⟨?_, ?_, ?_, ?_, ?_, ?_, ?_, ?_⟩, Route.items_run rfl first, ?_⟩
  · exact htells.closed.trans hfollows.closed
  · exact htells.current.trans hfollows.current
  · exact fun stretch hstretch destination => htells.carries hvalid hfollows hstretch
  · exact fun destination => htells.isCarrying hfollows
  · intro destination hdestination hnone
    refine htells.isIdle hfollows hdestination fun stretch hstretch other hother hplaces => ?_
    have hnamed := hopened other (Route.mem_of_run_start hstretch hother)
    obtain rfl := hclean.eq_of_places hnamed (hopened destination hdestination) hplaces
    exact hnone stretch hstretch hother
  · rw [← hfollows.written, ← htells.counters]
    rfl
  · rw [← hfollows.dropped, ← htells.counters]
    rfl
  · rw [← hfollows.rotations, ← htells.counters]
    rfl
  · intro items tags hopen hwhole
    have hwork := Session.work_tells hvalid htells items tags
    rw [hfollows.closed, hopen] at hwork
    have htaken : Ends (Session.work items tags) _
        (fun total _ => total = items.length / run.config.itemSize.toNat) (fun _ _ => False) :=
      hwork.mono (fun _ _ htotal => htotal.1)
        fun _ _ hrefused => hrefused.1.elim Bool.false_ne_true fun hbroken => hbroken hwhole
    obtain ⟨total, next, hok, rfl⟩ := htaken.exists_ok
    exact ⟨next, hok⟩

/-- A request that is superseded, a batch that is dropped, and a request that comes too late. -/
theorem after_follows_superseded :
    let first := Destination.memory "first" "first headers"
    let unused := Destination.memory "unused" "unused headers"
    let second := Destination.memory "second" "second headers"
    let late := Destination.memory "late" "late headers"
    let run : Run :=
      { config := { maxSegmentSize := 2, splitHeader := true }
        destination := first
        calls := [.work [1, 2, 3] [], .rotate unused, .rotate second, .update "size" (.uint 5),
          .work [4, 5] [⟨4, "version", .uint 2⟩], .close, .work [6] [], .rotate late, .shutdown,
          .work [7] []] }
    let route := (Route.start first).run run.config run.calls
    run.IsClean ∧
      route.stretches = [⟨some first, [1, 2, 3]⟩, ⟨some second, [4, 5]⟩, ⟨none, [6]⟩] ∧
      ∃ recorder started, Recorder.start run.config first {} = .ok recorder started ∧
        (Session.after ⟨recorder, started⟩ run.calls).Follows run.config
          [first, unused, second, late] route := by
  intro first unused second late run route
  have hclean : run.IsClean := by
    have husable : Config.IsUsable { maxSegmentSize := 2, splitHeader := true } := ⟨rfl, _, rfl⟩
    refine ⟨husable, ?_, by decide⟩
    simp [run, destinations, destinationsOf, first, unused, second, late, Destination.fits,
      Destination.IsBlank, Destination.faultsAhead]
  obtain ⟨recorder, started, hstart, hbegun⟩ := after_follows run hclean
  have hstretches : route.stretches =
      [⟨some first, [1, 2, 3]⟩, ⟨some second, [4, 5]⟩, ⟨none, [6]⟩] := by decide
  exact ⟨hclean, hstretches, recorder, started, hstart, (hbegun run.calls [] rfl).1⟩

end Run

end SegmentStream
