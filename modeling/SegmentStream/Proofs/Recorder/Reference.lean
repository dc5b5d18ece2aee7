import SegmentStream.Proofs.Recorder.Reading

/-!
# The reference segmentation

The segments of a stream, from its records and from what arrived at which of
them.  A stream is cut at its start and wherever something arrives, and each gap
between cuts is filled in runs of the most records a segment may have.
-/

namespace SegmentStream

/-! ## Cuts -/

/-- What arrives at a record of a stream; a refused update cuts without effect. -/
structure Arrival where
  position : Nat
  update : Option HeaderUpdate

def cuesAt (arrivals : List Arrival) : Cues := fun index =>
  (arrivals.filter fun arrival => arrival.position == index).map Arrival.update

/-- Where a stream of so many records is cut. -/
def cutPoints (total : Nat) (arrivals : List Arrival) : List Nat :=
  (List.range (total + 1)).filter fun position =>
    position == 0 || arrivals.any fun arrival => arrival.position == position

/-- What lies between cuts; the last gap ends with the stream. -/
def gaps (total : Nat) (cuts : List Nat) : List (Nat × Nat) := cuts.zip (cuts.tail ++ [total])

def runs (ceiling start stop : Nat) : List (Nat × Nat) :=
  if ceiling = 0 ∨ stop ≤ start then []
  else (start, min (start + ceiling) stop) :: runs ceiling (start + ceiling) stop
termination_by stop - start

/-- The records of each segment.  A cut at the end of the stream leaves an empty one. -/
def ranges (ceiling total : Nat) (cuts : List Nat) : List (Nat × Nat) :=
  ((gaps total cuts).flatMap fun gap => runs ceiling gap.1 gap.2) ++
    if cuts.getLast? = some total then [(total, total)] else []

/-! ## Headers -/

/-- What is in force at a record: one record's time passes for each before it. -/
def inForce (cues : Cues) (headers : HeaderState) : Nat → HeaderState
  | 0 => headers.applyAll (cues 0)
  | index + 1 => ((inForce cues headers index).advance 1).applyAll (cues (index + 1))

/-- A closed segment of these records with the header in force at the first of them. -/
def HeaderState.segment (state : HeaderState) (records : List Bytes) : Segment :=
  let measured := state.measure (records.length * state.header.itemSize.toNat)
  ⟨measured.header, measured.extras, records⟩

def held (records : List Bytes) (range : Nat × Nat) : List Bytes :=
  (records.take range.2).drop range.1

def segmentAt (cues : Cues) (headers : HeaderState) (records : List Bytes) (range : Nat × Nat) :
    Segment :=
  (inForce cues headers range.1).segment (held records range)

/-- The segments of a stream. -/
def reference (ceiling : Nat) (headers : HeaderState) (arrivals : List Arrival)
    (records : List Bytes) : List Segment :=
  (ranges ceiling records.length (cutPoints records.length arrivals)).map
    (segmentAt (cuesAt arrivals) headers records)

/-! ## Runs -/

section Runs

variable {ceiling start stop : Nat}

@[simp] theorem runs_self (ceiling start : Nat) : runs ceiling start start = [] := by
  rw [runs, if_pos (.inr (Nat.le_refl _))]

theorem runs_of_le (hceiling : 0 < ceiling) (hlt : start < stop) (hle : stop ≤ start + ceiling) :
    runs ceiling start stop = [(start, stop)] := by
  rw [runs, if_neg (by omega), Nat.min_eq_right hle, runs, if_pos (.inr hle)]

theorem runs_of_lt (hceiling : 0 < ceiling) (hlt : start + ceiling < stop) :
    runs ceiling start stop =
      (start, start + ceiling) :: runs ceiling (start + ceiling) stop := by
  rw [runs, if_neg (by omega), Nat.min_eq_left (Nat.le_of_lt hlt)]

theorem runs_length (hceiling : 0 < ceiling) (start stop : Nat) :
    (runs ceiling start stop).length = (stop - start + ceiling - 1) / ceiling := by
  fun_induction runs ceiling start stop with
  | case1 start hempty =>
      have hle : stop ≤ start := by omega
      rw [Nat.sub_eq_zero_of_le hle, List.length_nil, Nat.zero_add, Nat.div_eq_of_lt (by omega)]
  | case2 start hne ih =>
      rw [List.length_cons, ih]
      by_cases hle : stop ≤ start + ceiling
      · have hsum : stop - start + ceiling - 1 = stop - start - 1 + ceiling := by omega
        rw [Nat.sub_eq_zero_of_le hle, Nat.zero_add, Nat.div_eq_of_lt (by omega), hsum,
          Nat.add_div_right _ hceiling, Nat.div_eq_of_lt (by omega)]
      · have hsum : stop - start + ceiling - 1 =
            stop - (start + ceiling) + ceiling - 1 + ceiling := by
          omega
        rw [hsum, Nat.add_div_right _ hceiling]

theorem held_eq (records : List Bytes) (first last : Nat) :
    held records (first, last) = (records.drop first).take (last - first) := by
  rw [held, List.drop_take]

theorem held_length {records : List Bytes} {last : Nat} (first : Nat) (h : last ≤ records.length) :
    (held records (first, last)).length = last - first := by
  rw [held_eq, List.length_take, List.length_drop]
  omega

theorem held_append (records : List Bytes) {first middle last : Nat} (h : first ≤ middle)
    (h' : middle ≤ last) : held records (first, middle) ++ held records (middle, last) =
      held records (first, last) := by
  have hsum : last - first = (middle - first) + (last - middle) := by omega
  have hmiddle : first + (middle - first) = middle := by omega
  rw [held_eq, held_eq, held_eq, hsum, List.take_add, List.drop_drop, hmiddle]

theorem held_self (records : List Bytes) (index : Nat) : held records (index, index) = [] := by
  rw [held_eq, Nat.sub_self, List.take_zero]

theorem runs_held (hceiling : 0 < ceiling) (records : List Bytes) (start stop : Nat) :
    (runs ceiling start stop).flatMap (held records) = held records (start, stop) := by
  fun_induction runs ceiling start stop with
  | case1 start hempty =>
      have hle : stop ≤ start := by omega
      rw [held_eq, Nat.sub_eq_zero_of_le hle, List.take_zero, List.flatMap_nil]
  | case2 start hne ih =>
      rw [List.flatMap_cons, ih]
      by_cases hle : stop ≤ start + ceiling
      · rw [Nat.min_eq_right hle, held_eq _ (start + ceiling), Nat.sub_eq_zero_of_le hle,
          List.take_zero, List.append_nil]
      · rw [Nat.min_eq_left (by omega), held_append _ (by omega) (by omega)]

/-- Cuts in order, the last of them inside the stream or at its end. -/
structure IsOrdered (total : Nat) (cuts : List Nat) : Prop where
  pairwise : cuts.Pairwise (· < ·)
  inside : ∀ cut ∈ cuts, cut ≤ total

theorem IsOrdered.tail {total cut : Nat} {rest : List Nat} (h : IsOrdered total (cut :: rest)) :
    IsOrdered total rest :=
  ⟨(List.pairwise_cons.mp h.pairwise).2, fun other hother =>
    h.inside other (List.mem_cons_of_mem _ hother)⟩

theorem ranges_cons (ceiling total cut next : Nat) (rest : List Nat) :
    ranges ceiling total (cut :: next :: rest) =
      runs ceiling cut next ++ ranges ceiling total (next :: rest) := by
  rw [ranges, ranges, ← List.append_assoc, List.getLast?_cons_cons]
  rfl

theorem ranges_last (ceiling total cut : Nat) :
    ranges ceiling total [cut] =
      runs ceiling cut total ++ if cut = total then [(total, total)] else [] := by
  simp [ranges, gaps]

/-- The segments hold the records from the first cut on, in their order. -/
theorem ranges_held (hceiling : 0 < ceiling) (records : List Bytes) {total cut : Nat}
    {rest : List Nat} (h : IsOrdered total (cut :: rest)) :
    (ranges ceiling total (cut :: rest)).flatMap (held records) =
      held records (cut, total) := by
  induction rest generalizing cut with
  | nil =>
      rw [ranges_last, List.flatMap_append, runs_held hceiling]
      split
      · simp [held_self]
      · simp
  | cons next rest ih =>
      have hlt := (List.pairwise_cons.mp h.pairwise).1 next List.mem_cons_self
      have hle := h.inside next (List.mem_cons_of_mem _ List.mem_cons_self)
      rw [ranges_cons, List.flatMap_append, runs_held hceiling, ih h.tail,
        held_append _ (Nat.le_of_lt hlt) hle]

end Runs

/-! ## Time between cuts -/

section Time

variable {cues : Cues} (headers : HeaderState)

theorem HeaderState.advance_advance (state : HeaderState) (first second : Nat) :
    (state.advance first).advance second = state.advance (first + second) := by
  simp only [HeaderState.advance, Clock.advance]
  by_cases hfirst : first = 0
  · subst hfirst
    simp
  · by_cases hsecond : second = 0
    · subst hsecond
      simp [hfirst]
    · simp [hfirst, hsecond, Clock.effectiveRate, Nat.add_assoc]

theorem advance_of_silent {start : Nat} (count : Nat)
    (hsilent : ∀ index, start < index → index ≤ start + count → cues index = []) :
    (inForce cues headers (start + count)).advance 1 =
      (inForce cues headers start).advance (count + 1) := by
  induction count with
  | zero => rfl
  | succ count ih =>
      have hnone : cues (start + count + 1) = [] := hsilent _ (by omega) (by omega)
      have hbefore := ih fun index hlt hle => hsilent index hlt (by omega)
      rw [← Nat.add_assoc, inForce, hnone, HeaderState.applyAll_nil, hbefore,
        HeaderState.advance_advance]

theorem inForce_of_silent {start count : Nat} (hpos : 0 < count)
    (hsilent : ∀ index, start < index → index ≤ start + count → cues index = []) :
    inForce cues headers (start + count) = (inForce cues headers start).advance count := by
  obtain ⟨before, rfl⟩ := Nat.exists_eq_succ_of_ne_zero (Nat.ne_of_gt hpos)
  have hnone : cues (start + before + 1) = [] := hsilent _ (by omega) (by omega)
  have hbefore := advance_of_silent headers before fun index hlt hle =>
    hsilent index hlt (by omega)
  rw [Nat.add_succ, inForce, hnone, HeaderState.applyAll_nil, hbefore]

end Time

/-! ## Acts behind a cut -/

/-- Records and cuts behind the cuts at record `first`. -/
def after (cues : Cues) : Nat → List Bytes → List Act
  | _, [] => []
  | first, record :: rest =>
      .record record :: ((cues (first + 1)).map .cut ++ after cues (first + 1) rest)

/-- All acts of a stream: the script of its records, then the cuts at its end. -/
def weave (cues : Cues) (first : Nat) (records : List Bytes) : List Act :=
  script cues first records ++ (cues (first + records.length)).map .cut

section Acts

variable (cues : Cues)

theorem weave_eq (first : Nat) (records : List Bytes) :
    weave cues first records = (cues first).map .cut ++ after cues first records := by
  rw [weave]
  induction records generalizing first with
  | nil => simp [script, after]
  | cons record rest ih =>
      have hlast : first + (record :: rest).length = first + 1 + rest.length := by
        rw [List.length_cons]
        omega
      rw [script, after, hlast, List.append_assoc, List.cons_append, ih]

theorem after_congr {cues cues' : Cues} {first : Nat} {records : List Bytes}
    (h : ∀ index, first < index → cues index = cues' index) :
    after cues first records = after cues' first records := by
  induction records generalizing first with
  | nil => rfl
  | cons record rest ih =>
      rw [after, after, h (first + 1) (Nat.lt_succ_self _),
        ih fun index hlt => h index (Nat.lt_of_succ_lt hlt)]

theorem after_append {cues : Cues} {first : Nat} {front : List Bytes} (hfront : front ≠ [])
    (hsilent : ∀ index, first < index → index < first + front.length → cues index = [])
    (back : List Bytes) :
    after cues first (front ++ back) = front.map .record ++
      ((cues (first + front.length)).map .cut ++ after cues (first + front.length) back) := by
  induction front generalizing first with
  | nil => exact absurd rfl hfront
  | cons record rest ih =>
      cases rest with
      | nil => rfl
      | cons next more =>
          have hlength : first + (record :: next :: more).length =
              first + 1 + (next :: more).length := by
            simp only [List.length_cons]
            omega
          rw [hlength] at hsilent ⊢
          have hnone : cues (first + 1) = [] := hsilent _ (by omega) (by simp)
          have hmore := ih (List.cons_ne_nil _ _) fun index hlt hle => hsilent index (by omega) hle
          rw [List.cons_append, after, hmore, hnone]
          rfl

theorem after_held {cues : Cues} {all : List Bytes} {cut stop : Nat} (hlt : cut < stop)
    (hstop : stop ≤ all.length) (hsilent : ∀ index, cut < index → index < stop → cues index = [])
    (back : List Bytes) :
    after cues cut (held all (cut, stop) ++ back) = (held all (cut, stop)).map .record ++
      ((cues stop).map .cut ++ after cues stop back) := by
  have hlength := held_length cut hstop
  have hend : cut + (held all (cut, stop)).length = stop := by omega
  have hne : held all (cut, stop) ≠ [] := List.ne_nil_of_length_pos (by omega)
  have happend := after_append hne (by rwa [hend]) back
  rwa [hend] at happend

end Acts

/-! ## Playing up to the next cut -/

namespace Transcript

/-- A segment without records is open, behind these closed ones. -/
structure OpensAt (transcript : Transcript) (closed : List Segment) (headers : HeaderState) :
    Prop where
  closed : transcript.closed = closed
  headers : transcript.headers = headers.fresh
  running : ∃ slotLength, transcript.running = some ⟨slotLength, []⟩

/-- A segment with records is open; once closed, it is the last of these. -/
structure Fills (transcript : Transcript) (closed : List Segment) (headers : HeaderState) :
    Prop where
  closed : transcript.close.closed = closed
  headers : transcript.close.headers = headers.fresh
  running : ∃ slotLength record rest, transcript.running = some ⟨slotLength, record :: rest⟩

section Gap

variable {ceiling : Nat} {transcript : Transcript} {closed : List Segment}
  {state headers : HeaderState}

theorem OpensAt.of_alike {other : Transcript} (h : transcript.OpensAt closed state)
    (halike : other.Alike transcript) : other.OpensAt closed state := by
  obtain ⟨hclosed, hheaders, slotLength, hrunning⟩ := h
  refine ⟨halike.closed.trans hclosed, halike.headers.trans hheaders, ?_⟩
  have hrecords := halike.records
  rw [hrunning] at hrecords
  obtain ⟨⟨slotLength', records⟩, hrunning', rfl⟩ := Option.map_eq_some_iff.mp hrecords
  exact ⟨slotLength', hrunning'⟩

theorem OpensAt.room (h : transcript.OpensAt closed state) : transcript.room ceiling = ceiling := by
  obtain ⟨slotLength, hrunning⟩ := h.running
  rw [Transcript.room, hrunning]
  rfl

theorem OpensAt.close_append (h : transcript.OpensAt closed state) (records : List Bytes) :
    (transcript.append records).close.closed = closed ++ [state.segment records] ∧
      (transcript.append records).close.headers = (state.advance records.length).fresh := by
  obtain ⟨rfl, hheaders, slotLength, hrunning⟩ := h
  simp only [append, Transcript.close, hrunning, Option.map_some, List.nil_append, hheaders]
  exact ⟨rfl, rfl⟩

theorem OpensAt.fills (h : transcript.OpensAt closed state) {records : List Bytes}
    (hne : records ≠ []) : (transcript.append records).Fills (closed ++ [state.segment records])
      (state.advance records.length) := by
  obtain ⟨hclosed, hheaders⟩ := h.close_append records
  obtain ⟨slotLength, hrunning⟩ := h.running
  obtain ⟨record, rest, rfl⟩ := List.exists_cons_of_ne_nil hne
  refine ⟨hclosed, hheaders, slotLength, record, rest, ?_⟩
  rw [append, hrunning]
  rfl

theorem OpensAt.roll (h : transcript.OpensAt closed state) (records : List Bytes) :
    (transcript.append records).roll.OpensAt (closed ++ [state.segment records])
      (state.advance records.length) := by
  obtain ⟨hclosed, hheaders⟩ := h.close_append records
  exact ⟨hclosed, hheaders, _, rfl⟩

theorem Fills.cuts (h : transcript.Fills closed state) {updates : List (Option HeaderUpdate)}
    (hne : updates ≠ []) : (transcript.play ceiling (updates.map .cut)).OpensAt closed
      (state.applyAll updates) := by
  obtain ⟨hclosed, hheaders, slotLength, record, records, hrunning⟩ := h
  obtain ⟨update, rest, rfl⟩ := List.exists_cons_of_ne_nil hne
  let next := ((transcript.countTag update).close.apply update).openNext
  have hnext : next.closed = closed ∧ next.headers = (state.applySome update).fresh := by
    have hsame : (transcript.countTag update).close.closed = transcript.close.closed ∧
        (transcript.countTag update).close.headers = transcript.close.headers := by
      simp only [Transcript.close, countTag, hrunning]
      exact ⟨rfl, trivial⟩
    refine ⟨hsame.1.trans hclosed, ?_⟩
    rw [← HeaderState.fresh_applySome, ← hheaders, ← hsame.2]
    rfl
  have hstep : transcript.step ceiling (.cut update) = next := by
    simp only [step, boundary, countTag, hrunning, next]
  have hopens : OpensAt { next with headers := (next.headers.applyAll rest).fresh } closed
      (state.applyAll (update :: rest)) := by
    refine ⟨hnext.1, ?_, _, rfl⟩
    simp only [hnext.2, HeaderState.fresh_applyAll, HeaderState.applyAll_cons]
  rw [List.map_cons, play_cons, hstep]
  refine hopens.of_alike (play_cuts ceiling rfl ?_ rest)
  rw [hnext.2, HeaderState.fresh_fresh]

theorem OpensAt.play_gap {cues : Cues} {all : List Bytes} (hceiling : 0 < ceiling)
    {start stop : Nat} (h : transcript.OpensAt closed (inForce cues headers start))
    (hlt : start < stop) (hstop : stop ≤ all.length)
    (hsilent : ∀ index, start < index → index < stop → cues index = []) :
    (transcript.play ceiling ((held all (start, stop)).map .record)).Fills
      (closed ++ (runs ceiling start stop).map (segmentAt cues headers all))
      ((inForce cues headers (stop - 1)).advance 1) := by
  induction hcount : stop - start using Nat.strong_induction_on
    generalizing start closed transcript with
  | _ count ih =>
      by_cases hfits : stop ≤ start + ceiling
      · have hall := held_length start hstop
        have hne : held all (start, stop) ≠ [] := List.ne_nil_of_length_pos (by omega)
        have htime : (inForce cues headers (start + (stop - 1 - start))).advance 1 =
            (inForce cues headers start).advance (stop - 1 - start + 1) :=
          advance_of_silent headers _ fun index hlt hle => hsilent index hlt (by omega)
        have hlast : start + (stop - 1 - start) = stop - 1 := by omega
        have hsum : stop - 1 - start + 1 = (held all (start, stop)).length := by omega
        rw [hlast, hsum] at htime
        rw [play_records (by rw [h.room]; omega), runs_of_le hceiling hlt hfits, htime]
        exact h.fills hne
      · have hfirst : (held all (start, start + ceiling)).length = start + ceiling - start :=
          held_length start (by omega)
        have hrest := held_length (start + ceiling) hstop
        have hrolled := h.roll (held all (start, start + ceiling))
        rw [hfirst, Nat.add_sub_cancel_left, ← inForce_of_silent headers hceiling
          fun index hlt hle => hsilent index hlt (by omega)] at hrolled
        have hlater := ih (stop - (start + ceiling)) (by omega) hrolled (by omega)
          (fun index hlt => hsilent index (by omega)) rfl
        obtain ⟨record, records, hrecords⟩ : ∃ record records,
            held all (start + ceiling, stop) = record :: records :=
          List.exists_cons_of_ne_nil (List.ne_nil_of_length_pos (by omega))
        have hroom : (transcript.append (held all (start, start + ceiling))).room ceiling = 0 := by
          rw [room_append (by rw [h.room]; omega), h.room]
          omega
        have hfront : transcript.play ceiling ((held all (start, start + ceiling)).map .record) =
            transcript.append (held all (start, start + ceiling)) :=
          play_records (by rw [h.room]; omega)
        rw [List.append_assoc, hrecords, List.map_cons, play_roll hceiling hroom] at hlater
        rw [runs_of_lt hceiling (by omega), ← held_append all (Nat.le_add_right start ceiling)
          (by omega), List.map_append, play_append, hfront, hrecords]
        exact hlater

/-- From one cut to the end of the stream. -/
theorem OpensAt.play_after {cues : Cues} {all : List Bytes} (hceiling : 0 < ceiling) {cut : Nat}
    {rest : List Nat} (h : transcript.OpensAt closed (inForce cues headers cut))
    (hordered : IsOrdered all.length (cut :: rest))
    (hcuts : ∀ index, cut < index → index ≤ all.length → (cues index ≠ [] ↔ index ∈ rest)) :
    (transcript.play ceiling (after cues cut (held all (cut, all.length)))).close.closed =
      closed ++ (ranges ceiling all.length (cut :: rest)).map (segmentAt cues headers all) := by
  induction rest generalizing transcript closed cut with
  | nil =>
      have hnone : ∀ index, cut < index → index ≤ all.length → cues index = [] := by
        intro index hlt hle
        simpa using hcuts index hlt hle
      rw [ranges_last]
      rcases Nat.eq_or_lt_of_le (hordered.inside cut List.mem_cons_self) with rfl | hlt
      · have hclosed := (h.close_append []).1
        rw [append_nil] at hclosed
        rw [held_self, runs_self, if_pos rfl, after, play_nil, hclosed]
        simp only [List.nil_append, List.map_cons, List.map_nil, segmentAt, held_self]
      · have hsilent := fun index hlt hless => hnone index hlt (Nat.le_of_lt hless)
        have hfills := h.play_gap hceiling hlt (Nat.le_refl _) hsilent
        have hacts := after_held hlt (Nat.le_refl _) hsilent []
        rw [hnone all.length hlt (Nat.le_refl _), after, List.append_nil, List.map_nil,
          List.append_nil, List.append_nil] at hacts
        rw [if_neg (Nat.ne_of_lt hlt), List.append_nil, hacts]
        exact hfills.closed
  | cons next rest ih =>
      obtain ⟨hafter, hpairwise⟩ := List.pairwise_cons.mp hordered.pairwise
      have hlt := hafter next List.mem_cons_self
      have hle := hordered.inside next (List.mem_cons_of_mem _ List.mem_cons_self)
      have hlater := (List.pairwise_cons.mp hpairwise).1
      have hsilent : ∀ index, cut < index → index < next → cues index = [] := by
        intro index hcut hnext
        by_contra hne
        rcases List.mem_cons.mp ((hcuts index hcut (by omega)).mp hne) with rfl | hmem
        · exact Nat.lt_irrefl _ hnext
        · exact Nat.lt_asymm hnext (hlater index hmem)
      have hcues : cues next ≠ [] := (hcuts next hlt hle).mpr List.mem_cons_self
      have hforce : inForce cues headers next =
          ((inForce cues headers (next - 1)).advance 1).applyAll (cues next) := by
        obtain ⟨before, rfl⟩ := Nat.exists_eq_succ_of_ne_zero (Nat.ne_zero_of_lt hlt)
        rfl
      have hfills := h.play_gap hceiling hlt hle hsilent
      let later := (transcript.play ceiling ((held all (cut, next)).map .record)).play ceiling
        ((cues next).map .cut)
      have hopens : later.OpensAt (closed ++ (runs ceiling cut next).map
          (segmentAt cues headers all)) (inForce cues headers next) := by
        rw [hforce]
        exact hfills.cuts hcues
      have hrest := ih hopens hordered.tail fun index hnext hindex => by
        rw [hcuts index (Nat.lt_trans hlt hnext) hindex, List.mem_cons]
        exact ⟨fun h => h.resolve_left (Nat.ne_of_gt hnext), .inr⟩
      rw [← held_append all (Nat.le_of_lt hlt) hle, after_held hlt hle hsilent, play_append,
        play_append, hrest, ranges_cons, List.map_append, List.append_assoc]

end Gap

end Transcript

/-! ## Whole streams -/

section Streams

variable {ceiling : Nat} {headers : HeaderState}

theorem cuesAt_ne_nil (arrivals : List Arrival) (index : Nat) :
    cuesAt arrivals index ≠ [] ↔
      (arrivals.any fun arrival => arrival.position == index) = true := by
  simp [cuesAt, List.filter_eq_nil_iff]

/-- The first cut is at the start; behind it the stream is cut where something arrives. -/
theorem exists_cutPoints (total : Nat) (arrivals : List Arrival) :
    ∃ rest, cutPoints total arrivals = 0 :: rest ∧ IsOrdered total (0 :: rest) ∧
      ∀ index, 0 < index → index ≤ total → (cuesAt arrivals index ≠ [] ↔ index ∈ rest) := by
  let isCut (position : Nat) : Bool :=
    position == 0 || arrivals.any fun arrival => arrival.position == position
  have hcons : cutPoints total arrivals = 0 :: ((List.range total).map Nat.succ).filter isCut := by
    rw [cutPoints, List.range_succ_eq_map, List.filter_cons_of_pos rfl]
  have hmem : ∀ index, index ∈ cutPoints total arrivals ↔ index ≤ total ∧ isCut index = true := by
    intro index
    rw [cutPoints, List.mem_filter, List.mem_range, Nat.lt_succ_iff]
  refine ⟨_, hcons, ⟨?_, ?_⟩, ?_⟩
  · rw [← hcons]
    exact List.pairwise_lt_range.filter _
  · rw [← hcons]
    exact fun cut hcut => ((hmem cut).mp hcut).1
  · intro index hpos hle
    have hne : index ≠ 0 := Nat.ne_of_gt hpos
    have hcut : isCut index = arrivals.any fun arrival => arrival.position == index := by
      simp [isCut, hne]
    have hiff := hmem index
    rw [hcons, List.mem_cons, or_iff_right hne, hcut] at hiff
    rw [cuesAt_ne_nil, hiff]
    exact (and_iff_right hle).symm

/-- The segments of a stream are those of the reference. -/
theorem Transcript.play_weave (hceiling : 0 < ceiling) (hfresh : headers.fresh = headers)
    (arrivals : List Arrival) (records : List Bytes) :
    ((openNext { headers }).play ceiling (weave (cuesAt arrivals) 0 records)).close.closed =
      reference ceiling headers arrivals records := by
  obtain ⟨rest, hcuts, hordered, hrest⟩ := exists_cutPoints records.length arrivals
  have hall : held records (0, records.length) = records := by
    rw [held, List.take_length, List.drop_zero]
  have hopens : OpensAt ((openNext { headers }).play ceiling ((cuesAt arrivals 0).map .cut)) []
      (inForce (cuesAt arrivals) headers 0) := by
    refine OpensAt.of_alike ?_ (play_cuts ceiling rfl hfresh _)
    exact ⟨rfl, rfl, _, rfl⟩
  have hplay := hopens.play_after hceiling hordered hrest
  rw [hall] at hplay
  rw [weave_eq, play_append, hplay, reference, hcuts, List.nil_append]

theorem reference_records (hceiling : 0 < ceiling) (headers : HeaderState)
    (arrivals : List Arrival) (records : List Bytes) :
    (reference ceiling headers arrivals records).flatMap Segment.records = records := by
  obtain ⟨rest, hcuts, hordered, -⟩ := exists_cutPoints records.length arrivals
  have hheld : (reference ceiling headers arrivals records).flatMap Segment.records =
      (ranges ceiling records.length (cutPoints records.length arrivals)).flatMap
        (held records) := by
    rw [reference, List.flatMap_map]
    rfl
  rw [hheld, hcuts, ranges_held hceiling records hordered, held, List.take_length,
    List.drop_zero]

/-- Where nothing arrives there are no more segments than needed, and one of an empty stream. -/
theorem reference_length_of_silent (hceiling : 0 < ceiling) (headers : HeaderState)
    (records : List Bytes) :
    (reference ceiling headers [] records).length =
      max 1 ((records.length + ceiling - 1) / ceiling) := by
  have hcuts : cutPoints records.length [] = [0] := by
    obtain ⟨rest, hcuts, hordered, hrest⟩ := exists_cutPoints records.length []
    cases rest with
    | nil => exact hcuts
    | cons cut rest =>
        have hpos := (List.pairwise_cons.mp hordered.pairwise).1 cut List.mem_cons_self
        have hle := hordered.inside cut (List.mem_cons_of_mem _ List.mem_cons_self)
        exact absurd rfl ((hrest cut hpos hle).mpr List.mem_cons_self)
  rw [reference, List.length_map, hcuts, ranges_last, List.length_append,
    runs_length hceiling, Nat.sub_zero]
  by_cases hempty : records.length = 0
  · rw [hempty, Nat.zero_add, Nat.div_eq_of_lt (by omega)]
    rfl
  · have hone : 1 ≤ (records.length + ceiling - 1) / ceiling :=
      (Nat.one_le_div_iff hceiling).mpr (by omega)
    rw [if_neg (Ne.symm hempty), List.length_nil, Nat.add_zero, Nat.max_eq_right hone]

end Streams

end SegmentStream
