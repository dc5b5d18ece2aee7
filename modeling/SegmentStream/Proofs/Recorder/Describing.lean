import SegmentStream.Proofs.Recorder.Rotating

/-!
# Streams that describe themselves

Whatever calls come in whatever order, accepted or refused, a reader of the
active target finds closed segments and one open header, just where the recorder
keeps it.  On targets that the recorder has let go of, all segments are closed.
-/

namespace SegmentStream

open SegmentStream.Action

namespace Session

/-! ## Books -/

/-- The books of a recorder, whatever came before. -/
structure Holds (session : Session) (config : Config) (possessions : List Possession) : Prop where
  split : session.recorder.rotation.split = config.splitHeader
  accepting : session.recorder.rotation.abandoned = false
  records : ∀ target, session.recorder.active = some target →
    ∃ transcript, session.Records config target transcript
  rests : session.recorder.active = none → ∃ transcript, session.Rests config transcript
  possessions : Possessions config session.taken session.host.store possessions
  config : session.recorder.config = config

/-- What becomes of the active target: it stays, or it is among those let go of. -/
def Leaves (session next : Session) (settled : List Possession) : Prop :=
  ∀ target, session.recorder.active = some target →
    (∃ current, next.recorder.active = some current ∧ current.places = target.places) ∨
      ∃ segments, .settled target.places segments ∈ settled

/-- The books are kept; some targets may have been let go of. -/
def Balances (session : Session) (config : Config) (others : List Possession)
    (next : Session) : Prop :=
  ∃ settled, next.Holds config (stagedIn next.recorder.rotation.staged ++ (settled ++ others)) ∧
    session.Leaves next settled

section Books

variable {session : Session} {config : Config} {chronicle : Chronicle}
  {possessions possessions' others : List Possession}

theorem Holds.perm (h : session.Holds config possessions)
    (hperm : possessions.Perm possessions') : session.Holds config possessions' :=
  ⟨h.split, h.accepting, h.records, h.rests, h.possessions.perm hperm, h.config⟩

theorem Tells.holds (h : session.Tells config chronicle others) :
    session.Holds config
      (stagedIn session.recorder.rotation.staged ++ (chronicle.settled ++ others)) :=
  ⟨h.split, h.accepting, fun target hactive => ⟨_, h.records target hactive⟩,
    fun hnone => ⟨_, h.rests hnone⟩, h.possessions, h.config⟩

/-- A chronicle may begin anywhere. -/
theorem Holds.exists_tells
    (h : session.Holds config (stagedIn session.recorder.rotation.staged ++ others)) :
    ∃ chronicle, session.Tells config chronicle others := by
  let chronicle (tape : Transcript) : Chronicle :=
    { current := session.recorder.active.map Target.places
      tape
      staged := session.recorder.rotation.staged.map RotationCommand.places
      itemsRead := session.recorder.itemsRead
      closed := session.recorder.closed }
  cases hactive : session.recorder.active with
  | some target =>
      obtain ⟨transcript, hrecords⟩ := h.records target hactive
      refine ⟨chronicle transcript, h.split, h.accepting, rfl, rfl, rfl, rfl,
        hrecords.keeps.tells.counters, fun current hcurrent => ?_, fun hnone => ?_,
        h.possessions, h.config⟩
      · cases hactive.symm.trans hcurrent
        exact hrecords
      · cases hactive.symm.trans hnone
  | none =>
      obtain ⟨transcript, hrests⟩ := h.rests hactive
      refine ⟨chronicle transcript, h.split, h.accepting, rfl, rfl, rfl, rfl,
        hrests.tells.counters, fun current hcurrent => ?_, fun _ => hrests, h.possessions,
        h.config⟩
      cases hactive.symm.trans hcurrent

theorem after_balances (hvalid : config.validate = .ok ()) (calls : List Call)
    (h : session.Holds config (stagedIn session.recorder.rotation.staged ++
      ((destinationsOf config.splitHeader calls).map .reserved ++ others))) :
    session.Balances config others (session.after calls) := by
  obtain ⟨chronicle, htells⟩ := h.exists_tells
  have hafter := after_tells hvalid calls htells
  refine ⟨_, hafter.holds, fun target hactive => ?_⟩
  rcases (chronicle.continues_run config calls).current _ (htells.current_of_active hactive) with
    hstays | ⟨segments, hpast⟩
  · refine .inl (Option.map_eq_some_iff.mp ?_)
    rw [hafter.current, hstays]
  · exact .inr ⟨segments, List.mem_append_left _ (List.mem_map_of_mem hpast)⟩

end Books

/-! ## What a reader finds -/

section Readers

variable {session : Session} {config : Config} {target : Target}

/-- Closed segments, and behind them the open header, just where the recorder keeps it. -/
structure Describes (session : Session) (config : Config) (contents : Contents)
    (found : OpenReading) : Prop where
  layOut : contents = Reading.layOut found.closed
    (.opening config.splitHeader ⟨found.header, found.extras, []⟩ found.data)
  slot : session.recorder.progress.headers.slot = some found.slot
  header : found.header = session.recorder.progress.headers.fresh.header
  extras : found.extras = session.recorder.progress.headers.fresh.extras
  data : found.data.length = session.recorder.progress.records * config.itemSize.toNat
  ceiling : session.recorder.progress.records ≤ config.ceiling
  opens : contents.IsAddressable → contents.OpensAs found

theorem Records.describes {transcript : Transcript} (hvalid : config.validate = .ok ())
    (h : session.Records config target transcript) :
    ∃ found, session.Describes config (target.stored session.host.store) found := by
  obtain ⟨⟨htells, houtlet, hslotLength⟩, hproper, hrunning, hdirect, -⟩ := h
  obtain ⟨running, hrunning⟩ := Option.isSome_iff_exists.mp hrunning
  obtain ⟨hrecords, hceiling⟩ := hproper.running running hrunning
  have hcount : session.recorder.progress.records = running.records.length := by
    have := htells.records
    rwa [hrunning] at this
  have hheaders : session.recorder.progress.headers.fresh = transcript.headers := htells.headers
  have hregionSize : session.recorder.progress.headers.regionSize =
      transcript.headers.regionSize := by
    rw [← hheaders, HeaderState.regionSize_fresh]
  have hslot := htells.slot
  rw [hrunning, Option.map_some, hslotLength running hrunning, ← hregionSize] at hslot
  have hstate : session.recorder.progress.headers.IsProper config.recordSize := by
    refine HeaderState.IsProper.of_fresh ?_
    rw [hheaders]
    exact hproper.headers
  have hstored : target.stored session.host.store =
      ((Contents.ofSegments config.splitHeader transcript.closed).appendHeader
        session.recorder.progress.headers.reading.region).appendData running.records.flatten := by
    refine (houtlet.stored hdirect).trans ?_
    rw [Transcript.contents, hrunning, ← hheaders]
    rfl
  have hclosed : ∀ segment ∈ transcript.closed,
      segment.IsProper config.recordSize ∧ segment.records ≠ [] := by
    intro segment hsegment
    obtain ⟨hsegment, hfilled, -⟩ := hproper.closed segment hsegment
    exact ⟨hsegment, hfilled⟩
  have hdata : running.records.flatten.length =
      session.recorder.progress.records * config.itemSize.toNat := by
    rw [hcount, flatten_length hrecords, Config.recordSize_toNat hvalid]
  rw [← hcount] at hceiling
  rw [hstored]
  let found : OpenReading :=
    { closed := transcript.closed.map Segment.reading
      slot := ⟨(Contents.ofSegments config.splitHeader transcript.closed).headerBytes.length,
        session.recorder.progress.headers.regionSize⟩
      header := session.recorder.progress.headers.fresh.header
      extras := session.recorder.progress.headers.fresh.extras
      data := running.records.flatten }
  refine ⟨found, Contents.ofSegments_append_eq_layOut .., hslot, rfl, rfl, hdata, hceiling, ?_⟩
  exact Contents.ofSegments_opensAs (Config.recordSize_ne_zero hvalid) _ hclosed hstate

end Readers

end Session

/-! ## Streams describe themselves -/

theorem Recorder.Started.holds {config : Config} {destination : Destination}
    {headers : HeaderState} {host : Host} {session : Session} {target : Target}
    (h : Recorder.Started config destination headers host session target)
    (hstarts : headers.Starts config) (hquiet : destination.faultsAhead = 0)
    {reserved : List Destination}
    (hblank : ∀ other ∈ reserved,
      other.IsBlank config.splitHeader host.store ∧ other.faultsAhead = 0)
    (hapart : ((destination :: reserved).flatMap
      (Destination.places config.splitHeader)).Nodup) :
    session.Holds config (stagedIn session.recorder.rotation.staged ++
      reserved.map .reserved) :=
  (h.tells hstarts hquiet hblank hapart).holds

/--
Calls may come in any order and may be accepted or refused.  Between any two of
them the active target holds closed segments and the open header that the
recorder keeps; once the recorder has let go of it, it holds closed segments
only.  A reader finds just these, exactly if no header has a rate or a time
outside its limits.
-/
theorem Session.after_describes {config : Config} {destination : Destination} {host : Host}
    (calls : List Call) (hconfig : config.IsUsable)
    (hblank : ∀ other ∈ destination :: destinationsOf config.splitHeader calls,
      other.IsBlank config.splitHeader host.store ∧ other.faultsAhead = 0)
    (hapart : ((destination :: destinationsOf config.splitHeader calls).flatMap
      (Destination.places config.splitHeader)).Nodup) :
    ∃ recorder started, Recorder.start config destination host = .ok recorder started ∧
      ∀ first later, calls = first ++ later →
        let session := after ⟨recorder, started⟩ first
        let last := session.after later
        ∀ target, session.recorder.active = some target →
          (∃ found, session.Describes config (target.stored session.host.store) found) ∧
          ((∀ current, last.recorder.active = some current → current.places ≠ target.places) →
            ∃ readings,
              target.stored last.host.store =
                Reading.layOut readings (.blank config.splitHeader) ∧
              ((target.stored last.host.store).IsAddressable →
                (target.stored last.host.store).ReadsAs readings)) := by
  obtain ⟨⟨hblank, hquiet⟩, hothers⟩ := List.forall_mem_cons.mp hblank
  have hvalid := hconfig.1
  obtain ⟨headers, recorder, started, opened, hheaders, hstart, hstarted⟩ :=
    Recorder.exists_start hconfig hblank hquiet
  have hholds := hstarted.holds (HeaderState.of_start hheaders) hquiet hothers hapart
  refine ⟨recorder, started, hstart, ?_⟩
  rintro first later rfl session last target hactive
  rw [destinationsOf_append, List.map_append] at hholds
  obtain ⟨settled, hsession, -⟩ := after_balances hvalid first hholds
  obtain ⟨transcript, hrecords⟩ := hsession.records target hactive
  refine ⟨hrecords.describes hvalid, fun hgone => ?_⟩
  have hlater := hsession.perm (List.perm_append_comm.append_left _)
  obtain ⟨settled', hlast, hleaves⟩ := after_balances hvalid later hlater
  rcases hleaves target hactive with ⟨current, hcurrent, hplaces⟩ | ⟨segments, hsettled⟩
  · exact absurd hplaces (hgone current hcurrent)
  · have hmem : Possession.settled target.places segments ∈
        stagedIn last.recorder.rotation.staged ++ (settled' ++ settled) :=
      List.mem_append_right _ (List.mem_append_left _ hsettled)
    obtain ⟨hcontents, hproper⟩ := hlast.possessions.stand _ hmem
    rw [Target.stored_eq, hcontents]
    exact ⟨_, Contents.ofSegments_eq_layOut .., Contents.ofSegments_readsAs
      (Config.recordSize_ne_zero hvalid) _ hproper⟩

/-- Two targets with headers apart, one after the other, and requests that are refused. -/
theorem Session.after_describes_two_targets :
    let config : Config := { maxSegmentSize := 2, splitHeader := true }
    let destination := Destination.memory "data" "headers"
    let next := Destination.memory "more data" "more headers"
    let calls : List Call := [.work [1, 2, 3] [⟨1, "version", .uint 2⟩],
      .update "size" (.uint 5), .rotate (.channels { location := .buffer "data" } none),
      .rotate next, .work [4] [], .close, .shutdown]
    config.IsUsable ∧
      (∀ other ∈ [destination, next], other.IsBlank true {} ∧ other.faultsAhead = 0) ∧
      ([destination, next].flatMap (Destination.places true)).Nodup ∧
      ∃ recorder started, Recorder.start config destination {} = .ok recorder started ∧
        ∀ first later, calls = first ++ later →
          let session := after ⟨recorder, started⟩ first
          let last := session.after later
          ∀ target, session.recorder.active = some target →
            (∃ found, session.Describes config (target.stored session.host.store) found) ∧
            ((∀ current, last.recorder.active = some current →
                current.places ≠ target.places) →
              ∃ readings,
                target.stored last.host.store = Reading.layOut readings (.blank true) ∧
                ((target.stored last.host.store).IsAddressable →
                  (target.stored last.host.store).ReadsAs readings)) := by
  intro config destination next calls
  have hconfig : Config.IsUsable { maxSegmentSize := 2, splitHeader := true } := ⟨rfl, _, rfl⟩
  have hblank : ∀ other ∈ [destination, next],
      other.IsBlank true {} ∧ other.faultsAhead = 0 := by
    simp [destination, next, Destination.IsBlank, Destination.faultsAhead]
  have hapart : ([destination, next].flatMap (Destination.places true)).Nodup := by decide
  exact ⟨hconfig, hblank, hapart, after_describes calls hconfig hblank hapart⟩

end SegmentStream
