import SegmentStream.Proofs.Recorder.Timing

/-!
# Headers behind a gap

While there is no target, batches come and go and nothing of them is heard: their
records take no time and their tags change nothing.  Updates are heard all the
while.  So the headers of a target that is installed later are those of a stream
without the batches that were dropped.
-/

namespace SegmentStream

open SegmentStream.Action

/-! ## Finding a record again -/

theorem exists_record {index : Nat} {acts : List Act} (h : index < recordCount acts) :
    ∃ bytes rest, acts = actsUpTo index acts ++ .record bytes :: rest ∧
      recordCount (actsUpTo index acts) = index := by
  induction acts generalizing index with
  | nil => cases h
  | cons act acts ih =>
      cases act with
      | cut update =>
          obtain ⟨bytes, rest, hacts, hcount⟩ := ih h
          exact ⟨bytes, rest, congrArg (Act.cut update :: ·) hacts, hcount⟩
      | record bytes =>
          cases index with
          | zero => exact ⟨bytes, acts, rfl, rfl⟩
          | succ index =>
              obtain ⟨other, rest, hacts, hcount⟩ := ih (Nat.lt_of_succ_lt_succ h)
              exact ⟨other, rest, congrArg (Act.record bytes :: ·) hacts,
                congrArg (· + 1) hcount⟩

theorem exists_deed {deeds : List Deed} {act : Act} {front back : List Act}
    (h : heardActs deeds = front ++ act :: back) :
    ∃ before after, deeds = before ++ ⟨act, true⟩ :: after ∧ heardActs before = front := by
  obtain ⟨first, second, hfilter, hfirst, hsecond⟩ := List.map_eq_append_iff.mp h
  obtain ⟨⟨act, heard⟩, rest, rfl, rfl, -⟩ := List.map_eq_cons_iff.mp hsecond
  obtain ⟨before, later, rfl, hbefore, hlater⟩ := List.filter_eq_append_iff.mp hfilter
  -- what was not heard may stand in between
  obtain ⟨silent, after, rfl, hsilent, hheard, -⟩ := List.filter_eq_cons_iff.mp hlater
  obtain rfl : heard = true := hheard
  refine ⟨before ++ silent, after, (List.append_assoc ..).symm, ?_⟩
  rw [heardActs_append, heardActs, hbefore, hfirst, heardActs, List.filter_eq_nil_iff.mpr hsilent]
  exact List.append_nil front

namespace Run

section Gaps

variable {run : Run} {first : Opening} {session : Session}

/-- What came before a record, heard or not, is what should be in force there. -/
theorem Succeeds.play_deeds (h : run.Succeeds first session) (headers : HeaderState)
    {front back : List Deed} {record : Bytes} {heard : Bool}
    (hdeeds : session.deedsOf run.calls = front ++ ⟨.record record, heard⟩ :: back) :
    headers.play (front.map Deed.act) =
      inForce (cuesAt run.arrived) headers (recordCount (front.map Deed.act)) := by
  have hacts := h.deeds_acts
  rw [hdeeds, List.map_append, List.map_cons] at hacts
  have hless : recordCount (front.map Deed.act) <
      (recordsIn (requestsOf run.config.itemSize.toNat run.calls)).length := by
    rw [← recordCount_weave (cuesAt run.arrived) 0, ← hacts, recordCount_append]
    exact Nat.lt_add_of_pos_right (Nat.succ_pos _)
  rw [← play_actsUpTo_weave _ _ hless, ← hacts, actsUpTo_append_record]

/--
Every segment with records, on whatever target, has the header of the stream
that was heard up to its first record.  Its time is that of the last update of time
or rate that was heard, or of the start, and the records heard since over the rate.
The header is the one in force at that record in the whole stream if everything
before it was heard.
-/
theorem headers_behind_gaps (h : run.Succeeds first session) :
    ∃ headers chapters, HeaderState.start run.config = .ok headers ∧
      run.Leaves session chapters ∧
      ∀ earlier segment later,
        chapters.flatMap Chapter.segments = earlier ++ segment :: later →
        segment.records ≠ [] →
        ∃ front record back,
          session.deedsOf run.calls = front ++ ⟨.record record, true⟩ :: back ∧
          segment.records.head? = some record ∧
          earlier.flatMap Segment.records = (heardActs front).flatMap Transcript.recordsOf ∧
          segment = (headers.play (heardActs front)).segment segment.records ∧
          segment.header.time = (run.config.pace.behind (heardActs front)).now ∧
          segment.header.sampleRate = (run.config.pace.behind (heardActs front)).rate ∧
          ((∀ deed ∈ front, deed.heard = true) →
            segment = (inForce (cuesAt run.arrived) headers
              (recordCount (front.map Deed.act))).segment segment.records) := by
  obtain ⟨headers, chapters, hheaders, hleaves, hplayed⟩ := h.exists_played
  refine ⟨headers, chapters, hheaders, hleaves, ?_⟩
  intro earlier segment later hsegments hfilled
  have hrecords := hleaves.records
  rw [hsegments] at hplayed hrecords
  have hsegment := (asPlayed_append.mp hplayed).2.1 hfilled
  rw [Nat.zero_add] at hsegment
  have hless : recordsHeld earlier < recordCount (heardActs (session.deedsOf run.calls)) := by
    have hcount := congrArg List.length hrecords
    change recordsHeld _ = recordCount _ at hcount
    rw [← hcount, recordsHeld_append, recordsHeld_cons]
    have := List.length_pos_iff.mpr hfilled
    omega
  obtain ⟨record, rest, hacts, hcount⟩ := exists_record hless
  obtain ⟨front, back, hdeeds, hfront⟩ := exists_deed hacts
  rw [← hfront] at hacts hcount hsegment
  -- the records before the segment are those that were heard before its first one
  rw [hacts, List.flatMap_append, List.flatMap_append, List.flatMap_cons] at hrecords
  obtain ⟨hearlier, hhere⟩ := List.append_inj hrecords hcount.symm
  have hhead : segment.records.head? = some record := by
    obtain ⟨first, others, hfirst⟩ := List.exists_cons_of_ne_nil hfilled
    rw [hfirst] at hhere ⊢
    exact congrArg List.head? hhere
  obtain ⟨hnow, hrate⟩ := ((HeaderState.start_isTimed hheaders).play (heardActs front)).shows
    (HeaderState.clock_play (HeaderState.start_clock hheaders) (heardActs front))
  refine ⟨front, record, back, hdeeds, hhead, hearlier, hsegment, ?_, ?_, fun hheard => ?_⟩
  · exact (congrArg (·.header.time) hsegment).trans hnow
  · exact (congrArg (·.header.sampleRate) hsegment).trans hrate
  rwa [← h.play_deeds headers hdeeds, ← heardActs_of_forall hheard]

end Gaps

/--
Two of six records are dropped with a tag, and an update comes before the next target.
The sixth record is the first there, and its time is that of three records.
-/
theorem headers_behind_gaps_two_targets :
    let run : Run :=
      { config := {}
        destination := .memory "first" "first headers"
        calls := [.work [1, 2, 3] [], .close, .work [4, 5] [⟨3, "lost", .uint 1⟩],
          .update "kept" (.uint 2), .rotate (.memory "second" "second headers"), .work [6] []] }
    ∃ first session, run.Succeeds first session ∧
      (heardActs (session.deedsOf run.calls)).flatMap Transcript.recordsOf =
        [[1], [2], [3], [6]] ∧
      ∃ headers chapters, HeaderState.start run.config = .ok headers ∧
        run.Leaves session chapters ∧
        ∀ earlier segment later,
          chapters.flatMap Chapter.segments = earlier ++ segment :: later →
          segment.records ≠ [] →
          ∃ front record back,
            session.deedsOf run.calls = front ++ ⟨.record record, true⟩ :: back ∧
            segment.records.head? = some record ∧
            earlier.flatMap Segment.records = (heardActs front).flatMap Transcript.recordsOf ∧
            segment = (headers.play (heardActs front)).segment segment.records ∧
            (record = [6] → segment.header.time =
              Pace.now { anchor := ⟨0, .zero⟩, sampleRate := .one, relativeRate := .one,
                         records := 3 }) ∧
            ((∀ deed ∈ front, deed.heard = true) →
              segment = (inForce (cuesAt run.arrived) headers
                (recordCount (front.map Deed.act))).segment segment.records) := by
  intro run
  have hclean : run.IsClean := by
    have husable : Config.IsUsable {} := ⟨rfl, _, rfl⟩
    refine ⟨husable, ?_, by decide⟩
    simp [run, destinations, destinationsOf, Destination.fits, Destination.IsBlank,
      Destination.faultsAhead]
  obtain ⟨first, session, h⟩ := hclean.exists_succeeds
  have hheard : Ends (Recorder.start {} (.memory "first" "first headers")) {}
      (fun recorder host =>
        (heardActs (Session.deedsOf ⟨recorder, host⟩ run.calls)).flatMap Transcript.recordsOf =
          [[1], [2], [3], [6]] ∧
        ∀ act ∈ heardActs (Session.deedsOf ⟨recorder, host⟩ run.calls), act.isTiming = false)
      fun _ _ => False := by
    decide +kernel
  obtain ⟨hrecords, huntimed⟩ := hheard.of_ok h.launches.starts
  obtain ⟨headers, chapters, hheaders, hleaves, hbehind⟩ := headers_behind_gaps h
  refine ⟨first, session, h, hrecords, headers, chapters, hheaders, hleaves, ?_⟩
  intro earlier segment later hsegments hfilled
  obtain ⟨front, record, back, hdeeds, hhead, hearlier, hplayed, hnow, -, hwhole⟩ :=
    hbehind earlier segment later hsegments hfilled
  refine ⟨front, record, back, hdeeds, hhead, hearlier, hplayed, ?_, hwhole⟩
  rintro rfl
  have hacts : heardActs (session.deedsOf run.calls) =
      heardActs front ++ .record [6] :: heardActs back := by
    rw [hdeeds, heardActs_append]
    rfl
  rw [hacts] at hrecords huntimed
  have hcount : recordCount (heardActs front) = 3 := by
    have hplace : ∀ index : Nat,
        ([[1], [2], [3], [6]] : List Bytes)[index]? = some ([6] : Bytes) → index = 3 := by
      rintro (_ | _ | _ | _ | index) hsome <;> simp at hsome ⊢
    apply hplace
    rw [← hrecords, List.flatMap_append, recordCount, List.getElem?_append_right (Nat.le_refl _),
      Nat.sub_self]
    rfl
  rw [hnow, Pace.behind_of_not_isTiming _ fun act hact =>
    huntimed act (List.mem_append_left _ hact), hcount]
  rfl

end Run

end SegmentStream
