import SegmentStream.Proofs.Recorder.Reference
import SegmentStream.Proofs.Recorder.Stream

/-!
# Segmentation of a stream

Batches and updates in any order, then the end: what is stored is the reference
segmentation of what was passed.
-/

namespace SegmentStream

open SegmentStream.Action

/-! ## Requests -/

inductive Request where
  | batch (records : List Bytes) (tags : List Tag)
  | update (key : String) (value : Attribute)

/-- The records of requests, in order. -/
def recordsIn : List Request → List Bytes
  | [] => []
  | .batch records _ :: rest => records ++ recordsIn rest
  | .update .. :: rest => recordsIn rest

/--
What requests bring to which record, the first of them at record `first`.  A tag
counts if it falls into its batch, and a refused update never.
-/
def arrivals (size : UInt32) : Nat → List Request → List Arrival
  | _, [] => []
  | first, .batch records tags :: rest =>
      (tags.filter (BatchStep.isInside first (first + records.length))).map
        (fun tag => ⟨tag.offset, tag.update? size⟩) ++
          arrivals size (first + records.length) rest
  | first, .update key value :: rest =>
      match HeaderUpdate.prepare size key value with
      | .ok update => ⟨first, some update⟩ :: arrivals size first rest
      | .error _ => arrivals size first rest

namespace Session

/-- Takes a batch or an update.  A refused update is no failure. -/
def serve : Request → Action StreamError Session Unit
  | .batch records tags => discard (work records.flatten tags)
  | .update key value => do
      match ← (updateAttribute key value).attempt with
      | .ok () | .error (.refused _) => pure ()
      | .error error => throw error

/-- Serves requests in order, then ends the stream. -/
def serveToEnd : List Request → Action StreamError Session Unit
  | [] => shutdown
  | request :: rest => do
      serve request
      serveToEnd rest

end Session

/-! ## Requests as acts -/

/-- What the requests make of a transcript that stands behind `first` records. -/
def actsOf (size : UInt32) : Nat → List Request → List Act
  | _, [] => []
  | first, .batch records tags :: rest =>
      script (cuesOf size tags) first records ++ actsOf size (first + records.length) rest
  | first, .update key value :: rest =>
      match HeaderUpdate.prepare size key value with
      | .ok update => .cut (some update) :: actsOf size first rest
      | .error _ => actsOf size first rest

section Acts

variable {size : UInt32}

theorem arrivals_ge {first : Nat} {requests : List Request} :
    ∀ arrival ∈ arrivals size first requests, first ≤ arrival.position := by
  induction requests generalizing first with
  | nil => simp [arrivals]
  | cons request rest ih =>
      cases request with
      | batch records tags =>
          refine List.forall_mem_append.mpr ⟨?_, fun arrival harrival => ?_⟩
          · intro arrival harrival
            obtain ⟨tag, htag, rfl⟩ := List.mem_map.mp harrival
            have hinside := (List.mem_filter.mp htag).2
            simp only [BatchStep.isInside, Bool.and_eq_true, decide_eq_true_eq] at hinside
            exact hinside.1
          · exact Nat.le_trans (Nat.le_add_right ..) (ih arrival harrival)
      | update key value =>
          rw [arrivals]
          cases HeaderUpdate.prepare size key value with
          | error cause => exact ih
          | ok update => exact List.forall_mem_cons.mpr ⟨Nat.le_refl _, ih⟩

theorem cuesAt_append (front back : List Arrival) (index : Nat) :
    cuesAt (front ++ back) index = cuesAt front index ++ cuesAt back index := by
  simp [cuesAt]

theorem cuesAt_eq_nil {arrivals : List Arrival} {index : Nat}
    (h : ∀ arrival ∈ arrivals, arrival.position ≠ index) : cuesAt arrivals index = [] := by
  simpa [cuesAt, List.filter_eq_nil_iff] using h

theorem cuesAt_tags (tags : List Tag) {first last index : Nat} (h : first ≤ index)
    (h' : index < last) :
    cuesAt ((tags.filter (BatchStep.isInside first last)).map
      fun tag => ⟨tag.offset, tag.update? size⟩) index = cuesOf size tags index := by
  rw [cuesAt, cuesOf, List.filter_map, List.filter_filter, List.map_map]
  have hsame : ∀ tag ∈ tags, (((fun arrival : Arrival => arrival.position == index) ∘
      fun tag => ⟨tag.offset, tag.update? size⟩) tag && BatchStep.isInside first last tag) =
        (tag.offset == index) := by
    intro tag _
    rw [Bool.eq_iff_iff]
    simp only [Function.comp_apply, BatchStep.isInside, Bool.and_eq_true, beq_iff_eq,
      decide_eq_true_eq]
    omega
  rw [List.filter_congr hsame]
  rfl

theorem actsOf_eq_weave (first : Nat) (requests : List Request) :
    actsOf size first requests =
      weave (cuesAt (arrivals size first requests)) first (recordsIn requests) := by
  induction requests generalizing first with
  | nil => rfl
  | cons request rest ih =>
      cases request with
      | batch records tags =>
          let last := first + records.length
          let here := (tags.filter (BatchStep.isInside first last)).map
            fun tag => (⟨tag.offset, tag.update? size⟩ : Arrival)
          let later := arrivals size last rest
          have hbatch : ∀ index, first ≤ index → index < last →
              cuesAt (here ++ later) index = cuesOf size tags index := by
            intro index hle hlt
            have hnone : cuesAt later index = [] :=
              cuesAt_eq_nil fun arrival harrival =>
                Nat.ne_of_gt (Nat.lt_of_lt_of_le hlt (arrivals_ge arrival harrival))
            rw [cuesAt_append, cuesAt_tags tags hle hlt, hnone, List.append_nil]
          have hlater : ∀ index, last ≤ index →
              cuesAt (here ++ later) index = cuesAt later index := by
            intro index hle
            have hnone : cuesAt here index = [] := by
              refine cuesAt_eq_nil fun arrival harrival => ?_
              obtain ⟨tag, htag, rfl⟩ := List.mem_map.mp harrival
              have hinside := (List.mem_filter.mp htag).2
              simp only [BatchStep.isInside, Bool.and_eq_true, decide_eq_true_eq] at hinside
              exact Nat.ne_of_lt (Nat.lt_of_lt_of_le hinside.2 hle)
            rw [cuesAt_append, hnone, List.nil_append]
          have hend : first + (records ++ recordsIn rest).length =
              last + (recordsIn rest).length := by
            rw [List.length_append, Nat.add_assoc]
          rw [actsOf, ih, recordsIn, arrivals, weave, weave, script_append, hend,
            hlater _ (Nat.le_add_right ..), List.append_assoc]
          congr 1
          · exact script_congr fun index hle hlt => (hbatch index hle hlt).symm
          · congr 1
            exact script_congr fun index hle _ => (hlater index hle).symm
      | update key value =>
          rw [actsOf, arrivals, recordsIn, ih]
          cases HeaderUpdate.prepare size key value with
          | error cause => rfl
          | ok update =>
              have hhere : cuesAt (⟨first, some update⟩ :: arrivals size first rest) first =
                  some update :: cuesAt (arrivals size first rest) first := by
                simp [cuesAt]
              have hlater : ∀ index, first < index →
                  cuesAt (⟨first, some update⟩ :: arrivals size first rest) index =
                    cuesAt (arrivals size first rest) index := by
                intro index hlt
                have hne : (first == index) = false := beq_false_of_ne (Nat.ne_of_lt hlt)
                simp [cuesAt, hne]
              rw [weave_eq, weave_eq, hhere, after_congr hlater]
              rfl

theorem actsOf_suits {first : Nat} {requests : List Request}
    (hrecords : ∀ record ∈ recordsIn requests, record.length = size.toNat) :
    ∀ act ∈ actsOf size first requests, act.Suits size := by
  induction requests generalizing first with
  | nil => simp [actsOf]
  | cons request rest ih =>
      cases request with
      | batch records tags =>
          obtain ⟨hbatch, hrest⟩ := List.forall_mem_append.mp hrecords
          exact List.forall_mem_append.mpr ⟨script_suits size tags first hbatch, ih hrest⟩
      | update key value =>
          rw [actsOf]
          cases hupdate : HeaderUpdate.prepare size key value with
          | error cause => exact ih hrecords
          | ok update =>
              refine List.forall_mem_cons.mpr ⟨?_, ih hrecords⟩
              rintro accepted ⟨⟩
              exact HeaderUpdate.prepare_isProper hupdate

end Acts

/-! ## Serving requests -/

namespace Session

section Serve

variable {session : Session} {config : Config} {target : Target} {transcript : Transcript}

theorem serve_ends (hvalid : config.validate = .ok ())
    (hstands : session.Stands config target transcript) (hquiet : target.faultsAhead = 0)
    (request : Request)
    (hrecords : ∀ record ∈ recordsIn [request], record.length = config.itemSize.toNat) :
    Ends (serve request) session
      (fun _ next => ∃ target', session.Continues config target
        (transcript.play config.ceiling
          (actsOf config.recordSize session.recorder.itemsRead [request]))
        (session.recorder.itemsRead + (recordsIn [request]).length) next target')
      (fun _ _ => False) := by
  cases request with
  | batch records tags =>
      rw [recordsIn, recordsIn, List.append_nil] at hrecords ⊢
      rw [serve, ends_discard, actsOf, actsOf, List.append_nil]
      refine (hstands.work_ends hvalid hquiet tags hrecords).mono ?_ fun _ _ h => h
      rintro total next ⟨rfl, hnext⟩
      exact hnext
  | update key value =>
      rw [serve, ends_bind, ends_attempt, actsOf, actsOf]
      refine (hstands.updateAttribute_ends hquiet key value).mono ?_ ?_
      · rintro ⟨⟩ next ⟨update, hupdate, hnext⟩
        rw [hupdate]
        exact hnext
      · rintro error next ⟨cause, rfl, hrefused, rfl⟩
        rw [hrefused]
        exact ⟨target, hstands, .refl _, rfl⟩

theorem serveToEnd_ends {destination : Destination} {headers : HeaderState} {host : Host}
    {first : Session} {target' : Target} (requests : List Request)
    (hvalid : config.validate = .ok ())
    (hstarted : Recorder.Started config destination headers host first target)
    (hnext : first.Continues config target transcript session.recorder.itemsRead session target')
    (hquiet : target'.faultsAhead = 0)
    (hrecords : ∀ record ∈ recordsIn requests, record.length = config.itemSize.toNat) :
    Ends (serveToEnd requests) session
      (fun _ done => done.Ended config destination host
        (transcript.play config.ceiling
          (actsOf config.recordSize session.recorder.itemsRead requests))
        (session.recorder.itemsRead + (recordsIn requests).length))
      (fun _ _ => False) := by
  induction requests generalizing session transcript target' with
  | nil => exact (hnext.shutdown_ends hstarted).mono (fun _ _ h => h) fun _ _ h => h hquiet
  | cons request rest ih =>
      have hsplit : recordsIn (request :: rest) = recordsIn [request] ++ recordsIn rest := by
        cases request <;> simp [recordsIn]
      have hacts : ∀ start, actsOf config.recordSize start (request :: rest) =
          actsOf config.recordSize start [request] ++
            actsOf config.recordSize (start + (recordsIn [request]).length) rest := by
        intro start
        cases request with
        | batch records tags => simp [actsOf, recordsIn]
        | update key value =>
            simp only [actsOf, recordsIn]
            cases HeaderUpdate.prepare config.recordSize key value <;> rfl
      rw [hsplit] at hrecords ⊢
      obtain ⟨hfirst, hrest⟩ := List.forall_mem_append.mp hrecords
      rw [serveToEnd, ends_bind]
      refine (serve_ends hvalid hnext.stands hquiet request hfirst).mono ?_ fun _ _ h => h
      rintro ⟨⟩ next ⟨target'', hserved⟩
      have hread := hserved.itemsRead
      have hall := hnext.trans hserved
      rw [← hread] at hall
      refine (ih hall (hserved.quiet hquiet) hrest).mono (fun _ done hdone => ?_) fun _ _ h => h
      rw [hread, ← Transcript.play_append, ← hacts, Nat.add_assoc, ← List.length_append] at hdone
      exact hdone

end Serve

end Session

/-! ## What is stored is the reference -/

theorem HeaderState.Starts.isProper {config : Config} {headers : HeaderState}
    (h : headers.Starts config) :
    (Transcript.opening headers).IsProper config.recordSize config.ceiling := by
  have hknown : headers.header.IsKnown := by
    refine ⟨by rw [h.version]; decide, ?_⟩
    rw [h.flags]
    cases config.splitHeader <;> rfl
  have hempty : ({ headers } : Transcript).IsProper config.recordSize config.ceiling :=
    ⟨h.fresh, ⟨h.itemSize, hknown⟩, List.forall_mem_nil _, fun _ h => by cases h⟩
  exact hempty.openNext

/--
Whatever batches, tags and updates come, the segments that are stored are those
of the reference and hold the records in order.  They are read back exactly if
no header of the reference has a rate or a time outside the limits of a reader.
Where nothing arrives, there are no more segments than the records need.
-/
theorem serveToEnd_eq_reference {config : Config} {destination : Destination} {host : Host}
    (hconfig : config.IsUsable) (hblank : destination.IsBlank config.splitHeader host.store)
    (hquiet : destination.faultsAhead = 0) (requests : List Request)
    (hrecords : ∀ record ∈ recordsIn requests, record.length = config.itemSize.toNat) :
    ∃ headers recorder started done,
      HeaderState.start config = .ok headers ∧
      Recorder.start config destination host = .ok recorder started ∧
      Session.serveToEnd requests ⟨recorder, started⟩ = .ok () done ∧
      let arrived := arrivals config.recordSize 0 requests
      let segments := reference config.ceiling headers arrived (recordsIn requests)
      let contents :=
        Contents.ofPlaces done.host.store (destination.places config.splitHeader)
      contents = .ofSegments config.splitHeader segments ∧
        segments.flatMap Segment.records = recordsIn requests ∧
        (contents.IsAddressable → contents.ReadsAs (segments.map Segment.reading)) ∧
        (arrived = [] → segments.length =
          max 1 (((recordsIn requests).length + config.ceiling - 1) / config.ceiling)) := by
  obtain ⟨headers, recorder, started, target, hheaders, hstart, hstarted⟩ :=
    Recorder.exists_start hconfig hblank hquiet
  have hvalid := hconfig.1
  have hceiling := Config.ceiling_pos hvalid
  have hstarts := HeaderState.of_start hheaders
  have hquiet' := hstarted.quiet hquiet
  have hnext := Session.started_continues hstarted hheaders
  rw [← hnext.itemsRead] at hnext
  have hserved := Session.serveToEnd_ends requests hvalid hstarted hnext hquiet' hrecords
  obtain ⟨⟨⟩, done, hdone, hended⟩ := hserved.exists_ok
  rw [hstarted.itemsRead, Nat.zero_add] at hended
  -- the acts of the requests are played on the first header alone
  have hsuits : ∀ act ∈ actsOf config.recordSize 0 requests, act.Suits config.recordSize :=
    actsOf_suits (by rwa [Config.recordSize_toNat hvalid])
  have hproper := (hstarts.isProper.play hceiling hsuits).closed_close
  rw [actsOf_eq_weave] at hended hproper
  have hclosed := Transcript.play_weave hceiling hstarts.fresh
    (arrivals config.recordSize 0 requests) (recordsIn requests)
  obtain ⟨target', hplaces, hstored, -⟩ := hended.stored
  have hcontents := hstored
  rw [Target.stored_eq, hplaces] at hcontents
  change _ = Contents.ofSegments config.splitHeader (Transcript.close _).closed at hcontents
  rw [Transcript.opening, hclosed] at hcontents hproper
  refine ⟨headers, recorder, started, done, hheaders, hstart, hdone, hcontents,
    reference_records hceiling headers _ _, fun haddressable => ?_, fun hsilent => ?_⟩
  · rw [hcontents] at haddressable ⊢
    exact Contents.ofSegments_readsAs (Config.recordSize_ne_zero hvalid) _ hproper haddressable
  · rw [hsilent]
    exact reference_length_of_silent hceiling headers _

end SegmentStream
