import SegmentStream.Proofs.Recorder.Batching

/-!
# Batches taken again after failures

A batch that stops at a write fault is taken again with the records that were
not stored and the same tags.  Once as many attempts as faults are planned have
been made, all of it is stored, and nothing shows where it stopped.
-/

namespace SegmentStream

open SegmentStream.Action

namespace Session

open Writer

/--
Takes records.  After a write failure those that were not stored are taken again
with the same tags, at most so many times; any other failure is given at once.
-/
def workAgain : Nat → List Bytes → List Tag → Action StreamError Session Unit
  | 0, records, tags => discard (work records.flatten tags)
  | attempts + 1, records, tags => do
      match ← (work records.flatten tags).attempt with
      | .ok _ => pure ()
      | .error error =>
          match error.persisted? with
          | some persisted => workAgain attempts (records.drop persisted) tags
          | none => throw error

/-- Takes batches one after the other, each as often as needed. -/
def workAllAgain (attempts : Nat) : List Batch → Action StreamError Session Unit
  | [] => pure ()
  | batch :: rest => do
      workAgain attempts batch.records batch.tags
      workAllAgain attempts rest

section Again

variable {session : Session} {config : Config} {target : Target} {transcript : Transcript}

/-- The stream went on to a transcript that tells the same as this one. -/
def ContinuesLike (session : Session) (config : Config) (target : Target)
    (transcript : Transcript) (itemsRead : Nat) (next : Session) : Prop :=
  ∃ transcript' target', session.Continues config target transcript' itemsRead next target' ∧
    transcript'.Alike transcript

theorem work_like {records : List Bytes} (tags : List Tag) (hvalid : config.validate = .ok ())
    (hserves : session.Serves config target)
    (hrecords : ∀ record ∈ records, record.length = config.itemSize.toNat)
    (hresumes : Resumes config.ceiling config.splitHeader (session.writerOn target) transcript
      (script (cuesOf config.recordSize tags) session.recorder.itemsRead records))
    (hsize : transcript.itemSize = config.recordSize) :
    Ends (work records.flatten tags) session
      (fun _ next => session.ContinuesLike config target
        (transcript.play config.ceiling
          (script (cuesOf config.recordSize tags) session.recorder.itemsRead records))
        (session.recorder.itemsRead + records.length) next)
      (fun error next => ∃ count cause, error = .write count cause ∧ count < records.length ∧
        session.Stops target config.splitHeader transcript tags records count next) := by
  refine (work_ends hvalid hserves hrecords hresumes hsize).mono ?_ fun _ _ h => h
  rintro total next ⟨-, hreaches⟩
  obtain ⟨target', hnext⟩ := hreaches.continues hserves (Transcript.itemSize_play _
    (script_suits _ tags _ (by rwa [Config.recordSize_toNat hvalid])) hsize)
  exact ⟨_, target', hnext, .refl _⟩

/-- Every failure spends a planned fault, and what is left of the batch leads to the same. -/
theorem workAgain_ends (attempts : Nat) {records : List Bytes} (tags : List Tag)
    (hvalid : config.validate = .ok ()) (hserves : session.Serves config target)
    (hrecords : ∀ record ∈ records, record.length = config.itemSize.toNat)
    (hresumes : Resumes config.ceiling config.splitHeader (session.writerOn target) transcript
      (script (cuesOf config.recordSize tags) session.recorder.itemsRead records))
    (hsize : transcript.itemSize = config.recordSize)
    (hattempts : target.faultsAhead ≤ attempts) :
    Ends (workAgain attempts records tags) session
      (fun _ next => session.ContinuesLike config target
        (transcript.play config.ceiling
          (script (cuesOf config.recordSize tags) session.recorder.itemsRead records))
        (session.recorder.itemsRead + records.length) next)
      (fun _ _ => False) := by
  induction attempts generalizing session target transcript records with
  | zero =>
      rw [workAgain, ends_discard]
      refine (work_like tags hvalid hserves hrecords hresumes hsize).mono (fun _ _ h => h) ?_
      rintro error next ⟨count, cause, -, -, writer, -, hloses, -⟩
      exact not_loses (Nat.le_zero.mp hattempts) hloses
  | succ attempts ih =>
      rw [workAgain, ends_bind, ends_attempt]
      refine (work_like tags hvalid hserves hrecords hresumes hsize).mono (fun _ _ h => h) ?_
      rintro error next ⟨count, cause, rfl, hless, writer, rfl, hloses, hstops⟩
      obtain ⟨rfl, hactive, hidle, haccepting⟩ := hserves
      obtain ⟨stopped, hresumes', hsize', halike⟩ := hstops
      rw [resumeAt_script] at hresumes' halike
      have hspent : writer.outlet.target.faultsAhead < target.faultsAhead := hloses.faultsAhead
      have hserves' : Serves ((session.withWriter writer).readTo
          (session.recorder.itemsRead + count)) session.recorder.config writer.outlet.target :=
        ⟨rfl, rfl, hidle, haccepting⟩
      have hrest : ∀ record ∈ records.drop count,
          record.length = session.recorder.config.itemSize.toNat :=
        fun record hrecord => hrecords record (List.mem_of_mem_drop hrecord)
      refine (ih hserves' hrest hresumes' hsize' (by omega)).mono ?_ fun _ _ h => h
      rintro ⟨⟩ last ⟨transcript', target', ⟨hstands, hfollows, hread⟩, halike'⟩
      refine ⟨transcript', target', ⟨hstands, hloses.follows.trans hfollows, ?_⟩,
        halike'.trans halike⟩
      have hlength : count + (records.drop count).length = records.length := by
        rw [List.length_drop]
        omega
      rw [hread, ← hlength, ← Nat.add_assoc]
      rfl

theorem workAllAgain_ends (attempts : Nat) (batches : List Batch)
    (hvalid : config.validate = .ok ()) {reference : Transcript}
    (hstands : session.Stands config target transcript) (halike : transcript.Alike reference)
    (hattempts : target.faultsAhead ≤ attempts)
    (hrecords : ∀ record ∈ recordsOf batches, record.length = config.itemSize.toNat) :
    Ends (workAllAgain attempts batches) session
      (fun _ next => session.ContinuesLike config target
        (reference.play config.ceiling
          (scripts config.recordSize session.recorder.itemsRead batches))
        (session.recorder.itemsRead + (recordsOf batches).length) next)
      (fun _ _ => False) := by
  induction batches generalizing session target transcript reference with
  | nil => exact ⟨transcript, target, ⟨hstands, .refl _, rfl⟩, halike⟩
  | cons batch rest ih =>
      have hbatch := fun record hrecord => hrecords record (List.mem_append_left _ hrecord)
      have hrest := fun record hrecord => hrecords record (List.mem_append_right _ hrecord)
      rw [workAllAgain, ends_bind]
      refine (workAgain_ends attempts batch.tags hvalid hstands.serves hbatch (.kept hstands.keeps)
        hstands.itemSize hattempts).mono ?_ fun _ _ h => h
      rintro ⟨⟩ next ⟨transcript', target', hnext, halike'⟩
      have hless := hnext.follows.faultsAhead
      refine (ih hnext.stands (halike'.trans (halike.play _ _))
        (Nat.le_trans hless hattempts) hrest).mono ?_ fun _ _ h => h
      rintro ⟨⟩ last ⟨transcript'', target'', hlast, halike''⟩
      have hall := hnext.trans hlast
      rw [hnext.itemsRead, Nat.add_assoc, ← List.length_append] at hall
      rw [hnext.itemsRead, ← Transcript.play_append] at halike''
      exact ⟨transcript'', target'', hall, halike''⟩

end Again

end Session

/-! ## Faults do not show -/

namespace Destination

variable {destination : Destination} {split : Bool} {store : Store}

@[simp] theorem faultsAhead_faultless (destination : Destination) :
    destination.faultless.faultsAhead = 0 := by
  cases destination with
  | channels data header => cases header <;> rfl
  | _ => rfl

@[simp] theorem places_faultless (destination : Destination) (split : Bool) :
    destination.faultless.places split = destination.places split := by
  cases destination with
  | channels data header => cases header <;> rfl
  | _ => rfl

theorem IsBlank.faultless (h : destination.IsBlank split store) :
    destination.faultless.IsBlank split store := by
  have hchannel : ∀ channel : Channel, channel.IsBlank store →
      Channel.IsBlank { channel with faults := {} } store :=
    fun channel hblank => ⟨hblank.buffer, hblank.position, hblank.pending, hblank.empty,
      faults_isSteady⟩
  cases destination with
  | channels data header =>
      obtain ⟨hsplit, hblank, hapart⟩ := h
      cases header with
      | none =>
          refine ⟨hsplit, List.forall_mem_singleton.mpr (hchannel data ?_), hapart⟩
          exact hblank data List.mem_cons_self
      | some header =>
          refine ⟨hsplit, List.forall_mem_cons.mpr ⟨hchannel data ?_,
            List.forall_mem_singleton.mpr (hchannel header ?_)⟩, hapart⟩
          · exact hblank data List.mem_cons_self
          · exact hblank header (List.mem_cons_of_mem _ List.mem_cons_self)
  | _ => exact h

end Destination

/--
Whatever write faults are planned, batches that are taken again after each
failure are stored in the end, and once the stream has ended the same bytes and
counts are left as without any fault.
-/
theorem workAllAgain_eq_faultless {config : Config} {destination : Destination}
    {host started : Host} {recorder : Recorder} (hconfig : config.IsUsable)
    (hblank : destination.IsBlank config.splitHeader host.store)
    (hstart : Recorder.start config destination host = .ok recorder started)
    (batches : List Batch)
    (hrecords : ∀ record ∈ recordsOf batches, record.length = config.itemSize.toNat)
    (attempts : Nat) (hattempts : destination.faultsAhead ≤ attempts) :
    ∃ stood target recorder' started' calm,
      Session.workAllAgain attempts batches ⟨recorder, started⟩ = .ok () stood ∧
      Recorder.start config destination.faultless host = .ok recorder' started' ∧
      Session.workToEnd batches ⟨recorder', started'⟩ = .ok () calm ∧
      stood.recorder.active = some target ∧
      (target.faultsAhead = 0 → ∃ done, Session.shutdown stood = .ok () done) ∧
      ∀ done, Session.shutdown stood = .ok () done →
        (∀ place, done.host.store.read place = calm.host.store.read place) ∧
        done.recorder.itemsRead = calm.recorder.itemsRead ∧
        done.recorder.progress.counters.recordsWritten =
          calm.recorder.progress.counters.recordsWritten := by
  obtain ⟨headers, recorder', started', target', hheaders, hstart', hstarted'⟩ :=
    Recorder.exists_start hconfig hblank.faultless (Destination.faultsAhead_faultless _)
  obtain ⟨target, hstarted⟩ := (Recorder.start_ends hconfig.1 hheaders hblank).of_ok hstart
  have hopening := Session.started_continues hstarted hheaders
  -- the run without faults
  obtain ⟨⟨⟩, calm, hcalm, hended⟩ := (Session.workToEnd_ends batches hconfig.1 hheaders
    hstarted'
    (Destination.faultsAhead_faultless _) hrecords).exists_ok
  -- the run with faults, up to the end
  obtain ⟨⟨⟩, stood, hstood, transcript, target'', hcontinues, halike⟩ :=
    (Session.workAllAgain_ends attempts batches hconfig.1 hopening.stands (.refl _)
      (Nat.le_trans hstarted.faultsAhead hattempts) hrecords).exists_ok
  rw [hopening.itemsRead, Nat.zero_add] at hcontinues
  rw [hopening.itemsRead] at halike
  have hend := hcontinues.shutdown_ends hstarted
  refine ⟨stood, target'', recorder', started', calm, hstood, hstart', hcalm,
    hcontinues.stands.serves.active, fun hquiet => ?_, fun done hdone => ?_⟩
  · obtain ⟨⟨⟩, done, hdone, -⟩ := (hend.mono (fun _ _ h => h) fun _ _ h => h hquiet).exists_ok
    exact ⟨done, hdone⟩
  · have hended' := hend.of_ok hdone
    have hclosed := halike.close
    refine ⟨hended.read_eq hended' ?_ hclosed.closed, ?_, ?_⟩
    · exact (Destination.places_faultless _ _).symm
    · rw [hended'.itemsRead, hended.itemsRead]
    · have hcount := congrArg Counters.recordsWritten hended'.tells.counters
      have hcount' := congrArg Counters.recordsWritten hended.tells.counters
      exact hcount.trans (hclosed.recordsWritten.trans hcount'.symm)

/-- A torn record, a refused header and a write that takes nothing. -/
theorem workAllAgain_torn_record :
    let config : Config := { itemSize := 2, maxSegmentSize := 2 }
    let data : Channel :=
      { location := .buffer "data"
        faults := { writes := [(1, .accepts 1), (2, .failed), (5, .failed), (8, .interrupted),
          (9, .accepts 0)] } }
    let batches : List Batch :=
      [⟨[[1, 2], [3, 4], [5, 6]], [⟨1, "note", .uint 1⟩, ⟨1, "version", .uint 0⟩]⟩,
        ⟨[[7, 8]], [⟨3, "note", .text "end"⟩]⟩]
    config.IsUsable ∧ (Destination.channels data none).IsBlank false {} ∧
      (∀ record ∈ recordsOf batches, record.length = 2) ∧
      (Destination.channels data none).faultsAhead = 5 ∧
      ∃ recorder started stood target recorder' started' calm,
        Recorder.start config (.channels data none) {} = .ok recorder started ∧
        Session.workAllAgain 5 batches ⟨recorder, started⟩ = .ok () stood ∧
        Recorder.start config (.channels { data with faults := {} } none) {} =
          .ok recorder' started' ∧
        Session.workToEnd batches ⟨recorder', started'⟩ = .ok () calm ∧
        stood.recorder.active = some target ∧
        (target.faultsAhead = 0 → ∃ done, Session.shutdown stood = .ok () done) ∧
        ∀ done, Session.shutdown stood = .ok () done →
          (∀ place, done.host.store.read place = calm.host.store.read place) ∧
          done.recorder.itemsRead = calm.recorder.itemsRead ∧
          done.recorder.progress.counters.recordsWritten =
            calm.recorder.progress.counters.recordsWritten := by
  intro config data batches
  have hconfig : Config.IsUsable { itemSize := 2, maxSegmentSize := 2 } := ⟨rfl, _, rfl⟩
  have hblank : (Destination.channels data none).IsBlank false {} :=
    ⟨rfl, List.forall_mem_singleton.mpr
      ⟨⟨"data", rfl⟩, rfl, rfl, rfl, rfl, rfl, rfl, rfl, by simp [data]⟩, List.nodup_singleton _⟩
  have hrecords : ∀ record ∈ recordsOf batches, record.length = 2 := by decide
  have hok : (match Recorder.start config (.channels data none) {} with
      | .ok _ _ => true
      | .error _ _ => false) = true := by decide +kernel
  split at hok
  · rename_i recorder started hstart
    obtain ⟨stood, target, recorder', started', calm, hend⟩ :=
      workAllAgain_eq_faultless hconfig hblank hstart batches hrecords 5 (Nat.le_refl 5)
    exact ⟨hconfig, hblank, hrecords, rfl, recorder, started, stood, target, recorder', started',
      calm, hstart, hend⟩
  · cases hok

end SegmentStream
