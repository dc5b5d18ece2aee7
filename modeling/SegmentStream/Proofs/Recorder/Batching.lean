import SegmentStream.Proofs.Recorder.Stream

/-!
# Batches of one stream

A stream may be cut into batches anywhere, and each batch may come with any tags
as long as those that fall into it are there and ties keep their order.  What is
stored and counted is the same; only the number of batches differs.
-/

namespace SegmentStream

open SegmentStream.Action

def recordsOf (batches : List Batch) : List Bytes := (batches.map Batch.records).flatten

@[simp] theorem recordsOf_cons (batch : Batch) (rest : List Batch) :
    recordsOf (batch :: rest) = batch.records ++ recordsOf rest := rfl

/-- The acts of batches, the first of which begins at record `first`. -/
def scripts (size : UInt32) : Nat → List Batch → List Act
  | _, [] => []
  | first, batch :: rest =>
      script (cuesOf size batch.tags) first batch.records ++
        scripts size (first + batch.records.length) rest

/--
Each batch comes with the tags that fall into it, those of one record in the
order they have among all tags.
-/
def Covers (tags : List Tag) : Nat → List Batch → Prop
  | _, [] => True
  | first, batch :: rest =>
      (∀ offset, first ≤ offset → offset < first + batch.records.length →
        batch.tags.filter (·.offset == offset) = tags.filter (·.offset == offset)) ∧
      Covers tags (first + batch.records.length) rest

/-- Where batches begin and end does not show in their acts. -/
theorem scripts_of_covers (size : UInt32) {tags : List Tag} {first : Nat} {batches : List Batch}
    (h : Covers tags first batches) :
    scripts size first batches = script (cuesOf size tags) first (recordsOf batches) := by
  induction batches generalizing first with
  | nil => rfl
  | cons batch rest ih =>
      obtain ⟨hcues, hrest⟩ := h
      have hscript : script (cuesOf size batch.tags) first batch.records =
          script (cuesOf size tags) first batch.records := by
        refine script_congr fun index hle hlt => ?_
        rw [cuesOf, cuesOf, hcues index hle hlt]
      rw [scripts, hscript, ih hrest, recordsOf_cons, script_append]

theorem covers_single (tags : List Tag) (records : List Bytes) :
    Covers tags 0 [⟨records, tags⟩] :=
  ⟨fun _ _ _ => rfl, trivial⟩

namespace Session

def workAll : List Batch → Action StreamError Session Unit
  | [] => pure ()
  | batch :: rest => do
      discard (work batch.records.flatten batch.tags)
      workAll rest

def workToEnd (batches : List Batch) : Action StreamError Session Unit := do
  workAll batches
  shutdown

section Batches

variable {session : Session} {config : Config} {target : Target} {transcript : Transcript}

theorem workAll_ends (batches : List Batch) (hvalid : config.validate = .ok ())
    (hstands : session.Stands config target transcript) (hquiet : target.faultsAhead = 0)
    (hrecords : ∀ record ∈ recordsOf batches, record.length = config.itemSize.toNat) :
    Ends (workAll batches) session
      (fun _ next => ∃ target', session.Continues config target
        (transcript.play config.ceiling
          (scripts config.recordSize session.recorder.itemsRead batches))
        (session.recorder.itemsRead + (recordsOf batches).length) next target')
      (fun _ _ => False) := by
  induction batches generalizing session target transcript with
  | nil => exact ⟨target, hstands, .refl _, rfl⟩
  | cons batch rest ih =>
      have hbatch := fun record hrecord => hrecords record (List.mem_append_left _ hrecord)
      have hrest := fun record hrecord => hrecords record (List.mem_append_right _ hrecord)
      rw [workAll, ends_bind, ends_discard]
      refine (hstands.work_ends hvalid hquiet batch.tags hbatch).mono ?_ fun _ _ h => h
      rintro total next ⟨rfl, target', hnext⟩
      refine (ih hnext.stands (hnext.quiet hquiet) hrest).mono ?_ fun _ _ h => h
      rintro ⟨⟩ last ⟨target'', hlast⟩
      have hall := hnext.trans hlast
      rw [hnext.itemsRead, ← Transcript.play_append, Nat.add_assoc, ← List.length_append] at hall
      exact ⟨target'', hall⟩

theorem workToEnd_ends {destination : Destination} {headers : HeaderState} {host : Host}
    (batches : List Batch) (hvalid : config.validate = .ok ())
    (hheaders : HeaderState.start config = .ok headers)
    (hstarted : Recorder.Started config destination headers host session target)
    (hquiet : destination.faultsAhead = 0)
    (hrecords : ∀ record ∈ recordsOf batches, record.length = config.itemSize.toNat) :
    Ends (workToEnd batches) session
      (fun _ done => done.Ended config destination host
        ((Transcript.opening headers).play config.ceiling (scripts config.recordSize 0 batches))
        (recordsOf batches).length)
      (fun _ _ => False) := by
  have hstart := started_continues hstarted hheaders
  have hquiet' := hstarted.quiet hquiet
  rw [workToEnd, ends_bind]
  refine (workAll_ends batches hvalid hstart.stands hquiet' hrecords).mono ?_ fun _ _ h => h
  rintro ⟨⟩ next ⟨target', hnext⟩
  rw [hstart.itemsRead, Nat.zero_add] at hnext
  exact (hnext.shutdown_ends hstarted).mono (fun _ _ h => h) fun _ _ h => h (hnext.quiet hquiet')

end Batches

end Session

/-! ## Any batches leave what one batch leaves -/

/--
However a stream is cut into batches, and in whatever order their tags come, the
same bytes, read position, headers and counters are left, the number of batches
apart.
-/
theorem workToEnd_eq_single {config : Config} {destination : Destination} {host : Host}
    (hconfig : config.IsUsable) (hblank : destination.IsBlank config.splitHeader host.store)
    (hquiet : destination.faultsAhead = 0) (tags : List Tag) (batches : List Batch)
    (hrecords : ∀ record ∈ recordsOf batches, record.length = config.itemSize.toNat)
    (hcovers : Covers tags 0 batches) :
    ∃ recorder started many once,
      Recorder.start config destination host = .ok recorder started ∧
      Session.workToEnd batches ⟨recorder, started⟩ = .ok () many ∧
      Session.workToEnd [⟨recordsOf batches, tags⟩] ⟨recorder, started⟩ = .ok () once ∧
      (∀ place, many.host.store.read place = once.host.store.read place) ∧
      many.recorder.itemsRead = once.recorder.itemsRead ∧
      many.recorder.progress.headers = once.recorder.progress.headers ∧
      { many.recorder.progress.counters with batches := 0 } =
        { once.recorder.progress.counters with batches := 0 } := by
  obtain ⟨headers, recorder, started, target, hheaders, hstart, hstarted⟩ :=
    Recorder.exists_start hconfig hblank hquiet
  have hends := fun batches => Session.workToEnd_ends batches hconfig.1 hheaders hstarted hquiet
  have hmore := hends batches hrecords
  have hsame : recordsOf [⟨recordsOf batches, tags⟩] = recordsOf batches := by simp [recordsOf]
  have hsingle := hends [⟨recordsOf batches, tags⟩] (by rwa [hsame])
  rw [scripts_of_covers _ hcovers] at hmore
  rw [scripts_of_covers _ (covers_single tags _), hsame] at hsingle
  obtain ⟨⟨⟩, many, hmany, hended⟩ := hmore.exists_ok
  obtain ⟨⟨⟩, once, honce, hended'⟩ := hsingle.exists_ok
  have hrunning : ((Transcript.opening headers).play config.ceiling
      (script (cuesOf config.recordSize tags) 0 (recordsOf batches))).running.isSome = true :=
    Transcript.isRunning_play _ rfl
  refine ⟨recorder, started, many, once, hstart, hmany, honce, ?_, ?_, ?_, ?_⟩
  · exact hended'.read_eq hended rfl rfl
  · rw [hended.itemsRead, hended'.itemsRead]
  · exact hended'.headers_eq hended hrunning
  · exact hended.tells.counters.trans hended'.tells.counters.symm

end SegmentStream
