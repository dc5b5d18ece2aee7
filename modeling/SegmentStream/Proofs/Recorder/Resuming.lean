import SegmentStream.Proofs.Recorder.Enduring

/-!
# Going on after a failure

A caller that goes on where the read position stands neither repeats nor skips a
record, whatever failed before, as long as no batch stopped at a header that was
refused.  No header is refused to a caller who writes a stale header again before
the next record.
-/

namespace SegmentStream

open SegmentStream.Action

/-! ## The start of a recorder -/

theorem Recorder.start_stands (config : Config) (destination : Destination) (host : Host) :
    Ends (Recorder.start config destination) host
      (fun recorder started => config.validate = .ok () ∧ recorder.config = config ∧
        recorder.itemsRead = 0 ∧ recorder.progress.counters.recordsWritten = 0 ∧
        recorder.progress.counters.recordsDropped = 0 ∧ (Session.mk recorder started).IsUpright ∧
        (destination.CutsBack → (Session.mk recorder started).IsMendable))
      (fun _ _ => True) := by
  cases hvalid : config.validate with
  | error cause => simp only [Recorder.start, hvalid, ends_bind, ends_throw]
  | ok =>
      cases hheaders : HeaderState.start config with
      | error error => simp only [Recorder.start, hvalid, hheaders, ends_bind, ends_throw]
      | ok headers =>
          simp only [Recorder.start, hvalid, hheaders, ends_bind, ends_pure, ends_get]
          refine (Target.openAt_cutsBack destination _ host).mono ?_ fun _ _ _ => trivial
          intro target opened hcuts
          have hslot : headers.slot = none := by
            rw [← (HeaderState.of_start hheaders).fresh]
            rfl
          let blank : Writer := ⟨{ headers }, ⟨target, opened⟩⟩
          have hempty : blank.progress.records = 0 := rfl
          have hblank : destination.CutsBack → blank.IsMendable := by
            refine fun hdestination => ⟨hcuts hdestination, ?_, ?_⟩ <;>
              exact fun slot hsome => by cases hslot.symm.trans hsome
          have hopened := Writer.openSegment_tallies hempty
          unfold Ends at hopened ⊢
          cases hresult : Writer.openSegment ⟨{ headers }, ⟨target, opened⟩⟩ with
          | error error writer => trivial
          | ok value writer =>
              rw [hresult] at hopened
              obtain ⟨htallies, hready⟩ := hopened
              refine ⟨trivial, rfl, rfl, htallies.written, htallies.dropped,
                ⟨htallies.upright, fun hnone => ?_⟩, fun hdestination => ⟨?_, fun _ h => ?_⟩⟩
              · cases hnone
              · rintro current ⟨⟩
                obtain ⟨hcuts, hlast, hfits⟩ := htallies.mendable (hblank hdestination) trivial
                exact ⟨hcuts, hlast, hfits⟩
              · cases h

/-! ## Read positions -/

namespace Session

/-- How many records are stored or were dropped. -/
def accounted (session : Session) : Nat :=
  let counters := session.recorder.progress.counters
  counters.recordsWritten + counters.recordsDropped

/-- How many records a batch took, by its answer. -/
def told : Except StreamError Nat → Nat
  | .ok count => count
  | .error error => error.persisted?.getD 0

/-- Records of a batch that were stored before a header was refused; its answer does not tell. -/
def strays (session : Session) : Call → Nat
  | .work items tags =>
      match (work items tags).run session with
      | (.error (.format (.regionResized ..)), next) => next.accounted - session.accounted
      | _ => 0
  | _ => 0

/-- The records that no answer to these calls told of. -/
def strayed (session : Session) : List Call → Nat
  | [] => 0
  | call :: rest => session.strays call + ((answer call).stateAfter session).strayed rest

section Calls

variable {session next : Session} {proviso : Prop} {read written dropped : Nat}

theorem Moves.accounted (h : session.Moves proviso read written dropped next) :
    next.accounted = session.accounted + (written + dropped) := by
  simp only [Session.accounted, h.written, h.dropped]
  omega

theorem work_position (hvalid : session.recorder.config.validate = .ok ())
    (h : session.IsUpright) (items : Bytes) (tags : List Tag) :
    let outcome := (work items tags).run session
    outcome.2.recorder.itemsRead = session.recorder.itemsRead + told outcome.1 ∧
      outcome.2.accounted =
        session.accounted + told outcome.1 + session.strays (.work items tags) := by
  have hends := work_moves hvalid h items tags
  unfold Ends at hends
  cases hresult : work items tags session with
  | ok count next =>
      rw [hresult] at hends
      obtain ⟨written, dropped, rfl, hmoves⟩ := hends
      simp only [strays, Action.run, hresult]
      exact ⟨hmoves.itemsRead, hmoves.accounted⟩
  | error error next =>
      rw [hresult] at hends
      obtain ⟨read, stored, hmoves, hexcuses⟩ := hends
      have hread := hmoves.itemsRead
      have haccounted := hmoves.accounted
      simp only [strays, Action.run, hresult]
      cases error with
      | write persisted cause =>
          obtain ⟨rfl, rfl⟩ := hexcuses
          exact ⟨hread, haccounted⟩
      | format fault =>
          cases fault with
          | regionResized offset old new =>
              obtain ⟨rfl, -⟩ := hexcuses
              refine ⟨hread, ?_⟩
              simp only [told, StreamError.persisted?, Option.getD_none]
              omega
          | _ =>
              obtain ⟨rfl, rfl⟩ := hexcuses
              exact ⟨hread, haccounted⟩
      | _ =>
          obtain ⟨rfl, rfl⟩ := hexcuses
          exact ⟨hread, haccounted⟩

theorem work_stateAfter (session : Session) (items : Bytes) (tags : List Tag) :
    (answer (.work items tags)).stateAfter session = ((work items tags).run session).2 := by
  have hends : Ends (answer (.work items tags)) session
      (fun _ next => next = ((work items tags).run session).2)
      (fun _ next => next = ((work items tags).run session).2) := by
    rw [answer, ends_discard]
    unfold Ends
    rw [Action.run]
    cases work items tags session <;> rfl
  exact hends.stateAfter

theorem answer_accounted (hvalid : session.recorder.config.validate = .ok ())
    (h : session.IsUpright) (call : Call) :
    ((answer call).stateAfter session).accounted + session.recorder.itemsRead =
      session.accounted + ((answer call).stateAfter session).recorder.itemsRead +
        session.strays call := by
  by_cases hwork : ∃ items tags, call = .work items tags
  · obtain ⟨items, tags, rfl⟩ := hwork
    obtain ⟨hread, haccounted⟩ := work_position hvalid h items tags
    rw [← work_stateAfter] at hread haccounted
    omega
  · have hother : ∀ items tags, call ≠ .work items tags :=
      fun items tags hcall => hwork ⟨items, tags, hcall⟩
    have hmoves : session.Moves call.CutsBack 0 0 0 ((answer call).stateAfter session) :=
      ((answer_stays h hother).mono (fun _ _ h => h) fun _ _ h => h.1).stateAfter
    have hstrays : session.strays call = 0 := by
      cases call with
      | work items tags => exact absurd rfl (hother items tags)
      | _ => rfl
    rw [hstrays, hmoves.accounted, hmoves.itemsRead]
    rfl

theorem answer_stateAfter_moves (hvalid : session.recorder.config.validate = .ok ())
    (h : session.IsUpright) (call : Call) :
    ∃ read written dropped, session.Moves (session.Heeds call ∧ call.CutsBack) read written dropped
      ((answer call).stateAfter session) := by
  refine ((answer_moves hvalid h call).mono (fun _ _ h => h) ?_).stateAfter
  rintro error next ⟨read, stored, hmoves, -⟩
  exact ⟨read, stored, 0, hmoves⟩

theorem after_isUpright (hvalid : session.recorder.config.validate = .ok ())
    (h : session.IsUpright) (calls : List Call) :
    (session.after calls).recorder.config = session.recorder.config ∧
      (session.after calls).IsUpright := by
  induction calls generalizing session with
  | nil => exact ⟨rfl, h⟩
  | cons call rest ih =>
      obtain ⟨read, written, dropped, hmoves⟩ := answer_stateAfter_moves hvalid h call
      obtain ⟨hconfig, hupright⟩ := ih (hmoves.config ▸ hvalid) hmoves.upright
      exact ⟨hconfig.trans hmoves.config, hupright⟩

theorem after_accounted (hvalid : session.recorder.config.validate = .ok ())
    (h : session.IsUpright) (calls : List Call) :
    (session.after calls).accounted + session.recorder.itemsRead =
      session.accounted + (session.after calls).recorder.itemsRead + session.strayed calls := by
  induction calls generalizing session with
  | nil => rfl
  | cons call rest ih =>
      obtain ⟨read, written, dropped, hmoves⟩ := answer_stateAfter_moves hvalid h call
      have hcall := answer_accounted hvalid h call
      have hrest := ih (hmoves.config ▸ hvalid) hmoves.upright
      change (((answer call).stateAfter session).after rest).accounted + _ =
        _ + (((answer call).stateAfter session).after rest).recorder.itemsRead +
          (session.strays call + ((answer call).stateAfter session).strayed rest)
      omega

/-- Nothing strays unless a batch stops at a header that is refused. -/
theorem strayed_eq_zero (calls : List Call)
    (h : ∀ first items tags later, calls = first ++ .work items tags :: later →
      ∀ offset length need next, work items tags (session.after first) ≠
        .error (.format (.regionResized offset length need)) next) :
    session.strayed calls = 0 := by
  induction calls generalizing session with
  | nil => rfl
  | cons call rest ih =>
      have hrest := ih fun first items tags later hcalls =>
        h (call :: first) items tags later (congrArg (call :: ·) hcalls)
      have hcall : session.strays call = 0 := by
        cases call with
        | work items tags =>
            have hnot := h [] items tags rest rfl
            rw [strays, Action.run]
            cases hresult : work items tags session with
            | ok => rfl
            | error error next =>
                split
                · rename_i heq
                  cases heq
                  exact absurd hresult (hnot _ _ _ _)
                · rfl
        | _ => rfl
      rw [strayed, hcall, hrest]

/--
Whatever fails, the read position stands behind the records that are stored or were
dropped, as far as answers told of them: each answer to a batch tells how far it moved.
Only a batch that stops at a header that is refused stores records without telling.
-/
theorem after_position {config : Config} {destination : Destination} {host started : Host}
    {recorder : Recorder} (hstart : Recorder.start config destination host = .ok recorder started)
    (calls : List Call) :
    let session := Session.mk recorder started
    let last := session.after calls
    last.accounted = last.recorder.itemsRead + session.strayed calls ∧
    ((∀ first items tags later, calls = first ++ .work items tags :: later →
        ∀ offset length need next, work items tags (session.after first) ≠
          .error (.format (.regionResized offset length need)) next) →
      last.recorder.itemsRead = last.accounted) ∧
    ∀ items tags,
      let outcome := (work items tags).run last
      outcome.2.recorder.itemsRead = last.recorder.itemsRead + told outcome.1 ∧
      outcome.2.accounted = last.accounted + told outcome.1 + last.strays (.work items tags) := by
  intro session last
  obtain ⟨hvalid, hconfig, hread, hwritten, hdropped, hupright, -⟩ :=
    (Recorder.start_stands config destination host).of_ok hstart
  have hvalid' : session.recorder.config.validate = .ok () := hconfig ▸ hvalid
  have hfirst : session.accounted = 0 := by
    change recorder.progress.counters.recordsWritten + recorder.progress.counters.recordsDropped = 0
    rw [hwritten, hdropped]
  have haccounted := after_accounted hvalid' hupright calls
  have hread' : session.recorder.itemsRead = 0 := hread
  rw [hread', hfirst, Nat.add_zero, Nat.zero_add] at haccounted
  obtain ⟨hlast, hupright'⟩ := after_isUpright hvalid' hupright calls
  refine ⟨haccounted, fun hnone => ?_, work_position (hlast ▸ hvalid') hupright'⟩
  rw [strayed_eq_zero calls hnone] at haccounted
  exact haccounted.symm

/-- Two records stray behind an update that failed and a tag whose header is refused. -/
theorem after_position_strayed :
    let config : Config := { itemSize := 1 }
    let data : Channel := { location := .buffer "data", faults := { writes := [(1, .failed)] } }
    let calls : List Call :=
      [.update "note" (.uint 1), .work [1, 2, 3] [⟨2, "size", .uint 1⟩]]
    ∃ recorder started,
      Recorder.start config (.channels data none) {} = .ok recorder started ∧
      let session := Session.mk recorder started
      let last := session.after calls
      session.strayed calls = 2 ∧
      last.accounted = last.recorder.itemsRead + session.strayed calls ∧
      ((∀ first items tags later, calls = first ++ .work items tags :: later →
          ∀ offset length need next, work items tags (session.after first) ≠
            .error (.format (.regionResized offset length need)) next) →
        last.recorder.itemsRead = last.accounted) ∧
      ∀ items tags,
        let outcome := (work items tags).run last
        outcome.2.recorder.itemsRead = last.recorder.itemsRead + told outcome.1 ∧
        outcome.2.accounted =
          last.accounted + told outcome.1 + last.strays (.work items tags) := by
  intro config data calls
  have hok : (match Recorder.start config (.channels data none) {} with
      | .ok recorder started => decide ((Session.mk recorder started).strayed calls = 2)
      | .error _ _ => false) = true := by decide +kernel
  split at hok
  · rename_i recorder started hstart
    exact ⟨recorder, started, hstart, of_decide_eq_true hok, after_position hstart calls⟩
  · cases hok

/-! ## Open headers -/

theorem after_isMendable (hvalid : session.recorder.config.validate = .ok ())
    (h : session.IsUpright) (hmendable : session.IsMendable) (calls : List Call)
    (hcalls : ∀ first call later, calls = first ++ call :: later →
      (session.after first).Heeds call ∧ call.CutsBack) :
    (session.after calls).IsMendable := by
  induction calls generalizing session with
  | nil => exact hmendable
  | cons call rest ih =>
      obtain ⟨read, written, dropped, hmoves⟩ := answer_stateAfter_moves hvalid h call
      have hnext := hmoves.mendable hmendable (hcalls [] call rest rfl)
      exact ih (hmoves.config ▸ hvalid) hmoves.upright hnext fun first call' later hrest =>
        hcalls (call :: first) call' later (congrArg (call :: ·) hrest)

/--
Where only writes fail, and no batch goes on under a stale header without writing it
again, the open header has the length of what is to be written over it as soon as a
record stands behind it, so that no call finds it changed.
-/
theorem after_fits {config : Config} {destination : Destination} {host started : Host}
    {recorder : Recorder} (hstart : Recorder.start config destination host = .ok recorder started)
    (calls : List Call) (hdestination : destination.CutsBack)
    (hcalls : ∀ call ∈ calls, call.CutsBack)
    (hheeds : ∀ first call later, calls = first ++ call :: later →
      ((Session.mk recorder started).after first).Heeds call) :
    ∀ first later, calls = first ++ later →
      let current := (Session.mk recorder started).after first
      let progress := current.recorder.progress
      (∀ slot, progress.headers.slot = some slot → 0 < progress.records →
        slot.length = headerSize + progress.headers.extras.encodedSize) ∧
      ∀ call rest, later = call :: rest → ∀ offset length need next,
        answer call current ≠ .error (.format (.regionResized offset length need)) next := by
  rintro first later rfl current progress
  obtain ⟨hvalid, hconfig, -, -, -, hupright, hmendable⟩ :=
    (Recorder.start_stands config destination host).of_ok hstart
  have hvalid' : (Session.mk recorder started).recorder.config.validate = .ok () :=
    hconfig ▸ hvalid
  obtain ⟨hsame, hcurrent⟩ := after_isUpright hvalid' hupright first
  have hmendable' : current.IsMendable := by
    refine after_isMendable hvalid' hupright (hmendable hdestination) first ?_
    rintro before call behind rfl
    refine ⟨hheeds before call (behind ++ later) (by simp), hcalls call (by simp)⟩
  refine ⟨fun slot hslot hpos => ?_, ?_⟩
  · cases hactive : current.recorder.active with
    | none => cases (hcurrent.detached hactive).symm.trans hslot
    | some target => exact (hmendable'.active target hactive).fits slot hslot hpos
  · rintro call rest rfl offset length need next hrefused
    have hends := answer_moves (hsame ▸ hvalid') hcurrent call
    obtain ⟨read, stored, -, -, hmistrust⟩ := hends.of_error hrefused
    exact hmistrust ⟨hmendable', hheeds first call rest rfl, hcalls call (by simp)⟩

end Calls

/-- An update that fails, and a tag at the next record that writes the header again. -/
theorem after_fits_mended :
    let config : Config := { itemSize := 1 }
    let data : Channel :=
      { location := .buffer "data"
        faults := { writes := [(1, .failed), (3, .accepts 2), (4, .failed)] } }
    let batch := Call.work [1, 2, 3] [⟨0, "note", .uint 1⟩]
    let calls : List Call := [.update "note" (.uint 1), batch, .shutdown]
    ∃ recorder started,
      Recorder.start config (.channels data none) {} = .ok recorder started ∧
      (Destination.channels data none).CutsBack ∧ (∀ call ∈ calls, call.CutsBack) ∧
      (∀ first call later, calls = first ++ call :: later →
        ((Session.mk recorder started).after first).Heeds call) ∧
      ∀ first later, calls = first ++ later →
        let current := (Session.mk recorder started).after first
        let progress := current.recorder.progress
        (∀ slot, progress.headers.slot = some slot → 0 < progress.records →
          slot.length = headerSize + progress.headers.extras.encodedSize) ∧
        ∀ call rest, later = call :: rest → ∀ offset length need next,
          answer call current ≠ .error (.format (.regionResized offset length need)) next := by
  intro config data batch calls
  have hcuts : (Destination.channels data none).CutsBack :=
    List.forall_mem_singleton.mpr ⟨rfl, rfl, .inl ⟨"data", rfl⟩⟩
  have hcalls : ∀ call ∈ calls, call.CutsBack := by
    simp [calls, batch, Call.CutsBack]
  have hok : (match Recorder.start config (.channels data none) {} with
      | .ok recorder started =>
          decide (((Session.mk recorder started).after
            [.update "note" (.uint 1)]).recorder.itemsRead = 0)
      | .error _ _ => false) = true := by decide +kernel
  split at hok
  · rename_i recorder started hstart
    have hread := of_decide_eq_true hok
    have hheeds : ∀ first call later, calls = first ++ call :: later →
        ((Session.mk recorder started).after first).Heeds call := by
      rintro (_ | ⟨before, _ | ⟨second, rest⟩⟩) call later hlist
      · obtain ⟨rfl, -⟩ := List.cons.inj hlist
        trivial
      · obtain ⟨rfl, hrest⟩ := List.cons.inj hlist
        obtain ⟨rfl, -⟩ := List.cons.inj hrest
        exact fun _ _ _ _ => .inr ⟨_, List.mem_cons_self, hread.symm⟩
      · have hlast : call ∈ [Call.shutdown] := by
          rw [(List.cons.inj (List.cons.inj hlist).2).2]
          exact List.mem_append_right _ List.mem_cons_self
        cases List.mem_singleton.mp hlast
        trivial
    exact ⟨recorder, started, hstart, hcuts, hcalls, hheeds,
      after_fits hstart calls hcuts hcalls hheeds⟩
  · cases hok

end Session

end SegmentStream
