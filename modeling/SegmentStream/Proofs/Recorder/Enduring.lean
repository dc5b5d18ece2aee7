import SegmentStream.Proofs.Recorder.Chronicle
import SegmentStream.Proofs.Recorder.Failing
import SegmentStream.Proofs.Recorder.Stream

/-!
# Sessions that fail

Every call, by what it does to the read position and to the counts wherever it
stops, and whether the open header can still be written again behind it.
-/

namespace SegmentStream

open SegmentStream.Action

/-! ## Destinations whose channels fail -/

/-- Channels that exist already cut back; those that are opened have no planned faults. -/
def Destination.CutsBack : Destination → Prop
  | channels data header => ∀ channel ∈ data :: header.toList, channel.CutsBack
  | _ => True

def RotationCommand.CutsBack : RotationCommand → Prop
  | install target => target.CutsBack
  | detach => True

def Call.CutsBack : Call → Prop
  | rotate destination => destination.CutsBack
  | _ => True

theorem Target.openAt_cutsBack (destination : Destination) (split : Bool) (host : Host) :
    Ends (Target.openAt destination split) host
      (fun target _ => destination.CutsBack → target.CutsBack)
      (fun error _ => (∃ path cause, error = .cannotOpen path cause) ∨
        ∃ fault, error = .misuse fault) := by
  have hopened : ∀ location : Location, Channel.CutsBack { location } :=
    fun _ => ⟨rfl, rfl, .inr rfl⟩
  have hfile : ∀ (path : String) (host : Host),
      Ends (Destination.openFile path) host (fun channel _ => channel.CutsBack)
        (fun error _ => ∃ path cause, error = .cannotOpen path cause) := by
    intro path host
    unfold Ends Destination.openFile
    cases host.store.create path with
    | error cause => exact ⟨path, cause, rfl⟩
    | ok created => exact hopened created.1
  cases destination with
  | file path =>
      cases split with
      | false =>
          simp only [openAt, Destination.openChannels, ends_bind, ends_pure, ends_modify,
            Bool.false_eq_true, if_false]
          refine (hfile path host).mono (fun data _ hdata _ => ?_) fun _ _ h => .inl h
          exact List.forall_mem_singleton.mpr hdata
      | true =>
          simp only [openAt, Destination.openChannels, ends_bind, ends_pure, ends_modify, ends_map,
            if_true]
          refine (hfile _ host).mono (fun header next hheader => ?_) fun _ _ h => .inl h
          refine (hfile path next).mono (fun data _ hdata _ => ?_) fun _ _ h => .inl h
          exact List.forall_mem_cons.mpr ⟨hdata, List.forall_mem_singleton.mpr hheader⟩
  | memory data header =>
      cases split with
      | false => exact fun _ => List.forall_mem_singleton.mpr (hopened _)
      | true =>
          exact fun _ => List.forall_mem_cons.mpr
            ⟨hopened _, List.forall_mem_singleton.mpr (hopened _)⟩
  | channels data header =>
      cases split <;> cases header <;> first | exact id | exact .inr ⟨_, rfl⟩

namespace Session

/-! ## What calls move -/

/-- Records stand behind an open header only, and only the active target has one. -/
structure IsUpright (session : Session) : Prop where
  progress : session.recorder.progress.IsUpright
  detached : session.recorder.active = none → session.recorder.progress.headers.slot = none

/-- The open header can be written again, and so can those of the targets that are staged. -/
structure IsMendable (session : Session) : Prop where
  active : ∀ target, session.recorder.active = some target → (session.writerOn target).IsMendable
  staged : ∀ target, .install target ∈ session.recorder.rotation.staged → target.CutsBack

/--
So many records are read, stored and dropped.  The open header can be written again on
a proviso.
-/
structure Moves (session : Session) (proviso : Prop) (read written dropped : Nat)
    (next : Session) : Prop where
  config : next.recorder.config = session.recorder.config
  itemsRead : next.recorder.itemsRead = session.recorder.itemsRead + read
  written : next.recorder.progress.counters.recordsWritten =
    session.recorder.progress.counters.recordsWritten + written
  dropped : next.recorder.progress.counters.recordsDropped =
    session.recorder.progress.counters.recordsDropped + dropped
  upright : next.IsUpright
  mendable : session.IsMendable → proviso → next.IsMendable

/--
What an error says about records that were read and stored.  Only mistrust lets a header
be refused, and then it does not say how many records were stored.
-/
def Excuses (trusted : Prop) (read stored : Nat) : StreamError → Prop
  | .write persisted _ => read = persisted ∧ stored = persisted
  | .format (.regionResized ..) => read = 0 ∧ ¬ trusted
  | _ => read = 0 ∧ stored = 0

section Rules

variable {session middle next : Session} {proviso proviso' : Prop}
  {read written dropped read' written' dropped' : Nat}

theorem Moves.refl (h : session.IsUpright) (proviso : Prop) :
    session.Moves proviso 0 0 0 session :=
  ⟨rfl, rfl, rfl, rfl, h, fun hmendable _ => hmendable⟩

theorem Moves.trans (h : session.Moves proviso read written dropped middle)
    (h' : middle.Moves proviso' read' written' dropped' next)
    (hproviso : session.IsMendable → proviso → proviso') :
    session.Moves proviso (read + read') (written + written') (dropped + dropped') next where
  config := h'.config.trans h.config
  itemsRead := by rw [h'.itemsRead, h.itemsRead, Nat.add_assoc]
  written := by rw [h'.written, h.written, Nat.add_assoc]
  dropped := by rw [h'.dropped, h.dropped, Nat.add_assoc]
  upright := h'.upright
  mendable hmendable hfirst :=
    h'.mendable (h.mendable hmendable hfirst) (hproviso hmendable hfirst)

/-- What follows on a step that moves nothing. -/
theorem Moves.after (h : session.Moves True 0 0 0 middle)
    (h' : middle.Moves proviso read written dropped next) :
    session.Moves proviso read written dropped next where
  config := h'.config.trans h.config
  itemsRead := h'.itemsRead.trans (congrArg (· + read) h.itemsRead)
  written := h'.written.trans (congrArg (· + written) h.written)
  dropped := h'.dropped.trans (congrArg (· + dropped) h.dropped)
  upright := h'.upright
  mendable hmendable hproviso := h'.mendable (h.mendable hmendable trivial) hproviso

theorem Moves.weaken (h : session.Moves proviso read written dropped next)
    (hproviso : proviso' → proviso) : session.Moves proviso' read written dropped next :=
  { h with mendable := fun hmendable hweak => h.mendable hmendable (hproviso hweak) }

/-- The target and its open header stay as they are. -/
theorem Moves.of_same (hupright : session.IsUpright)
    (hconfig : next.recorder.config = session.recorder.config)
    (hread : next.recorder.itemsRead = session.recorder.itemsRead + read)
    (hactive : next.recorder.active = session.recorder.active)
    (hheaders : next.recorder.progress.headers = session.recorder.progress.headers)
    (hrecords : next.recorder.progress.records = session.recorder.progress.records)
    (hwritten : next.recorder.progress.counters.recordsWritten =
      session.recorder.progress.counters.recordsWritten)
    (hdropped : next.recorder.progress.counters.recordsDropped =
      session.recorder.progress.counters.recordsDropped + dropped)
    (hstaged : session.IsMendable → proviso → ∀ target,
      .install target ∈ next.recorder.rotation.staged → target.CutsBack) :
    session.Moves proviso read 0 dropped next := by
  refine ⟨hconfig, hread, hwritten, hdropped, ⟨fun hnone => ?_, fun hnone => ?_⟩,
    fun hmendable hproviso => ⟨fun target hsome => ?_, hstaged hmendable hproviso⟩⟩
  · rw [hheaders] at hnone
    exact hrecords.trans (hupright.progress hnone)
  · rw [hactive] at hnone
    rw [hheaders]
    exact hupright.detached hnone
  · rw [hactive] at hsome
    obtain ⟨hcuts, hlast, hfits⟩ := hmendable.active target hsome
    rw [writerOn] at hlast hfits ⊢
    exact ⟨hcuts, by rwa [hheaders, hrecords], by rwa [hheaders, hrecords]⟩

/-- What the writer tallies on the active target, with the read position moved along. -/
theorem moves_of_tallies {target : Target} {writer : Writer} {count : Nat}
    (hactive : session.recorder.active = some target)
    (h : (session.writerOn target).Tallies proviso count writer) (read : Nat) :
    session.Moves proviso read count 0
      ((session.withWriter writer).readTo (session.recorder.itemsRead + read)) := by
  refine ⟨rfl, rfl, h.written, h.dropped, ⟨h.upright, fun hnone => ?_⟩,
    fun hmendable hproviso => ⟨?_, hmendable.staged⟩⟩
  · cases hnone
  · rintro current ⟨⟩
    exact h.mendable (hmendable.active target hactive) hproviso

theorem Excuses.mono {trusted trusted' : Prop} {stored : Nat} {error : StreamError}
    (h : Excuses trusted read stored error) (htrusted : trusted' → trusted) :
    Excuses trusted' read stored error := by
  unfold Excuses at h ⊢
  split at h
  · exact h
  · exact ⟨h.1, fun htrust => h.2 (htrusted htrust)⟩
  · exact h

theorem excuses_of_blames {target : Target} {error : StreamError}
    (hactive : session.recorder.active = some target)
    (h : (session.writerOn target).Blames error) : Excuses session.IsMendable 0 0 error := by
  unfold Writer.Blames at h
  split at h
  · exact ⟨rfl, rfl⟩
  · exact ⟨rfl, fun hmendable => h (hmendable.active target hactive)⟩
  · exact h.elim

end Rules

/-! ## Changing the target -/

section Turning

variable {session : Session} {target : Target}

/-- No header is open any more; no record is read, stored or dropped. -/
structure Frees (session next : Session) : Prop where
  recorder : next.recorder = { session.recorder with progress := next.recorder.progress }
  slot : next.recorder.progress.headers.slot = none
  records : next.recorder.progress.records = 0
  written : next.recorder.progress.counters.recordsWritten =
    session.recorder.progress.counters.recordsWritten
  dropped : next.recorder.progress.counters.recordsDropped =
    session.recorder.progress.counters.recordsDropped

theorem retire_frees (session : Session) (target : Target) :
    Ends (retire target) session (fun _ next => session.Frees next)
      (fun error next => session.Frees next ∧ (session.writerOn target).Blames error) := by
  cases hslot : session.recorder.progress.headers.slot with
  | none =>
      simp only [retire, ends_bind, ends_get, HeaderState.isOpen, hslot, Option.isSome_none,
        Bool.false_eq_true, if_false, ends_pure, ends_changeProgress, ends_report, ends_attempt,
        onHost, ends_within]
      exact ends_of_forall (fun _ _ => ⟨rfl, rfl, rfl, rfl, rfl⟩)
        fun _ _ => ⟨⟨rfl, rfl, rfl, rfl, rfl⟩, trivial⟩
  | some slot =>
      simp only [retire, ends_bind, ends_get, HeaderState.isOpen, hslot, Option.isSome_some,
        if_true, ends_onTarget, ends_changeProgress, ends_report, ends_attempt, onHost, ends_within]
      have hopened : (session.writerOn target).progress.headers.slot = some slot := hslot
      refine (Writer.closeSegment_tallies hopened).mono ?_ ?_
      · rintro ⟨⟩ writer ⟨htallies, -, -⟩
        exact ends_of_forall (fun _ _ => ⟨rfl, rfl, rfl, htallies.written, htallies.dropped⟩)
          fun _ _ => ⟨⟨rfl, rfl, rfl, htallies.written, htallies.dropped⟩, trivial⟩
      · rintro error writer ⟨htallies, hblames⟩
        exact ends_of_forall
          (fun _ _ => ⟨⟨rfl, rfl, rfl, htallies.written, htallies.dropped⟩, hblames⟩)
          fun _ _ => ⟨⟨rfl, rfl, rfl, htallies.written, htallies.dropped⟩, hblames⟩

/-- Whatever fails, the active target is let go of. -/
theorem retireActive_moves (h : session.IsUpright) :
    Ends retireActive session
      (fun _ next => session.Moves True 0 0 0 next ∧ next.recorder.active = none ∧
        next.recorder.rotation = session.recorder.rotation)
      (fun error next => (session.Moves True 0 0 0 next ∧ next.recorder.active = none ∧
        next.recorder.rotation = session.recorder.rotation) ∧
          Excuses session.IsMendable 0 0 error) := by
  simp only [retireActive, ends_bind, ends_get]
  cases hactive : session.recorder.active with
  | none => exact ⟨.refl h True, hactive, rfl⟩
  | some target =>
      let freed : Session := { session with recorder := { session.recorder with active := none } }
      have hmoves : ∀ {next}, freed.Frees next → session.Moves True 0 0 0 next ∧
          next.recorder.active = none ∧ next.recorder.rotation = session.recorder.rotation := by
        rintro ⟨recorder, host⟩ ⟨hrecorder, hslot, hrecords, hwritten, hdropped⟩
        generalize recorder.progress = progress at *
        subst hrecorder
        refine ⟨⟨rfl, rfl, hwritten, hdropped, ⟨fun _ => hrecords, fun _ => hslot⟩,
          fun hmendable _ => ⟨fun _ hsome => ?_, hmendable.staged⟩⟩, rfl, rfl⟩
        cases hsome
      simp only [ends_bind, ends_change]
      refine (retire_frees freed target).mono (fun _ _ hfrees => hmoves hfrees) ?_
      rintro error next ⟨hfrees, hblames⟩
      exact ⟨hmoves hfrees, excuses_of_blames hactive hblames⟩

/-- The first header is written to the target of its own, or to none. -/
theorem install_moves (h : session.IsUpright) (hnone : session.recorder.active = none) :
    Ends (install target) session
      (fun _ next => session.Moves target.CutsBack 0 0 0 next ∧ ¬ next.recorder.progress.IsStale)
      (fun error next => session.Moves True 0 0 0 next ∧ ∃ cause, error = .io cause) := by
  have hclosed := h.detached hnone
  simp only [install, ends_bind, ends_changeProgress, ends_onTarget, Writer.onScribe, ends_within]
  refine Scribe.emit_stays.mono ?_ ?_
  · rintro slot ⟨headers, outlet⟩ ⟨rfl, rfl, hstays, hcursor⟩
    simp only [ends_report, ends_change]
    refine ⟨⟨rfl, rfl, rfl, rfl, ⟨fun _ => rfl, fun hnone => ?_⟩,
      fun hmendable hcuts => ⟨?_, hmendable.staged⟩⟩, ?_⟩
    · cases hnone
    · rintro current ⟨⟩
      refine ⟨hstays.cutsBack hcuts, ?_, ?_⟩
      · rintro other ⟨⟩ -
        exact hcursor.symm
      · rintro other - hpos
        cases hpos
    · rintro ⟨other, ⟨⟩, hlength⟩
      exact hlength rfl
  · rintro error ⟨headers, outlet⟩ ⟨hcause, rfl, -, -⟩
    simp only [ends_modify, ends_throw]
    refine ⟨⟨rfl, rfl, rfl, rfl, ⟨fun _ => rfl, fun _ => hclosed⟩,
      fun hmendable _ => ⟨fun current hsome => ?_, hmendable.staged⟩⟩, hcause⟩
    cases hnone.symm.trans hsome

theorem moves_mark (h : session.IsUpright) (stage : Stage) :
    session.Moves True 0 0 0 { session with recorder := { session.recorder with
      progress := session.recorder.progress.mark stage } } := by
  refine .of_same h rfl rfl rfl (Progress.mark_headers ..) (Progress.mark_records ..) ?_ ?_
    fun hmendable _ => hmendable.staged
  · exact congrArg Counters.recordsWritten (Progress.mark_counters ..)
  · exact congrArg Counters.recordsDropped (Progress.mark_counters ..)

/-- The command is carried out, also where the target before could not be let go of in order. -/
theorem turnTo_moves (h : session.IsUpright) (hnone : session.recorder.active = none)
    (command : RotationCommand) {retired : Except StreamError Unit} {trusted : Prop}
    (hretired : ∀ error, retired = .error error → Excuses trusted 0 0 error) :
    Ends (turnTo command retired) session
      (fun _ next => session.Moves command.CutsBack 0 0 0 next ∧
        ¬ next.recorder.progress.IsStale)
      (fun error next => session.Moves command.CutsBack 0 0 0 next ∧
        Excuses trusted 0 0 error) := by
  have hmarked : ∀ next, session.Moves command.CutsBack 0 0 0 next →
      ¬ next.recorder.progress.IsStale →
      let marked := { next with recorder := { next.recorder with
        progress := next.recorder.progress.mark .rotate } }
      session.Moves command.CutsBack 0 0 0 marked ∧ ¬ marked.recorder.progress.IsStale := by
    intro next hnext hfresh
    refine ⟨hnext.trans (moves_mark hnext.upright .rotate) fun _ _ => trivial, ?_⟩
    rwa [Progress.IsStale, Progress.mark_headers]
  cases command with
  | detach =>
      simp only [turnTo, ends_bind, ends_attempt, detach, ends_report, ends_change,
        ends_changeProgress]
      let detached : Session :=
        { recorder := { session.recorder with dropping := false }
          host := session.host.report .detached }
      have hdetached : session.Moves True 0 0 0 detached :=
        .of_same h rfl rfl rfl rfl rfl rfl rfl fun hmendable _ => hmendable.staged
      have hclosed : ¬ session.recorder.progress.IsStale := by
        rintro ⟨slot, hslot, -⟩
        cases (h.detached hnone).symm.trans hslot
      obtain ⟨hnext, hfresh⟩ := hmarked detached hdetached hclosed
      cases retired with
      | ok => exact ⟨hnext, hfresh⟩
      | error error => exact ⟨hnext, hretired error rfl⟩
  | install target =>
      simp only [turnTo, ends_bind, ends_attempt]
      refine (install_moves h hnone).mono ?_ ?_
      · rintro ⟨⟩ next ⟨hinstalled, hfresh⟩
        obtain ⟨hnext, hfresh⟩ := hmarked next hinstalled hfresh
        simp only [ends_changeProgress]
        cases retired with
        | ok => exact ⟨hnext, hfresh⟩
        | error error => exact ⟨hnext, hretired error rfl⟩
      · rintro error next ⟨hinstalled, cause, rfl⟩
        have hmarked := hinstalled.after (moves_mark hinstalled.upright .rotate)
        exact ⟨hmarked.weaken fun _ => trivial, rfl, rfl⟩

/-- A command that is carried out leaves a header that has its length, or none. -/
theorem installPending_moves (h : session.IsUpright)
    (hstaged : session.recorder.rotation.staged ≠ []) :
    Ends installPending session
      (fun _ next => session.Moves True 0 0 0 next ∧ ¬ next.recorder.progress.IsStale)
      (fun error next => session.Moves True 0 0 0 next ∧
        Excuses session.IsMendable 0 0 error) := by
  obtain ⟨superseded, command, hcommands⟩ := (List.eq_nil_or_concat _).resolve_left hstaged
  rw [List.concat_eq_append] at hcommands
  have hunstaged : session.Moves True 0 0 0 (session.unstage superseded) := by
    refine .of_same h rfl rfl rfl rfl rfl rfl rfl fun _ _ target htarget => ?_
    cases htarget
  have hcuts : session.IsMendable → command.CutsBack := by
    intro hmendable
    cases command with
    | detach => trivial
    | install target =>
        refine hmendable.staged target ?_
        rw [hcommands]
        exact List.mem_append_right _ List.mem_cons_self
  -- what is left to do once the active target is let go of, failing or not
  have hturn : ∀ retired outcome, (session.unstage superseded).Moves True 0 0 0 retired →
      retired.recorder.active = none →
      (∀ error, outcome = .error error → Excuses session.IsMendable 0 0 error) →
      Ends (turnTo command outcome) retired
        (fun _ next => session.Moves True 0 0 0 next ∧ ¬ next.recorder.progress.IsStale)
        (fun error next => session.Moves True 0 0 0 next ∧
          Excuses session.IsMendable 0 0 error) := by
    intro retired outcome hmoves hnone houtcome
    have hretired := hunstaged.after hmoves
    refine (turnTo_moves hretired.upright hnone command houtcome).mono ?_ ?_
    · rintro ⟨⟩ next ⟨hturned, hfresh⟩
      exact ⟨hretired.trans hturned fun hmendable _ => hcuts hmendable, hfresh⟩
    · rintro error next ⟨hturned, hexcuses⟩
      exact ⟨hretired.trans hturned fun hmendable _ => hcuts hmendable, hexcuses⟩
  rw [ends_installPending_last hcommands]
  refine (retireActive_moves hunstaged.upright).mono ?_ ?_
  · rintro ⟨⟩ retired ⟨hmoves, hnone, -⟩
    exact hturn retired (.ok ()) hmoves hnone fun _ h => by cases h
  · rintro error retired ⟨⟨hmoves, hnone, -⟩, hexcuses⟩
    refine hturn retired (.error error) hmoves hnone fun _ h => ?_
    cases h
    exact hexcuses.mono fun hmendable => hunstaged.mendable hmendable trivial

end Turning

/-! ## Batches -/

section Batch

variable {session : Session} {target : Target}

/-- A batch has no record, or a tag at its first one, should the open header be stale. -/
def Remends (session : Session) (items : Bytes) (tags : List Tag) : Prop :=
  session.recorder.progress.IsStale →
    items = [] ∨ ∃ tag ∈ tags, tag.offset = session.recorder.itemsRead

theorem Remends.mends {items : Bytes} {tags : List Tag} (h : session.Remends items tags)
    {writer : Writer} (hprogress : writer.progress = session.recorder.progress) (total : Nat)
    (htotal : items = [] → total = 0) :
    let first := session.recorder.itemsRead
    writer.Mends total (BatchStep.selected first (first + total) tags) := by
  intro first hstale
  rw [hprogress] at hstale
  rcases h hstale with hnone | ⟨tag, htag, hoffset⟩
  · exact .inl (htotal hnone)
  · rcases Nat.eq_zero_or_pos total with hzero | hpos
    · exact .inl hzero
    · have hinside : BatchStep.isInside first (first + total) tag = true := by
        simp only [BatchStep.isInside, hoffset, Bool.and_eq_true, decide_eq_true_eq]
        omega
      refine .inr ⟨(tag.offset - first, tag), ?_, Nat.sub_eq_zero_of_le (Nat.le_of_eq hoffset)⟩
      rw [BatchStep.selected, List.mem_mergeSort]
      exact List.mem_map.mpr ⟨tag, List.mem_filter.mpr ⟨htag, hinside⟩, rfl⟩

theorem flushUnbuffered_moves (h : session.IsUpright) (asError : IoFault → StreamError) :
    Ends (flushUnbuffered asError) session (fun _ next => session.Moves True 0 0 0 next)
      (fun error next => session.Moves True 0 0 0 next ∧ ∃ cause, error = asError cause) := by
  simp only [flushUnbuffered, ends_bind, ends_get]
  cases session.recorder.unbuffered with
  | false => exact .refl h True
  | true =>
      cases hactive : session.recorder.active with
      | none => exact .refl h True
      | some target =>
          simp only [ends_onActive, ends_mapFault, Writer.onOutlet, ends_within]
          have hmoves : ∀ outlet : Outlet,
              (session.writerOn target).outlet.Stays outlet ∧
                outlet.target.cursor = target.cursor →
              session.Moves True 0 0 0
                (session.withWriter ⟨session.recorder.progress, outlet⟩) := by
            rintro outlet ⟨hstays, hcursor⟩
            have htallies : (session.writerOn target).Tallies True 0
                ⟨session.recorder.progress, outlet⟩ :=
              .of_same h.progress rfl rfl rfl rfl rfl hstays hcursor
            exact moves_of_tallies hactive htallies 0
          exact ((session.writerOn target).outlet.flush_stays).mono
            (fun _ outlet houtlet => hmoves outlet houtlet)
            fun cause outlet houtlet => ⟨hmoves outlet houtlet, cause, rfl⟩

/-- The read position follows what was stored, unless a header was refused. -/
theorem record_moves (hvalid : session.recorder.config.validate = .ok ()) (h : session.IsUpright)
    (hactive : session.recorder.active = some target) (items : Bytes) (tags : List Tag) :
    Ends (record target items tags) session
      (fun count next => session.Moves (session.Remends items tags) count count 0 next)
      (fun error next => ∃ read stored,
        session.Moves (session.Remends items tags) read stored 0 next ∧
          Excuses (session.IsMendable ∧ session.Remends items tags) read stored error) := by
  let first := session.recorder.itemsRead
  let total := items.length / session.recorder.config.itemSize.toNat
  have hpos := Config.itemSize_pos hvalid
  have htotal : items = [] → total = 0 := by
    rintro rfl
    exact Nat.zero_div _
  simp only [record, ends_bind, ends_get, ends_attempt]
  refine (selectTags_ends first (first + total) tags).mono ?_ fun _ _ h => h.elim
  rintro entries logged ⟨rfl, log, rfl⟩
  let logged : Session := { session with host := { session.host with log } }
  have hlogged : session.Moves True 0 0 0 logged :=
    .of_same h rfl rfl rfl rfl rfl rfl rfl fun hmendable _ => hmendable.staged
  have hactive' : logged.recorder.active = some target := hactive
  have horder := BatchStep.selected_inOrder first (first + total) tags
  rw [Nat.add_sub_cancel_left] at horder
  have hmends : session.Remends items tags → (logged.writerOn target).Mends total
      (BatchStep.selected first (first + total) tags) := fun hremends =>
    hremends.mends rfl total htotal
  have hupright : (logged.writerOn target).progress.IsUpright := h.progress
  rw [ends_onActive]
  refine (Writer.runBatch_tallies hpos (Config.ceiling_pos hvalid) horder hupright).mono ?_ ?_
  · rintro count writer ⟨rfl, htallies⟩
    exact hlogged.after (moves_of_tallies hactive' (htallies.weaken hmends) total)
  · rintro error writer ⟨stored, htallies, hstops⟩
    have hmoves := fun read =>
      hlogged.after (moves_of_tallies hactive' (htallies.weaken hmends) read)
    unfold Writer.StopsFor at hstops
    split at hstops
    · subst hstops
      exact ⟨_, _, hmoves _, rfl, rfl⟩
    · refine ⟨0, stored, hmoves 0, rfl, fun htrusted => hstops ⟨?_, hmends htrusted.2⟩⟩
      exact (hlogged.mendable htrusted.1 trivial).active target hactive'
    · exact hstops.elim

theorem drop_moves (h : session.IsUpright) (count : Nat) :
    Ends (drop count) session (fun _ next => session.Moves True count 0 count next)
      (fun (_ : StreamError) _ => False) := by
  simp only [drop, ends_bind, ends_get]
  cases session.recorder.dropping <;>
    exact .of_same h rfl rfl rfl rfl rfl rfl rfl fun hmendable _ => hmendable.staged

/-- A batch is stored or dropped; it is flushed only once its records are counted. -/
theorem takeBatch_moves (hvalid : session.recorder.config.validate = .ok ())
    (h : session.IsUpright) (items : Bytes) (tags : List Tag) :
    Ends (takeBatch items tags) session
      (fun count next => ∃ written dropped, count = written + dropped ∧
        session.Moves (session.Remends items tags) count written dropped next)
      (fun error next => ∃ read stored,
        session.Moves (session.Remends items tags) read stored 0 next ∧
          Excuses (session.IsMendable ∧ session.Remends items tags) read stored error) := by
  have hbatched : session.Moves True 0 0 0 session.batched :=
    .of_same h rfl rfl rfl rfl rfl rfl rfl fun hmendable _ => hmendable.staged
  cases hactive : session.recorder.active with
  | none =>
      rw [ends_takeBatch_detached _ _ hactive]
      simp only [ends_bind, ends_pure]
      refine (drop_moves hbatched.upright _).mono ?_ fun _ _ h => h.elim
      rintro ⟨⟩ next hnext
      exact ⟨0, _, (Nat.zero_add _).symm, (hbatched.after hnext).weaken fun _ => trivial⟩
  | some target =>
      have hactive' : session.batched.recorder.active = some target := hactive
      have hvalid' : session.batched.recorder.config.validate = .ok () := hvalid
      rw [ends_takeBatch _ _ hactive]
      simp only [ends_bind, ends_pure]
      refine (record_moves hvalid' hbatched.upright hactive' items tags).mono ?_ ?_
      · rintro count recorded hrecorded
        have hmoves := hbatched.after hrecorded
        refine (flushUnbuffered_moves hmoves.upright _).mono ?_ ?_
        · rintro ⟨⟩ next hflushed
          exact ⟨count, 0, rfl, hmoves.trans hflushed fun _ _ => trivial⟩
        · rintro error next ⟨hflushed, cause, rfl⟩
          exact ⟨count, count, hmoves.trans hflushed fun _ _ => trivial, rfl, rfl⟩
      · rintro error next ⟨read, stored, hmoves, hexcuses⟩
        exact ⟨read, stored, hbatched.after hmoves,
          hexcuses.mono fun h => ⟨hbatched.mendable h.1 trivial, h.2⟩⟩

end Batch

/-! ## Calls -/

section Calls

variable {session : Session}

/--
A batch that is taken on the same target writes a stale header again before its first
record.
-/
def Heeds (session : Session) : Call → Prop
  | .work items tags => session.recorder.closed = false →
      items.length % session.recorder.config.itemSize.toNat = 0 →
      session.recorder.rotation.staged = [] → session.Remends items tags
  | _ => True

theorem work_moves (hvalid : session.recorder.config.validate = .ok ()) (h : session.IsUpright)
    (items : Bytes) (tags : List Tag) :
    Ends (work items tags) session
      (fun count next => ∃ written dropped, count = written + dropped ∧
        session.Moves (session.Heeds (.work items tags)) count written dropped next)
      (fun error next => ∃ read stored,
        session.Moves (session.Heeds (.work items tags)) read stored 0 next ∧
          Excuses (session.IsMendable ∧ session.Heeds (.work items tags)) read stored error) := by
  cases hclosed : session.recorder.closed with
  | true =>
      simp only [work, ends_bind, ends_get, hclosed, if_true]
      exact ⟨0, 0, .refl h _, rfl, rfl⟩
  | false =>
      by_cases hwhole : items.length % session.recorder.config.itemSize.toNat = 0
      · rw [ends_work tags hclosed hwhole]
        by_cases hstaged : session.recorder.rotation.staged = []
        · have hheeds : session.Heeds (.work items tags) → session.Remends items tags :=
            fun hheeds => hheeds hclosed hwhole hstaged
          rw [ends_installPending_idle hstaged]
          refine (takeBatch_moves hvalid h items tags).mono ?_ ?_
          · rintro count next ⟨written, dropped, hcount, hmoves⟩
            exact ⟨written, dropped, hcount, hmoves.weaken hheeds⟩
          · rintro error next ⟨read, stored, hmoves, hexcuses⟩
            exact ⟨read, stored, hmoves.weaken hheeds,
              hexcuses.mono fun h => ⟨h.1, hheeds h.2⟩⟩
        · refine (installPending_moves h hstaged).mono ?_ ?_
          · rintro ⟨⟩ turned ⟨hturned, hfresh⟩
            have hremends : turned.Remends items tags := fun hstale => absurd hstale hfresh
            have hvalid' : turned.recorder.config.validate = .ok () := by rwa [hturned.config]
            refine (takeBatch_moves hvalid' hturned.upright items tags).mono ?_ ?_
            · rintro count next ⟨written, dropped, hcount, hmoves⟩
              exact ⟨written, dropped, hcount, hturned.after (hmoves.weaken fun _ => hremends)⟩
            · rintro error next ⟨read, stored, hmoves, hexcuses⟩
              exact ⟨read, stored, hturned.after (hmoves.weaken fun _ => hremends),
                hexcuses.mono fun h => ⟨hturned.mendable h.1 trivial, hremends⟩⟩
          · rintro error next ⟨hmoves, hexcuses⟩
            exact ⟨0, 0, hmoves.weaken fun _ => trivial, hexcuses.mono And.left⟩
      · simp only [work, ends_bind, ends_get, hclosed, Bool.false_eq_true, if_false, ne_eq, hwhole,
          not_false_eq_true, if_true]
        exact ⟨0, 0, .refl h _, rfl, rfl⟩

theorem updateAttribute_moves (h : session.IsUpright) (key : String) (value : Attribute) :
    Ends (updateAttribute key value) session (fun _ next => session.Moves True 0 0 0 next)
      (fun error next => session.Moves True 0 0 0 next ∧
        Excuses session.IsMendable 0 0 error) := by
  simp only [updateAttribute, ends_bind, ends_get]
  cases session.recorder.progress.headers.prepare key value with
  | error cause => exact ⟨.refl h True, rfl, rfl⟩
  | ok update =>
      let counted : Session := { session with recorder := { session.recorder with
        progress := { session.recorder.progress with
          counters := session.recorder.progress.counters.addTag true } } }
      have hcounted : session.Moves True 0 0 0 counted :=
        .of_same h rfl rfl rfl rfl rfl rfl rfl fun hmendable _ => hmendable.staged
      simp only [ends_bind, ends_changeProgress, ends_get]
      cases hactive : session.recorder.active with
      | none =>
          have hslot : (session.recorder.progress.headers.apply update).slot = none :=
            (Writer.applySome_slot _ (some update)).trans (h.detached hactive)
          have hempty := h.progress (h.detached hactive)
          refine ⟨rfl, rfl, rfl, rfl, ⟨fun _ => hempty, fun _ => hslot⟩,
            fun hmendable _ => ⟨fun target hsome => ?_, hmendable.staged⟩⟩
          cases hsome
      | some target =>
          have hactive' : counted.recorder.active = some target := hactive
          have hupright : (counted.writerOn target).progress.IsUpright := h.progress
          simp only [ends_bind, ends_onActive]
          refine (Writer.boundary_tallies hupright (some update)).mono ?_ ?_
          · rintro ⟨⟩ writer ⟨htallies, -⟩
            have hmoves := hcounted.after (moves_of_tallies hactive' htallies 0)
            refine (flushUnbuffered_moves hmoves.upright .io).mono ?_ ?_
            · exact fun _ next hflushed => hmoves.after hflushed
            · rintro error next ⟨hflushed, cause, rfl⟩
              exact ⟨hmoves.after hflushed, rfl, rfl⟩
          · rintro error writer ⟨htallies, hblames⟩
            have hexcuses := excuses_of_blames hactive' hblames
            exact ⟨hcounted.after (moves_of_tallies hactive' htallies 0),
              hexcuses.mono fun hmendable => hcounted.mendable hmendable trivial⟩

theorem requestRotation_moves (h : session.IsUpright) (destination : Destination) :
    Ends (requestRotation destination) session
      (fun _ next => session.Moves destination.CutsBack 0 0 0 next)
      (fun error next =>
        session.Moves destination.CutsBack 0 0 0 next ∧ Excuses True 0 0 error) := by
  have hsame : ∀ host : Host, session.Moves destination.CutsBack 0 0 0 { session with host } :=
    fun host => .of_same h rfl rfl rfl rfl rfl rfl rfl fun hmendable _ => hmendable.staged
  simp only [requestRotation, onRotation, ends_within, RotationDesk.requestRotation, ends_bind,
    ends_get, RotationDesk.onHost, RotationDesk.report, RotationDesk.stage, ends_modify]
  refine (Target.openAt_cutsBack destination _ session.host).mono ?_ ?_
  · intro target opened hcuts
    cases session.recorder.rotation.abandoned with
    | true => exact ⟨hsame _, rfl, rfl⟩
    | false =>
        refine .of_same h rfl rfl rfl rfl rfl rfl rfl fun hmendable hproviso other hother => ?_
        rcases List.mem_append.mp hother with hbefore | hlast
        · exact hmendable.staged other hbefore
        · cases List.mem_singleton.mp hlast
          exact hcuts hproviso
  · rintro error next (⟨path, cause, rfl⟩ | ⟨fault, rfl⟩)
    · exact ⟨hsame next, rfl, rfl⟩
    · exact ⟨hsame next, rfl, rfl⟩

theorem requestClose_moves (h : session.IsUpright) :
    Ends requestClose session (fun _ next => session.Moves True 0 0 0 next)
      (fun error next => session.Moves True 0 0 0 next ∧ Excuses True 0 0 error) := by
  simp only [requestClose, onRotation, ends_within, RotationDesk.requestClose,
    RotationDesk.report, RotationDesk.stage, ends_bind, ends_get, ends_modify]
  cases session.recorder.rotation.abandoned with
  | true =>
      refine ⟨?_, rfl, rfl⟩
      exact .of_same h rfl rfl rfl rfl rfl rfl rfl fun hmendable _ => hmendable.staged
  | false =>
      refine .of_same h rfl rfl rfl rfl rfl rfl rfl fun hmendable _ target htarget => ?_
      rcases List.mem_append.mp htarget with hbefore | hlast
      · exact hmendable.staged target hbefore
      · cases List.mem_singleton.mp hlast

theorem shutdown_moves (h : session.IsUpright) :
    Ends shutdown session (fun _ next => session.Moves True 0 0 0 next)
      (fun error next => session.Moves True 0 0 0 next ∧
        Excuses session.IsMendable 0 0 error) := by
  cases hclosed : session.recorder.closed with
  | true =>
      simp only [shutdown, ends_bind, ends_get, hclosed, if_true]
      exact .refl h True
  | false =>
      let closing : Session := { session with recorder := { session.recorder with closed := true } }
      have hclosing : session.Moves True 0 0 0 closing :=
        .of_same h rfl rfl rfl rfl rfl rfl rfl fun hmendable _ => hmendable.staged
      have hemptied : ∀ retired host, closing.Moves True 0 0 0 retired →
          session.Moves True 0 0 0
            { recorder := { retired.recorder with
                rotation := { retired.recorder.rotation with staged := [] } }, host } := by
        intro retired host hretired
        refine (hclosing.after hretired).after ?_
        refine .of_same hretired.upright rfl rfl rfl rfl rfl rfl rfl fun _ _ target htarget => ?_
        cases htarget
      simp only [shutdown, ends_bind, ends_get, hclosed, Bool.false_eq_true, if_false, ends_change,
        ends_attempt, onRotation, ends_within, ends_modify, ends_report]
      refine (retireActive_moves hclosing.upright).mono ?_ ?_
      · rintro ⟨⟩ retired ⟨hretired, -, -⟩
        exact hemptied retired _ hretired
      · rintro error retired ⟨⟨hretired, -, -⟩, hexcuses⟩
        exact ⟨hemptied retired _ hretired,
          hexcuses.mono fun hmendable => hclosing.mendable hmendable trivial⟩

/-- Only batches move the read position. -/
theorem answer_stays (h : session.IsUpright) {call : Call}
    (hother : ∀ items tags, call ≠ .work items tags) :
    Ends (answer call) session (fun _ next => session.Moves call.CutsBack 0 0 0 next)
      (fun error next => session.Moves call.CutsBack 0 0 0 next ∧
        Excuses session.IsMendable 0 0 error) := by
  have hmoved : ∀ {next}, session.Moves True 0 0 0 next →
      session.Moves call.CutsBack 0 0 0 next := fun hmoves => hmoves.weaken fun _ => trivial
  cases call with
  | work items tags => exact absurd rfl (hother items tags)
  | update key value =>
      exact (updateAttribute_moves h key value).mono (fun _ _ => hmoved)
        fun _ _ h => ⟨hmoved h.1, h.2⟩
  | setUnbuffered unbuffered =>
      exact hmoved (.of_same h rfl rfl rfl rfl rfl rfl rfl fun hmendable _ => hmendable.staged)
  | rotate destination =>
      exact (requestRotation_moves h destination).mono (fun _ _ h => h)
        fun _ _ h => ⟨h.1, h.2.mono fun _ => trivial⟩
  | close =>
      exact (requestClose_moves h).mono (fun _ _ => hmoved)
        fun _ _ h => ⟨hmoved h.1, h.2.mono fun _ => trivial⟩
  | shutdown => exact (shutdown_moves h).mono (fun _ _ => hmoved) fun _ _ h => ⟨hmoved h.1, h.2⟩

/-- A session that is upright stays so. -/
theorem answer_moves (hvalid : session.recorder.config.validate = .ok ()) (h : session.IsUpright)
    (call : Call) :
    let proviso := session.Heeds call ∧ call.CutsBack
    Ends (answer call) session
      (fun _ next => ∃ read written dropped, session.Moves proviso read written dropped next)
      (fun error next => ∃ read stored, session.Moves proviso read stored 0 next ∧
        Excuses (session.IsMendable ∧ proviso) read stored error) := by
  intro proviso
  by_cases hwork : ∃ items tags, call = .work items tags
  · obtain ⟨items, tags, rfl⟩ := hwork
    rw [answer, ends_discard]
    refine (work_moves hvalid h items tags).mono ?_ ?_
    · rintro count next ⟨written, dropped, -, hmoves⟩
      exact ⟨_, _, _, hmoves.weaken And.left⟩
    · rintro error next ⟨read, stored, hmoves, hexcuses⟩
      exact ⟨read, stored, hmoves.weaken And.left, hexcuses.mono fun h => ⟨h.1, h.2.1⟩⟩
  · refine (answer_stays h fun items tags hcall => hwork ⟨items, tags, hcall⟩).mono ?_ ?_
    · exact fun _ next hmoves => ⟨_, _, _, hmoves.weaken And.right⟩
    · rintro error next ⟨hmoves, hexcuses⟩
      exact ⟨0, 0, hmoves.weaken And.right, hexcuses.mono And.left⟩

end Calls

end Session

end SegmentStream
