import SegmentStream.Proofs.Recorder.Chronicle
import SegmentStream.Proofs.Recorder.Ledger
import SegmentStream.Proofs.Recorder.Segmentation

/-!
# Recorders that change their target

Every call keeps the books of a recorder: its active target keeps a transcript
of its own, and all other targets hold nothing yet or closed segments only.
-/

namespace SegmentStream

open SegmentStream.Action

theorem HeaderState.IsProper.of_fresh {size : UInt32} {state : HeaderState}
    (h : state.fresh.IsProper size) : state.IsProper size :=
  ⟨h.itemSize, ⟨h.known.version, h.known.flags⟩⟩

/-- The targets that staged commands would install. -/
def stagedIn (commands : List RotationCommand) : List Possession :=
  commands.filterMap fun
    | .install target => some (.staged target)
    | .detach => none

theorem stagedIn_append (first second : List RotationCommand) :
    stagedIn (first ++ second) = stagedIn first ++ stagedIn second :=
  List.filterMap_append

def RotationCommand.places : RotationCommand → Option (List Location)
  | install target => some target.places
  | detach => none

/-- The targets that the recorder has let go of. -/
def Chronicle.settled (chronicle : Chronicle) : List Possession :=
  chronicle.past.map (fun chapter => .settled chapter.places chapter.segments) ++
    chronicle.unused.map (.settled · [])

theorem Chronicle.settled_finish (chronicle : Chronicle) : chronicle.finish.settled =
    chronicle.retire.settled ++ chronicle.staged.reduceOption.map (.settled · []) := by
  simp only [settled, finish, unused_retire, List.map_append, List.append_assoc]

namespace Session

/-! ## The books of a recorder -/

/-- The active target keeps the transcript, and a segment of it is open. -/
structure Records (session : Session) (config : Config) (target : Target)
    (transcript : Transcript) : Prop where
  keeps : (session.writerOn target).Keeps config.splitHeader transcript
  proper : transcript.IsProper config.recordSize config.ceiling
  isRunning : transcript.running.isSome = true
  direct : target.IsDirect
  quiet : target.faultsAhead = 0

/-- No header is open, and the transcript of the next target has not begun. -/
structure Rests (session : Session) (config : Config) (transcript : Transcript) : Prop where
  tells : session.recorder.progress.Tells config.splitHeader transcript
  proper : transcript.IsProper config.recordSize config.ceiling
  closed : transcript.closed = []
  running : transcript.running = none

def taken (session : Session) : List Location :=
  (session.recorder.active.map Target.places).getD []

/-- The session is as the chronicle says, and answerable for other possessions besides. -/
structure Tells (session : Session) (config : Config) (chronicle : Chronicle)
    (others : List Possession) : Prop where
  split : session.recorder.rotation.split = config.splitHeader
  accepting : session.recorder.rotation.abandoned = false
  closed : session.recorder.closed = chronicle.closed
  itemsRead : session.recorder.itemsRead = chronicle.itemsRead
  staged : session.recorder.rotation.staged.map RotationCommand.places = chronicle.staged
  current : session.recorder.active.map Target.places = chronicle.current
  counters : session.recorder.progress.counters.unbatched = chronicle.tape.counters
  records : ∀ target, session.recorder.active = some target →
    session.Records config target chronicle.tape
  rests : session.recorder.active = none → session.Rests config chronicle.tape
  possessions : Possessions config session.taken session.host.store
    (stagedIn session.recorder.rotation.staged ++ (chronicle.settled ++ others))
  config : session.recorder.config = config

/-- The same but for counts, reports, what is staged, and places of other targets. -/
structure Resembles (session next : Session) : Prop where
  config : next.recorder.config = session.recorder.config
  active : next.recorder.active = session.recorder.active
  split : next.recorder.rotation.split = session.recorder.rotation.split
  abandoned : next.recorder.rotation.abandoned = session.recorder.rotation.abandoned
  headers : next.recorder.progress.headers = session.recorder.progress.headers
  records : next.recorder.progress.records = session.recorder.progress.records
  store : ∀ place ∈ session.taken, next.host.store.read place = session.host.store.read place

section Books

variable {session next last : Session} {config : Config} {target : Target}
  {chronicle later : Chronicle} {others others' : List Possession}

theorem taken_of_active (h : session.recorder.active = some target) :
    session.taken = target.places := by
  rw [taken, h]
  rfl

theorem taken_of_none (h : session.recorder.active = none) : session.taken = [] := by
  rw [taken, h]
  rfl

theorem Tells.current_of_active (h : session.Tells config chronicle others)
    (hactive : session.recorder.active = some target) :
    chronicle.current = some target.places := by
  rw [← h.current, hactive]
  rfl

theorem Tells.current_of_none (h : session.Tells config chronicle others)
    (hnone : session.recorder.active = none) : chronicle.current = none := by
  rw [← h.current, hnone]
  rfl

/-- What the recorder has let go of is still on the targets. -/
theorem Tells.stands_past (h : session.Tells config chronicle others) {chapter : Chapter}
    (hchapter : chapter ∈ chronicle.past) :
    Possession.Stands config session.host.store (.settled chapter.places chapter.segments) := by
  have hsettled : Possession.settled chapter.places chapter.segments ∈ chronicle.settled :=
    List.mem_append_left _ (List.mem_map.mpr ⟨chapter, hchapter, rfl⟩)
  exact h.possessions.stand _ (List.mem_append_right _ (List.mem_append_left _ hsettled))

theorem Tells.tape_eq (h : session.Tells config chronicle others) : chronicle.tape =
    { chronicle.tape with counters := session.recorder.progress.counters.unbatched } := by
  rw [h.counters]

/-- What a change of counts, of staged commands and of other targets makes of a chronicle. -/
theorem Resembles.tells (h : session.Resembles next)
    (htells : session.Tells config chronicle others)
    (hcurrent : later.current = chronicle.current)
    (htape : later.tape =
      { chronicle.tape with counters := next.recorder.progress.counters.unbatched })
    (hclosed : next.recorder.closed = later.closed)
    (hread : next.recorder.itemsRead = later.itemsRead)
    (hstaged : next.recorder.rotation.staged.map RotationCommand.places = later.staged)
    (hpossessions : Possessions config session.taken next.host.store
      (stagedIn next.recorder.rotation.staged ++ (later.settled ++ others'))) :
    next.Tells config later others' := by
  obtain ⟨hconfig, hactive, hsplit, habandoned, hheaders, hrecords, hstore⟩ := h
  have hproper : ∀ {tape : Transcript} (counters : Counters),
      tape.IsProper config.recordSize config.ceiling →
      ({ tape with counters } : Transcript).IsProper config.recordSize config.ceiling :=
    fun _ h => ⟨h.fresh, h.headers, h.closed, h.running⟩
  have hprogress : ∀ {tape : Transcript},
      session.recorder.progress.Tells config.splitHeader tape →
      next.recorder.progress.Tells config.splitHeader
        { tape with counters := next.recorder.progress.counters.unbatched } :=
    fun h => ⟨(congrArg HeaderState.fresh hheaders).trans h.headers,
      (congrArg HeaderState.slot hheaders).trans h.slot, hrecords.trans h.records, rfl⟩
  refine ⟨hsplit.trans htells.split, habandoned.trans htells.accepting, hclosed, hread, hstaged,
    ?_, ?_, fun target hsome => ?_, fun hnone => ?_, ?_, hconfig.trans htells.config⟩
  · rw [hactive, htells.current, hcurrent]
  · rw [htape]
  · rw [hactive] at hsome
    obtain ⟨hkeeps, hproper', hrunning, hdirect, hquiet⟩ := htells.records target hsome
    rw [taken_of_active hsome] at hstore
    rw [htape]
    exact ⟨⟨hprogress hkeeps.tells, hkeeps.outlet.elsewhere hstore, hkeeps.slotLength⟩,
      hproper _ hproper', hrunning, hdirect, hquiet⟩
  · rw [hactive] at hnone
    obtain ⟨htells', hproper', hclosed', hrunning⟩ := htells.rests hnone
    rw [htape]
    exact ⟨hprogress htells', hproper _ hproper', hclosed', hrunning⟩
  · rwa [taken, hactive]

/-- What is neither on a target nor in the counts does not matter to a chronicle. -/
theorem Resembles.stays (h : session.Resembles next)
    (htells : session.Tells config chronicle others)
    (hcounters : next.recorder.progress.counters.unbatched =
      session.recorder.progress.counters.unbatched)
    (hclosed : next.recorder.closed = session.recorder.closed)
    (hread : next.recorder.itemsRead = session.recorder.itemsRead)
    (hrotation : next.recorder.rotation = session.recorder.rotation)
    (hstore : next.host.store = session.host.store) : next.Tells config chronicle others := by
  have hpossessions := htells.possessions
  rw [← hrotation, ← hstore] at hpossessions
  refine h.tells htells rfl ?_ (hclosed.trans htells.closed) (hread.trans htells.itemsRead) ?_
    hpossessions
  · rw [hcounters]
    exact htells.tape_eq
  · rw [hrotation, htells.staged]

/-- A writer on the active target goes on to another transcript. -/
theorem Reaches.tells {transcript : Transcript} {itemsRead : Nat}
    (htells : session.Tells config chronicle others)
    (hactive : session.recorder.active = some target)
    (h : session.Reaches target config.splitHeader transcript itemsRead next)
    (hproper : transcript.IsProper config.recordSize config.ceiling)
    (hrunning : transcript.running.isSome = true) :
    next.Tells config { chronicle with tape := transcript, itemsRead } others := by
  obtain ⟨writer, rfl, hfollows, hkeeps⟩ := h
  obtain ⟨-, -, -, hdirect, hquiet⟩ := htells.records target hactive
  have hplaces : writer.outlet.target.places = target.places := hfollows.places
  have hpossessions := htells.possessions
  rw [taken_of_active hactive] at hpossessions
  refine ⟨htells.split, htells.accepting, htells.closed, rfl, htells.staged, ?_,
    hkeeps.tells.counters, ?_, fun hnone => ?_, ?_, htells.config⟩
  · exact (congrArg some hplaces).trans (htells.current_of_active hactive).symm
  · rintro current ⟨⟩
    exact ⟨hkeeps, hproper, hrunning, hfollows.direct hdirect, hfollows.quiet hquiet⟩
  · cases hnone
  · rw [taken_of_active rfl, hplaces]
    exact hpossessions.elsewhere hfollows.elsewhere

/-! ## Targets come and go -/

theorem retireActive_tells (h : session.Tells config chronicle others) :
    Ends retireActive session
      (fun _ next => next.Tells config chronicle.retire others ∧ next.recorder.active = none ∧
        next.recorder.rotation = session.recorder.rotation)
      (fun _ _ => False) := by
  simp only [retireActive, ends_bind, ends_get]
  cases hactive : session.recorder.active with
  | none =>
      have hretire : chronicle.retire = chronicle := by
        rw [Chronicle.retire, h.current_of_none hactive]
      rw [hretire]
      exact ⟨h, hactive, rfl⟩
  | some target =>
      obtain ⟨hkeeps, hproper, hrunning, hdirect, hquiet⟩ := h.records target hactive
      have hpossessions := h.possessions
      rw [taken_of_active hactive] at hpossessions
      have hretire : chronicle.retire =
          { chronicle with
            past := chronicle.past ++ [⟨target.places, chronicle.tape.close.closed⟩]
            current := none
            tape := chronicle.tape.detached } := by
        rw [Chronicle.retire, h.current_of_active hactive]
      let freed : Session := { session with recorder := { session.recorder with active := none } }
      have hfreed : (freed.writerOn target).Keeps config.splitHeader chronicle.tape := hkeeps
      simp only [ends_bind, ends_change]
      refine (retire_ends hfreed).mono ?_ fun _ _ hfaults => hfaults hquiet
      rintro ⟨⟩ ⟨recorder, host⟩ ⟨⟨htells, hstored, helsewhere, -⟩, hrecorder⟩
      simp only at htells hstored helsewhere hrecorder
      generalize recorder.progress = progress at *
      subst hrecorder
      have hdetached : progress.Tells config.splitHeader chronicle.tape.detached := by
        obtain ⟨hheaders, hslot, hrecords, hcounters⟩ := htells
        rw [Transcript.running_close] at hslot hrecords
        exact ⟨hheaders, hslot, hrecords, hcounters⟩
      rw [hretire]
      refine ⟨⟨h.split, h.accepting, h.closed, h.itemsRead, h.staged, rfl, hdetached.counters,
        fun _ hsome => (by cases hsome),
        fun _ => ⟨hdetached, hproper.detached, rfl, rfl⟩, ?_, h.config⟩, rfl, rfl⟩
      have hsettled : (Possession.settled target.places chronicle.tape.close.closed).Stands config
          host.store := by
        refine ⟨?_, hproper.closed_close⟩
        rw [← Target.stored_eq]
        exact hstored
      refine ((hpossessions.elsewhere helsewhere).put hsettled).perm ?_
      simp only [Chronicle.settled, List.map_append, List.map_cons, List.map_nil,
        List.append_assoc, List.singleton_append]
      exact ((List.perm_middle.append_left _).trans List.perm_middle).symm

/-- A target that was never used is closed without segments. -/
theorem closeQuietly_settles {taken : List Location} {host : Host} {rest : List Possession}
    (h : Possessions config taken host.store (.staged target :: rest)) :
    Possessions config taken (target.closeQuietly host).store
      (.settled target.places [] :: rest) ∧
    ∀ place ∈ taken, (target.closeQuietly host).store.read place = host.store.read place := by
  obtain ⟨⟨hkeeps, -, -⟩, -⟩ := List.forall_mem_cons.mp h.stand
  have hkeeps' : Outlet.Keeps ⟨target, host⟩ (.blank config.splitHeader) :=
    hkeeps.elsewhere fun _ _ => rfl
  obtain ⟨⟨⟩, closed, hclose, hstored, helsewhere⟩ := (Target.close_ends hkeeps').exists_ok
  have hhost : target.closeQuietly host = closed := by rw [Target.closeQuietly, hclose]
  rw [hhost]
  refine ⟨h.exchange rfl helsewhere ⟨?_, List.forall_mem_nil _⟩, fun place hplace => ?_⟩
  · rw [← Target.stored_eq]
    exact hstored
  · exact helsewhere place (h.not_mem List.mem_cons_self hplace)

theorem closeStaged_settles {taken : List Location} {host : Host} {rest : List Possession}
    (commands : List RotationCommand)
    (h : Possessions config taken host.store (stagedIn commands ++ rest)) :
    Possessions config taken (RotationDesk.closeStaged commands host).store
      ((commands.map RotationCommand.places).reduceOption.map (.settled · []) ++ rest) ∧
    ∀ place ∈ taken, (RotationDesk.closeStaged commands host).store.read place =
      host.store.read place := by
  induction commands generalizing host rest with
  | nil => exact ⟨h, fun _ _ => rfl⟩
  | cons command commands ih =>
      cases command with
      | detach => exact ih h
      | install target =>
          obtain ⟨hclosed, helsewhere⟩ := closeQuietly_settles h
          obtain ⟨hsettled, hsame⟩ := ih (hclosed.perm List.perm_middle.symm)
          refine ⟨hsettled.perm List.perm_middle, fun place hplace => ?_⟩
          exact (hsame place hplace).trans (helsewhere place hplace)

theorem install_tells (hnone : session.recorder.active = none)
    (h : session.Tells config chronicle (.staged target :: others)) :
    Ends (install target) session
      (fun _ next => next.Tells config (chronicle.install (some target.places)) others)
      (fun _ _ => False) := by
  have hpossessions := h.possessions.perm (List.perm_middle.append_left _) |>.perm List.perm_middle
  rw [taken_of_none hnone] at hpossessions
  obtain ⟨hpossessions, hkeeps, hdirect, hquiet⟩ := hpossessions.take
  obtain ⟨htells, hproper, hclosed, hrunning⟩ := h.rests hnone
  let emptied : Session := { session with recorder := { session.recorder with
    progress := { session.recorder.progress with records := 0 } } }
  have hcontents : chronicle.tape.contents config.splitHeader = .blank config.splitHeader := by
    rw [Transcript.contents, hrunning, hclosed]
    rfl
  have hblank : (emptied.writerOn target).Keeps config.splitHeader chronicle.tape := by
    refine ⟨⟨htells.headers, htells.slot, ?_, htells.counters⟩, ?_, ?_⟩
    · rw [hrunning]
      rfl
    · rw [hcontents]
      exact hkeeps.elsewhere fun _ _ => rfl
    · rintro running hsome
      cases hrunning.symm.trans hsome
  simp only [Session.install, ends_bind, ends_changeProgress, ends_onTarget]
  refine (Writer.emit_ends hblank hrunning).mono ?_ ?_
  · rintro slot writer ⟨hfollows, hlength, hprogress, hopened⟩
    simp only [ends_report, ends_change]
    have hplaces : writer.outlet.target.places = target.places := hfollows.places
    have hrecords : writer.progress.records = 0 := by
      rw [hprogress]
      rfl
    have hcounters : ((writer.progress.counters.addHeader slot.length).addRotation).unbatched =
        chronicle.tape.installed.counters := by
      have hsame : writer.progress.counters = session.recorder.progress.counters := by
        rw [hprogress]
        rfl
      rw [hlength, hsame, Transcript.installed, Transcript.openNext, ← htells.counters]
      rfl
    have hnext := hopened { writer.progress with
      counters := (writer.progress.counters.addHeader slot.length).addRotation } rfl hrecords
    rw [hcounters] at hnext
    refine ⟨h.split, h.accepting, h.closed, h.itemsRead, h.staged, congrArg some hplaces,
      hcounters, ?_, fun hnone => (by cases hnone), ?_, h.config⟩
    · rintro current ⟨⟩
      exact ⟨hnext.congr (Writer.relog_matches _ _), hproper.installed, rfl,
        hfollows.direct hdirect, hfollows.quiet hquiet⟩
    · rw [taken_of_active rfl, hplaces]
      exact hpossessions.elsewhere hfollows.elsewhere
  · rintro error writer ⟨-, hloses, -⟩
    exact (not_loses hquiet hloses).elim

theorem Tells.mark (h : session.Tells config chronicle others) (stage : Stage) :
    Tells { session with recorder := { session.recorder with
      progress := session.recorder.progress.mark stage } } config chronicle others := by
  refine Resembles.stays ?_ h ?_ rfl rfl rfl rfl
  · exact ⟨rfl, rfl, rfl, rfl, Progress.mark_headers .., Progress.mark_records .., fun _ _ => rfl⟩
  · exact congrArg Counters.unbatched (Progress.mark_counters ..)

/-- The last staged command is carried out, and no other. -/
theorem installPending_tells (h : session.Tells config chronicle others) :
    Ends installPending session (fun _ next => next.Tells config chronicle.turn others)
      (fun _ _ => False) := by
  rcases List.eq_nil_or_concat session.recorder.rotation.staged with
    hstaged | ⟨init, command, hstaged⟩
  · have hturn : chronicle.turn = chronicle := by
      rw [Chronicle.turn, ← h.staged, hstaged]
      rfl
    rw [ends_installPending_idle hstaged, hturn]
    exact h
  · rw [List.concat_eq_append] at hstaged
    let unused := (init.map RotationCommand.places).reduceOption
    let emptied : Chronicle := { chronicle with staged := [], unused := chronicle.unused ++ unused }
    have hturn : chronicle.turn = emptied.retire.install command.places := by
      have hlast : chronicle.staged = init.map RotationCommand.places ++ [command.places] := by
        rw [← h.staged, hstaged, List.map_append]
        rfl
      rw [Chronicle.turn, hlast, List.getLast?_concat, List.dropLast_concat]
    have hunstaged : (session.unstage init).Tells config emptied
        (stagedIn [command] ++ others) := by
      have hpossessions := h.possessions
      rw [hstaged, stagedIn_append, List.append_assoc] at hpossessions
      obtain ⟨hunused, hsame⟩ := closeStaged_settles init hpossessions
      have hresembles : session.Resembles (session.unstage init) :=
        ⟨rfl, rfl, rfl, rfl, rfl, rfl, hsame⟩
      refine hresembles.tells h rfl h.tape_eq h.closed h.itemsRead rfl ?_
      have hsettled : emptied.settled = chronicle.settled ++ unused.map (.settled · []) := by
        simp only [Chronicle.settled, emptied, List.map_append, List.append_assoc]
      rw [hsettled, List.append_assoc]
      exact hunused.perm (((List.perm_append_comm_assoc ..).append_left _).trans
        (List.perm_append_comm_assoc ..))
    rw [ends_installPending_last hstaged, hturn]
    refine (retireActive_tells hunstaged).mono ?_ fun _ _ h => h.elim
    rintro ⟨⟩ retired ⟨hretired, hnone, -⟩
    cases command with
    | install target =>
        simp only [turnTo, ends_bind, ends_attempt]
        refine (install_tells hnone hretired).mono ?_ fun _ _ h => h.elim
        rintro ⟨⟩ next hnext
        exact hnext.mark .rotate
    | detach =>
        simp only [turnTo, ends_bind, ends_attempt, detach, ends_report, ends_change,
          ends_changeProgress]
        let detached : Session :=
          { recorder := { retired.recorder with dropping := false }
            host := retired.host.report .detached }
        have hresembles : retired.Resembles detached :=
          ⟨rfl, rfl, rfl, rfl, rfl, rfl, fun _ _ => rfl⟩
        have hdetached := hresembles.stays hretired rfl rfl rfl rfl rfl
        exact hdetached.mark .rotate

/-! ## Calls -/

theorem drop_tells (h : session.Tells config chronicle others) (count : Nat) :
    Ends (drop count) session
      (fun _ next => next.Tells config { chronicle with
        tape := chronicle.tape.dropped count, itemsRead := chronicle.itemsRead + count } others)
      (fun (_ : StreamError) _ => False) := by
  have htape : chronicle.tape.dropped count = { chronicle.tape with
      counters := (session.recorder.progress.counters.addDropped count).unbatched } := by
    rw [Transcript.dropped, ← h.counters]
    rfl
  have hread := congrArg (· + count) h.itemsRead
  simp only [drop, ends_bind, ends_get]
  cases session.recorder.dropping <;>
    exact Resembles.tells
      (show session.Resembles _ from ⟨rfl, rfl, rfl, rfl, rfl, rfl, fun _ _ => rfl⟩)
      h rfl htape h.closed hread h.staged h.possessions

theorem takeBatch_tells {records : List Bytes} (hvalid : config.validate = .ok ())
    (hrecords : ∀ record ∈ records, record.length = config.itemSize.toNat)
    (h : session.Tells config chronicle others) (tags : List Tag) :
    Ends (takeBatch records.flatten tags) session
      (fun total next => total = records.length ∧
        next.Tells config (chronicle.take config records tags) others)
      (fun _ _ => False) := by
  obtain rfl := h.config
  have hsize := Config.recordSize_toNat hvalid
  cases hactive : session.recorder.active with
  | none =>
      have htotal : records.flatten.length / session.recorder.config.itemSize.toNat =
          records.length := by
        rw [flatten_length hrecords, Nat.mul_div_cancel _ (Config.itemSize_pos hvalid)]
      have hresembles : session.Resembles session.batched :=
        ⟨rfl, rfl, rfl, rfl, rfl, rfl, fun _ _ => rfl⟩
      have hbatched := hresembles.stays h rfl rfl rfl rfl rfl
      rw [ends_takeBatch_detached _ _ hactive, htotal,
        Chronicle.take_of_none (h.current_of_none hactive)]
      simp only [ends_bind, ends_pure, true_and]
      exact (drop_tells hbatched records.length).mono (fun _ _ h => h) fun _ _ h => h
  | some target =>
      obtain ⟨hkeeps, hproper, hrunning, -, hquiet⟩ := h.records target hactive
      rw [Chronicle.take_of_some (h.current_of_active hactive), ← h.itemsRead]
      refine (takeBatch_ends hvalid hrecords hactive (.kept hkeeps)
        hproper.headers.itemSize).mono ?_ ?_
      · rintro total next ⟨rfl, hreaches⟩
        rw [← hsize] at hrecords
        have hsuits := script_suits session.recorder.config.recordSize tags
          session.recorder.itemsRead hrecords
        exact ⟨rfl, hreaches.tells h hactive (hproper.play (Config.ceiling_pos hvalid) hsuits)
          (Transcript.isRunning_play _ hrunning)⟩
      · rintro error next ⟨count, cause, -, -, writer, -, hloses, -⟩
        exact not_loses hquiet hloses

/-- A batch is taken whole, or the call is refused and changes nothing. -/
theorem work_tells (hvalid : config.validate = .ok ()) (h : session.Tells config chronicle others)
    (items : Bytes) (tags : List Tag) :
    Ends (work items tags) session
      (fun total next => total = items.length / config.itemSize.toNat ∧
        next.Tells config (chronicle.step config (.work items tags)) others)
      (fun _ next => (chronicle.closed = true ∨ items.length % config.itemSize.toNat ≠ 0) ∧
        next.Tells config (chronicle.step config (.work items tags)) others) := by
  have hpos := Config.itemSize_pos hvalid
  by_cases hrefused : chronicle.closed = true ∨ items.length % config.itemSize.toNat ≠ 0
  · rw [Chronicle.step, if_pos hrefused]
    have hrefused' := hrefused
    rw [← h.closed, ← h.config] at hrefused'
    apply (work_refused tags hrefused').mono
    · exact fun _ _ => False.elim
    · rintro _ _ rfl
      exact ⟨hrefused, h⟩
  · rw [Chronicle.step, if_neg hrefused]
    obtain ⟨hopen, hwhole⟩ := not_or.mp hrefused
    have hopen' : session.recorder.closed = false := by
      rw [h.closed]
      exact Bool.eq_false_of_not_eq_true hopen
    have hwhole := not_not.mp hwhole
    have hflatten := wholeRecords_flatten hpos hwhole
    have hrecords := length_of_mem_wholeRecords config.itemSize.toNat items
    rw [ends_work tags hopen' (h.config ▸ hwhole), ← wholeRecords_length hpos hwhole]
    refine (installPending_tells h).mono ?_ fun _ _ h => h.elim
    rintro ⟨⟩ turned hturned
    have htaken := takeBatch_tells hvalid hrecords hturned tags
    rw [hflatten] at htaken
    exact htaken.mono (fun _ _ h => h) fun _ _ h => h.elim

/-- Without a target an update changes the headers that the next one will begin with. -/
theorem updateAttribute_tells_detached (hactive : session.recorder.active = none)
    (h : session.Tells config chronicle others) (key : String) (value : Attribute) :
    Ends (updateAttribute key value) session
      (fun _ next => next.Tells config (chronicle.step config (.update key value)) others)
      (fun _ next => next.Tells config (chronicle.step config (.update key value)) others) := by
  rw [Chronicle.step]
  obtain ⟨htells, hproper, hclosed, hrunning⟩ := h.rests hactive
  have hsize : session.recorder.progress.headers.header.itemSize = config.recordSize := by
    have hsame := congrArg (fun state : HeaderState => state.header.itemSize) htells.headers
    exact hsame.trans hproper.headers.itemSize
  simp only [updateAttribute, ends_bind, ends_get, HeaderState.prepare, hsize]
  cases hupdate : HeaderUpdate.prepare config.recordSize key value with
  | error cause => exact h
  | ok update =>
      have haccepted : ∀ accepted, some update = some accepted →
          accepted.IsProper config.recordSize := by
        rintro accepted ⟨⟩
        exact HeaderUpdate.prepare_isProper hupdate
      have hheaders : (session.recorder.progress.headers.apply update).fresh =
          (chronicle.tape.headers.applySome (some update)).fresh := by
        rw [← htells.headers, HeaderState.fresh_applySome]
        rfl
      have hslot : (session.recorder.progress.headers.apply update).slot = none := by
        have hnone := htells.slot
        rw [hrunning] at hnone
        exact (Writer.applySome_slot _ (some update)).trans hnone
      have hcounters : (session.recorder.progress.counters.addTag true).unbatched =
          chronicle.tape.counters.addTag true := by
        rw [← h.counters]
        rfl
      have hpossessions := h.possessions
      rw [taken_of_none hactive] at hpossessions
      simp only [ends_bind, ends_changeProgress, ends_get, hactive]
      rw [Chronicle.amend_of_none (h.current_of_none hactive)]
      refine ⟨h.split, h.accepting, h.closed, h.itemsRead, h.staged,
        (h.current_of_none hactive).symm, hcounters, fun _ hsome => (by cases hsome),
        fun _ => ?_, hpossessions, h.config⟩
      refine ⟨⟨hheaders, ?_, ?_, hcounters⟩, ?_, hclosed, hrunning⟩
      · rw [hslot]
        exact (congrArg (Option.map _) hrunning).symm
      · exact htells.records
      · have hcounted : (chronicle.tape.countTag (some update)).IsProper config.recordSize
            config.ceiling := ⟨hproper.fresh, hproper.headers, hproper.closed, hproper.running⟩
        exact hcounted.apply haccepted

theorem updateAttribute_tells (hvalid : config.validate = .ok ())
    (h : session.Tells config chronicle others) (key : String) (value : Attribute) :
    Ends (updateAttribute key value) session
      (fun _ next => next.Tells config (chronicle.step config (.update key value)) others)
      (fun _ next => next.Tells config (chronicle.step config (.update key value)) others) := by
  cases hactive : session.recorder.active with
  | some target =>
      rw [Chronicle.step]
      obtain ⟨hkeeps, hproper, hrunning, -, hquiet⟩ := h.records target hactive
      have hsize : chronicle.tape.itemSize = config.recordSize := hproper.headers.itemSize
      refine (updateAttribute_ends hactive hkeeps hquiet config.ceiling key value).mono ?_ ?_
      · rintro ⟨⟩ next ⟨update, hupdate, hreaches⟩
        rw [hsize] at hupdate
        have hsuits : Act.Suits config.recordSize (.cut (some update)) := by
          rintro accepted ⟨⟩
          exact HeaderUpdate.prepare_isProper hupdate
        simp only [hupdate]
        rw [Chronicle.amend_of_some (h.current_of_active hactive)]
        rw [h.itemsRead] at hreaches
        exact hreaches.tells h hactive (hproper.step (Config.ceiling_pos hvalid) hsuits)
          (Transcript.isRunning_step _ hrunning)
      · rintro error next ⟨cause, -, hrefused, rfl⟩
        rw [hsize] at hrefused
        simp only [hrefused]
        exact h
  | none => exact updateAttribute_tells_detached hactive h key value

theorem Tells.stage (h : session.Tells config chronicle others) (command : RotationCommand)
    (hresembles : session.Resembles next)
    (hrecorder : next.recorder.progress = session.recorder.progress ∧
      next.recorder.closed = session.recorder.closed ∧
      next.recorder.itemsRead = session.recorder.itemsRead)
    (hstaged : next.recorder.rotation.staged = session.recorder.rotation.staged ++ [command])
    (hpossessions : Possessions config session.taken next.host.store
      (stagedIn (session.recorder.rotation.staged ++ [command]) ++
        (chronicle.settled ++ others'))) :
    next.Tells config (chronicle.stage command.places) others' := by
  obtain ⟨hprogress, hclosed, hread⟩ := hrecorder
  refine hresembles.tells h rfl ?_ (hclosed.trans h.closed) (hread.trans h.itemsRead) ?_ ?_
  · rw [hprogress]
    exact h.tape_eq
  · rw [hstaged, List.map_append, h.staged]
    rfl
  · rw [hstaged]
    exact hpossessions

theorem requestRotation_tells {destination : Destination}
    (h : session.Tells config chronicle (.reserved destination :: others)) :
    Ends (requestRotation destination) session
      (fun _ next => next.Tells config
        (chronicle.stage (some (destination.places config.splitHeader))) others)
      (fun _ _ => False) := by
  have hpossessions := h.possessions.perm (List.perm_middle.append_left _) |>.perm List.perm_middle
  obtain ⟨⟨hblank, hquiet⟩, -⟩ := List.forall_mem_cons.mp hpossessions.stand
  simp only [requestRotation, onRotation, ends_within, RotationDesk.requestRotation, ends_bind,
    ends_get, RotationDesk.onHost, RotationDesk.report, RotationDesk.stage, ends_modify, h.split,
    h.accepting, Bool.false_eq_true, if_false]
  refine (Target.openAt_ends hblank).mono ?_ fun _ _ h => h.elim
  rintro target opened ⟨hkeeps, hdirect, hplaces, hfaults, helsewhere⟩
  have hstaged : Possessions config session.taken opened.store (.staged target ::
      (stagedIn session.recorder.rotation.staged ++ (chronicle.settled ++ others))) := by
    refine hpossessions.exchange hplaces ?_ ⟨hkeeps.elsewhere fun _ _ => rfl, hdirect,
      hfaults.trans hquiet⟩
    rw [Possession.places, ← hplaces]
    exact helsewhere
  have hsame : ∀ place ∈ session.taken,
      opened.store.read place = session.host.store.read place :=
    fun place hplace => helsewhere place (hstaged.not_mem List.mem_cons_self hplace)
  rw [← hplaces]
  refine h.stage (.install target) ⟨rfl, rfl, h.split.symm, h.accepting.symm, rfl, rfl, hsame⟩
    ⟨rfl, rfl, rfl⟩ rfl ?_
  rw [stagedIn_append, List.append_assoc]
  exact hstaged.perm List.perm_middle.symm

theorem requestRotation_refused {destination : Destination}
    (h : session.Tells config chronicle others)
    (hfits : destination.fits config.splitHeader = false) :
    Ends (requestRotation destination) session (fun _ _ => False)
      (fun _ next => next.Tells config chronicle others) := by
  simp only [requestRotation, onRotation, ends_within, RotationDesk.requestRotation, ends_bind,
    ends_get, RotationDesk.onHost, h.split]
  refine (Target.openAt_refused hfits).mono (fun _ _ h => h.elim) ?_
  rintro error _ rfl
  exact h

theorem requestClose_tells (h : session.Tells config chronicle others) :
    Ends requestClose session (fun _ next => next.Tells config (chronicle.stage none) others)
      (fun _ _ => False) := by
  have hpossessions := h.possessions
  simp only [requestClose, onRotation, ends_within, RotationDesk.requestClose,
    RotationDesk.report, RotationDesk.stage, ends_bind, ends_get, ends_modify, h.accepting,
    Bool.false_eq_true, if_false]
  refine h.stage .detach ⟨rfl, rfl, rfl, h.accepting.symm, rfl, rfl, fun _ _ => rfl⟩
    ⟨rfl, rfl, rfl⟩ rfl ?_
  rw [stagedIn_append]
  exact (List.append_nil (stagedIn session.recorder.rotation.staged)).symm ▸ hpossessions

theorem shutdown_tells (h : session.Tells config chronicle others) :
    Ends shutdown session
      (fun _ next => next.Tells config (chronicle.step config .shutdown) others)
      (fun _ _ => False) := by
  cases hclosed : session.recorder.closed with
  | true =>
      rw [Chronicle.step, ← h.closed, hclosed]
      simp only [shutdown, ends_bind, ends_get, hclosed, if_true]
      exact h
  | false =>
      rw [Chronicle.step, ← h.closed, hclosed]
      let closing : Session := { session with recorder := { session.recorder with closed := true } }
      have hresembles : session.Resembles closing := ⟨rfl, rfl, rfl, rfl, rfl, rfl, fun _ _ => rfl⟩
      have hclosing : closing.Tells config { chronicle with closed := true } others :=
        hresembles.tells h rfl h.tape_eq rfl h.itemsRead h.staged h.possessions
      simp only [shutdown, ends_bind, ends_get, hclosed, Bool.false_eq_true, if_false, ends_change,
        ends_attempt]
      refine (retireActive_tells hclosing).mono ?_ fun _ _ h => h.elim
      rintro ⟨⟩ retired ⟨hretired, -, hrotation⟩
      rw [Chronicle.retire_closed] at hretired
      obtain ⟨hsettled, hsame⟩ := closeStaged_settles _ hretired.possessions
      have hunused : (retired.recorder.rotation.staged.map RotationCommand.places).reduceOption =
          chronicle.staged.reduceOption := by
        rw [hrotation]
        exact congrArg List.reduceOption h.staged
      rw [hunused] at hsettled
      simp only [onRotation, ends_within, ends_modify, ends_report, ends_pure]
      refine Resembles.tells (show retired.Resembles _ from ⟨rfl, rfl, rfl, rfl, rfl, rfl, hsame⟩)
        hretired rfl hretired.tape_eq hretired.closed ?_ rfl ?_
      · exact hretired.itemsRead
      · refine hsettled.perm ?_
        rw [Chronicle.settled_finish, List.append_assoc]
        exact List.perm_append_comm_assoc ..

theorem answer_tells (hvalid : config.validate = .ok ()) (call : Call)
    (h : session.Tells config chronicle
      ((destinationsOf config.splitHeader [call]).map .reserved ++ others)) :
    Ends (answer call) session
      (fun _ next => next.Tells config (chronicle.step config call) others)
      (fun _ next => next.Tells config (chronicle.step config call) others) := by
  cases call with
  | work items tags =>
      rw [answer, ends_discard]
      exact (work_tells hvalid h items tags).mono (fun _ _ h => h.2) fun _ _ h => h.2
  | update key value => exact updateAttribute_tells hvalid h key value
  | setUnbuffered unbuffered =>
      exact Resembles.stays
        (show session.Resembles _ from ⟨rfl, rfl, rfl, rfl, rfl, rfl, fun _ _ => rfl⟩)
        h rfl rfl rfl rfl rfl
  | rotate destination =>
      rw [Chronicle.step]
      by_cases hfits : destination.fits config.splitHeader = true
      · rw [destinationsOf_rotate, if_pos hfits] at h
        rw [if_pos hfits]
        exact (requestRotation_tells h).mono (fun _ _ h => h) fun _ _ h => h.elim
      · rw [destinationsOf_rotate, if_neg hfits] at h
        rw [if_neg hfits]
        exact (requestRotation_refused h (Bool.eq_false_of_not_eq_true hfits)).mono
          (fun _ _ h => h.elim) fun _ _ h => h
  | close => exact (requestClose_tells h).mono (fun _ _ h => h) fun _ _ h => h.elim
  | shutdown => exact (shutdown_tells h).mono (fun _ _ h => h) fun _ _ h => h.elim

/-- Whatever calls come, the session is as the chronicle of them says. -/
theorem after_tells (hvalid : config.validate = .ok ()) (calls : List Call)
    (h : session.Tells config chronicle
      ((destinationsOf config.splitHeader calls).map .reserved ++ others)) :
    (session.after calls).Tells config (chronicle.run config calls) others := by
  induction calls generalizing session chronicle with
  | nil => exact h
  | cons call rest ih =>
      rw [destinationsOf_cons, List.map_append, List.append_assoc] at h
      exact ih (answer_tells hvalid call h).stateAfter

end Books

end Session

/-! ## The start -/

theorem Recorder.Started.tells {config : Config} {destination : Destination}
    {headers : HeaderState} {host : Host} {session : Session} {target : Target}
    (h : Recorder.Started config destination headers host session target)
    (hstarts : headers.Starts config) (hquiet : destination.faultsAhead = 0)
    {reserved : List Destination}
    (hblank : ∀ other ∈ reserved,
      other.IsBlank config.splitHeader host.store ∧ other.faultsAhead = 0)
    (hapart : ((destination :: reserved).flatMap
      (Destination.places config.splitHeader)).Nodup) :
    session.Tells config (.start config destination headers) (reserved.map .reserved) := by
  have hactive := h.serves.active
  rw [List.flatMap_cons] at hapart
  refine ⟨h.split, h.abandoned, h.serves.accepting, h.itemsRead, ?_, ?_, h.keeps.tells.counters,
    fun current hcurrent => ?_, fun hnone => ?_, ⟨?_, ?_⟩, h.serves.config⟩
  · rw [h.serves.idle]
    rfl
  · rw [hactive]
    exact congrArg some h.places
  · cases hactive.symm.trans hcurrent
    exact ⟨h.keeps, hstarts.isProper, rfl, h.direct, h.quiet hquiet⟩
  · cases hactive.symm.trans hnone
  · rw [Session.taken_of_active hactive, h.places, h.serves.idle]
    change (_ ++ (reserved.map Possession.reserved).flatMap _).Nodup
    rw [List.flatMap_map]
    exact hapart
  · rw [h.serves.idle]
    refine List.forall_mem_map.mpr fun other hother => ?_
    obtain ⟨hother', hquiet'⟩ := hblank other hother
    refine ⟨hother'.elsewhere fun place hplace => h.elsewhere place fun htarget => ?_, hquiet'⟩
    rw [h.places] at htarget
    exact (List.nodup_append.mp hapart).2.2 place htarget place
      (List.mem_flatMap.mpr ⟨other, hother, hplace⟩) rfl

end SegmentStream
