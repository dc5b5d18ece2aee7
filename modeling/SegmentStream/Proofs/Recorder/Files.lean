import SegmentStream.Proofs.Recorder.Installed

/-!
# Files and buffers

A recorder on files holds bytes back, and one on buffers does not.  Both are
given the same calls, none of which asks for another target.  As long as no file
is too short for what it is asked, the replies are the same.  Once the recorders
are shut down so are the bytes, and while the recorder is unbuffered so are they
behind each call that writes.
-/

namespace SegmentStream

open SegmentStream.Action

/-- What a file refuses without a plan: an offset or a length beyond the largest. -/
def IoFault.IsRefusal (cause : IoFault) : Prop :=
  cause = .invalidArgument ∨ cause = .lengthOutOfRange

/-! ## Calls for one target -/

/-- The call asks for no other target. -/
def Call.Stays : Call → Prop
  | .rotate _ | .close => False
  | _ => True

def Call.IsWrite : Call → Prop
  | .work _ _ | .update _ _ => True
  | _ => False

namespace Chronicle

section Stays

variable {config : Config} {chronicle : Chronicle} {calls : List Call}

theorem turn_of_idle (h : chronicle.staged = []) : chronicle.turn = chronicle := by
  rw [turn, h]
  rfl

theorem staged_step {call : Call} (h : chronicle.staged = []) (hstays : call.Stays) :
    (chronicle.step config call).staged = [] := by
  cases call with
  | work items tags =>
      rw [step, turn_of_idle h]
      split <;> exact h
  | update key value =>
      rw [step]
      split <;> exact h
  | setUnbuffered unbuffered => exact h
  | rotate destination => exact hstays.elim
  | close => exact hstays.elim
  | shutdown =>
      rw [step]
      split
      · exact h
      · rfl

theorem closed_turn (chronicle : Chronicle) : chronicle.turn.closed = chronicle.closed := by
  rw [turn]
  split
  · rfl
  · next command _ =>
      let emptied : Chronicle := { chronicle with
        staged := [], unused := chronicle.unused ++ chronicle.staged.dropLast.reduceOption }
      cases command <;> exact closed_retire emptied

theorem closed_step_iff (call : Call) :
    (chronicle.step config call).closed = true ↔ chronicle.closed = true ∨ call = .shutdown := by
  cases call with
  | work items tags =>
      rw [step]
      split
      · simp
      · have htake : ∀ later : Chronicle,
            (later.take config (wholeRecords config.itemSize.toNat items) tags).closed =
              later.closed := fun _ => rfl
        rw [htake, closed_turn]
        simp
  | update key value =>
      rw [step]
      split <;> simp [amend]
  | rotate destination =>
      rw [step]
      split <;> simp [stage]
  | shutdown =>
      rw [step]
      split <;> simp_all [finish]
  | _ => simp [step, stage]

theorem closed_run_iff (calls : List Call) :
    (chronicle.run config calls).closed = true ↔
      chronicle.closed = true ∨ .shutdown ∈ calls := by
  induction calls generalizing chronicle with
  | nil => simp [run]
  | cons call rest ih =>
      have hrun : chronicle.run config (call :: rest) =
          (chronicle.step config call).run config rest := rfl
      rw [hrun, ih, closed_step_iff, List.mem_cons, or_assoc, @eq_comm _ call]

theorem current_step_of_closed (call : Call) (h : chronicle.closed = true) :
    (chronicle.step config call).current = chronicle.current := by
  cases call with
  | work items tags => rw [step, if_pos (.inl h)]
  | update key value =>
      rw [step]
      split <;> rfl
  | rotate destination =>
      rw [step]
      split <;> rfl
  | shutdown => rw [step, if_pos h]
  | _ => rfl

/-- Once it is closed a chronicle has no active target. -/
theorem current_run (calls : List Call) (h : chronicle.closed = true → chronicle.current = none) :
    (chronicle.run config calls).closed = true → (chronicle.run config calls).current = none := by
  induction calls generalizing chronicle with
  | nil => exact h
  | cons call rest ih =>
      apply ih
      intro hclosed
      rcases (closed_step_iff call).mp hclosed with hbefore | rfl
      · rw [current_step_of_closed call hbefore, h hbefore]
      · rw [step]
        split
        · exact h ‹_›
        · exact current_retire chronicle

theorem current_of_shutdown {destination : Destination} {headers : HeaderState}
    (h : .shutdown ∈ calls) :
    ((Chronicle.start config destination headers).run config calls).current = none := by
  apply current_run calls
  · intro hclosed
    cases hclosed
  · exact (closed_run_iff calls).mpr (.inr h)

end Stays

end Chronicle

namespace Session

/-! ## What is held back -/

/-- The active target, if there is one, holds nothing back. -/
def IsFlushed (session : Session) : Prop :=
  ∀ target, session.recorder.active = some target → target.IsFlushed

section Flushed

variable {session : Session}

theorem isFlushed_of_none (h : session.recorder.active = none) : session.IsFlushed := by
  intro target hactive
  cases h.symm.trans hactive

theorem seen_of_isFlushed (h : session.IsFlushed) (places : List Location) :
    session.seen places = .ofPlaces session.host.store places := by
  rw [seen]
  split
  · rfl
  · next target hactive =>
      split
      · next hplaces =>
          rw [← Outlet.stored_of_isFlushed (h target hactive), Target.stored_eq, hplaces]
      · rfl

theorem flushUnbuffered_isFlushed (hunbuffered : session.recorder.unbuffered = true)
    (asError : IoFault → StreamError) :
    Ends (flushUnbuffered asError) session (fun _ next => next.IsFlushed) fun _ _ => True := by
  simp only [flushUnbuffered, ends_bind, ends_get, hunbuffered]
  cases hactive : session.recorder.active with
  | none => exact isFlushed_of_none hactive
  | some target =>
      simp only [ends_onActive, ends_mapFault, Writer.onOutlet, ends_within]
      apply (Outlet.flush_isFlushed _).mono
      · intro _ outlet hflushed flushed hsome
        obtain rfl := Option.some.inj hsome
        exact hflushed
      · exact fun _ _ _ => trivial

theorem record_unbuffered (target : Target) (items : Bytes) (tags : List Tag) :
    Ends (record target items tags) session
      (fun _ next => next.recorder.unbuffered = session.recorder.unbuffered) fun _ _ => True := by
  simp only [record, ends_bind, ends_get, ends_attempt]
  apply (selectTags_ends _ _ tags).mono
  · intro entries logged hlogged
    obtain ⟨-, log, rfl⟩ := hlogged
    rw [ends_onActive]
    apply ends_of_forall
    · exact fun _ _ => rfl
    · intro error writer
      dsimp only
      split <;> trivial
  · exact fun _ _ => False.elim

theorem takeBatch_isFlushed (hunbuffered : session.recorder.unbuffered = true) (items : Bytes)
    (tags : List Tag) :
    Ends (takeBatch items tags) session (fun _ next => next.IsFlushed) fun _ _ => True := by
  cases hactive : session.recorder.active with
  | none =>
      rw [ends_takeBatch_detached items tags hactive]
      simp only [drop, ends_bind, ends_get, ends_pure]
      split <;> exact isFlushed_of_none hactive
  | some target =>
      rw [ends_takeBatch items tags hactive, ends_bind]
      apply (record_unbuffered target items tags).mono
      · intro written next hnext
        rw [ends_bind]
        apply (flushUnbuffered_isFlushed (hnext.trans hunbuffered) _).mono
        · exact fun _ _ => id
        · exact fun _ _ => id
      · exact fun _ _ => id

/-- Behind a call that writes while the recorder is unbuffered nothing is held back. -/
theorem reply_isFlushed {call : Call} (hwrite : call.IsWrite)
    (hidle : session.recorder.rotation.staged = [])
    (hunbuffered : session.recorder.unbuffered = true) :
    Ends (reply call) session (fun _ next => next.IsFlushed) fun _ _ => True := by
  cases call with
  | work items tags =>
      simp only [reply, ends_map, work, ends_bind, ends_get]
      split
      · trivial
      · split
        · trivial
        · simp only [ends_bind, ends_installPending_idle hidle]
          exact takeBatch_isFlushed hunbuffered items tags
  | update key value =>
      simp only [reply, answer, ends_map, updateAttribute, ends_bind, ends_get]
      split
      · trivial
      · simp only [ends_bind, ends_changeProgress, ends_get]
        split
        · next hactive => exact isFlushed_of_none hactive
        · simp only [ends_bind, ends_onActive]
          apply ends_of_forall
          · intro _ writer
            apply flushUnbuffered_isFlushed
            exact hunbuffered
          · exact fun _ _ => trivial
  | _ => exact hwrite.elim

end Flushed

/-! ## A recorder and its image -/

section Image

variable {config : Config} {chronicle : Chronicle} {others : List Possession} {album : Album}
  {session image : Session} {unlabel : String → Location} {chapter : Chapter}

theorem Mirrors.isFlushed (h : session.Mirrors album image) : image.IsFlushed := by
  obtain ⟨pair, h⟩ := h
  intro target hactive
  rw [h.active'] at hactive
  obtain ⟨twin, rfl, rfl⟩ := Option.map_eq_some_iff.mp hactive
  have htwin := h.estate.stands twin (List.mem_append_left _ (List.mem_singleton_self twin))
  exact htwin.mirrors.isFlushed

/-- Where the recorder holds nothing back, both hold the same. -/
theorem Portrays.stored_eq (h : Portrays unlabel config album chronicle others session image)
    (hchapter : chapter ∈ chronicle.chapters) (hflushed : session.IsFlushed) :
    Contents.ofPlaces session.host.store (chapter.places.map (Location.origin unlabel)) =
      .ofPlaces image.host.store chapter.places := by
  rw [← seen_of_isFlushed hflushed, ← seen_of_isFlushed h.mirrors.isFlushed, h.seen_eq hchapter,
    h.tells.seen_eq hchapter]

theorem Portrays.staged_eq_nil (h : Portrays unlabel config album chronicle others session image)
    (hidle : chronicle.staged = []) :
    album.staged = [] ∧ session.recorder.rotation.staged = [] := by
  obtain ⟨pair, hshows⟩ := h.mirrors
  have hstaged := h.tells.staged
  rw [hshows.rotation, hidle] at hstaged
  have halbum : album.staged = [] := by simpa using hstaged
  refine ⟨halbum, ?_⟩
  rw [hshows.staged, halbum]
  rfl

section First

variable {destination : Destination} {headers : HeaderState} {calls : List Call}

/-- Behind the end nothing is held back. -/
theorem Portrays.isFlushed_of_shutdown
    (h : Portrays unlabel config album ((Chronicle.start config destination headers).run config
      calls) others session image)
    (hshutdown : .shutdown ∈ calls) : session.IsFlushed := by
  apply isFlushed_of_none
  have hactive := h.active_places
  rw [Chronicle.current_of_shutdown hshutdown] at hactive
  exact Option.map_eq_none_iff.mp hactive

/-- The first target holds the same as its image. -/
theorem Portrays.stored_first
    (h : Portrays unlabel config album ((Chronicle.start config destination headers).run config
      calls) others session image)
    (hflushed : session.IsFlushed) :
    Contents.ofPlaces session.host.store
        ((destination.places config.splitHeader).map (Location.origin unlabel)) =
      .ofPlaces image.host.store (destination.places config.splitHeader) := by
  obtain ⟨chapter, hchapter, hplaces⟩ : ∃ chapter ∈
      ((Chronicle.start config destination headers).run config calls).chapters,
      chapter.places = destination.places config.splitHeader :=
    (Chronicle.exists_chapter_iff rfl calls).mpr ⟨[], List.nil_prefix, rfl⟩
  rw [← hplaces]
  exact h.stored_eq hchapter hflushed

end First

/-- As long as no other target is asked for, files need to refuse nothing. -/
theorem Portrays.after_stays (calls : List Call) (hvalid : config.validate = .ok ())
    (h : Portrays unlabel config album chronicle others session image)
    (hidle : chronicle.staged = []) (hstays : ∀ call ∈ calls, call.Stays)
    (hspared : IsSpared album.excused session calls) :
    session.replies calls = image.replies calls ∧ (chronicle.run config calls).staged = [] ∧
      ∃ later, Portrays unlabel config later (chronicle.run config calls) others
        (session.after calls) (image.after calls) := by
  induction calls generalizing session image album chronicle with
  | nil => exact ⟨rfl, hidle, album, h⟩
  | cons call rest ih =>
      obtain ⟨hcall, hrest⟩ := List.forall_mem_cons.mp hstays
      have hother : ∀ destination, call ≠ .rotate destination := by
        intro destination hrotate
        rw [hrotate] at hcall
        exact hcall
      obtain ⟨hreply, later, hlater, hexcused, -⟩ := h.answer_other hvalid
        (.inl (h.staged_eq_nil hidle).1)
        (fun error herror => hspared error (List.mem_cons.mpr (.inl herror.symm))) hother
      rw [← hexcused] at hspared
      obtain ⟨hreplies, hrun⟩ := ih hlater (Chronicle.staged_step hidle hcall) hrest
        fun error herror => hspared error (List.mem_cons_of_mem _ herror)
      refine ⟨?_, hrun⟩
      rw [replies, replies, hreply, hreplies]

end Image

end Session

/-! ## Opening files -/

/-- Files are opened empty, and nothing is planned to go wrong on them. -/
theorem Target.openAt_file (path : String) (split : Bool) (host : Host) :
    Ends (Target.openAt (.file path) split) host
      (fun target next => target.IsFresh next.store ∧
        ∀ channel ∈ target.channels, channel.faults = {}) fun _ _ => True := by
  cases split with
  | false =>
      simp only [openAt, Destination.openChannels, Bool.false_eq_true, if_false, ends_bind,
        ends_pure, ends_modify]
      apply (openFile_ends path host).mono
      · rintro data _ ⟨-, hdata, rfl⟩
        rw [hdata]
        constructor
        · exact List.forall_mem_singleton.mpr ⟨rfl, rfl, Store.read_put_self ..⟩
        · exact List.forall_mem_singleton.mpr rfl
      · exact fun _ _ _ => trivial
  | true =>
      simp only [openAt, Destination.openChannels, if_true, ends_bind, ends_map, ends_pure,
        ends_modify]
      apply (openFile_ends (headerPath path) host).mono
      · rintro header _ ⟨-, hheader, rfl⟩
        apply (openFile_ends path _).mono
        · rintro data _ ⟨-, hdata, rfl⟩
          rw [hdata, hheader]
          constructor
          · rw [IsFresh, channels, Option.toList_some, List.forall_mem_cons,
              List.forall_mem_singleton]
            constructor
            · exact ⟨rfl, rfl, Store.read_put_self ..⟩
            · exact ⟨rfl, rfl, read_put_nil (Store.read_put_self ..)⟩
          · rw [channels, Option.toList_some, List.forall_mem_cons, List.forall_mem_singleton]
            exact ⟨rfl, rfl⟩
        · exact fun _ _ _ => trivial
      · exact fun _ _ _ => trivial

/-- Both files are made where their paths lead. -/
theorem Target.openAt_of_locate {path : String} {host : Host} {data header : Location}
    (hdata : host.store.locate path = .ok data)
    (hheader : host.store.locate (headerPath path) = .ok header) :
    Target.openAt (.file path) true host =
      .ok { label := path, data := { location := data }, header := some { location := header } }
        (Host.report { host with store := (host.store.put header []).put data [] }
          (.openedFile path true)) := by
  have hfirst : Destination.openFile (headerPath path) host =
      .ok { location := header } { host with store := host.store.put header [] } := by
    simp only [Destination.openFile, Store.create, hheader]
    rfl
  have hstays := Store.toOption_locate_put host.store header [] path
  have hsecond : Destination.openFile path { host with store := host.store.put header [] } =
      .ok { location := data } { host with store := (host.store.put header []).put data [] } := by
    rw [hdata] at hstays
    cases hlocated : (host.store.put header []).locate path with
    | error cause =>
        rw [hlocated] at hstays
        cases hstays
    | ok place =>
        rw [hlocated] at hstays
        obtain rfl := Option.some.inj hstays
        simp only [Destination.openFile, Store.create, hlocated]
        rfl
  simp only [openAt, Destination.openChannels, if_true, bind, EStateM.bind, Functor.map,
    EStateM.map, hfirst, hsecond]
  rfl

/-- A file in an empty root, and one beside it for headers. -/
def Opening.tape : Opening where
  target :=
    { label := "tape"
      data := { location := .file ["tape"] }
      header := some { location := .file ["tape.hdr"] } }
  host := Host.report { store := (Store.put {} (.file ["tape.hdr"]) []).put (.file ["tape"]) [] }
    (.openedFile "tape" true)

theorem Target.openAt_tape :
    Target.openAt (.file "tape") true {} = .ok Opening.tape.target Opening.tape.host := by
  have hdata : Store.locate {} "tape" = .ok (.file ["tape"]) := by
    have hnames : Store.namesOf "tape" = ["tape"] := by decide
    have hfile : "tape".endsWith "/" = false := by decide +kernel
    simp +decide [Store.locate, hnames, hfile, Store.isDirectory]
  have hheader : Store.locate {} (headerPath "tape") = .ok (.file ["tape.hdr"]) := by
    have hpath : headerPath "tape" = "tape.hdr" := by decide +kernel
    have hnames : Store.namesOf "tape.hdr" = ["tape.hdr"] := by decide
    have hfile : "tape.hdr".endsWith "/" = false := by decide +kernel
    simp +decide [Store.locate, hpath, hnames, hfile, Store.isDirectory]
  exact openAt_of_locate hdata hheader

section Start

variable {config : Config} {path data header : String} {host : Host} {first : Opening}

/-- The places that buffers stand for: data and headers of one target. -/
def Target.unlabel (target : Target) (data name : String) : Location :=
  if name = data then target.data.location else target.headerChannel.location

theorem Target.unlabel_places {target : Target} {split : Bool} (hunused : target.IsUnused split)
    (hbuffers : ((Destination.memory data header).places split).Nodup) :
    target.places = ((Destination.memory data header).places split).map
      (Location.origin (target.unlabel data)) := by
  obtain ⟨name, channel, headers, dataEnd, headerEnd⟩ := target
  obtain ⟨hsplit, -, -⟩ := hunused
  cases headers with
  | none =>
      obtain rfl : false = split := hsplit
      simp [places, channels, Destination.places, Location.origin, unlabel]
  | some headers =>
      obtain rfl : true = split := hsplit
      have hne : header ≠ data := by
        rintro rfl
        simp [Destination.places] at hbuffers
      simp [places, channels, Destination.places, Location.origin, unlabel, headerChannel, hne]

/-- On files that can be opened a recorder starts, and on buffers with it. -/
theorem Recorder.start_files (hconfig : config.IsUsable)
    (hopens : Target.openAt (.file path) config.splitHeader host = .ok first.target first.host)
    (hbuffers : ((Destination.memory data header).places config.splitHeader).Nodup)
    (host' : Host) :
    ∃ (headers : HeaderState) (session image : Session),
      Recorder.start config (.file path) host = .ok session.recorder session.host ∧
      Recorder.start config (.memory data header) host' = .ok image.recorder image.host ∧
      ∃ album : Album, album.excused = IoFault.IsRefusal ∧
        Session.Portrays (first.target.unlabel data) config album
          (.start config (.memory data header) headers) [] session image := by
  have hblank : (Destination.memory data header).IsBlank config.splitHeader host'.store := by
    intro hsplit hsame
    rw [hsplit, hsame] at hbuffers
    simp [Destination.places] at hbuffers
  obtain ⟨headers, recorder', started', target', hheaders, hstart', hstarted⟩ :=
    Recorder.exists_start hconfig hblank rfl
  have happart : ([Destination.memory data header].flatMap
      (Destination.places config.splitHeader)).Nodup := by rwa [List.flatMap_singleton]
  have htells := hstarted.tells (HeaderState.of_start hheaders) rfl (List.forall_mem_nil _) happart
  obtain ⟨hfresh, hunplanned⟩ := (Target.openAt_file path config.splitHeader host).of_ok hopens
  have hopened := (Target.openAt_opens ..).of_ok hopens
  have hexcused : first.target.IsExcused IoFault.IsRefusal :=
    fun channel hchannel cause hraises => hraises (hunplanned channel hchannel)
  have hfiles : first.target.places.Nodup := by
    rw [hopened.places]
    exact Destination.sought_file_nodup ..
  have hbeside := Recorder.start_mirrors hconfig.1 hheaders host' hopens hfresh hexcused
    (first.target.unlabel_places hopened.unused hbuffers) hfiles
  -- the first header is refused for every cause or for none
  have hsome : ¬ ∀ cause, IoFault.IsRefusal cause := by
    intro hall
    rcases hall .diskFull with hrefusal | hrefusal <;> cases hrefusal
  have hstart := Ends.mono hbeside (fun _ _ himage => himage.of_ok hstart')
    fun _ _ hfault => hfault.elim (fun hoverall => hsome hoverall.2)
      fun himage => himage.of_ok hstart'
  obtain ⟨recorder, started, hrun, hmirrors⟩ := hstart.exists_ok
  have hportrays := Session.Portrays.mk hmirrors rfl rfl htells (List.forall_mem_nil _)
  exact ⟨headers, ⟨recorder, started⟩, ⟨recorder', started'⟩, hrun, hstart', _, rfl, hportrays⟩

end Start

/-! ## Runs -/

/-- What recorders on files and on buffers, started `unbuffered` or not, share behind the calls. -/
structure Session.Coincides (session image : Session) (unbuffered : Bool)
    (files buffers : List Location) (calls : List Call) : Prop where
  replies : session.replies calls = image.replies calls
  shutDown : .shutdown ∈ calls → Contents.ofPlaces (session.after calls).host.store files =
    .ofPlaces (image.after calls).host.store buffers
  /-- The last call was accepted, and wrote while those before it had the recorder unbuffered. -/
  written : ∀ front call answer next, calls = front ++ [call] → call.IsWrite →
    unbufferedBehind unbuffered front = true →
    Session.reply call (session.after front) = .ok answer next →
    Contents.ofPlaces (session.after calls).host.store files =
      .ofPlaces (image.after calls).host.store buffers

section Run

variable {config : Config} {path data header : String} {host : Host} {first : Opening}

/--
Files and buffers take the same.  Where no file refuses an offset or a length, a
recorder on files gives the replies of one on buffers.  The bytes are the same
behind a shutdown, and behind every call that writes while the recorder is
unbuffered by its configuration or by the last call that set it.
-/
theorem Recorder.files_coincide (hconfig : config.IsUsable)
    (hopens : Target.openAt (.file path) config.splitHeader host = .ok first.target first.host)
    (hbuffers : ((Destination.memory data header).places config.splitHeader).Nodup)
    (host' : Host) :
    ∃ session image : Session,
      Recorder.start config (.file path) host = .ok session.recorder session.host ∧
      Recorder.start config (.memory data header) host' = .ok image.recorder image.host ∧
      ∀ calls, (∀ call ∈ calls, call.Stays) → session.IsSpared IoFault.IsRefusal calls →
        session.Coincides image config.unbuffered first.target.places
          ((Destination.memory data header).places config.splitHeader) calls := by
  obtain ⟨headers, session, image, hstart, hstart', album, hexcused, hportrays⟩ :=
    Recorder.start_files hconfig hopens hbuffers host'
  refine ⟨session, image, hstart, hstart', ?_⟩
  intro calls hstays hspared
  have hrun : ∀ front back, calls = front ++ back →
      session.replies front = image.replies front ∧
      (session.after front).recorder.rotation.staged = [] ∧
      ∃ later, Session.Portrays (first.target.unlabel data) config later
        ((Chronicle.start config (.memory data header) headers).run config front) []
        (session.after front) (image.after front) := by
    rintro front back rfl
    have hfront := hspared.of_append
    rw [← hexcused] at hfront
    obtain ⟨hreplies, hidle, later, hlater⟩ := hportrays.after_stays front hconfig.1 rfl
      (fun call hcall => hstays call (List.mem_append_left _ hcall)) hfront
    exact ⟨hreplies, (hlater.staged_eq_nil hidle).2, later, hlater⟩
  obtain ⟨hreplies, -, later, hlater⟩ := hrun calls [] (List.append_nil calls).symm
  have hstored : (session.after calls).IsFlushed →
      Contents.ofPlaces (session.after calls).host.store first.target.places =
        .ofPlaces (image.after calls).host.store
          ((Destination.memory data header).places config.splitHeader) := by
    intro hflushed
    have hunused := ((Target.openAt_opens ..).of_ok hopens).unused
    rw [Target.unlabel_places hunused hbuffers]
    exact hlater.stored_first hflushed
  constructor
  · exact hreplies
  · exact fun hshutdown => hstored (hlater.isFlushed_of_shutdown hshutdown)
  · intro front call answer next hcalls hwrite hset hok
    apply hstored
    obtain ⟨-, hstarted, -⟩ := (Recorder.start_accrues ..).of_ok hstart
    have hunbuffered : (session.after front).recorder.unbuffered = true := by
      rw [Session.after_unbuffered, hstarted]
      exact hset
    obtain ⟨-, hidle, -⟩ := hrun front [call] hcalls
    have hflushed := (Session.reply_isFlushed hwrite hidle hunbuffered).of_ok hok
    have hafter : session.after calls = next := by
      have hanswer := Session.stateAfter_reply (session.after front) call
      rw [Action.stateAfter, hok] at hanswer
      rw [hcalls, Session.after_append]
      exact hanswer.symm
    rw [hafter]
    exact hflushed

/-- Headers that grow in place on files that hold bytes back, then are told not to. -/
theorem Recorder.files_coincide_split :
    let config : Config := { maxSegmentSize := 2, splitHeader := true }
    let front : List Call := [.work [1, 2, 3] [⟨2, "version", .uint 2⟩], .setUnbuffered true,
      .update "note" (.uint 7)]
    let written : List Call := front ++ [.work [4] []]
    let calls : List Call := written ++ [.shutdown]
    ∃ (first : Opening) (session image : Session),
      Target.openAt (.file "tape") true {} = .ok first.target first.host ∧
      Recorder.start config (.file "tape") {} = .ok session.recorder session.host ∧
      Recorder.start config (.memory "data" "headers") {} = .ok image.recorder image.host ∧
      session.IsSpared IoFault.IsRefusal calls ∧
      session.Coincides image false first.target.places [.buffer "data", .buffer "headers"] calls ∧
      Contents.ofPlaces (session.after written).host.store first.target.places =
        .ofPlaces (image.after written).host.store [.buffer "data", .buffer "headers"] := by
  intro config front written calls
  have hconfig : Config.IsUsable { maxSegmentSize := 2, splitHeader := true } := ⟨rfl, _, rfl⟩
  obtain ⟨session, image, hstart, hstart', hcoincides⟩ :=
    files_coincide hconfig Target.openAt_tape
      (by decide : ((Destination.memory "data" "headers").places true).Nodup) {}
  have hanswered : Ends (Recorder.start { maxSegmentSize := 2, splitHeader := true }
      (.file "tape")) {} (fun recorder host =>
        ((Session.mk recorder host).replies calls).all Except.isOk = true ∧
        Ends (Session.reply (.work [4] [])) ((Session.mk recorder host).after front)
          (fun _ _ => True) fun _ _ => False) fun _ _ => False := by
    rw [Recorder.ends_start rfl rfl, ends_iff_of_ok Target.openAt_tape]
    decide +kernel
  obtain ⟨hreplies, hlast⟩ := hanswered.of_ok hstart
  have hspared : session.IsSpared IoFault.IsRefusal calls := by
    intro error herror
    have hall := List.all_eq_true.mp hreplies _ herror
    cases hall
  have hstays : ∀ call ∈ calls, call.Stays := by
    simp [calls, written, front, Call.Stays]
  have hwritten := hcoincides written
    (fun call hcall => hstays call (List.mem_append_left _ hcall)) hspared.of_append
  obtain ⟨answer, next, hok, -⟩ := hlast.exists_ok
  exact ⟨.tape, session, image, Target.openAt_tape, hstart, hstart', hspared,
    hcoincides calls hstays hspared,
    hwritten.written front (.work [4] []) answer next rfl trivial rfl hok⟩

end Run

end SegmentStream
