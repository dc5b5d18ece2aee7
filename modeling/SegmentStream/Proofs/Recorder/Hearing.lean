import SegmentStream.Proofs.Recorder.Files
import SegmentStream.Proofs.Recorder.Serving
import SegmentStream.Proofs.Recorder.Unfolding

/-!
# What is heard on any storage

A recorder hears of every update, and of a batch only if it has a target for it.
What it has heard is, at the end, what stands on its targets, one behind the other
in the order in which they were installed, wherever they stand.
-/

namespace SegmentStream

open SegmentStream.Action

/-! ## Deeds of a recorder -/

/-- The deeds of one call before the end, which comes behind `first` records. -/
def Call.deeds (config : Config) (first : Nat) (heard : Bool) : Call → List Deed
  | work items tags =>
      if items.length % config.itemSize.toNat = 0 then
        (script (cuesOf config.recordSize tags) first
          (wholeRecords config.itemSize.toNat items)).map (⟨·, heard⟩)
      else []
  | update key value =>
      match HeaderUpdate.prepare config.recordSize key value with
      | .error _ => []
      | .ok accepted => [⟨.cut (some accepted), true⟩]
  | _ => []

/-- The deeds of calls up to the end; a batch is heard if there is a target behind it. -/
def Session.deedsOf : Session → List Call → List Deed
  | _, [] => []
  | _, .shutdown :: _ => []
  | session, call :: rest =>
      let next := (answer call).stateAfter session
      call.deeds session.recorder.config session.recorder.itemsRead
        next.recorder.active.isSome ++ next.deedsOf rest

section Deeds

variable {config : Config} {route : Route} {session : Session}

theorem Route.deeds_eq (first : Nat) (call : Call) : route.deeds config first call =
    call.deeds config first route.turn.current.isKept := by
  cases call <;> rfl

theorem Session.deedsOf_cons {call : Call} (h : call ≠ .shutdown) (rest : List Call) :
    session.deedsOf (call :: rest) =
      call.deeds session.recorder.config session.recorder.itemsRead
          ((answer call).stateAfter session).recorder.active.isSome ++
        ((answer call).stateAfter session).deedsOf rest := by
  cases call with
  | shutdown => exact absurd rfl h
  | _ => rfl

/-- Behind an accepted batch the route is at the target that the batch went to. -/
theorem Route.isKept_step {items : Bytes} (tags : List Tag) (hopen : route.closed = false)
    (hwhole : items.length % config.itemSize.toNat = 0) :
    (route.step config (.work items tags)).current.isKept = route.turn.current.isKept := by
  have htaken : ¬ (route.closed = true ∨ items.length % config.itemSize.toNat ≠ 0) := by
    simp [hopen, hwhole]
  rw [Route.step, if_neg htaken]
  rfl

/-- What is heard of a call shows in where its chronicle goes on. -/
theorem Chronicle.Follows.deedsOf_cons {chronicle : Chronicle} {opened : List Destination}
    {call : Call} (h : chronicle.Follows config opened route) (hpos : 0 < config.itemSize.toNat)
    (hopen : route.closed = false) (hcall : call ≠ .shutdown) (later : List Call) :
    route.deedsOf config chronicle.itemsRead (call :: later) =
      call.deeds config chronicle.itemsRead (chronicle.step config call).current.isSome ++
        (route.step config call).deedsOf config (chronicle.step config call).itemsRead later := by
  have hopen' : (route.step config call).closed = false := (Route.closed_step call hcall).trans hopen
  have hkept := (h.step hpos call).isKept hopen'
  rw [Route.deedsOf_cons hcall, itemsRead_step h hopen, ← hkept, Route.deeds_eq]
  congr 1
  cases call with
  | work items tags =>
      rw [Call.deeds, Call.deeds]
      split
      · next hwhole => rw [Route.isKept_step tags hopen hwhole]
      · rfl
  | _ => rfl

/-- An image is asked for what brings the same deeds, if for anything. -/
theorem Session.portrait_cases (label : Location → String) (session : Session) {call : Call}
    (h : call ≠ .shutdown) :
    (session.portrait label call = [] ∧ ∀ config first heard, call.deeds config first heard = []) ∨
      ∃ only, session.portrait label call = [only] ∧ only ≠ .shutdown ∧
        ∀ config first heard, call.deeds config first heard = only.deeds config first heard := by
  cases call with
  | rotate destination =>
      cases hopening : session.opening (.rotate destination) with
      | none => exact .inl ⟨portrait_of_not_opening hopening, fun _ _ _ => rfl⟩
      | some opening =>
          exact .inr ⟨_, portrait_of_opening hopening, by simp, fun _ _ _ => rfl⟩
  | shutdown => exact absurd rfl h
  | _ => exact .inr ⟨_, rfl, h, fun _ _ _ => rfl⟩

/-- Images are asked for the same batches and updates. -/
theorem Session.requestsOf_portraits (label : Location → String) (size : Nat) (session : Session)
    (calls : List Call) :
    requestsOf size (session.portraits label calls) = requestsOf size calls := by
  induction calls generalizing session with
  | nil => rfl
  | cons call rest ih =>
      rw [portraits]
      cases call with
      | work items tags =>
          rw [portrait_other (by simp), List.singleton_append, requestsOf, requestsOf, ih]
      | update key value =>
          rw [portrait_other (by simp), List.singleton_append, requestsOf, requestsOf, ih]
      | rotate destination =>
          rw [requestsOf, ← ih ((answer (.rotate destination)).stateAfter session)]
          cases hopening : session.opening (.rotate destination) with
          | none =>
              rw [portrait_of_not_opening hopening]
              rfl
          | some opening =>
              rw [portrait_of_opening hopening]
              rfl
          all_goals simp
      | shutdown => rfl
      | _ => exact ih _

end Deeds

/-! ## A recorder hears what its image does -/

section Launch

variable {config : Config} {destination : Destination} {host : Host} {first : Opening}
  {session : Session} {headers : HeaderState} {label : Location → String}
  {unlabel : String → Location}

namespace Recorder.Launches

/-- Where the image stands behind calls. -/
theorem stands (h : Recorder.Launches config destination host first session)
    (hheaders : HeaderState.start config = .ok headers)
    (hlabel : Function.LeftInverse unlabel label) {calls : List Call}
    (hserved : session.IsServed first calls) :
    let chronicle := (Chronicle.start config (first.target.portrait label) headers).run config
      (session.portraits label calls)
    (session.after calls).recorder.active.isSome = chronicle.current.isSome ∧
      (session.after calls).recorder.itemsRead = chronicle.itemsRead := by
  intro chronicle
  obtain ⟨album, image, -, hportrays⟩ := h.portrays hheaders hlabel calls hserved
  constructor
  · have hactive := congrArg Option.isSome hportrays.active_places
    rwa [Option.isSome_map, Option.isSome_map] at hactive
  · obtain ⟨pair, hshows⟩ := hportrays.mirrors
    exact hshows.itemsRead.symm.trans hportrays.tells.itemsRead

/-- What the route of the image drops is dropped. -/
theorem dropped_eq (h : Recorder.Launches config destination host first session)
    (hheaders : HeaderState.start config = .ok headers)
    (hlabel : Function.LeftInverse unlabel label) {calls : List Call}
    (hserved : session.IsServed first calls) :
    (session.after calls).recorder.progress.counters.recordsDropped * config.itemSize.toNat =
      (((Route.start (first.target.portrait label)).run config
        (session.portraits label calls)).share false).length := by
  obtain ⟨album, image, -, hportrays⟩ := h.portrays hheaders hlabel calls hserved
  obtain ⟨pair, hshows⟩ := hportrays.mirrors
  have hfollows := (Chronicle.follows_start config (first.target.portrait label) headers).run
    (Config.itemSize_pos (Recorder.isUsable_of_start h.starts).1) (session.portraits label calls)
  have hdropped := hfollows.dropped
  rw [← hportrays.tells.counters, hshows.progress] at hdropped
  exact hdropped

/-- The deeds of a recorder are those that the route of its image tells. -/
theorem deedsOf_eq_from (h : Recorder.Launches config destination host first session)
    (hheaders : HeaderState.start config = .ok headers)
    (hlabel : Function.LeftInverse unlabel label) {front back : List Call}
    (hserved : session.IsServed first (front ++ back)) (hopen : .shutdown ∉ front) :
    let portraits := session.portraits label front
    let chronicle := (Chronicle.start config (first.target.portrait label) headers).run config
      portraits
    let route := (Route.start (first.target.portrait label)).run config portraits
    (session.after front).deedsOf back =
      route.deedsOf config chronicle.itemsRead ((session.after front).portraits label back) := by
  induction back generalizing front with
  | nil => intros; rfl
  | cons call rest ih =>
      intro portraits chronicle route
      by_cases hcall : call = .shutdown
      · subst hcall
        rfl
      · have hclosed : route.closed = false :=
          Route.closed_run rfl fun hmem => (Session.mem_portraits hmem).elim hopen (by simp)
        have hpos := Config.itemSize_pos (Recorder.isUsable_of_start h.starts).1
        have hfollows : chronicle.Follows config _ route :=
          (Chronicle.follows_start config (first.target.portrait label) headers).run hpos portraits
        have hconfig : (session.after front).recorder.config = config :=
          (Session.after_config session front).trans h.config_eq
        obtain ⟨-, hread⟩ := h.stands hheaders hlabel hserved.of_append
        rw [List.append_cons] at hserved
        have hrest := ih hserved (by simp [hopen, Ne.symm hcall])
        obtain ⟨hactive, -⟩ := h.stands hheaders hlabel hserved.of_append
        have hnext : session.portraits label (front ++ [call]) =
            portraits ++ (session.after front).portrait label call := by
          rw [Session.portraits_append, Session.portraits, Session.portraits, List.append_nil]
        have hchronicle : (Chronicle.start config (first.target.portrait label) headers).run config
            (session.portraits label (front ++ [call])) =
              chronicle.run config ((session.after front).portrait label call) := by
          rw [hnext, Chronicle.run_append]
        have hroute : (Route.start (first.target.portrait label)).run config
            (session.portraits label (front ++ [call])) =
              route.run config ((session.after front).portrait label call) := by
          rw [hnext, Route.run_append]
        rw [hchronicle] at hactive
        simp only [hchronicle, hroute] at hrest
        have hafter : session.after (front ++ [call]) =
            (Session.answer call).stateAfter (session.after front) :=
          Session.after_append front [call]
        rw [hafter] at hrest hactive
        rw [Session.deedsOf_cons hcall, hconfig, hread, Session.portraits, hactive, hrest]
        rcases Session.portrait_cases label (session.after front) hcall with
          ⟨hportrait, hsilent⟩ | ⟨only, hportrait, honly, hdeeds⟩
        · rw [hportrait, hsilent, List.nil_append]
          rfl
        · rw [hportrait, List.singleton_append, hfollows.deedsOf_cons hpos hclosed honly, hdeeds]
          rfl

theorem deedsOf_eq (h : Recorder.Launches config destination host first session)
    (hheaders : HeaderState.start config = .ok headers)
    (hlabel : Function.LeftInverse unlabel label) {calls : List Call}
    (hserved : session.IsServed first calls) :
    session.deedsOf calls = (Route.start (first.target.portrait label)).deedsOf config 0
      (session.portraits label calls) :=
  h.deedsOf_eq_from hheaders hlabel (show session.IsServed first ([] ++ calls) from hserved)
    List.not_mem_nil

end Recorder.Launches

end Launch

/-! ## What stands at the end -/

section End

variable {config : Config} {destination : Destination} {headers : HeaderState}
  {calls : List Call}

/-- At the end of a stream what was heard of it is on the targets that were let go of. -/
theorem Chronicle.hasUnfolded_start (hvalid : config.validate = .ok ())
    (hheaders : HeaderState.start config = .ok headers) (destination : Destination)
    (calls : List Call) :
    ((Chronicle.start config destination headers).run config (calls ++ [.shutdown])).HasUnfolded
      headers (heardActs ((Route.start destination).deedsOf config 0 calls)) := by
  have hbegins : (Chronicle.start config destination headers).Unfolds headers [] :=
    Transcript.unfolds_opening (HeaderState.start_isTimed hheaders)
      (HeaderState.of_start hheaders).fresh
  exact hbegins.run (Config.itemSize_pos hvalid) calls
    (Chronicle.follows_start config destination headers) rfl

theorem Chronicle.chapters_of_shutdown (h : .shutdown ∈ calls) :
    ((Chronicle.start config destination headers).run config calls).chapters =
      ((Chronicle.start config destination headers).run config calls).past := by
  rw [chapters, current_of_shutdown h]
  exact List.append_nil _

theorem Session.Portrays.stored_past {unlabel : String → Location} {album : Album}
    {others : List Possession} {session image : Session}
    (h : Portrays unlabel config album ((Chronicle.start config destination headers).run config
      calls) others session image)
    (hshutdown : .shutdown ∈ calls) :
    ∀ chapter ∈ ((Chronicle.start config destination headers).run config calls).past,
      Contents.ofPlaces session.host.store (chapter.places.map (Location.origin unlabel)) =
        .ofSegments config.splitHeader chapter.segments := by
  intro chapter hchapter
  rw [← seen_of_isFlushed (h.isFlushed_of_shutdown hshutdown)]
  exact h.seen_eq (List.mem_append_left _ hchapter)

end End

/-! ## Runs that succeed -/

namespace Run

/-- What batches and updates bring to which record. -/
def arrived (run : Run) : List Arrival :=
  arrivals run.config.recordSize 0 (requestsOf run.config.itemSize.toNat run.calls)

/-- The run with its end. -/
def finished (run : Run) : Run := { run with calls := run.calls ++ [.shutdown] }

/-- The recorder starts, and storage serves it to the end of the run. -/
structure Succeeds (run : Run) (first : Opening) (session : Session) : Prop where
  launches : Recorder.Launches run.config run.destination run.host first session
  served : session.IsServed first (run.calls ++ [.shutdown])

/-- At the end these chapters are stored, one for each target that was installed. -/
structure Leaves (run : Run) (session : Session) (chapters : List Chapter) : Prop where
  installed : (chapters.map Chapter.places).Perm (session.installed (run.calls ++ [.shutdown]))
  stored : ∀ chapter ∈ chapters,
    Contents.ofPlaces (session.after (run.calls ++ [.shutdown])).host.store chapter.places =
      .ofSegments run.config.splitHeader chapter.segments
  /-- A reader of a target finds the segments of its chapter. -/
  reads : ∀ chapter ∈ chapters,
    let contents := Contents.ofPlaces
      (session.after (run.calls ++ [.shutdown])).host.store chapter.places
    contents.IsAddressable → contents.ReadsAs (chapter.segments.map Segment.reading)
  /-- The targets hold, one behind the other, the records that were heard. -/
  records : (chapters.flatMap Chapter.segments).flatMap Segment.records =
    (heardActs (session.deedsOf run.calls)).flatMap Transcript.recordsOf

section Runs

variable {run : Run} {first : Opening} {session : Session}

theorem IsClean.finished (h : run.IsClean) : run.finished.IsClean := by
  have hsame : run.finished.destinations = run.destinations := by
    rw [destinations, destinations, Run.finished, destinationsOf_append]
    exact congrArg (run.destination :: ·) (List.append_nil _)
  obtain ⟨husable, hblank, hapart⟩ := h
  rw [← hsame] at hblank hapart
  exact ⟨husable, hblank, hapart⟩

theorem IsClean.exists_succeeds (h : run.IsClean) :
    ∃ first session, run.Succeeds first session := by
  obtain ⟨first, session, hlaunches, hserved⟩ := h.finished.exists_served
  exact ⟨first, session, hlaunches, hserved⟩

theorem Succeeds.isUsable (h : run.Succeeds first session) : run.config.IsUsable :=
  Recorder.isUsable_of_start h.launches.starts

/-- The deeds of a run are the acts of its whole stream. -/
theorem Succeeds.deeds_acts (h : run.Succeeds first session) :
    (session.deedsOf run.calls).map Deed.act = weave (cuesAt run.arrived) 0
      (recordsIn (requestsOf run.config.itemSize.toNat run.calls)) := by
  obtain ⟨-, headers, hheaders⟩ := h.isUsable
  obtain ⟨label, unlabel, hlabel⟩ := Location.exists_label
  rw [h.launches.deedsOf_eq hheaders hlabel h.served.of_append, Route.deedsOf_acts,
    Session.requestsOf_portraits, actsOf_eq_weave]
  rfl

/-- The stored segments are those of the stream that was heard. -/
theorem Succeeds.exists_played (h : run.Succeeds first session) :
    ∃ headers chapters, HeaderState.start run.config = .ok headers ∧ run.Leaves session chapters ∧
      AsPlayed headers (heardActs (session.deedsOf run.calls)) 0
        (chapters.flatMap Chapter.segments) := by
  obtain ⟨hvalid, headers, hheaders⟩ := h.isUsable
  obtain ⟨label, unlabel, hlabel⟩ := Location.exists_label
  obtain ⟨album, image, -, hportrays⟩ := h.launches.portrays hheaders hlabel _ h.served
  have hperm := h.launches.installed_perm hheaders hlabel h.served
  have hend : session.portraits label (run.calls ++ [.shutdown]) =
      session.portraits label run.calls ++ [.shutdown] := Session.portraits_append ..
  rw [hend] at hportrays hperm
  have hstored := hportrays.stored_past (List.mem_append_right _ (List.mem_singleton_self _))
  obtain ⟨hplayed, hrecords⟩ := Chronicle.hasUnfolded_start hvalid hheaders
    (first.target.portrait label) (session.portraits label run.calls)
  rw [← h.launches.deedsOf_eq hheaders hlabel h.served.of_append,
    ← Chapter.segments_rename (Location.origin unlabel)] at hplayed hrecords
  refine ⟨headers, _, hheaders, ⟨?_, ?_, ?_, hrecords⟩, hplayed⟩
  · rw [List.map_map]
    have hshutdown := List.mem_append_right (session.portraits label run.calls)
      (List.mem_singleton_self Call.shutdown)
    exact Chronicle.chapters_of_shutdown hshutdown ▸ hperm
  · rw [List.forall_mem_map]
    exact hstored
  · rw [List.forall_mem_map]
    intro chapter hchapter contents haddressable
    have hcontents : contents = .ofSegments run.config.splitHeader chapter.segments :=
      hstored chapter hchapter
    rw [hcontents] at haddressable ⊢
    exact Contents.ofSegments_readsAs (Config.recordSize_ne_zero hvalid) _
      (hportrays.tells.stands_past hchapter).2 haddressable

end Runs

end Run

end SegmentStream
