import SegmentStream.Proofs.Recorder.Batching
import SegmentStream.Proofs.Recorder.Fitting
import SegmentStream.Proofs.Recorder.Files
import SegmentStream.Proofs.Recorder.Serving

/-!
# Streams on any storage

A recorder that serves a stream on one target has an image in memory that serves
it too.  What the target holds at the end is what the image holds, wherever the
target stands.
-/

namespace SegmentStream

open SegmentStream.Action

/-! ## Streams as calls -/

def Request.call : Request → Call
  | batch records tags => .work records.flatten tags
  | update key value => .update key value

/-- What a recorder is called for to serve requests, and then the end. -/
def callsOf (requests : List Request) : List Call := requests.map Request.call ++ [.shutdown]

theorem callsOf_stays (requests : List Request) : ∀ call ∈ callsOf requests, call.Stays := by
  rw [callsOf, List.forall_mem_append, List.forall_mem_map]
  constructor
  · rintro (_ | _) - <;> trivial
  · exact List.forall_mem_singleton.mpr trivial

theorem shutdown_mem_callsOf (requests : List Request) : .shutdown ∈ callsOf requests :=
  List.mem_append_right _ (List.mem_singleton_self _)

def Batch.request (batch : Batch) : Request := .batch batch.records batch.tags

theorem recordsIn_batches (batches : List Batch) :
    recordsIn (batches.map Batch.request) = recordsOf batches := by
  induction batches with
  | nil => rfl
  | cons batch rest ih => exact congrArg (batch.records ++ ·) ih

namespace Session

/-- Batches to the end are requests to the end. -/
theorem workToEnd_eq_serveToEnd (batches : List Batch) :
    workToEnd batches = serveToEnd (batches.map Batch.request) := by
  induction batches with
  | nil => rfl
  | cons batch rest ih =>
      rw [List.map_cons, serveToEnd, ← ih, workToEnd, workAll, bind_assoc]
      rfl

section Serve

variable {session next : Session}

/-- A request that is served is answered, be it by a refusal that storage has no part in. -/
theorem reply_of_serve {request : Request} (h : serve request session = .ok () next) :
    Ends (reply request.call) session (fun _ last => last = next)
      fun error last => ¬ error.IsStorage ∧ last = next := by
  have hserved : Ends (serve request) session (fun _ last => last = next) fun _ _ => False :=
    (ends_iff_of_ok h).mpr rfl
  cases request with
  | batch records tags =>
      rw [serve, ends_discard] at hserved
      rw [Request.call, reply, ends_map]
      exact hserved.mono (fun _ _ => id) fun _ _ => False.elim
  | update key value =>
      rw [serve, ends_bind, ends_attempt] at hserved
      rw [Request.call, ends_reply (by simp)]
      apply hserved.mono
      · exact fun _ _ => id
      · intro error last hlast
        cases error with
        | refused cause => exact ⟨id, hlast⟩
        | _ => exact hlast.elim

/-- Requests that are served to the end come to what the calls come to. -/
theorem after_of_serveToEnd {requests : List Request}
    (h : serveToEnd requests session = .ok () next) :
    session.after (callsOf requests) = next ∧
      session.IsSpared (fun _ => True) (callsOf requests) := by
  induction requests generalizing session with
  | nil =>
      have hends : Ends (reply .shutdown) session (fun _ last => last = next) fun _ _ => False := by
        rw [ends_reply (by simp)]
        exact (ends_iff_of_ok h).mpr rfl
      have hafter := stateAfter_reply session .shutdown
      obtain ⟨answer, last, hanswer, rfl⟩ := hends.exists_ok
      constructor
      · rw [stateAfter, hanswer] at hafter
        exact hafter.symm
      · intro error herror
        have hreply : .error error = ((reply .shutdown).run session).1 := List.mem_singleton.mp herror
        rw [run, hanswer] at hreply
        cases hreply
  | cons request rest ih =>
      have hends : Ends (serveToEnd (request :: rest)) session (fun _ last => last = next)
          fun _ _ => False :=
        (ends_iff_of_ok h).mpr rfl
      rw [serveToEnd, ends_bind] at hends
      obtain ⟨⟨⟩, middle, hserve, hrest⟩ := hends.exists_ok
      obtain ⟨⟨⟩, last, hlast, rfl⟩ := hrest.exists_ok
      obtain ⟨hafter, hspared⟩ := ih hlast
      have hmiddle := stateAfter_reply session request.call
      have hreply := reply_of_serve hserve
      have hstate : (reply request.call).stateAfter session = middle :=
        (hreply.mono (fun _ _ => id) fun _ _ hbad => hbad.2).stateAfter
      rw [hstate] at hmiddle
      constructor
      · rw [← hafter, hmiddle]
        rfl
      · intro error herror
        rcases List.mem_cons.mp herror with hfirst | hlater
        · rcases run_of_ends hreply with ⟨value, hvalue, -⟩ | ⟨cause, hcause, hstorage, -⟩
          · rw [hvalue] at hfirst
            cases hfirst
          · rw [hcause] at hfirst
            cases hfirst
            exact hstorage
        · rw [hmiddle] at hspared
          exact hspared error hlater

end Serve

/-! ## A stream and its image -/

/-- Where no other target is asked for, none is opened, and the image is asked for the same. -/
theorem portraits_of_stays (label : Location → String) (session : Session) {calls : List Call}
    (hstays : ∀ call ∈ calls, call.Stays) :
    session.openings calls = [] ∧ session.sought calls = [] ∧
      session.portraits label calls = calls := by
  induction calls generalizing session with
  | nil => exact ⟨rfl, rfl, rfl⟩
  | cons call rest ih =>
      obtain ⟨hcall, hrest⟩ := List.forall_mem_cons.mp hstays
      obtain ⟨hopenings, hsought, hportraits⟩ := ih ((answer call).stateAfter session) hrest
      have hfirst : session.opening call = none ∧ session.soughtBy call = [] ∧
          session.portrait label call = [call] := by
        cases call with
        | rotate destination => exact hcall.elim
        | _ => exact ⟨rfl, rfl, rfl⟩
      rw [openings, sought, portraits, hopenings, hsought, hportraits, hfirst.1, hfirst.2.1,
        hfirst.2.2]
      exact ⟨rfl, rfl, rfl⟩

end Session

/-- A recorder starts on an empty target and serves requests and the end. -/
structure Recorder.Completes (config : Config) (destination : Destination) (host : Host)
    (requests : List Request) (first : Opening) (done : Session) : Prop where
  fresh : first.IsFresh
  apart : first.target.places.Nodup
  served : ∃ session, Recorder.Launches config destination host first session ∧
    Session.serveToEnd requests session = .ok () done

/-- A stream ends on these places as its image does on those. -/
structure Session.EndsAs (done image : Session) (places places' : List Location) : Prop where
  progress : done.recorder.progress = image.recorder.progress
  itemsRead : done.recorder.itemsRead = image.recorder.itemsRead
  stored : Contents.ofPlaces done.host.store places = .ofPlaces image.host.store places'

section Likeness

variable {config : Config} {destination : Destination} {host : Host} {requests : List Request}
  {first : Opening} {done : Session} {label : Location → String} {unlabel : String → Location}

theorem Recorder.Completes.isUsable
    (h : Recorder.Completes config destination host requests first done) : config.IsUsable := by
  obtain ⟨session, hlaunches, -⟩ := h.served
  exact Recorder.isUsable_of_start hlaunches.starts

theorem Recorder.Completes.portrait_isBlank
    (h : Recorder.Completes config destination host requests first done)
    (hlabel : Function.LeftInverse unlabel label) :
    (first.target.portrait label).IsBlank config.splitHeader ({} : Host).store := by
  obtain ⟨session, hlaunches, -⟩ := h.served
  exact Session.portrait_isBlank hlabel (hlaunches.isUnused [] first List.mem_cons_self) h.apart

/-- A stream ends as the same stream does in memory, in buffers named after its places. -/
theorem Recorder.Completes.endsAs {recorder : Recorder} {started : Host} {image : Session}
    (h : Recorder.Completes config destination host requests first done)
    (hlabel : Function.LeftInverse unlabel label)
    (hstart : Recorder.start config (first.target.portrait label) {} = .ok recorder started)
    (hserve : Session.serveToEnd requests ⟨recorder, started⟩ = .ok () image) :
    done.EndsAs image first.target.places
      ((first.target.portrait label).places config.splitHeader) := by
  obtain ⟨hfresh, happart, session, hlaunches, hserve'⟩ := h
  obtain ⟨rfl, hspared⟩ := Session.after_of_serveToEnd hserve'
  obtain ⟨rfl, -⟩ := Session.after_of_serveToEnd hserve
  obtain ⟨hopenings, hsought, hportraits⟩ :=
    Session.portraits_of_stays label session (callsOf_stays requests)
  have hserved : session.IsServed first (callsOf requests) := by
    constructor
    · exact hspared
    · rw [hopenings]
      exact List.forall_mem_singleton.mpr hfresh
    · rw [hsought, List.append_nil]
      exact happart
  obtain ⟨hvalid, headers, hheaders⟩ := Recorder.isUsable_of_start hlaunches.starts
  obtain ⟨album, likeness, hstart', hportrays⟩ :=
    hlaunches.portrays hheaders hlabel (callsOf requests) hserved
  obtain ⟨rfl, rfl⟩ : likeness.recorder = recorder ∧ likeness.host = started := by
    simpa using hstart'.symm.trans hstart
  rw [hportraits] at hportrays
  obtain ⟨pair, hshows⟩ := hportrays.mirrors
  constructor
  · exact hshows.progress.symm
  · exact hshows.itemsRead.symm
  · rw [hlaunches.places_eq hlabel [] first List.mem_cons_self]
    exact hportrays.stored_first (hportrays.isFlushed_of_shutdown (shutdown_mem_callsOf requests))

/-- The first target is a matter of the destination alone. -/
theorem Recorder.Completes.first_eq {requests' : List Request} {first' : Opening} {done' : Session}
    (h : Recorder.Completes config destination host requests first done)
    (h' : Recorder.Completes config destination host requests' first' done') : first = first' := by
  obtain ⟨session, hlaunches, -⟩ := h.served
  obtain ⟨session', hlaunches', -⟩ := h'.served
  have hopened := hlaunches.opens.symm.trans hlaunches'.opens
  obtain ⟨target, opened⟩ := first
  obtain ⟨target', opened'⟩ := first'
  cases hopened
  rfl

/-- In memory, without planned faults, a recorder serves all requests. -/
theorem Recorder.exists_completes (hconfig : config.IsUsable)
    (hblank : destination.IsBlank config.splitHeader host.store)
    (hquiet : destination.faultsAhead = 0)
    (hrecords : ∀ record ∈ recordsIn requests, record.length = config.itemSize.toNat) :
    ∃ first done, Recorder.Completes config destination host requests first done := by
  obtain ⟨headers, recorder, started, done, -, hstart, hserve, -⟩ :=
    serveToEnd_eq_reference hconfig hblank hquiet requests hrecords
  have hopened := (Target.openAt_ends hblank).and hblank.openAt_isFresh
  obtain ⟨target, opened, hopen, hkeeps, hfresh⟩ :=
    (hopened.mono (fun _ _ => id) fun _ _ h => h.1).exists_ok
  exact ⟨⟨target, opened⟩, done, hfresh, hkeeps.keeps.worn.sound.apart,
    ⟨recorder, started⟩, ⟨hopen, hstart⟩, hserve⟩

end Likeness

/-! ## Segments on any storage -/

/--
Wherever a target stands, batches, tags and updates that are all served leave the
segments of the reference there, with the records in order.  They are read back
exactly if no header of the reference has a rate or a time outside the limits of a
reader.  Where nothing arrives, there are no more segments than the records need.
In memory, without planned faults, all are served.
-/
theorem Recorder.stored_eq_reference {config : Config} {destination : Destination} {host : Host}
    (requests : List Request)
    (hrecords : ∀ record ∈ recordsIn requests, record.length = config.itemSize.toNat) :
    (config.IsUsable → destination.IsBlank config.splitHeader host.store →
      destination.faultsAhead = 0 →
      ∃ first done, Recorder.Completes config destination host requests first done) ∧
    ∀ first done, Recorder.Completes config destination host requests first done →
      ∃ headers, HeaderState.start config = .ok headers ∧
        let arrived := arrivals config.recordSize 0 requests
        let segments := reference config.ceiling headers arrived (recordsIn requests)
        let contents := Contents.ofPlaces done.host.store first.target.places
        contents = .ofSegments config.splitHeader segments ∧
          segments.flatMap Segment.records = recordsIn requests ∧
          (contents.IsAddressable → contents.ReadsAs (segments.map Segment.reading)) ∧
          (arrived = [] → segments.length =
            max 1 (((recordsIn requests).length + config.ceiling - 1) / config.ceiling)) := by
  constructor
  · exact fun hconfig hblank hquiet => exists_completes hconfig hblank hquiet hrecords
  · intro first done hcompletes
    obtain ⟨label, unlabel, hlabel⟩ := Location.exists_label
    obtain ⟨headers, recorder, started, image, hheaders, hstart, hserve, hreference⟩ :=
      serveToEnd_eq_reference hcompletes.isUsable (hcompletes.portrait_isBlank hlabel) rfl
        requests hrecords
    rw [← (hcompletes.endsAs hlabel hstart hserve).stored] at hreference
    exact ⟨headers, hheaders, hreference⟩

/-- On two files: updates before the first and behind the last record, and tags that are refused. -/
theorem Recorder.stored_eq_reference_on_files :
    let config : Config := { maxSegmentSize := 2, splitHeader := true }
    let requests : List Request := [.update "note" (.uint 1),
      .batch [[1], [2], [3]] [⟨1, "version", .uint 2⟩, ⟨9, "far", .uint 1⟩],
      .batch [[4]] [⟨3, "bytes", .uint 7⟩], .update "size" (.uint 5), .update "version" (.uint 3)]
    (∀ record ∈ recordsIn requests, record.length = 1) ∧
    ∃ first done, Recorder.Completes config (.file "tape") {} requests first done ∧
      ∃ headers, HeaderState.start config = .ok headers ∧
        let arrived := arrivals 1 0 requests
        let segments := reference 2 headers arrived [[1], [2], [3], [4]]
        let contents := Contents.ofPlaces done.host.store first.target.places
        contents = .ofSegments true segments ∧
          segments.flatMap Segment.records = [[1], [2], [3], [4]] ∧
          (contents.IsAddressable → contents.ReadsAs (segments.map Segment.reading)) ∧
          (arrived = [] → segments.length = max 1 ((4 + 2 - 1) / 2)) := by
  intro config requests
  have hrecords : ∀ record ∈ recordsIn requests, record.length = config.itemSize.toNat := by decide
  have hserved : Ends (Recorder.start { maxSegmentSize := 2, splitHeader := true } (.file "tape"))
      {} (fun recorder started => Ends (Session.serveToEnd requests) ⟨recorder, started⟩
        (fun _ _ => True) fun _ _ => False) fun _ _ => False := by
    rw [Recorder.ends_start rfl rfl, ends_iff_of_ok Target.openAt_tape]
    decide +kernel
  obtain ⟨recorder, started, hstart, hserve⟩ := hserved.exists_ok
  obtain ⟨⟨⟩, done, hdone, -⟩ := hserve.exists_ok
  have hcompletes : Recorder.Completes config (.file "tape") {} requests .tape done :=
    ⟨((Target.openAt_file "tape" true {}).of_ok Target.openAt_tape).1, by decide,
      ⟨recorder, started⟩, ⟨Target.openAt_tape, hstart⟩, hdone⟩
  exact ⟨hrecords, .tape, done, hcompletes,
    (Recorder.stored_eq_reference requests hrecords).2 .tape done hcompletes⟩

/-! ## Batches on any storage -/

/--
Wherever a target stands, a stream that is served leaves the same there, however
it is cut into batches and in whatever order their tags come: the same bytes, read
position, headers and counters, the number of batches apart.  In memory, without
planned faults, every stream is served.
-/
theorem Recorder.batches_eq_single {config : Config} {destination : Destination} {host : Host}
    (tags : List Tag) (batches : List Batch)
    (hrecords : ∀ record ∈ recordsOf batches, record.length = config.itemSize.toNat)
    (hcovers : Covers tags 0 batches) :
    let all := batches.map Batch.request
    let single := [Request.batch (recordsOf batches) tags]
    (config.IsUsable → destination.IsBlank config.splitHeader host.store →
      destination.faultsAhead = 0 → ∀ requests ∈ [all, single],
      ∃ first done, Recorder.Completes config destination host requests first done) ∧
    ∀ first many once, Recorder.Completes config destination host all first many →
      Recorder.Completes config destination host single first once →
      Contents.ofPlaces many.host.store first.target.places =
          .ofPlaces once.host.store first.target.places ∧
        many.recorder.itemsRead = once.recorder.itemsRead ∧
        many.recorder.progress.headers = once.recorder.progress.headers ∧
        { many.recorder.progress.counters with batches := 0 } =
          { once.recorder.progress.counters with batches := 0 } := by
  intro all single
  constructor
  · intro hconfig hblank hquiet requests hrequests
    apply exists_completes hconfig hblank hquiet
    rcases List.mem_pair.mp hrequests with rfl | rfl
    · rwa [recordsIn_batches]
    · rwa [recordsIn, recordsIn, List.append_nil]
  · intro first many once hmany honce
    obtain ⟨label, unlabel, hlabel⟩ := Location.exists_label
    obtain ⟨recorder, started, image, image', hstart, hserve, hserve', hplaces, hread, hheaders,
      hcounters⟩ := workToEnd_eq_single hmany.isUsable (hmany.portrait_isBlank hlabel) rfl tags
        batches hrecords hcovers
    rw [Session.workToEnd_eq_serveToEnd] at hserve hserve'
    obtain ⟨hprogress, hitems, hstored⟩ := hmany.endsAs hlabel hstart hserve
    obtain ⟨hprogress', hitems', hstored'⟩ := honce.endsAs hlabel hstart hserve'
    rw [hstored, hstored', hprogress, hprogress', hitems, hitems']
    exact ⟨Contents.ofPlaces_congr fun place _ => hplaces place, hread, hheaders, hcounters⟩

/-- A cut between tags of one record, on a full segment, and tags in another order. -/
theorem Recorder.batches_eq_single_in_three :
    let config : Config := { maxSegmentSize := 2 }
    let destination := Destination.memory "data" "headers"
    let tags : List Tag := [⟨2, "note", .uint 1⟩, ⟨1, "version", .uint 2⟩, ⟨2, "note", .uint 3⟩]
    let batches : List Batch := [⟨[[1], [2]], tags⟩, ⟨[], []⟩,
      ⟨[[3], [4], [5]], [⟨2, "note", .uint 1⟩, ⟨2, "note", .uint 3⟩, ⟨1, "version", .uint 2⟩]⟩]
    let all := batches.map Batch.request
    let single := [Request.batch [[1], [2], [3], [4], [5]] tags]
    (∀ record ∈ recordsOf batches, record.length = 1) ∧ Covers tags 0 batches ∧
      ∃ first many once, Recorder.Completes config destination {} all first many ∧
        Recorder.Completes config destination {} single first once ∧
        Contents.ofPlaces many.host.store first.target.places =
          .ofPlaces once.host.store first.target.places ∧
        many.recorder.itemsRead = once.recorder.itemsRead ∧
        many.recorder.progress.headers = once.recorder.progress.headers ∧
        { many.recorder.progress.counters with batches := 0 } =
          { once.recorder.progress.counters with batches := 0 } := by
  intro config destination tags batches all single
  have hconfig : Config.IsUsable { maxSegmentSize := 2 } := ⟨rfl, _, rfl⟩
  have hblank : destination.IsBlank false {} := fun h => by cases h
  have hrecords : ∀ record ∈ recordsOf batches, record.length = config.itemSize.toNat := by decide
  have hcovers : Covers tags 0 batches := by
    refine ⟨fun _ _ _ => rfl, fun offset hle hlt => ?_, fun offset hle hlt => ?_, trivial⟩
    · exact absurd hlt (Nat.not_lt.mpr hle)
    · have hoffset : offset = 2 ∨ offset = 3 ∨ offset = 4 := by
        simp only [List.length_cons, List.length_nil] at hle hlt
        omega
      rcases hoffset with rfl | rfl | rfl <;> rfl
  have hserves : ∀ requests ∈ [all, single],
      ∃ first done, Recorder.Completes config destination {} requests first done :=
    (Recorder.batches_eq_single tags batches hrecords hcovers).1 hconfig hblank rfl
  obtain ⟨first, many, hmany⟩ := hserves all List.mem_cons_self
  obtain ⟨first', once, honce⟩ := hserves single (List.mem_cons_of_mem _ List.mem_cons_self)
  obtain rfl := hmany.first_eq honce
  exact ⟨hrecords, hcovers, first, many, once, hmany, honce,
    (Recorder.batches_eq_single tags batches hrecords hcovers).2 first many once hmany honce⟩

end SegmentStream
