import Mathlib.Data.Countable.Basic
import Mathlib.Logic.Equiv.List
import Mathlib.Data.Fintype.EquivFin
import SegmentStream.Proofs.Recorder.Counting
import SegmentStream.Proofs.Recorder.Likeness

/-!
# Portraits of runs

A recorder that writes anywhere has an image in memory, in buffers named after
the places it writes to.  The image is asked for the same, except that it turns
to buffers, and that it is not asked for what the recorder was refused.  As long
as storage does not fail, image and recorder stay together.
-/

namespace SegmentStream

open SegmentStream.Action

def Location.parts : Location → String ⊕ List String
  | buffer name => .inl name
  | file path => .inr path

theorem Location.parts_injective : Function.Injective parts := by
  intro first second h
  cases first <;> cases second <;> cases h <;> rfl

/-- There are buffers enough to name one after each place. -/
theorem Location.exists_label :
    ∃ (label : Location → String) (unlabel : String → Location),
      Function.LeftInverse unlabel label := by
  have hchar : Function.Injective Char.toNat := fun _ _ => Char.toNat_inj.mp
  have hstring : Function.Injective String.toList := fun _ _ => String.toList_inj.mp
  have hchars := hchar.countable
  have hstrings := hstring.countable
  have hplaces := parts_injective.countable
  obtain ⟨index, hindex⟩ := exists_injective_nat Location
  have hlabel := (Infinite.natEmbedding String).injective.comp hindex
  have hsome : Nonempty Location := ⟨.buffer ""⟩
  exact ⟨_, hlabel.hasLeftInverse⟩

/-- The place that a buffer is named after. -/
def Location.origin (unlabel : String → Location) : Location → Location
  | buffer name => unlabel name
  | file path => file path

/-! ## Calls that open targets -/

structure Opening where
  target : Target
  host : Host

def Opening.IsFresh (opening : Opening) : Prop := opening.target.IsFresh opening.host.store

/-- A destination in buffers that are named after the places of the target. -/
def Target.portrait (label : Location → String) (target : Target) : Destination :=
  .memory (label target.data.location) (label target.headerChannel.location)

namespace Session

/-- What a call opens, if anything. -/
def opening (session : Session) : Call → Option Opening
  | .rotate destination =>
      match Target.openAt destination session.recorder.config.splitHeader session.host with
      | .ok target host => some ⟨target, host⟩
      | .error _ _ => none
  | _ => none

def openings : Session → List Call → List Opening
  | _, [] => []
  | session, call :: rest =>
      (session.opening call).toList ++ ((answer call).stateAfter session).openings rest

/-- The places that a call may clear. -/
def soughtBy (session : Session) : Call → List Location
  | .rotate destination =>
      destination.sought session.recorder.config.splitHeader session.host.store
  | _ => []

def sought : Session → List Call → List Location
  | _, [] => []
  | session, call :: rest =>
      session.soughtBy call ++ ((answer call).stateAfter session).sought rest

/-- What the image is asked for in place of a call. -/
def portrait (label : Location → String) (session : Session) (call : Call) : List Call :=
  match call with
  | .rotate _ => (session.opening call).toList.map fun opening =>
      .rotate (opening.target.portrait label)
  | _ => [call]

def portraits (label : Location → String) : Session → List Call → List Call
  | _, [] => []
  | session, call :: rest =>
      session.portrait label call ++ ((answer call).stateAfter session).portraits label rest

/-- No channel fails a call by a cause out of these. -/
def IsSpared (excused : IoFault → Prop) (session : Session) (calls : List Call) : Prop :=
  ∀ error, .error error ∈ session.replies calls → ¬ error.IsExcused excused

section Parts

variable {session : Session}

theorem after_append (first later : List Call) :
    session.after (first ++ later) = (session.after first).after later :=
  List.foldl_append

theorem openings_append (first later : List Call) :
    session.openings (first ++ later) =
      session.openings first ++ (session.after first).openings later := by
  induction first generalizing session with
  | nil => rfl
  | cons call rest ih =>
      rw [List.cons_append, openings, openings, ih, List.append_assoc]
      rfl

theorem sought_append (first later : List Call) :
    session.sought (first ++ later) =
      session.sought first ++ (session.after first).sought later := by
  induction first generalizing session with
  | nil => rfl
  | cons call rest ih =>
      rw [List.cons_append, sought, sought, ih, List.append_assoc]
      rfl

theorem portraits_append (label : Location → String) (first later : List Call) :
    session.portraits label (first ++ later) =
      session.portraits label first ++ (session.after first).portraits label later := by
  induction first generalizing session with
  | nil => rfl
  | cons call rest ih =>
      rw [List.cons_append, portraits, portraits, ih, List.append_assoc]
      rfl

theorem IsSpared.of_append {excused : IoFault → Prop} {first later : List Call}
    (h : IsSpared excused session (first ++ later)) : IsSpared excused session first := by
  intro error herror
  apply h error
  rw [replies_append]
  exact List.mem_append_left _ herror

/-- The image is asked for nothing new, apart from buffers. -/
theorem mem_portraits {label : Location → String} {calls : List Call} {call : Call}
    (h : call ∈ session.portraits label calls) :
    call ∈ calls ∨ ∃ data header, call = .rotate (.memory data header) := by
  induction calls generalizing session with
  | nil => cases h
  | cons first rest ih =>
      rw [portraits] at h
      rcases List.mem_append.mp h with h | h
      · cases first with
        | rotate destination =>
            obtain ⟨opening, -, rfl⟩ := List.mem_map.mp h
            exact .inr ⟨_, _, rfl⟩
        | _ => exact .inl (List.mem_cons.mpr (.inl (List.mem_singleton.mp h)))
      · exact (ih h).imp_left (List.mem_cons_of_mem _)

end Parts

end Session

/-! ## Chapters -/

/-- Only the active target becomes a chapter. -/
theorem Chronicle.mem_past_step {config : Config} {chronicle : Chronicle} {call : Call}
    {chapter : Chapter} (h : chapter ∈ (chronicle.step config call).past) :
    chapter ∈ chronicle.past ∨ chronicle.current = some chapter.places := by
  have hretire : ∀ chronicle : Chronicle, chapter ∈ chronicle.retire.past →
      chapter ∈ chronicle.past ∨ chronicle.current = some chapter.places := by
    intro chronicle hpast
    rw [retire] at hpast
    split at hpast
    · exact .inl hpast
    · next hcurrent =>
        rcases List.mem_append.mp hpast with hpast | hpast
        · exact .inl hpast
        · rw [List.mem_singleton.mp hpast]
          exact .inr hcurrent
  have hturn : chapter ∈ chronicle.turn.past →
      chapter ∈ chronicle.past ∨ chronicle.current = some chapter.places := by
    intro hpast
    rw [turn] at hpast
    split at hpast
    · exact .inl hpast
    · next command _ =>
        let emptied : Chronicle := { chronicle with
          staged := [], unused := chronicle.unused ++ chronicle.staged.dropLast.reduceOption }
        have hemptied : chapter ∈ emptied.retire.past := by cases command <;> exact hpast
        exact hretire emptied hemptied
  cases call with
  | work items tags =>
      rw [step] at h
      split at h
      · exact .inl h
      · exact hturn h
  | update key value =>
      rw [step] at h
      split at h <;> exact .inl h
  | rotate destination =>
      rw [step] at h
      split at h <;> exact .inl h
  | shutdown =>
      rw [step] at h
      split at h
      · exact .inl h
      · exact hretire _ h
  | _ => exact .inl h

namespace Session

/-! ## One call -/

section Call

variable {config : Config} {chronicle : Chronicle} {others : List Possession} {album : Album}
  {session image : Session}

/-- Whatever is asked of both but a rotation, they give the same answer. -/
theorem reply_mirrors {call : Call} (h : session.Mirrors album image) (hloose : album.loose = [])
    (hcovers : album.staged = [] ∨ ∀ cause, album.excused cause)
    (htells : image.Tells config chronicle others)
    (hother : ∀ destination, call ≠ .rotate destination) :
    Agrees (StreamError.IsExcused album.excused) (MirrorsStill album) (reply call) (reply call)
      session image := by
  cases call with
  | work items tags =>
      have hsound := (installPending_tells htells).mono (fun _ _ _ => trivial) fun _ _ => id
      exact (work_mirrors h hloose hcovers hsound items tags).map some
  | update key value =>
      apply Agrees.map
      apply Beside.mono (updateAttribute_mirrors h key value)
      · exact fun _ _ _ _ hnext => ⟨hnext.1, hnext.2.still hloose⟩
      · exact fun _ _ _ hnext => hnext.still hloose
  | setUnbuffered unbuffered =>
      apply Agrees.map
      have hchanged : Agrees (StreamError.IsExcused album.excused) (Mirrors album)
          (setUnbuffered unbuffered) (setUnbuffered unbuffered) session image :=
        change_mirrors h fun _ _ _ => rfl
      apply Beside.mono hchanged
      · exact fun _ _ _ _ hnext => ⟨hnext.1, hnext.2.still hloose⟩
      · exact fun _ _ _ hnext => hnext.still hloose
  | rotate destination => exact (hother destination rfl).elim
  | close => exact (requestClose_mirrors h hloose htells.accepting).map _
  | shutdown =>
      have hsound := (shutdown_tells htells).mono (fun _ _ _ => trivial) fun _ _ => id
      exact (shutdown_mirrors h hloose hsound).map _

/-- A rotation that opens nothing may still have cleared a place that it sought. -/
theorem rotate_of_not_opening {destination : Destination}
    (hsplit : session.recorder.rotation.split = session.recorder.config.splitHeader)
    (hnone : session.opening (.rotate destination) = none) :
    ∃ host, (answer (.rotate destination)).stateAfter session = { session with host } ∧
      ∀ place, place ∉ session.soughtBy (.rotate destination) →
        host.store.read place = session.host.store.read place := by
  rw [opening, ← hsplit] at hnone
  split at hnone
  · cases hnone
  · next error host hfailed =>
      have hstays : Ends (answer (.rotate destination)) session
          (fun _ next => next = { session with host }) fun _ next => next = { session with host } := by
        simp only [answer, requestRotation, onRotation, ends_within, RotationDesk.requestRotation,
          ends_bind, ends_get, RotationDesk.onHost]
        rw [Ends, hfailed]
      have hopens := (Target.openAt_opens ..).of_error hfailed
      rw [hsplit] at hopens
      exact ⟨host, hstays.stateAfter, hopens⟩

end Call

/-! ## A recorder and its portrait -/

/-- The image of a session, of which the chronicle tells. -/
structure Portrays (unlabel : String → Location) (config : Config) (album : Album)
    (chronicle : Chronicle) (others : List Possession) (session image : Session) : Prop where
  mirrors : session.Mirrors album image
  loose : album.loose = []
  origin : album.rename = Location.origin unlabel
  tells : image.Tells config chronicle others
  settled : ∀ chapter ∈ chronicle.past, chapter.places ∈ album.settled

section Portrait

variable {config : Config} {chronicle : Chronicle} {others others' : List Possession}
  {album later : Album} {fresh : List Location} {session image next next' : Session}
  {label : Location → String} {unlabel : String → Location}

theorem Mirrors.taken (h : session.Mirrors album image) :
    image.recorder.active.map Target.places = album.taken := by
  obtain ⟨pair, h⟩ := h
  rw [h.active', ← h.taken, Option.map_map]
  rfl

theorem Mirrors.split (h : session.Mirrors album image) :
    image.recorder.rotation.split = session.recorder.rotation.split := by
  obtain ⟨pair, h⟩ := h
  rw [h.rotation]

theorem Mirrors.config_eq (h : session.Mirrors album image) :
    image.recorder.config = session.recorder.config := by
  obtain ⟨pair, h⟩ := h
  exact h.config

/-- New targets are opened as the configuration says. -/
theorem Portrays.split (h : Portrays unlabel config album chronicle others session image) :
    session.recorder.rotation.split = session.recorder.config.splitHeader := by
  rw [← h.mirrors.split, h.tells.split, ← h.mirrors.config_eq, h.tells.config]

theorem Portrays.lead {call : Call}
    (h : Portrays unlabel config album chronicle others session image)
    (hleads : album.LeadsTo later fresh) (hmirrors : next.Mirrors later next')
    (htells : next'.Tells config (chronicle.step config call) others') :
    Portrays unlabel config later (chronicle.step config call) others' next next' := by
  constructor
  · exact hmirrors
  · exact hleads.loose
  · exact hleads.rename.trans h.origin
  · exact htells
  · intro chapter hchapter
    rcases Chronicle.mem_past_step hchapter with hpast | hcurrent
    · exact hleads.settled _ (h.settled chapter hpast)
    · have htaken : album.taken = some chapter.places := by
        rw [← h.mirrors.taken, h.tells.current, hcurrent]
      apply (hleads.taken _ htaken).resolve_left
      intro hstays
      -- what is still written to cannot be among what was let go of
      rw [← hmirrors.taken] at hstays
      obtain ⟨target, hactive, hplaces⟩ := Option.map_eq_some_iff.mp hstays
      have hsettled : Possession.settled chapter.places chapter.segments ∈
          stagedIn next'.recorder.rotation.staged ++
            ((chronicle.step config call).settled ++ others') := by
        apply List.mem_append_right
        apply List.mem_append_left
        exact List.mem_append_left _ (List.mem_map_of_mem hchapter)
      have hdata : target.data.location ∈ next'.taken := by
        rw [taken_of_active hactive]
        exact Outlet.data_mem_places target
      apply htells.possessions.not_mem hsettled hdata
      rw [Possession.places, ← hplaces]
      exact Outlet.data_mem_places target

theorem portrait_other {call : Call} (hother : ∀ destination, call ≠ .rotate destination) :
    session.portrait label call = [call] := by
  cases call with
  | rotate destination => exact (hother destination rfl).elim
  | _ => rfl

theorem portrait_of_opening {destination : Destination} {opening : Opening}
    (h : session.opening (.rotate destination) = some opening) :
    session.portrait label (.rotate destination) = [.rotate (opening.target.portrait label)] := by
  rw [portrait, h]
  rfl

theorem portrait_of_not_opening {destination : Destination}
    (h : session.opening (.rotate destination) = none) :
    session.portrait label (.rotate destination) = [] := by
  rw [portrait, h]
  rfl

theorem portrait_places {target : Target} {split : Bool}
    (hlabel : Function.LeftInverse unlabel label) (hunused : target.IsUnused split) :
    target.places = ((target.portrait label).places split).map (Location.origin unlabel) := by
  have hsplit := hunused.isSplit
  obtain ⟨name, data, header, dataEnd, headerEnd⟩ := target
  cases header <;> subst hsplit <;>
    simp [Target.places, Target.channels, Target.portrait, Target.headerChannel,
      Destination.places, Target.isSplit, Location.origin, hlabel _]

theorem opened_of_opening {destination : Destination} {opening : Opening}
    (h : session.opening (.rotate destination) = some opening) :
    Target.openAt destination session.recorder.config.splitHeader session.host =
      .ok opening.target opening.host := by
  rw [Session.opening] at h
  split at h
  · next target host hopened =>
      obtain rfl := Option.some.inj h
      exact hopened
  · cases h

theorem Portrays.answer_other {call : Call} (hvalid : config.validate = .ok ())
    (h : Portrays unlabel config album chronicle others session image)
    (hcovers : album.staged = [] ∨ ∀ cause, album.excused cause)
    (hspared : ∀ error, ((reply call).run session).1 = .error error →
      ¬ error.IsExcused album.excused)
    (hother : ∀ destination, call ≠ .rotate destination) :
    ((reply call).run session).1 = ((reply call).run image).1 ∧
      ∃ later, Portrays unlabel config later (chronicle.step config call) others
          ((answer call).stateAfter session) ((answer call).stateAfter image) ∧
        later.excused = album.excused ∧ ∀ place ∈ later.places, place ∈ album.places := by
  have hreplies := reply_mirrors h.mirrors h.loose hcovers h.tells hother
  obtain ⟨hreply, hnext⟩ := hreplies.run_eq hspared
  refine ⟨hreply, ?_⟩
  rw [stateAfter_reply, stateAfter_reply] at hnext
  obtain ⟨later, hleads, hmirrors⟩ := hnext
  have hcalls : destinationsOf config.splitHeader [call] = [] := by
    cases call with
    | rotate destination => exact (hother destination rfl).elim
    | _ => rfl
  have htells := h.tells
  rw [← List.nil_append others, ← List.map_nil, ← hcalls] at htells
  refine ⟨later, h.lead hleads hmirrors (answer_tells hvalid call htells).stateAfter,
    hleads.excused, ?_⟩
  exact fun place hplace => (hleads.places place hplace).resolve_right List.not_mem_nil

theorem Portrays.answer_rotate {destination : Destination} {opening : Opening}
    (hvalid : config.validate = .ok ()) (hlabel : Function.LeftInverse unlabel label)
    (h : Portrays unlabel config album chronicle
      (.reserved (opening.target.portrait label) :: others) session image)
    (hcovers : ∀ cause, album.excused cause)
    (hopening : session.opening (.rotate destination) = some opening) (hfresh : opening.IsFresh)
    (happart : (opening.target.places ++ album.places.map album.rename).Nodup) :
    ∃ later, Portrays unlabel config later
        (chronicle.step config (.rotate (opening.target.portrait label))) others
        ((answer (.rotate destination)).stateAfter session)
        ((answer (.rotate (opening.target.portrait label))).stateAfter image) ∧
      later.excused = album.excused ∧ ∀ place ∈ later.places,
        place ∈ album.places ∨ place.origin unlabel ∈ opening.target.places := by
  have hopened := opened_of_opening hopening
  rw [← h.split] at hopened
  have hunused := ((Target.openAt_opens ..).of_ok hopened).unused
  have hplaces := portrait_places hlabel hunused
  rw [← h.origin] at hplaces
  have hexcused : opening.target.IsExcused album.excused :=
    fun _ _ cause _ => hcovers cause
  rw [hplaces, ← List.map_append] at happart
  have hagrees := requestRotation_mirrors h.mirrors h.loose h.tells.accepting hopened hfresh
    hexcused hplaces happart
  obtain ⟨later, hleads, hmirrors⟩ := (hagrees.run_eq fun _ _ => id).2
  have hcalls : destinationsOf config.splitHeader [.rotate (opening.target.portrait label)] =
      [opening.target.portrait label] := by
    rw [destinationsOf_rotate]
    rfl
  have htells := h.tells
  rw [← List.singleton_append, ← List.map_singleton, ← hcalls] at htells
  refine ⟨later, h.lead hleads hmirrors (answer_tells hvalid _ htells).stateAfter,
    hleads.excused, ?_⟩
  intro place hplace
  apply (hleads.places place hplace).imp_right
  intro hnew
  rw [hplaces, h.origin]
  exact List.mem_map_of_mem hnew

/-- The image stays with the recorder where only places of others change. -/
theorem Portrays.elsewhere {host : Host}
    (h : Portrays unlabel config album chronicle others session image)
    (hsame : ∀ place ∈ album.places,
      host.store.read (place.origin unlabel) = session.host.store.read (place.origin unlabel)) :
    Portrays unlabel config album chronicle others { session with host } image := by
  obtain ⟨⟨pair, hshows⟩, hloose, horigin, htells, hsettled⟩ := h
  refine ⟨⟨pair, hshows.recorder, hshows.active, hshows.staged, hshows.taken, ?_⟩, hloose,
    horigin, htells, hsettled⟩
  apply hshows.estate.elsewhere
  rw [hshows.places_eq, horigin]
  exact fun place hplace => ⟨hsame place hplace, rfl⟩

theorem Mirrors.apart (h : session.Mirrors album image) :
    (album.places.map album.rename).Nodup := by
  obtain ⟨pair, h⟩ := h
  have happart := h.estate.apart
  rw [h.places_eq] at happart
  exact happart

/-- Places that were never used before are apart from those in use. -/
theorem Portrays.apart {places used : List Location}
    (h : Portrays unlabel config album chronicle others session image)
    (hused : ∀ place ∈ album.places, place.origin unlabel ∈ used)
    (happart : (places ++ used).Nodup) : (places ++ album.places.map album.rename).Nodup := by
  obtain ⟨hplaces, -, hother⟩ := List.nodup_append.mp happart
  apply List.nodup_append.mpr
  refine ⟨hplaces, h.mirrors.apart, ?_⟩
  intro place hplace other hmem
  obtain ⟨source, hsource, rfl⟩ := List.mem_map.mp hmem
  rw [h.origin]
  exact hother place hplace _ (hused source hsource)

theorem soughtBy_of_opening {destination : Destination} {opening : Opening}
    (h : session.opening (.rotate destination) = some opening) :
    session.soughtBy (.rotate destination) = opening.target.places :=
  ((Target.openAt_opens ..).of_ok (opened_of_opening h)).places.symm

/-- One call to the recorder, and what its image is asked for instead. -/
theorem Portrays.answer {call : Call} {used : List Location} (hvalid : config.validate = .ok ())
    (hlabel : Function.LeftInverse unlabel label)
    (h : Portrays unlabel config album chronicle
      ((destinationsOf config.splitHeader (session.portrait label call)).map .reserved ++ others)
      session image)
    (hcovers : ∀ cause, album.excused cause)
    (hspared : ∀ error, ((reply call).run session).1 = .error error →
      ¬ error.IsExcused fun _ => True)
    (hfresh : ∀ opening ∈ session.opening call, opening.IsFresh)
    (hused : ∀ place ∈ album.places, place.origin unlabel ∈ used)
    (happart : (session.soughtBy call ++ used).Nodup) :
    ∃ later, Portrays unlabel config later (chronicle.run config (session.portrait label call))
        others ((answer call).stateAfter session) (image.after (session.portrait label call)) ∧
      later.excused = album.excused ∧
      ∀ place ∈ later.places, place.origin unlabel ∈ session.soughtBy call ++ used := by
  by_cases hrotate : ∃ destination, call = .rotate destination
  · obtain ⟨destination, rfl⟩ := hrotate
    cases hopening : session.opening (.rotate destination) with
    | none =>
        rw [portrait_of_not_opening hopening] at h ⊢
        obtain ⟨host, hafter, hsame⟩ := rotate_of_not_opening h.split hopening
        rw [hafter]
        refine ⟨album, h.elsewhere ?_, rfl,
          fun place hplace => List.mem_append_right _ (hused place hplace)⟩
        intro place hplace
        apply hsame
        intro hsought
        exact (List.nodup_append.mp happart).2.2 _ hsought _ (hused place hplace) rfl
    | some opening =>
        rw [soughtBy_of_opening hopening] at happart ⊢
        rw [portrait_of_opening hopening, destinationsOf_rotate] at h
        obtain ⟨later, hlater, hexcused, hplaces⟩ := h.answer_rotate hvalid hlabel hcovers hopening
          (hfresh opening hopening) (h.apart hused happart)
        rw [portrait_of_opening hopening]
        refine ⟨later, hlater, hexcused, ?_⟩
        intro place hplace
        rcases hplaces place hplace with hold | hnew
        · exact List.mem_append_right _ (hused place hold)
        · exact List.mem_append_left _ hnew
  · have hother : ∀ destination, call ≠ .rotate destination :=
      fun destination heq => hrotate ⟨destination, heq⟩
    rw [portrait_other hother] at h ⊢
    have hcalls : destinationsOf config.splitHeader [call] = [] := by
      cases call with
      | rotate destination => exact (hother destination rfl).elim
      | _ => rfl
    rw [hcalls, List.map_nil, List.nil_append] at h
    obtain ⟨-, later, hlater, hexcused, hplaces⟩ := h.answer_other hvalid (.inr hcovers)
      (fun error herror hexcused => hspared error herror (hexcused.mono fun _ _ => trivial)) hother
    refine ⟨later, hlater, hexcused, ?_⟩
    intro place hplace
    exact List.mem_append_right _ (hused place (hplaces place hplace))

/-- Whatever a recorder is asked for, its image stays with it while no channel fails. -/
theorem Portrays.after (calls : List Call) {used : List Location}
    (hvalid : config.validate = .ok ()) (hlabel : Function.LeftInverse unlabel label)
    (h : Portrays unlabel config album chronicle
      ((destinationsOf config.splitHeader (session.portraits label calls)).map .reserved ++ others)
      session image)
    (hcovers : ∀ cause, album.excused cause) (hspared : IsSpared (fun _ => True) session calls)
    (hfresh : ∀ opening ∈ session.openings calls, opening.IsFresh)
    (hused : ∀ place ∈ album.places, place.origin unlabel ∈ used)
    (happart : (session.sought calls ++ used).Nodup) :
    ∃ later, Portrays unlabel config later
      (chronicle.run config (session.portraits label calls)) others (session.after calls)
      (image.after (session.portraits label calls)) := by
  induction calls generalizing session image album chronicle used with
  | nil => exact ⟨album, h⟩
  | cons call rest ih =>
      rw [portraits, destinationsOf_append, List.map_append, List.append_assoc] at h
      rw [openings] at hfresh
      rw [sought, List.append_assoc] at happart
      have hmoved := (List.perm_append_comm_assoc ..).nodup_iff.mp happart
      obtain ⟨middle, hmiddle, hexcused, hplaces⟩ := h.answer hvalid hlabel hcovers
        (fun error herror => hspared error (List.mem_cons.mpr (.inl herror.symm)))
        (fun opening hopening => hfresh opening
          (List.mem_append_left _ (Option.mem_toList.mpr hopening))) hused
        (List.nodup_append.mp hmoved).2.1
      rw [portraits, Chronicle.run, List.foldl_append, after_append]
      rw [← hexcused] at hcovers
      exact ih hmiddle hcovers (fun error herror => hspared error (List.mem_cons_of_mem _ herror))
        (fun opening hopening => hfresh opening (List.mem_append_right _ hopening)) hplaces hmoved

end Portrait

/-! ## Everything that is opened -/

section Openings

variable {session : Session} {label : Location → String} {unlabel : String → Location}

theorem openings_isUnused {calls : List Call} {opening : Opening}
    (h : opening ∈ session.openings calls) :
    opening.target.IsUnused session.recorder.config.splitHeader := by
  induction calls generalizing session with
  | nil => cases h
  | cons call rest ih =>
      rcases List.mem_append.mp h with h | h
      · cases call with
        | rotate destination =>
            exact ((Target.openAt_opens ..).of_ok
              (opened_of_opening (Option.mem_toList.mp h))).unused
        | _ => cases h
      · rw [← answer_config session call]
        exact ih h

/-- What is opened is where it was sought. -/
theorem openings_sublist (session : Session) (calls : List Call) :
    ((session.openings calls).flatMap fun opening => opening.target.places).Sublist
      (session.sought calls) := by
  induction calls generalizing session with
  | nil => exact List.Sublist.refl []
  | cons call rest ih =>
      rw [openings, sought, List.flatMap_append]
      apply List.Sublist.append _ (ih _)
      cases hopening : session.opening call with
      | none => exact List.nil_sublist _
      | some opening =>
          rw [Option.toList_some, List.flatMap_singleton]
          cases call with
          | rotate destination => rw [soughtBy_of_opening hopening]
          | _ => cases hopening

theorem destinationsOf_portraits (split : Bool) (session : Session) (calls : List Call) :
    destinationsOf split (session.portraits label calls) =
      (session.openings calls).map fun opening => opening.target.portrait label := by
  induction calls generalizing session with
  | nil => rfl
  | cons call rest ih =>
      rw [portraits, openings, destinationsOf_append, ih, List.map_append]
      congr 1
      by_cases hrotate : ∃ destination, call = .rotate destination
      · obtain ⟨destination, rfl⟩ := hrotate
        cases hopening : session.opening (.rotate destination) with
        | none =>
            rw [portrait_of_not_opening hopening]
            rfl
        | some opening =>
            rw [portrait_of_opening hopening, destinationsOf_rotate]
            rfl
      · cases call with
        | rotate destination => exact (hrotate ⟨destination, rfl⟩).elim
        | _ => rfl

/-- Buffers that are named after different places are different. -/
theorem portrait_isBlank {target : Target} {split : Bool} {store : Store}
    (hlabel : Function.LeftInverse unlabel label) (hunused : target.IsUnused split)
    (happart : target.places.Nodup) : (target.portrait label).IsBlank split store := by
  rintro rfl hsame
  rw [portrait_places hlabel hunused] at happart
  apply (List.nodup_cons.mp (happart.of_map _)).1
  rw [hsame]
  exact List.mem_singleton_self _

end Openings

end Session

/-! ## Runs -/

/-- A recorder has started, and its first target with it. -/
structure Recorder.Launches (config : Config) (destination : Destination) (host : Host)
    (first : Opening) (session : Session) : Prop where
  opens : Target.openAt destination config.splitHeader host = .ok first.target first.host
  starts : Recorder.start config destination host = .ok session.recorder session.host

namespace Session

/-- All targets are empty as they are opened and none is sought twice, and no channel fails. -/
structure IsServed (session : Session) (first : Opening) (calls : List Call) : Prop where
  spared : IsSpared (fun _ => True) session calls
  fresh : ∀ opening ∈ first :: session.openings calls, opening.IsFresh
  apart : (first.target.places ++ session.sought calls).Nodup

theorem IsServed.of_append {session : Session} {first : Opening} {front back : List Call}
    (h : session.IsServed first (front ++ back)) : session.IsServed first front := by
  obtain ⟨hspared, hfresh, happart⟩ := h
  rw [openings_append, ← List.cons_append] at hfresh
  rw [sought_append, ← List.append_assoc] at happart
  constructor
  · exact hspared.of_append
  · exact fun opening hopening => hfresh opening (List.mem_append_left _ hopening)
  · exact (List.nodup_append.mp happart).1

theorem IsServed.openings_apart {session : Session} {first : Opening} {calls : List Call}
    (h : session.IsServed first calls) :
    ((first :: session.openings calls).flatMap fun opening => opening.target.places).Nodup := by
  rw [List.flatMap_cons]
  exact List.Nodup.sublist ((openings_sublist session calls).append_left _) h.apart

end Session

section Launch

variable {config : Config} {destination : Destination} {host : Host} {first : Opening}
  {session : Session} {headers : HeaderState} {label : Location → String}
  {unlabel : String → Location}

theorem Recorder.isUsable_of_start {recorder : Recorder} {started : Host}
    (h : Recorder.start config destination host = .ok recorder started) : config.IsUsable := by
  have hstart : Ends (Recorder.start config destination) host (fun _ _ => config.IsUsable)
      fun _ _ => True := by
    unfold Recorder.start
    cases hvalid : config.validate with
    | error cause => trivial
    | ok _ =>
        cases hheaders : HeaderState.start config with
        | error error => trivial
        | ok headers =>
            exact ends_of_forall (fun _ _ => ⟨hvalid, headers, hheaders⟩) fun _ _ => trivial
  exact hstart.of_ok h

theorem Recorder.Launches.config_eq (h : Recorder.Launches config destination host first session) :
    session.recorder.config = config := by
  obtain ⟨hvalid, headers, hheaders⟩ := Recorder.isUsable_of_start h.starts
  have hstart : Ends (Recorder.start config destination) host
      (fun recorder _ => recorder.config = config) fun _ _ => True := by
    rw [Recorder.ends_start hvalid hheaders, ends_iff_of_ok h.opens]
    exact ends_of_forall (fun _ _ => rfl) fun _ _ => trivial
  exact hstart.of_ok h.starts

namespace Recorder.Launches

theorem isUnused (h : Recorder.Launches config destination host first session) (calls : List Call) :
    ∀ opening ∈ first :: session.openings calls, opening.target.IsUnused config.splitHeader := by
  rw [List.forall_mem_cons]
  constructor
  · exact ((Target.openAt_opens ..).of_ok h.opens).unused
  · rw [← h.config_eq]
    exact fun opening hopening => Session.openings_isUnused hopening

theorem places_eq (h : Recorder.Launches config destination host first session)
    (hlabel : Function.LeftInverse unlabel label) (calls : List Call) :
    ∀ opening ∈ first :: session.openings calls, opening.target.places =
      ((opening.target.portrait label).places config.splitHeader).map (Location.origin unlabel) :=
  fun opening hopening => Session.portrait_places hlabel (h.isUnused calls opening hopening)

/-- The buffers of the images are apart as the places that they are named after. -/
theorem images_apart (h : Recorder.Launches config destination host first session)
    (hlabel : Function.LeftInverse unlabel label) {calls : List Call}
    (happart : ((first :: session.openings calls).flatMap
      fun opening => opening.target.places).Nodup) :
    ((first.target.portrait label :: destinationsOf config.splitHeader
      (session.portraits label calls)).flatMap (Destination.places config.splitHeader)).Nodup := by
  apply List.Nodup.of_map (Location.origin unlabel)
  rw [List.flatMap_congr (h.places_eq hlabel calls)] at happart
  rw [Session.destinationsOf_portraits, List.flatMap_cons, List.flatMap_map, List.map_append,
    List.map_flatMap]
  exact happart

/-- The image starts on buffers named after the places of the first target. -/
theorem exists_image (h : Recorder.Launches config destination host first session)
    (hheaders : HeaderState.start config = .ok headers)
    (hlabel : Function.LeftInverse unlabel label) (calls : List Call)
    (hserved : session.IsServed first calls) :
    ∃ image : Session,
      Recorder.start config (first.target.portrait label) {} = .ok image.recorder image.host ∧
      session.Mirrors
        { excused := fun _ => True
          rename := Location.origin unlabel
          taken := some ((first.target.portrait label).places config.splitHeader)
          staged := []
          settled := [] } image ∧
      image.Tells config (.start config (first.target.portrait label) headers)
        ((destinationsOf config.splitHeader (session.portraits label calls)).map .reserved) := by
  have hconfig := Recorder.isUsable_of_start h.starts
  have hapart : ∀ opening ∈ first :: session.openings calls, opening.target.places.Nodup :=
    fun opening hopening => (List.nodup_flatMap.mp hserved.openings_apart).1 opening hopening
  have hblank : ∀ opening ∈ first :: session.openings calls,
      (opening.target.portrait label).IsBlank config.splitHeader ({} : Host).store :=
    fun opening hopening => Session.portrait_isBlank hlabel (h.isUnused calls opening hopening)
      (hapart opening hopening)
  have hreserved : ∀ other ∈ destinationsOf config.splitHeader (session.portraits label calls),
      other.IsBlank config.splitHeader ({} : Host).store ∧ other.faultsAhead = 0 := by
    rw [Session.destinationsOf_portraits, List.forall_mem_map]
    exact fun opening hopening => ⟨hblank opening (List.mem_cons_of_mem _ hopening), rfl⟩
  obtain ⟨headers', recorder', started', target', hheaders', hstart', hstarted⟩ :=
    Recorder.exists_start hconfig (hblank first List.mem_cons_self) rfl
  obtain rfl : headers' = headers := Except.ok.inj (hheaders'.symm.trans hheaders)
  have hbeside := Recorder.start_mirrors hconfig.1 hheaders {} h.opens
    (hserved.fresh first List.mem_cons_self) (fun _ _ _ _ => trivial)
    (h.places_eq hlabel calls first List.mem_cons_self) (hapart first List.mem_cons_self)
  refine ⟨⟨recorder', started'⟩, hstart', (Ends.of_ok hbeside h.starts).of_ok hstart', ?_⟩
  exact hstarted.tells (HeaderState.of_start hheaders) rfl hreserved
    (h.images_apart hlabel hserved.openings_apart)

/--
A recorder on any storage has an image in memory, and the chronicle of the image
tells what became of the run.
-/
theorem portrays (h : Recorder.Launches config destination host first session)
    (hheaders : HeaderState.start config = .ok headers)
    (hlabel : Function.LeftInverse unlabel label) (calls : List Call)
    (hserved : session.IsServed first calls) :
    ∃ (album : Album) (image : Session),
      Recorder.start config (first.target.portrait label) {} = .ok image.recorder image.host ∧
      Session.Portrays unlabel config album
        ((Chronicle.start config (first.target.portrait label) headers).run config
          (session.portraits label calls)) [] (session.after calls)
        (image.after (session.portraits label calls)) := by
  obtain ⟨image, hstart, hmirrors, htells⟩ := h.exists_image hheaders hlabel calls hserved
  rw [← List.append_nil (List.map _ _)] at htells
  have hportrays := Session.Portrays.mk hmirrors rfl rfl htells
    (List.forall_mem_nil _)
  obtain ⟨hspared, hfresh, happart⟩ := hserved
  have hused : ∀ place ∈ (first.target.portrait label).places config.splitHeader,
      place.origin unlabel ∈ first.target.places := by
    intro place hplace
    rw [h.places_eq hlabel calls first List.mem_cons_self]
    exact List.mem_map_of_mem hplace
  obtain ⟨album, hlater⟩ := hportrays.after calls (Recorder.isUsable_of_start h.starts).1 hlabel
    (fun _ => trivial) hspared
    (fun opening hopening => hfresh opening (List.mem_cons_of_mem _ hopening))
    (fun place hplace => hused place (by simpa [Album.places] using hplace))
    (List.perm_append_comm.nodup_iff.mp happart)
  exact ⟨album, image, hstart, hlater⟩

end Recorder.Launches

end Launch

end SegmentStream
