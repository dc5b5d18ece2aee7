import Mathlib.Data.List.Infix
import SegmentStream.Proofs.Recorder.Portraits
import SegmentStream.Proofs.Recorder.Tally

/-!
# Targets that were installed

The targets that a recorder has had, the active one among them, and what is on
each.  As long as storage does not fail, these are the chapters of the chronicle
that the image of the recorder keeps.
-/

namespace SegmentStream

open SegmentStream.Action

/-! ## Chapters of a chronicle -/

/-- The same segments on other places. -/
def Chapter.rename (rename : Location → Location) (chapter : Chapter) : Chapter :=
  { chapter with places := chapter.places.map rename }

theorem Chapter.segments_rename (rename : Location → Location) (chapters : List Chapter) :
    (chapters.map (Chapter.rename rename)).flatMap segments = chapters.flatMap segments := by
  rw [List.flatMap_map]
  rfl

namespace Chronicle

section Chapters

variable {config : Config} {chronicle : Chronicle} {places : List Location}

theorem mem_chapters_of_current (h : chronicle.current = some places) :
    ∃ chapter ∈ chronicle.chapters, chapter.places = places := by
  refine ⟨⟨places, chronicle.tape.segments⟩, ?_, rfl⟩
  rw [chapters, h]
  exact List.mem_append_right _ List.mem_cons_self

theorem eq_of_mem_chapters {chapter : Chapter} (h : chapter ∈ chronicle.chapters) :
    chapter ∈ chronicle.past ∨
      chronicle.current = some chapter.places ∧ chapter.segments = chronicle.tape.segments := by
  rcases List.mem_append.mp h with hpast | hlast
  · exact .inl hpast
  · obtain ⟨places, hcurrent, rfl⟩ := Option.map_eq_some_iff.mp (Option.mem_toList.mp hlast)
    exact .inr ⟨hcurrent, rfl⟩

/-- A target has a chapter just if it was active between calls. -/
theorem exists_chapter_iff (hpast : chronicle.past = []) (calls : List Call) :
    (∃ chapter ∈ (chronicle.run config calls).chapters, chapter.places = places) ↔
      ∃ front, front <+: calls ∧ (chronicle.run config front).current = some places := by
  constructor
  · induction calls using List.reverseRecOn with
    | nil =>
        rintro ⟨chapter, hchapter, rfl⟩
        rcases eq_of_mem_chapters hchapter with hmem | ⟨hcurrent, -⟩
        · rw [run, List.foldl_nil, hpast] at hmem
          cases hmem
        · exact ⟨[], List.prefix_rfl, hcurrent⟩
    | append_singleton rest call ih =>
        rintro ⟨chapter, hchapter, rfl⟩
        rcases eq_of_mem_chapters hchapter with hmem | ⟨hcurrent, -⟩
        · rw [run, List.foldl_concat] at hmem
          rcases mem_past_step hmem with hmem | hcurrent
          · obtain ⟨front, hfront, hcurrent⟩ :=
              ih ⟨chapter, List.mem_append_left _ hmem, rfl⟩
            exact ⟨front, hfront.trans (List.prefix_append _ _), hcurrent⟩
          · exact ⟨rest, List.prefix_append _ _, hcurrent⟩
        · exact ⟨rest ++ [call], List.prefix_rfl, hcurrent⟩
  · rintro ⟨front, ⟨later, rfl⟩, hcurrent⟩
    have hcontinues := continues_run config (chronicle.run config front) later
    rw [← run_append] at hcontinues
    rcases hcontinues.current places hcurrent with hcurrent | ⟨segments, hmem⟩
    · exact mem_chapters_of_current hcurrent
    · exact ⟨_, List.mem_append_left _ hmem, rfl⟩

end Chapters

end Chronicle

/-! ## What an outlet keeps -/

theorem Outlet.Keeps.seen {outlet : Outlet} {contents : Contents} (h : outlet.Keeps contents) :
    outlet.seen = contents := by
  have hsplit := h.worn.split
  have hview := h.view
  obtain ⟨data, _ | header⟩ := contents
  · rw [Option.isSome_none] at hsplit
    have hdata := congrArg Port.view (Outlet.dataPort_eq_headerPort hsplit)
    rw [Outlet.seen, hdata, hview, hsplit]
    rfl
  · rw [Option.isSome_some] at hsplit
    have hdata := (h.worn.data hsplit).view
    rw [Outlet.seen, hdata, hview, hsplit]
    rfl

namespace Session

/-! ## What a recorder has had -/

/-- The targets that were active between calls, by the places they write to. -/
def installed (session : Session) (calls : List Call) : List (List Location) :=
  (calls.inits.filterMap fun front =>
    (session.after front).recorder.active.map Target.places).dedup

/-- What is on these places, with what the active target still holds back. -/
def seen (session : Session) (places : List Location) : Contents :=
  match session.recorder.active with
  | none => .ofPlaces session.host.store places
  | some target =>
      if target.places = places then Outlet.seen ⟨target, session.host⟩
      else .ofPlaces session.host.store places

/-- The active target writes to these places. -/
def isAt (session : Session) (places : List Location) : Bool :=
  session.recorder.active.map Target.places == some places

theorem mem_installed {session : Session} {calls : List Call} {places : List Location} :
    places ∈ session.installed calls ↔ ∃ front, front <+: calls ∧
      (session.after front).recorder.active.map Target.places = some places := by
  simp only [installed, List.mem_dedup, List.mem_filterMap, List.mem_inits]

theorem portrait_length (label : Location → String) (session : Session) (call : Call) :
    (session.portrait label call).length ≤ 1 := by
  cases call with
  | rotate destination =>
      rw [portrait, List.length_map]
      cases session.opening (.rotate destination) <;> simp
  | _ => exact Nat.le_refl 1

/-- The image comes through the same prefixes as the recorder. -/
theorem exists_front_of_portraits {label : Location → String} {session : Session}
    {calls front : List Call} (h : front <+: session.portraits label calls) :
    ∃ first, first <+: calls ∧ session.portraits label first = front := by
  induction calls generalizing session front with
  | nil => exact ⟨[], List.prefix_rfl, (List.prefix_nil.mp h).symm⟩
  | cons call rest ih =>
      rw [portraits] at h
      have hshort := portrait_length label session call
      cases hportrait : session.portrait label call with
      | nil =>
          rw [hportrait, List.nil_append] at h
          obtain ⟨first, hfirst, rfl⟩ := ih h
          refine ⟨call :: first, (List.prefix_cons_inj call).mpr hfirst, ?_⟩
          rw [portraits, hportrait, List.nil_append]
      | cons only others =>
          rw [hportrait, List.length_cons] at hshort
          obtain rfl : others = [] := List.length_eq_zero_iff.mp (by omega)
          rw [hportrait, List.singleton_append] at h
          cases front with
          | nil => exact ⟨[], List.nil_prefix, rfl⟩
          | cons head tail =>
              obtain ⟨rfl, htail⟩ := List.cons_prefix_cons.mp h
              obtain ⟨first, hfirst, rfl⟩ := ih htail
              refine ⟨call :: first, (List.prefix_cons_inj call).mpr hfirst, ?_⟩
              rw [portraits, hportrait, List.singleton_append]

/-- The portrait of a front is a front of the portrait. -/
theorem portraits_prefix {label : Location → String} {session : Session} {calls front : List Call}
    (h : front <+: calls) : session.portraits label front <+: session.portraits label calls := by
  obtain ⟨later, rfl⟩ := h
  rw [portraits_append]
  exact List.prefix_append _ _

section Portrait

variable {config : Config} {chronicle : Chronicle} {others : List Possession} {album : Album}
  {session image : Session} {unlabel : String → Location} {chapter : Chapter}

theorem Portrays.active_places (h : Portrays unlabel config album chronicle others session image) :
    session.recorder.active.map Target.places =
      chronicle.current.map (List.map (Location.origin unlabel)) := by
  obtain ⟨pair, hshows⟩ := h.mirrors
  have hcurrent := h.tells.current
  rw [hshows.active'] at hcurrent
  rw [hshows.active, ← hcurrent]
  cases pair with
  | none => rfl
  | some twin =>
      have hstands := hshows.estate.stands twin
        (List.mem_append_left _ (List.mem_singleton_self twin))
      exact congrArg some (hstands.places.trans (congrArg (List.map · _) h.origin))

theorem Tells.active_places (h : session.Tells config chronicle others) :
    session.recorder.active.map Target.places = chronicle.current.map id := by
  rw [Option.map_id_fun, id]
  exact h.current

theorem Tells.chapters_apart (h : session.Tells config chronicle others) :
    (chronicle.chapters.flatMap Chapter.places).Nodup := by
  have happart := h.possessions.apart
  have htaken : session.taken = chronicle.current.getD [] := by
    rw [taken, h.current]
  have hcurrent : chronicle.current.getD [] = (chronicle.current.map fun places =>
      (⟨places, chronicle.tape.segments⟩ : Chapter)).toList.flatMap Chapter.places := by
    cases chronicle.current <;> simp
  have hpast : (chronicle.past.map fun chapter =>
      Possession.settled chapter.places chapter.segments).flatMap
        (Possession.places config.splitHeader) = chronicle.past.flatMap Chapter.places := by
    rw [List.flatMap_map]
    rfl
  rw [Chronicle.settled, htaken, hcurrent, List.flatMap_append, List.flatMap_append,
    List.flatMap_append, hpast] at happart
  rw [Chronicle.chapters, List.flatMap_append]
  apply List.perm_append_comm.nodup_iff.mp
  apply List.Nodup.sublist _ happart
  apply List.Sublist.append_left
  apply List.sublist_append_of_sublist_right
  apply List.sublist_append_of_sublist_left
  exact List.sublist_append_left _ _

theorem Portrays.mem_album (h : Portrays unlabel config album chronicle others session image)
    (hchapter : chapter ∈ chronicle.chapters) {place : Location} (hplace : place ∈ chapter.places) :
    place ∈ album.places := by
  rcases Chronicle.eq_of_mem_chapters hchapter with hpast | ⟨hcurrent, -⟩
  · apply List.mem_append_right
    apply List.mem_append_right
    exact List.mem_flatten.mpr ⟨_, h.settled chapter hpast, hplace⟩
  · apply List.mem_append_left
    rw [← h.mirrors.taken, h.tells.current, hcurrent]
    exact hplace

theorem Portrays.chapters_apart
    (h : Portrays unlabel config album chronicle others session image) :
    ((chronicle.chapters.map fun chapter =>
      chapter.places.map (Location.origin unlabel)).flatten).Nodup := by
  have happart := h.tells.chapters_apart
  have hinjective := List.inj_on_of_nodup_map h.mirrors.apart
  rw [h.origin] at hinjective
  have hplaces : ∀ place ∈ chronicle.chapters.flatMap Chapter.places, place ∈ album.places := by
    intro place hplace
    obtain ⟨chapter, hchapter, hplace⟩ := List.mem_flatMap.mp hplace
    exact h.mem_album hchapter hplace
  have hmapped := happart.map_on fun first hfirst second hsecond =>
    hinjective (hplaces first hfirst) (hplaces second hsecond)
  rw [List.map_flatMap] at hmapped
  exact hmapped

theorem seen_of_active {target : Target} (h : session.recorder.active = some target) :
    session.seen target.places = Outlet.seen ⟨target, session.host⟩ := by
  rw [seen, h]
  exact if_pos rfl

theorem seen_of_not_active {places : List Location}
    (h : ∀ target, session.recorder.active = some target → target.places ≠ places) :
    session.seen places = .ofPlaces session.host.store places := by
  rw [seen]
  split
  · rfl
  · next target hactive => exact if_neg (h target hactive)

/-- The active target has places of its own, by whatever name. -/
theorem places_ne_of_mem_past {rename : List Location → List Location}
    (hactive : session.recorder.active.map Target.places = chronicle.current.map rename)
    (happart : ((chronicle.chapters.map fun chapter => rename chapter.places).flatten).Nodup)
    (hpast : chapter ∈ chronicle.past) :
    ∀ target, session.recorder.active = some target → target.places ≠ rename chapter.places := by
  intro target hsome hplaces
  rw [hsome] at hactive
  obtain ⟨places, hcurrent, hmapped⟩ := Option.map_eq_some_iff.mp hactive.symm
  rw [Chronicle.chapters, hcurrent, List.map_append, List.flatten_append] at happart
  have hdata := Outlet.data_mem_places target
  refine (List.nodup_append.mp happart).2.2 target.data.location ?_ target.data.location ?_ rfl
  · rw [hplaces] at hdata
    exact List.mem_flatten.mpr ⟨_, List.mem_map_of_mem hpast, hdata⟩
  · rw [← hmapped] at hdata
    exact List.mem_flatten.mpr ⟨_, List.mem_map_of_mem (List.mem_singleton_self _), hdata⟩

/-- What is on each target, by whatever name, is what its chapter says. -/
theorem seen_eq_of_mem_chapters {split : Bool} {rename : List Location → List Location}
    (hactive : session.recorder.active.map Target.places = chronicle.current.map rename)
    (happart : ((chronicle.chapters.map fun chapter => rename chapter.places).flatten).Nodup)
    (hpast : ∀ chapter ∈ chronicle.past,
      Contents.ofPlaces session.host.store (rename chapter.places) =
        .ofSegments split chapter.segments)
    (htarget : ∀ target, session.recorder.active = some target →
      Outlet.seen ⟨target, session.host⟩ = chronicle.tape.contents split)
    (hchapter : chapter ∈ chronicle.chapters) :
    session.seen (rename chapter.places) = .ofSegments split chapter.segments := by
  rcases Chronicle.eq_of_mem_chapters hchapter with hmem | ⟨hcurrent, hsegments⟩
  · rw [seen_of_not_active (places_ne_of_mem_past hactive happart hmem), hpast chapter hmem]
  · rw [hcurrent] at hactive
    obtain ⟨target, hsome, hplaces⟩ := Option.map_eq_some_iff.mp hactive
    rw [← hplaces, seen_of_active hsome, htarget target hsome, hsegments, Transcript.contents_eq]

theorem Tells.seen_eq (h : session.Tells config chronicle others)
    (hchapter : chapter ∈ chronicle.chapters) :
    session.seen chapter.places = .ofSegments config.splitHeader chapter.segments := by
  apply seen_eq_of_mem_chapters h.active_places h.chapters_apart
  · exact fun chapter hpast => (h.stands_past hpast).1
  · exact fun target hsome => (h.records target hsome).keeps.outlet.seen
  · exact hchapter

theorem Portrays.seen_eq (h : Portrays unlabel config album chronicle others session image)
    (hchapter : chapter ∈ chronicle.chapters) :
    session.seen (chapter.places.map (Location.origin unlabel)) =
      .ofSegments config.splitHeader chapter.segments := by
  obtain ⟨pair, hshows⟩ := h.mirrors
  apply seen_eq_of_mem_chapters h.active_places h.chapters_apart
  · intro chapter hpast
    rw [← h.origin, hshows.estate.holds _ (h.settled chapter hpast)]
    exact (h.tells.stands_past hpast).1
  · intro target hsome
    have hpair := hshows.active
    rw [hsome] at hpair
    obtain ⟨twin, rfl, rfl⟩ := Option.map_eq_some_iff.mp hpair.symm
    have hstands := hshows.estate.stands twin
      (List.mem_append_left _ (List.mem_singleton_self twin))
    rw [hstands.mirrors.seen]
    exact (h.tells.records twin.image hshows.active').keeps.outlet.seen
  · exact hchapter

end Portrait

end Session

/-! ## Targets of a run -/

namespace Recorder.Launches

variable {config : Config} {destination : Destination} {host : Host} {first : Opening}
  {session : Session} {headers : HeaderState} {label : Location → String}
  {unlabel : String → Location}

/-- The targets that were installed are those that have a chapter. -/
theorem installed_perm (h : Recorder.Launches config destination host first session)
    (hheaders : HeaderState.start config = .ok headers)
    (hlabel : Function.LeftInverse unlabel label) {calls : List Call}
    (hserved : session.IsServed first calls) :
    let chronicle := (Chronicle.start config (first.target.portrait label) headers).run config
      (session.portraits label calls)
    (chronicle.chapters.map fun chapter => chapter.places.map (Location.origin unlabel)).Perm
      (session.installed calls) := by
  intro chronicle
  have hactive : ∀ front, front <+: calls →
      (session.after front).recorder.active.map Target.places =
        ((Chronicle.start config (first.target.portrait label) headers).run config
          (session.portraits label front)).current.map (List.map (Location.origin unlabel)) := by
    rintro front ⟨later, rfl⟩
    obtain ⟨album, image, -, hportrays⟩ := h.portrays hheaders hlabel front hserved.of_append
    exact hportrays.active_places
  have hmem : ∀ places, places ∈ (chronicle.chapters.map fun chapter =>
      chapter.places.map (Location.origin unlabel)) ↔ places ∈ session.installed calls := by
    intro places
    rw [Session.mem_installed, List.mem_map]
    constructor
    · rintro ⟨chapter, hchapter, rfl⟩
      obtain ⟨front, hfront, hcurrent⟩ :=
        (Chronicle.exists_chapter_iff rfl _).mp ⟨chapter, hchapter, rfl⟩
      obtain ⟨calls', hcalls', rfl⟩ := Session.exists_front_of_portraits hfront
      exact ⟨calls', hcalls', by rw [hactive calls' hcalls', hcurrent]; rfl⟩
    · rintro ⟨front, hfront, hplaces⟩
      rw [hactive front hfront] at hplaces
      obtain ⟨images, hcurrent, rfl⟩ := Option.map_eq_some_iff.mp hplaces
      obtain ⟨chapter, hchapter, rfl⟩ := (Chronicle.exists_chapter_iff rfl _).mpr
        ⟨_, Session.portraits_prefix hfront, hcurrent⟩
      exact ⟨chapter, hchapter, rfl⟩
  have hfilled : ∀ places ∈ session.installed calls, places ≠ [] := by
    intro places hplaces
    obtain ⟨front, -, hsome⟩ := Session.mem_installed.mp hplaces
    obtain ⟨target, -, rfl⟩ := Option.map_eq_some_iff.mp hsome
    exact List.ne_nil_of_mem (Outlet.data_mem_places target)
  obtain ⟨album, image, -, hportrays⟩ := h.portrays hheaders hlabel calls hserved
  have happart := List.nodup_flatten.mp hportrays.chapters_apart
  have hnodup : (chronicle.chapters.map fun chapter =>
      chapter.places.map (Location.origin unlabel)).Nodup := by
    apply List.Pairwise.imp_of_mem _ happart.2
    rintro places _ hplaces - hdisjoint rfl
    obtain ⟨place, hplace⟩ := List.exists_mem_of_ne_nil _ (hfilled places ((hmem places).mp hplaces))
    exact hdisjoint hplace hplace
  exact (List.perm_ext_iff_of_nodup hnodup (List.nodup_dedup _)).mpr hmem

end Recorder.Launches

end SegmentStream
