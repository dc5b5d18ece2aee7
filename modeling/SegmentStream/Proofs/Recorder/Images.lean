import Mathlib.Data.List.ReduceOption
import SegmentStream.Proofs.Recorder.Failing
import SegmentStream.Proofs.Recorder.Mirrors
import SegmentStream.Proofs.Recorder.Rotating

/-!
# Images of recorders

The image of a recorder writes to buffers wherever the recorder writes to files,
or to channels that may fail.  Both are given the same calls.  Until a channel
fails they make the same progress and give the same replies, and whatever the
recorder lets go of holds what its image holds.
-/

namespace SegmentStream

open SegmentStream.Action

/-! ## Targets and their images -/

/-- A target and its image. -/
structure Twin where
  target : Target
  image : Target

namespace Twin

def scene (twin : Twin) (excused : IoFault → Prop) (host host' : Host) : Scene :=
  ⟨excused, twin.target.places, twin.image.places, host.store, host'.store⟩

/-- The image mirrors the target, and its buffers are named after the places of the target. -/
structure Stands (twin : Twin) (excused : IoFault → Prop) (rename : Location → Location)
    (host host' : Host) : Prop where
  mirrors : Outlet.Mirrors (twin.scene excused host host') ⟨twin.target, host⟩ ⟨twin.image, host'⟩
  places : twin.target.places = twin.image.places.map rename

end Twin

/-- Targets with their images, and the places of images that were let go of. -/
structure Estate (excused : IoFault → Prop) (rename : Location → Location) (host host' : Host)
    (twins : List Twin) (settled : List (List Location)) : Prop where
  stands : ∀ twin ∈ twins, twin.Stands excused rename host host'
  holds : ∀ places ∈ settled,
    Contents.ofPlaces host.store (places.map rename) = .ofPlaces host'.store places
  apart : ((twins.flatMap (fun twin => twin.image.places) ++ settled.flatten).map rename).Nodup

section Places

variable {excused : IoFault → Prop} {scene : Scene} {target image : Target}
  {host host' next next' : Host}

/-- Both keep what they hold where only other places have changed. -/
theorem Outlet.Mirrors.elsewhere_both (h : Outlet.Mirrors scene ⟨target, host⟩ ⟨image, host'⟩)
    (hsame : ∀ place ∈ target.places, next.store.read place = host.store.read place)
    (hsame' : ∀ place ∈ image.places, next'.store.read place = host'.store.read place) :
    Outlet.Mirrors ⟨scene.excused, target.places, image.places, next.store, next'.store⟩
      ⟨target, next⟩ ⟨image, next'⟩ where
  data := h.data.elsewhere (hsame _ (data_mem_places target)) (hsame' _ (data_mem_places image))
  header := h.header.elsewhere (hsame _ (headerChannel_mem_places target))
    (hsame' _ (headerChannel_mem_places image))
  isSplit := h.isSplit
  dataEnd := h.dataEnd
  headerEnd := h.headerEnd
  places := rfl
  places' := rfl
  apart := by
    have hplaces : target.places = scene.places := h.places
    have hplaces' : image.places = scene.places' := h.places'
    rw [hplaces, hplaces']
    exact h.apart
  elsewhere := fun _ _ => rfl
  elsewhere' := fun _ _ => rfl

end Places

namespace Estate

variable {excused : IoFault → Prop} {rename : Location → Location} {host host' next next' : Host}
  {twin : Twin} {twins twins' : List Twin} {settled : List (List Location)}

theorem perm (h : Estate excused rename host host' twins settled) (hperm : twins.Perm twins') :
    Estate excused rename host host' twins' settled := by
  constructor
  · exact fun twin hmem => h.stands twin (hperm.mem_iff.mpr hmem)
  · exact h.holds
  · apply (List.Perm.nodup_iff _).mp h.apart
    exact ((hperm.flatMap_right _).append_right _).map rename

/-- Nothing changes for the estate where the places in it hold what they held. -/
theorem elsewhere (h : Estate excused rename host host' twins settled)
    (hsame : ∀ place ∈ twins.flatMap (fun twin => twin.image.places) ++ settled.flatten,
      next.store.read (rename place) = host.store.read (rename place) ∧
        next'.store.read place = host'.store.read place) :
    Estate excused rename next next' twins settled := by
  constructor
  · intro twin htwin
    obtain ⟨hmirrors, hplaces⟩ := h.stands twin htwin
    have hsame' : ∀ place ∈ twin.image.places,
        next.store.read (rename place) = host.store.read (rename place) ∧
          next'.store.read place = host'.store.read place := by
      intro place hplace
      apply hsame
      exact List.mem_append_left _ (List.mem_flatMap.mpr ⟨twin, htwin, hplace⟩)
    refine ⟨hmirrors.elsewhere_both ?_ fun place hplace => (hsame' place hplace).2, hplaces⟩
    intro place hplace
    rw [hplaces] at hplace
    obtain ⟨place', hplace', rfl⟩ := List.mem_map.mp hplace
    exact (hsame' place' hplace').1
  · intro places hsettled
    have hsame' : ∀ place ∈ places,
        next.store.read (rename place) = host.store.read (rename place) ∧
          next'.store.read place = host'.store.read place := by
      intro place hplace
      apply hsame
      exact List.mem_append_right _ (List.mem_flatten.mpr ⟨places, hsettled, hplace⟩)
    have hread : Contents.ofPlaces next.store (places.map rename) =
        .ofPlaces host.store (places.map rename) := by
      apply Contents.ofPlaces_congr
      intro place hplace
      obtain ⟨place', hplace', rfl⟩ := List.mem_map.mp hplace
      exact (hsame' place' hplace').1
    have hread' : Contents.ofPlaces next'.store places = .ofPlaces host'.store places :=
      Contents.ofPlaces_congr fun place hplace => (hsame' place hplace).2
    rw [hread, hread', h.holds places hsettled]
  · exact h.apart

/-- A target and its image whose places are none of those in the estate. -/
theorem disjoint {places : List Location} {place : Location}
    (happart : ((twin.image.places ++ places).map rename).Nodup)
    (hplaces : twin.target.places = twin.image.places.map rename) (hplace : place ∈ places) :
    rename place ∉ twin.target.places ∧ place ∉ twin.image.places := by
  rw [List.map_append] at happart
  have hrenamed : rename place ∉ twin.target.places := by
    rw [hplaces]
    intro hmem
    exact (List.nodup_append.mp happart).2.2 _ hmem _ (List.mem_map_of_mem hplace) rfl
  constructor
  · exact hrenamed
  · intro hmem
    apply hrenamed
    rw [hplaces]
    exact List.mem_map_of_mem hmem

/-- What becomes of the rest when only the places of the first target change. -/
theorem drop (h : Estate excused rename host host' (twin :: twins) settled)
    (hsame : ∀ place, place ∉ twin.target.places → next.store.read place = host.store.read place)
    (hsame' : ∀ place, place ∉ twin.image.places →
      next'.store.read place = host'.store.read place) :
    Estate excused rename next next' twins settled := by
  have happart := h.apart
  rw [List.flatMap_cons, List.append_assoc] at happart
  have hrest : Estate excused rename host host' twins settled := by
    constructor
    · exact fun other hother => h.stands other (List.mem_cons_of_mem _ hother)
    · exact h.holds
    · rw [List.map_append] at happart
      exact (List.nodup_append.mp happart).2.1
  apply hrest.elsewhere
  intro place hplace
  obtain ⟨hother, hother'⟩ := disjoint happart (h.stands twin List.mem_cons_self).places hplace
  exact ⟨hsame _ hother, hsame' _ hother'⟩

/-- A target and its image join the estate. -/
theorem put (h : Estate excused rename host host' twins settled)
    (hstands : twin.Stands excused rename next next')
    (hsame : ∀ place, place ∉ twin.target.places → next.store.read place = host.store.read place)
    (hsame' : ∀ place, place ∉ twin.image.places →
      next'.store.read place = host'.store.read place)
    (happart : ((twin.image.places ++ (twins.flatMap (fun twin => twin.image.places) ++
      settled.flatten)).map rename).Nodup) :
    Estate excused rename next next' (twin :: twins) settled := by
  have hrest : Estate excused rename next next' twins settled := by
    apply h.elsewhere
    intro place hplace
    obtain ⟨hother, hother'⟩ := disjoint happart hstands.places hplace
    exact ⟨hsame _ hother, hsame' _ hother'⟩
  constructor
  · exact List.forall_mem_cons.mpr ⟨hstands, hrest.stands⟩
  · exact hrest.holds
  · rw [List.flatMap_cons, List.append_assoc]
    exact happart

/-- The first target and its image go on. -/
theorem act {outlet image : Outlet}
    (h : Estate excused rename host host' (twin :: twins) settled)
    (hmirrors : outlet.Mirrors (twin.scene excused host host') image) :
    Estate excused rename outlet.host image.host (⟨outlet.target, image.target⟩ :: twins)
      settled := by
  have hplaces := hmirrors.places
  have hplaces' := hmirrors.places'
  have hrest := h.drop hmirrors.elsewhere hmirrors.elsewhere'
  constructor
  · refine List.forall_mem_cons.mpr
      ⟨⟨hmirrors.elsewhere_both (fun _ _ => rfl) (fun _ _ => rfl), ?_⟩, hrest.stands⟩
    dsimp only
    rw [hplaces, hplaces']
    exact (h.stands twin List.mem_cons_self).places
  · exact hrest.holds
  · have happart := h.apart
    rw [List.flatMap_cons] at happart ⊢
    dsimp only
    rw [hplaces']
    exact happart

/-- The first target is let go of on both sides, with the same on it. -/
theorem settle (h : Estate excused rename host host' (twin :: twins) settled)
    (hsame : ∀ place, place ∉ twin.target.places → next.store.read place = host.store.read place)
    (hsame' : ∀ place, place ∉ twin.image.places →
      next'.store.read place = host'.store.read place)
    (hstored : twin.target.stored next.store = twin.image.stored next'.store) :
    Estate excused rename next next' twins (twin.image.places :: settled) := by
  have hrest := h.drop hsame hsame'
  constructor
  · exact hrest.stands
  · refine List.forall_mem_cons.mpr ⟨?_, hrest.holds⟩
    rw [← (h.stands twin List.mem_cons_self).places, ← Target.stored_eq, ← Target.stored_eq]
    exact hstored
  · apply (List.Perm.nodup_iff _).mp h.apart
    rw [List.flatMap_cons, List.flatten_cons, List.append_assoc]
    exact (List.perm_append_comm_assoc ..).map rename

/-- What else the hosts report does not matter. -/
theorem relog (h : Estate excused rename host host' twins settled) (log log' : List Event) :
    Estate excused rename { host with log } { host' with log := log' } twins settled := by
  constructor
  · intro twin htwin
    obtain ⟨hmirrors, hplaces⟩ := h.stands twin htwin
    exact ⟨hmirrors.relog _ _, hplaces⟩
  · exact h.holds
  · exact h.apart

end Estate

/-! ## Recorders and their images -/

/-- What a recorder and its image have between them. -/
structure Album where
  excused : IoFault → Prop
  rename : Location → Location
  /-- Where the image of the active target writes to. -/
  taken : Option (List Location)
  staged : List (Option Twin)
  /-- Targets that are staged no more and not active yet. -/
  loose : List Twin := []
  settled : List (List Location)

def Twin.command (pick : Twin → Target) : Option Twin → RotationCommand
  | none => .detach
  | some twin => .install (pick twin)

namespace Session

/-- The recorders differ in their targets only, and those mirror each other. -/
structure Shows (album : Album) (pair : Option Twin) (session image : Session) : Prop where
  recorder : image.recorder = { session.recorder with
    active := pair.map Twin.image
    rotation := { session.recorder.rotation with
      staged := album.staged.map (Twin.command Twin.image) } }
  active : session.recorder.active = pair.map Twin.target
  staged : session.recorder.rotation.staged = album.staged.map (Twin.command Twin.target)
  taken : pair.map (fun twin => twin.image.places) = album.taken
  estate : Estate album.excused album.rename session.host image.host
    (pair.toList ++ (album.loose ++ album.staged.reduceOption)) album.settled

def Mirrors (album : Album) (session image : Session) : Prop :=
  ∃ pair, session.Shows album pair image

section Calls

variable {fault result : Type} {album : Album} {pair : Option Twin} {twin : Twin}
  {session image : Session}

/-! ### Parts of a session -/

theorem Shows.progress (h : session.Shows album pair image) :
    image.recorder.progress = session.recorder.progress := by
  rw [h.recorder]

theorem Shows.config (h : session.Shows album pair image) :
    image.recorder.config = session.recorder.config := by
  rw [h.recorder]

theorem Shows.itemsRead (h : session.Shows album pair image) :
    image.recorder.itemsRead = session.recorder.itemsRead := by
  rw [h.recorder]

theorem Shows.unbuffered (h : session.Shows album pair image) :
    image.recorder.unbuffered = session.recorder.unbuffered := by
  rw [h.recorder]

theorem Shows.dropping (h : session.Shows album pair image) :
    image.recorder.dropping = session.recorder.dropping := by
  rw [h.recorder]

theorem Shows.closed (h : session.Shows album pair image) :
    image.recorder.closed = session.recorder.closed := by
  rw [h.recorder]

theorem Shows.active' (h : session.Shows album pair image) :
    image.recorder.active = pair.map Twin.image := by
  rw [h.recorder]

theorem Shows.relog (h : session.Shows album pair image) (log log' : List Event) :
    Shows album pair { session with host := { session.host with log } }
      { image with host := { image.host with log := log' } } :=
  ⟨h.recorder, h.active, h.staged, h.taken, h.estate.relog log log'⟩

theorem report_shows {excused : fault → Prop} (h : session.Shows album pair image)
    (event event' : Event) :
    Agrees excused (Shows album pair) (report event) (report event') session image :=
  agrees_modify (h.relog _ _)

/-- What a recorder keeps besides its targets changes alike on both sides. -/
theorem Shows.change (h : session.Shows album pair image) (update : Recorder → Recorder)
    (hupdate : ∀ recorder active rotation,
      update { recorder with active, rotation } = { update recorder with active, rotation }) :
    Shows album pair { session with recorder := update session.recorder }
      { image with recorder := update image.recorder } := by
  have hsame := hupdate session.recorder session.recorder.active session.recorder.rotation
  have hactive : (update session.recorder).active = session.recorder.active := by
    simpa only using congrArg Recorder.active hsame
  have hrotation : (update session.recorder).rotation = session.recorder.rotation := by
    simpa only using congrArg Recorder.rotation hsame
  constructor
  · dsimp only
    rw [h.recorder, hupdate, hrotation]
  · exact hactive.trans h.active
  · exact (congrArg Rotation.staged hrotation).trans h.staged
  · exact h.taken
  · exact h.estate

theorem change_shows {excused : fault → Prop} (h : session.Shows album pair image)
    {update : Recorder → Recorder}
    (hupdate : ∀ recorder active rotation,
      update { recorder with active, rotation } = { update recorder with active, rotation }) :
    Agrees excused (Shows album pair) (change update) (change update) session image :=
  agrees_modify (h.change update hupdate)

theorem changeProgress_shows {excused : fault → Prop} (h : session.Shows album pair image)
    (update : Progress → Progress) :
    Agrees excused (Shows album pair) (changeProgress update) (changeProgress update) session
      image :=
  change_shows h fun _ _ _ => rfl

theorem change_mirrors {excused : fault → Prop} (h : session.Mirrors album image)
    {update : Recorder → Recorder}
    (hupdate : ∀ recorder active rotation,
      update { recorder with active, rotation } = { update recorder with active, rotation }) :
    Agrees excused (Mirrors album) (change update) (change update) session image := by
  obtain ⟨pair, h⟩ := h
  exact agrees_modify ⟨pair, h.change update hupdate⟩

theorem changeProgress_mirrors {excused : fault → Prop} (h : session.Mirrors album image)
    (update : Progress → Progress) :
    Agrees excused (Mirrors album) (changeProgress update) (changeProgress update) session image :=
  change_mirrors h fun _ _ _ => rfl

/-! ### Writing to the active target -/

theorem Shows.writerOn (h : session.Shows album (some twin) image) :
    (session.writerOn twin.target).Mirrors (twin.scene album.excused session.host image.host)
      (image.writerOn twin.image) := by
  constructor
  · exact h.progress.symm
  · exact (h.estate.stands twin List.mem_cons_self).mirrors

theorem Shows.withWriter (h : session.Shows album (some twin) image) {writer writer' : Writer}
    (hmirrors : writer.Mirrors (twin.scene album.excused session.host image.host) writer') :
    (session.withWriter writer).Mirrors album (image.withWriter writer') := by
  refine ⟨some ⟨writer.outlet.target, writer'.outlet.target⟩, ?_, rfl, h.staged, ?_, ?_⟩
  · simp only [Session.withWriter, h.recorder, hmirrors.progress]
    rfl
  · exact (congrArg some hmirrors.outlet.places').trans h.taken
  · exact h.estate.act hmirrors.outlet

theorem onActive_mirrors {excused : fault → Prop} {action : Action fault Writer result}
    (h : session.Shows album (some twin) image)
    (haction : Agrees excused (Writer.Mirrors (twin.scene album.excused session.host image.host))
      action action (session.writerOn twin.target) (image.writerOn twin.image)) :
    Agrees excused (Mirrors album) (onActive twin.target action) (onActive twin.image action)
      session image := by
  unfold Agrees Beside
  simp only [ends_onActive]
  apply Beside.mono haction
  · exact fun _ _ writer writer' hwriter => ⟨hwriter.1, h.withWriter hwriter.2⟩
  · exact fun _ writer writer' hwriter => h.withWriter hwriter

theorem selectTags_shows {excused : StreamError → Prop} (h : session.Shows album pair image)
    (first last : Nat) (tags : List Tag) :
    Agrees excused (Shows album pair) (selectTags first last tags) (selectTags first last tags)
      session image := by
  apply beside_of_ends
  apply (selectTags_ends first last tags).mono
  · intro entries next hnext
    obtain ⟨rfl, log, rfl⟩ := hnext
    apply (selectTags_ends first last tags).mono
    · intro entries' next' hnext'
      obtain ⟨rfl, log', rfl⟩ := hnext'
      exact ⟨rfl, h.relog log log'⟩
    · exact fun _ _ => id
  · exact fun _ _ => False.elim

theorem record_mirrors (h : session.Shows album (some twin) image) (items : Bytes)
    (tags : List Tag) :
    Agrees (StreamError.IsExcused album.excused) (Mirrors album)
      (record twin.target items tags) (record twin.image items tags) session image := by
  unfold record
  rw [agrees_get_bind]
  dsimp only
  rw [h.config, h.itemsRead]
  apply (selectTags_shows h _ _ tags).bind_of fun _ _ h => ⟨some twin, h⟩
  intro entries _ _ h
  apply Agrees.attempt_bind
  · exact onActive_mirrors h (Writer.runBatch_mirrors h.writerOn _ _ items entries)
  · intro outcome _ _ h
    cases outcome with
    | ok written =>
        apply Agrees.bind (change_mirrors h fun _ _ _ => rfl)
        exact fun _ _ _ h => agrees_pure h written
    | error error =>
        dsimp only
        split
        · apply Agrees.bind (change_mirrors h fun _ _ _ => rfl)
          exact fun _ _ _ h => agrees_throw h error
        · exact agrees_throw h error
  · intro error later hexcused
    dsimp only
    split
    · rw [ends_bind, ends_change, ends_throw]
      exact hexcused
    · exact hexcused

theorem flushUnbuffered_mirrors (h : session.Mirrors album image)
    (asError : IoFault → StreamError)
    (hexcused : ∀ cause, album.excused cause → (asError cause).IsExcused album.excused) :
    Agrees (StreamError.IsExcused album.excused) (Mirrors album) (flushUnbuffered asError)
      (flushUnbuffered asError) session image := by
  obtain ⟨pair, h⟩ := h
  unfold flushUnbuffered
  rw [agrees_get_bind]
  dsimp only
  rw [h.active, h.active', h.unbuffered]
  cases session.recorder.unbuffered with
  | false => exact agrees_pure ⟨pair, h⟩ ()
  | true =>
      cases pair with
      | none => exact agrees_pure ⟨none, h⟩ ()
      | some twin =>
          apply onActive_mirrors h
          refine Agrees.mapFault ?_ hexcused
          exact Writer.onOutlet_mirrors h.writerOn (Outlet.flush_mirrors h.writerOn.outlet)

theorem drop_mirrors {excused : fault → Prop} (h : session.Mirrors album image) (records : Nat) :
    Agrees excused (Mirrors album) (drop records) (drop records) session image := by
  have hcounted : ∀ {session image : Session}, session.Mirrors album image →
      Agrees excused (Mirrors album)
        (do
          changeProgress fun progress =>
            { progress with counters := progress.counters.addDropped records }
          change fun recorder => { recorder with itemsRead := recorder.itemsRead + records })
        (do
          changeProgress fun progress =>
            { progress with counters := progress.counters.addDropped records }
          change fun recorder => { recorder with itemsRead := recorder.itemsRead + records })
        session image := by
    intro session image h
    apply Agrees.bind (changeProgress_mirrors h _)
    exact fun _ _ _ h => change_mirrors h fun _ _ _ => rfl
  obtain ⟨pair, h⟩ := h
  unfold drop
  rw [agrees_get_bind, h.dropping]
  cases session.recorder.dropping with
  | true => exact hcounted ⟨pair, h⟩
  | false =>
      apply (report_shows h _ _).bind_of fun _ _ h => ⟨pair, h⟩
      intro _ _ _ h
      apply Agrees.bind (change_mirrors ⟨pair, h⟩ fun _ _ _ => rfl)
      exact fun _ _ _ => hcounted

theorem takeBatch_mirrors (h : session.Mirrors album image) (items : Bytes) (tags : List Tag) :
    Agrees (StreamError.IsExcused album.excused) (Mirrors album) (takeBatch items tags)
      (takeBatch items tags) session image := by
  unfold takeBatch
  apply Agrees.bind (changeProgress_mirrors h _)
  intro _ counted counted' h
  obtain ⟨pair, h⟩ := h
  rw [agrees_get_bind]
  dsimp only
  rw [h.active, h.active', h.config]
  cases pair with
  | none =>
      apply Agrees.bind (drop_mirrors ⟨none, h⟩ _)
      exact fun _ _ _ h => agrees_pure h _
  | some twin =>
      apply Agrees.bind (record_mirrors h items tags)
      intro written _ _ h
      apply Agrees.bind (flushUnbuffered_mirrors h (.write written) fun _ hcause => hcause)
      exact fun _ _ _ h => agrees_pure h written

theorem updateAttribute_mirrors (h : session.Mirrors album image) (key : String)
    (value : Attribute) :
    Agrees (StreamError.IsExcused album.excused) (Mirrors album) (updateAttribute key value)
      (updateAttribute key value) session image := by
  have hsame := h
  obtain ⟨pair, hshows⟩ := hsame
  unfold updateAttribute
  rw [agrees_get_bind, hshows.progress]
  cases session.recorder.progress.headers.prepare key value with
  | error cause => exact agrees_throw h _
  | ok update =>
      apply Agrees.bind (changeProgress_mirrors h _)
      intro _ counted counted' h
      obtain ⟨pair, h⟩ := h
      rw [agrees_get_bind, h.active, h.active']
      cases pair with
      | none => exact changeProgress_mirrors ⟨none, h⟩ _
      | some twin =>
          apply Agrees.bind
          · exact onActive_mirrors h (Writer.boundary_mirrors h.writerOn (some update))
          · exact fun _ _ _ h => flushUnbuffered_mirrors h .io fun _ hcause => hcause

end Calls

/-! ### Targets come and go -/

section Turning

variable {album : Album} {pair : Option Twin} {twin : Twin} {loose : List Twin}
  {session image : Session}

/-- What is done on two targets is caught on both; an excused fault ends in an excused one. -/
theorem beside_onTarget_bind {fault result result' found found' : Type}
    {excused : fault → Prop} {target target' : Target}
    {first : Action fault Writer found} {second : Action fault Writer found'}
    {next : Except fault found × Target → Action fault Session result}
    {next' : Except fault found' × Target → Action fault Session result'}
    {good : result → result' → Session → Session → Prop} {bad : fault → Session → Session → Prop}
    (h : Beside excused first second (session.writerOn target) (image.writerOn target')
      (fun value value' writer writer' => Beside excused
        (next (.ok value, writer.outlet.target)) (next' (.ok value', writer'.outlet.target))
        (session.withProgress writer) (image.withProgress writer') good bad)
      (fun cause writer writer' => Beside excused
        (next (.error cause, writer.outlet.target)) (next' (.error cause, writer'.outlet.target))
        (session.withProgress writer) (image.withProgress writer') good bad))
    (hexcused : ∀ cause target later, excused cause →
      Ends (next (.error cause, target)) later (fun _ _ => False) fun cause' _ => excused cause') :
    Beside excused (onTarget target first >>= next) (onTarget target' second >>= next') session
      image good bad := by
  apply Beside.caught (fun outcome writer => next (outcome, writer.outlet.target))
    session.withProgress (fun outcome writer => next' (outcome, writer.outlet.target))
    image.withProgress ?_ ?_ h fun cause writer hcause => hexcused cause _ _ hcause
  · simp only [ends_bind, ends_onTarget, implies_true]
  · simp only [ends_bind, ends_onTarget, implies_true]

/-- Any target with an image can be written to on both sides. -/
theorem Shows.writerOn_of_mem (h : session.Shows album pair image)
    (hmem : twin ∈ pair.toList ++ (album.loose ++ album.staged.reduceOption)) :
    (session.writerOn twin.target).Mirrors (twin.scene album.excused session.host image.host)
      (image.writerOn twin.image) :=
  ⟨h.progress.symm, (h.estate.stands twin hmem).mirrors⟩

/-- A loose target and its image go on. -/
theorem Shows.withProgress (h : session.Shows album none image)
    (hloose : album.loose = twin :: loose) {writer writer' : Writer}
    (hmirrors : writer.Mirrors (twin.scene album.excused session.host image.host) writer') :
    (session.withProgress writer).Shows
      { album with loose := ⟨writer.outlet.target, writer'.outlet.target⟩ :: loose } none
      (image.withProgress writer') := by
  refine ⟨?_, h.active, h.staged, h.taken, ?_⟩
  · simp only [Session.withProgress, h.recorder, hmirrors.progress]
  · have hestate := h.estate
    rw [hloose] at hestate
    exact hestate.act hmirrors.outlet

/-- What a target is let go of with, once its running segment is closed or not. -/
def letGo (closed : Except StreamError Unit) (target : Target) :
    Action StreamError Session Unit := do
  changeProgress fun progress =>
    { progress with headers := progress.headers.releaseSlot, records := 0 }
  let flushed ← (onHost target.close).attempt
  report (.retired target.label)
  match closed, flushed with
  | .error error, _ => throw error
  | .ok (), .error cause => throw (.io cause)
  | .ok (), .ok () => pure ()

/-- The failure of the segment counts first. -/
theorem letGo_of_error (error : StreamError) (target : Target) (session : Session) :
    Ends (letGo (.error error) target) session (fun _ _ => False) fun cause _ => cause = error := by
  simp only [letGo, ends_bind, ends_changeProgress, ends_attempt, ends_report, ends_throw]
  exact ends_of_forall (fun _ _ => trivial) fun _ _ => trivial

theorem letGo_mirrors (h : session.Shows album none image) (hloose : album.loose = twin :: loose) :
    Beside (StreamError.IsExcused album.excused) (letGo (.ok ()) twin.target)
      (letGo (.ok ()) twin.image) session image
      (fun _ _ next next' => next.Mirrors
        { album with loose, settled := twin.image.places :: album.settled } next')
      fun _ _ _ => True := by
  unfold letGo
  apply (changeProgress_shows h _).bind_beside fun _ _ _ _ => trivial
  intro _ cleared cleared' h
  have hestate := h.estate
  rw [hloose] at hestate
  have hclosed := Target.close_mirrors (hestate.stands twin List.mem_cons_self).mirrors
  apply Beside.attempt_bind
  · apply Beside.within
    apply hclosed.mono
    · intro _ _ host host' hhosts
      obtain ⟨hstored, hsame, hsame'⟩ := hhosts
      have hsettled : Shows { album with loose, settled := twin.image.places :: album.settled } none
          { cleared with host } { cleared' with host := host' } :=
        ⟨h.recorder, h.active, h.staged, h.taken, hestate.settle hsame hsame' hstored⟩
      apply (report_shows hsettled _ _).bind_beside fun _ _ _ _ => trivial
      exact fun _ next next' h => ⟨none, h⟩
    · intro cause host host' _
      simp only [Beside, ends_bind, ends_report, ends_throw, true_and, or_true]
  · intro cause later hexcused
    simp only [ends_bind, ends_report, ends_throw]
    exact hexcused

theorem retire_mirrors (h : session.Shows album none image)
    (hloose : album.loose = twin :: loose) :
    Beside (StreamError.IsExcused album.excused) (retire twin.target) (retire twin.image) session
      image
      (fun _ _ next next' => next.Mirrors
        { album with loose, settled := twin.image.places :: album.settled } next')
      fun _ _ _ => True := by
  have hunfold : ∀ target : Target, retire target = (do
      let outcome ← if (← get).recorder.progress.headers.isOpen
        then onTarget target Writer.closeSegment
        else pure (.ok (), target)
      letGo outcome.1 outcome.2) := fun _ => rfl
  have hmem : twin ∈ (none : Option Twin).toList ++ (album.loose ++ album.staged.reduceOption) := by
    rw [hloose]
    exact List.mem_cons_self
  rw [hunfold, hunfold, beside_get_bind, h.progress]
  split
  · apply beside_onTarget_bind
    · apply Beside.mono (Writer.closeSegment_mirrors (h.writerOn_of_mem hmem))
      · intro _ _ writer writer' hwriter
        have hplaces : writer'.outlet.target.places = twin.image.places :=
          hwriter.2.outlet.places'
        have hletGo := letGo_mirrors (h.withProgress hloose hwriter.2) rfl
        rw [hplaces] at hletGo
        exact hletGo
      · intro error writer writer' _
        apply Ends.mono (letGo_of_error error _ _)
        · exact fun _ _ => False.elim
        · intro cause _ hcause
          right
          apply Ends.mono (letGo_of_error error _ _)
          · exact fun _ _ => id
          · exact fun _ _ hcause' => ⟨hcause'.trans hcause.symm, trivial⟩
    · intro error target later hexcused
      apply Ends.mono (letGo_of_error error target later)
      · exact fun _ _ => id
      · rintro _ _ rfl
        exact hexcused
  · exact letGo_mirrors h hloose

/-- What the active target holds is settled; it was the recorder's last. -/
theorem retireActive_mirrors (h : session.Mirrors album image) :
    Beside (StreamError.IsExcused album.excused) retireActive retireActive session image
      (fun _ _ next next' => next.Mirrors
        { album with taken := none, settled := album.taken.toList ++ album.settled } next')
      fun _ _ _ => True := by
  obtain ⟨pair, h⟩ := h
  unfold retireActive
  rw [beside_get_bind, h.active, h.active']
  cases pair with
  | none =>
      have htaken : album.taken = none := h.taken.symm
      rw [htaken]
      exact ⟨none, h.recorder, h.active, h.staged, rfl, h.estate⟩
  | some twin =>
      have htaken : album.taken = some twin.image.places := h.taken.symm
      have hfreed : Shows { album with taken := none, loose := twin :: album.loose } none
          { session with recorder := { session.recorder with active := none } }
          { image with recorder := { image.recorder with active := none } } := by
        refine ⟨?_, rfl, h.staged, rfl, h.estate⟩
        dsimp only
        rw [h.recorder]
        rfl
      rw [htaken]
      apply Beside.bind
      exact retire_mirrors hfreed rfl

theorem install_mirrors (h : session.Shows album none image)
    (hloose : album.loose = twin :: loose) :
    Beside (StreamError.IsExcused album.excused) (install twin.target) (install twin.image) session
      image
      (fun _ _ next next' => next.Mirrors
        { album with taken := some twin.image.places, loose } next')
      fun _ _ _ => True := by
  have hmem : twin ∈ (none : Option Twin).toList ++ (album.loose ++ album.staged.reduceOption) := by
    rw [hloose]
    exact List.mem_cons_self
  unfold install
  apply (changeProgress_shows h _).bind_beside fun _ _ _ _ => trivial
  intro _ cleared cleared' h
  apply beside_onTarget_bind
  · have hwriter := h.writerOn_of_mem hmem
    have hemitted := (Scribe.emit_mirrors hwriter.scribe).excuse fun _ => And.left
    apply Beside.mono (Writer.onScribe_mirrors hwriter hemitted)
    · intro slot slot' writer writer' hwriter
      obtain ⟨rfl, hwriter⟩ := hwriter
      apply (changeProgress_shows (h.withProgress hloose hwriter) _).bind_beside fun _ _ _ _ => trivial
      intro _ counted counted' h
      apply (report_shows h _ _).bind_beside fun _ _ _ _ => trivial
      intro _ reported reported' h
      refine ⟨some ⟨writer.outlet.target, writer'.outlet.target⟩, ?_, rfl, h.staged, ?_, h.estate⟩
      · dsimp only
        rw [h.recorder]
        rfl
      · exact congrArg some hwriter.outlet.places'
    · intro error writer writer' _
      simp only [Beside, ends_bind, ends_modify, ends_throw, true_and, or_true]
  · intro error target later hexcused
    simp only [ends_bind, ends_modify, ends_throw]
    exact hexcused

theorem turnTo_mirrors {command : Option Twin} (h : session.Shows album none image)
    (hloose : album.loose = command.toList) :
    Beside (StreamError.IsExcused album.excused)
      (turnTo (Twin.command Twin.target command) (.ok ()))
      (turnTo (Twin.command Twin.image command) (.ok ())) session image
      (fun _ _ next next' => next.Mirrors
        { album with taken := command.map fun twin => twin.image.places, loose := [] } next')
      fun _ _ _ => True := by
  unfold turnTo
  cases command with
  | none =>
      have hdetached : Agrees (StreamError.IsExcused album.excused) (Shows album none) detach detach
          session image := by
        unfold detach
        apply Agrees.bind (report_shows h _ _)
        exact fun _ _ _ h => change_shows h fun _ _ _ => rfl
      apply Beside.attempt_bind
      · apply Beside.mono hdetached
        · intro _ _ _ _ h
          apply (changeProgress_shows h.2 _).bind_beside fun _ _ _ _ => trivial
          intro _ _ _ h
          refine ⟨none, h.recorder, h.active, h.staged, rfl, ?_⟩
          have hestate := h.estate
          rw [hloose] at hestate
          exact hestate
        · intro cause _ _ _
          simp only [Beside, ends_bind, ends_changeProgress, ends_throw, true_and, or_true]
      · intro cause later hexcused
        simp only [ends_bind, ends_changeProgress, ends_throw]
        exact hexcused
  | some twin =>
      apply Beside.attempt_bind
      · apply (install_mirrors h hloose).mono
        · intro _ _ _ _ h
          obtain ⟨pair, h⟩ := h
          apply (changeProgress_shows h _).bind_beside fun _ _ _ _ => trivial
          exact fun _ _ _ h => ⟨pair, h⟩
        · intro cause _ _ _
          simp only [Beside, ends_bind, ends_changeProgress, ends_throw, true_and, or_true]
      · intro cause later hexcused
        simp only [ends_bind, ends_changeProgress, ends_throw]
        exact hexcused

theorem install_fault (target : Target) (session : Session) :
    Ends (install target) session (fun _ _ => True) fun error _ => ∃ cause, error = .io cause := by
  simp only [install, ends_bind, ends_changeProgress, ends_onTarget, Writer.onScribe, ends_within]
  apply Scribe.emit_stays.mono
  · intro slot _ _
    simp only [ends_report, ends_change]
  · intro error _ hnext
    simp only [ends_modify, ends_throw]
    exact hnext.1

/-- A rotation that could not retire the active target fails whatever else becomes of it. -/
theorem turnTo_of_error (command : RotationCommand) (error : StreamError) (session : Session) :
    Ends (turnTo command (.error error)) session (fun _ _ => False)
      fun cause _ => cause = error ∨ ∃ fault, cause = .io fault := by
  unfold turnTo
  cases command with
  | install target =>
      simp only [ends_bind, ends_attempt]
      apply (install_fault target session).mono
      · intro _ _ _
        simp only [ends_changeProgress, ends_throw, true_or]
      · intro cause _ hcause
        simp only [ends_changeProgress, ends_throw]
        exact .inr hcause
  | detach =>
      simp only [detach, ends_bind, ends_attempt, ends_report, ends_change, ends_changeProgress,
        ends_throw, true_or]

end Turning

/-! ### What was staged -/

section Staged

variable {excused : IoFault → Prop} {rename : Location → Location} {album : Album}
  {session image : Session}

/-- Staged targets are closed unused on both sides. -/
theorem closeStaged_estate {host host' : Host} {staged : List (Option Twin)} {rest : List Twin}
    {settled : List (List Location)}
    (h : Estate excused rename host host' (staged.reduceOption ++ rest) settled) :
    Estate excused rename
      (RotationDesk.closeStaged (staged.map (Twin.command Twin.target)) host)
      (RotationDesk.closeStaged (staged.map (Twin.command Twin.image)) host') rest settled := by
  induction staged generalizing host host' with
  | nil => exact h
  | cons command staged ih =>
      cases command with
      | none => exact ih h
      | some twin =>
          apply ih
          apply Estate.drop h
          · exact fun place hplace => Target.closeQuietly_elsewhere twin.target host hplace
          · exact fun place hplace => Target.closeQuietly_elsewhere twin.image host' hplace

/-- Staged commands are taken; the targets of some are closed, those of the rest are loose. -/
theorem Shows.unstage {pair : Option Twin} {superseded rest : List (Option Twin)}
    (h : session.Shows album pair image) (hstaged : album.staged = superseded ++ rest) :
    (session.unstage (superseded.map (Twin.command Twin.target))).Shows
      { album with staged := [], loose := rest.reduceOption ++ album.loose } pair
      (image.unstage (superseded.map (Twin.command Twin.image))) := by
  refine ⟨?_, h.active, rfl, h.taken, ?_⟩
  · simp only [Session.unstage, h.recorder]
    rfl
  · apply closeStaged_estate
    apply h.estate.perm
    rw [hstaged, List.reduceOption_append]
    simp only [List.reduceOption_nil, List.append_nil]
    have hfirst : (pair.toList ++ (album.loose ++
        (superseded.reduceOption ++ rest.reduceOption))).Perm
          (superseded.reduceOption ++ (pair.toList ++ (album.loose ++ rest.reduceOption))) :=
      (List.perm_append_comm_assoc ..).append_left _ |>.trans (List.perm_append_comm_assoc ..)
    exact hfirst.trans ((List.perm_append_comm.append_left _).append_left _)

end Staged

end Session

/-- What was staged last takes the place of the active target. -/
def Album.turn (album : Album) : Album :=
  match album.staged.getLast? with
  | none => album
  | some command =>
      { album with
        taken := command.map fun twin => twin.image.places
        staged := []
        loose := []
        settled := album.taken.toList ++ album.settled }

/-- The staged targets and the active one are let go of. -/
def Album.finish (album : Album) : Album :=
  { album with taken := none, staged := [], settled := album.taken.toList ++ album.settled }

/-- All places that the image is answerable for. -/
def Album.places (album : Album) : List Location :=
  album.taken.getD [] ++ ((album.loose ++ album.staged.reduceOption).flatMap
    (fun twin => twin.image.places) ++ album.settled.flatten)

/--
Nothing that was settled is lost, and the active target stays or is settled.  No
places are added but fresh ones.
-/
structure Album.LeadsTo (album later : Album) (fresh : List Location) : Prop where
  excused : later.excused = album.excused
  rename : later.rename = album.rename
  loose : later.loose = []
  settled : ∀ places ∈ album.settled, places ∈ later.settled
  taken : ∀ places, album.taken = some places →
    later.taken = some places ∨ places ∈ later.settled
  places : ∀ place ∈ later.places, place ∈ album.places ∨ place ∈ fresh

section Leads

variable {album : Album}

theorem Album.LeadsTo.refl (hloose : album.loose = []) : album.LeadsTo album [] :=
  ⟨rfl, rfl, hloose, fun _ => id, fun _ => .inl, fun _ => .inl⟩

theorem Album.mem_places_of_settled {later : Album} {place : Location}
    (hsettled : later.settled = album.taken.toList ++ album.settled)
    (hplace : place ∈ later.settled.flatten) : place ∈ album.places := by
  rw [hsettled, List.flatten_append] at hplace
  unfold places
  cases List.mem_append.mp hplace with
  | inl htaken =>
      apply List.mem_append_left
      cases htaken' : album.taken with
      | none =>
          rw [htaken'] at htaken
          cases htaken
      | some taken => simpa [htaken'] using htaken
  | inr hsettled => exact List.mem_append_right _ (List.mem_append_right _ hsettled)

theorem Album.LeadsTo.of_settled {later : Album} (hexcused : later.excused = album.excused)
    (hrename : later.rename = album.rename) (hloose : later.loose = [])
    (hstaged : later.staged = [])
    (htaken : ∀ place ∈ later.taken.getD [], place ∈ album.places)
    (hsettled : later.settled = album.taken.toList ++ album.settled) :
    album.LeadsTo later [] := by
  constructor
  · exact hexcused
  · exact hrename
  · exact hloose
  · intro places hplaces
    rw [hsettled]
    exact List.mem_append_right _ hplaces
  · intro places htaken
    right
    rw [hsettled, htaken]
    exact List.mem_cons_self
  · intro place hplace
    left
    rw [Album.places, hloose, hstaged] at hplace
    cases List.mem_append.mp hplace with
    | inl hplace => exact htaken place hplace
    | inr hplace => exact Album.mem_places_of_settled hsettled hplace

theorem Album.leadsTo_turn (hloose : album.loose = []) : album.LeadsTo album.turn [] := by
  unfold Album.turn
  split
  · exact .refl hloose
  · rename_i command hlast
    refine .of_settled rfl rfl rfl rfl ?_ rfl
    intro place hplace
    cases command with
    | none => cases hplace
    | some twin =>
        have htwin : twin ∈ album.loose ++ album.staged.reduceOption := by
          apply List.mem_append_right
          exact List.reduceOption_mem_iff.mpr (List.mem_of_getLast? hlast)
        apply List.mem_append_right
        exact List.mem_append_left _ (List.mem_flatMap.mpr ⟨twin, htwin, hplace⟩)

theorem Album.leadsTo_finish (hloose : album.loose = []) : album.LeadsTo album.finish [] :=
  .of_settled rfl rfl hloose rfl (fun _ hplace => by cases hplace) rfl

theorem Album.leadsTo_stage (hloose : album.loose = []) (command : Option Twin) :
    album.LeadsTo { album with staged := album.staged ++ [command] }
      (command.toList.flatMap fun twin => twin.image.places) := by
  have hlast : [command].reduceOption = command.toList := by cases command <;> rfl
  refine ⟨rfl, rfl, hloose, fun _ => id, fun _ => .inl, fun place hplace => ?_⟩
  rw [places, List.reduceOption_append, hlast] at hplace
  simp only [places, List.mem_append, List.flatMap_append] at hplace ⊢
  tauto

end Leads

namespace Session

section Staged

variable {album : Album} {session image : Session}

/-- Where a rotation fails only by an excused cause, so does the end of the old target. -/
theorem retireActive_sound {superseded : List RotationCommand} {command : RotationCommand}
    (hstaged : image.recorder.rotation.staged = superseded ++ [command])
    (hsound : Ends installPending image (fun _ _ => True) fun _ _ => False) :
    Ends retireActive (image.unstage superseded) (fun _ _ => True) fun _ _ => False := by
  rw [ends_installPending_last hstaged] at hsound
  apply hsound.mono
  · exact fun _ _ _ => trivial
  · intro error retired hturned
    have hfails := turnTo_of_error command error retired
    unfold Ends at hturned hfails
    split at hturned
    · rename_i heq
      rw [heq] at hfails
      exact hfails
    · exact hturned

/--
The recorder and its image turn to what was staged, if the image can.  Where
something is staged every failure of storage is to be excused: the recorder may
fail to let go of one target, and in the same call to write to the next.
-/
theorem installPending_mirrors (h : session.Mirrors album image) (hloose : album.loose = [])
    (hcovers : album.staged = [] ∨ ∀ cause, album.excused cause)
    (hsound : Ends installPending image (fun _ _ => True) fun _ _ => False) :
    Beside (StreamError.IsExcused album.excused) installPending installPending session image
      (fun _ _ next next' => next.Mirrors album.turn next') fun _ _ _ => True := by
  obtain ⟨pair, h⟩ := h
  rcases List.eq_nil_or_concat album.staged with hnone | ⟨superseded, command, hlast⟩
  · have hturn : album.turn = album := by
      unfold Album.turn
      rw [hnone]
      rfl
    have hidle : session.recorder.rotation.staged = [] := by
      rw [h.staged, hnone]
      rfl
    have hidle' : image.recorder.rotation.staged = [] := by
      rw [h.recorder, hnone]
      rfl
    unfold Beside
    simp only [ends_installPending_idle hidle, ends_installPending_idle hidle']
    rw [hturn]
    exact ⟨pair, h⟩
  · rw [List.concat_eq_append] at hlast
    have hexcused : ∀ cause, album.excused cause := by
      cases hcovers with
      | inl hnone =>
          rw [hnone] at hlast
          simp at hlast
      | inr hall => exact hall
    have hturn : album.turn = { album with
        taken := command.map fun twin => twin.image.places
        staged := []
        loose := []
        settled := album.taken.toList ++ album.settled } := by
      unfold Album.turn
      rw [hlast, List.getLast?_concat]
    have hstaged : session.recorder.rotation.staged =
        superseded.map (Twin.command Twin.target) ++ [Twin.command Twin.target command] := by
      rw [h.staged, hlast, List.map_append]
      rfl
    have hstaged' : image.recorder.rotation.staged =
        superseded.map (Twin.command Twin.image) ++ [Twin.command Twin.image command] := by
      rw [h.recorder, hlast, List.map_append]
      rfl
    have hunstaged := h.unstage hlast
    have hcommand : [command].reduceOption ++ album.loose = command.toList := by
      rw [hloose]
      cases command <;> rfl
    rw [hturn]
    apply Beside.caught (fun outcome _ => turnTo (Twin.command Twin.target command) outcome) id
      (fun outcome _ => turnTo (Twin.command Twin.image command) outcome) id
      (ends_installPending_last hstaged) (ends_installPending_last hstaged')
    · apply ((retireActive_mirrors ⟨pair, hunstaged⟩).sound
        (retireActive_sound hstaged' hsound)).mono
      · intro _ _ retired retired' h
        obtain ⟨pair, h⟩ := h
        have hnone : pair = none := by
          have htaken := h.taken
          cases pair with
          | none => rfl
          | some twin => cases htaken
        rw [hnone] at h
        apply (turnTo_mirrors h hcommand).mono
        · exact fun _ _ _ _ => id
        · exact fun _ _ _ => id
      · exact fun _ _ _ => False.elim
    · intro error later herror
      apply (turnTo_of_error _ error later).mono
      · exact fun _ _ => id
      · intro cause _ hcause
        obtain rfl | ⟨fault, rfl⟩ := hcause
        · exact herror
        · exact hexcused fault

end Staged

/-! ### Calls -/

section Calls

variable {album : Album} {pair : Option Twin} {session image : Session}

/-- The recorder and its image have come further than the album says. -/
def MirrorsStill (album : Album) (session image : Session) : Prop :=
  ∃ later, album.LeadsTo later [] ∧ session.Mirrors later image

theorem Mirrors.still (h : session.Mirrors album image) (hloose : album.loose = []) :
    session.MirrorsStill album image :=
  ⟨album, .refl hloose, h⟩

theorem work_mirrors (h : session.Mirrors album image) (hloose : album.loose = [])
    (hcovers : album.staged = [] ∨ ∀ cause, album.excused cause)
    (hsound : Ends installPending image (fun _ _ => True) fun _ _ => False) (items : Bytes)
    (tags : List Tag) :
    Agrees (StreamError.IsExcused album.excused) (MirrorsStill album) (work items tags)
      (work items tags) session image := by
  have hparts := h
  obtain ⟨pair, hparts⟩ := hparts
  have hturn := Album.leadsTo_turn hloose
  unfold work
  rw [agrees_get_bind]
  dsimp only
  rw [hparts.config, hparts.closed]
  split
  · apply Beside.bind
    exact beside_throw (h.still hloose)
  · split
    · apply Beside.bind
      exact beside_throw (h.still hloose)
    · apply Beside.bind
      apply ((installPending_mirrors h hloose hcovers hsound).sound hsound).mono
      · intro _ _ turned turned' hturned
        have htaken := takeBatch_mirrors hturned items tags
        rw [hturn.excused] at htaken
        apply Beside.mono htaken
        · exact fun _ _ _ _ hnext => ⟨hnext.1, album.turn, hturn, hnext.2⟩
        · exact fun _ _ _ hnext => ⟨album.turn, hturn, hnext⟩
      · exact fun _ _ _ => False.elim

theorem Shows.rotation (h : session.Shows album pair image) :
    image.recorder.rotation = { session.recorder.rotation with
      staged := album.staged.map (Twin.command Twin.image) } := by
  rw [h.recorder]

/-- A command is staged on both sides, with whatever it brings along. -/
theorem Shows.stage {host host' : Host} (h : session.Shows album pair image)
    (command : Option Twin)
    (hestate : Estate album.excused album.rename host host'
      (command.toList ++ (pair.toList ++ (album.loose ++ album.staged.reduceOption)))
      album.settled) :
    Shows { album with staged := album.staged ++ [command] } pair
      { recorder := { session.recorder with
          rotation := { session.recorder.rotation with
            staged := session.recorder.rotation.staged ++ [Twin.command Twin.target command] } }
        host }
      { recorder := { image.recorder with
          rotation := { image.recorder.rotation with
            staged := image.recorder.rotation.staged ++ [Twin.command Twin.image command] } }
        host := host' } := by
  have hlast : [command].reduceOption = command.toList := by cases command <;> rfl
  refine ⟨?_, h.active, ?_, h.taken, ?_⟩
  · simp only [h.recorder, List.map_append, List.map_cons, List.map_nil]
  · simp only [h.staged, List.map_append, List.map_cons, List.map_nil]
  · apply hestate.perm
    have hmoved : (command.toList ++ (pair.toList ++ (album.loose ++
        album.staged.reduceOption))).Perm _ := List.perm_append_comm
    rw [List.reduceOption_append, hlast]
    simpa only [List.append_assoc] using hmoved

theorem requestClose_mirrors (h : session.Mirrors album image) (hloose : album.loose = [])
    (haccepting : image.recorder.rotation.abandoned = false) :
    Agrees (StreamError.IsExcused album.excused) (MirrorsStill album) requestClose requestClose
      session image := by
  obtain ⟨pair, h⟩ := h
  have haccepts' : ¬ image.recorder.rotation.abandoned = true := by simp [haccepting]
  have haccepts : ¬ session.recorder.rotation.abandoned = true := by
    rw [h.rotation] at haccepts'
    exact haccepts'
  unfold Agrees Beside
  simp only [requestClose, onRotation, ends_within, RotationDesk.requestClose,
    RotationDesk.report, RotationDesk.stage, ends_bind, ends_get, ends_modify, if_neg haccepts,
    if_neg haccepts']
  have hstaged := h.stage none (h.estate.relog
    (session.host.report .closeRequested).log (image.host.report .closeRequested).log)
  exact ⟨trivial, _, Album.leadsTo_stage hloose none, pair, hstaged⟩

/-- Where a shutdown fails only by an excused cause, so does the end of the last target. -/
theorem retireActive_sound_of_shutdown (haccepting : image.recorder.closed = false)
    (hsound : Ends shutdown image (fun _ _ => True) fun _ _ => False) :
    Ends retireActive { image with recorder := { image.recorder with closed := true } }
      (fun _ _ => True) fun _ _ => False := by
  simp only [shutdown, ends_bind, ends_get, haccepting, Bool.false_eq_true, if_false, ends_change,
    ends_attempt] at hsound
  apply hsound.mono
  · exact fun _ _ _ => trivial
  · intro error later hlater
    simp only [onRotation, ends_within, ends_modify, ends_report, ends_throw] at hlater

theorem shutdown_mirrors (h : session.Mirrors album image) (hloose : album.loose = [])
    (hsound : Ends shutdown image (fun _ _ => True) fun _ _ => False) :
    Agrees (StreamError.IsExcused album.excused) (MirrorsStill album) shutdown shutdown session
      image := by
  have hparts := h
  obtain ⟨pair, hparts⟩ := hparts
  have hclosed := hparts.closed
  unfold shutdown
  rw [agrees_get_bind]
  cases hopen : session.recorder.closed with
  | true =>
      rw [hopen] at hclosed
      rw [hclosed]
      exact agrees_pure (h.still hloose) ()
  | false =>
      rw [hopen] at hclosed
      rw [hclosed]
      have hretires := retireActive_sound_of_shutdown hclosed hsound
      have hclosing := hparts.change (fun recorder => { recorder with closed := true })
        fun _ _ _ => rfl
      apply Beside.bind
      unfold Session.change
      rw [beside_modify]
      apply Beside.attempt_bind
      · apply ((retireActive_mirrors ⟨pair, hclosing⟩).sound hretires).mono
        · intro _ _ retired retired' hretired
          obtain ⟨pair, hretired⟩ := hretired
          have hemptied := hretired.unstage (List.append_nil _).symm
          have hstaged' : retired'.recorder.rotation.staged =
              album.staged.map (Twin.command Twin.image) := by
            rw [hretired.recorder]
          dsimp only at hemptied
          rw [← hretired.staged, ← hstaged'] at hemptied
          unfold Beside
          simp only [onRotation, ends_bind, ends_within, ends_modify, ends_get, ends_report,
            ends_pure]
          exact ⟨trivial, album.finish, Album.leadsTo_finish hloose, pair, hemptied.relog _ _⟩
        · exact fun _ _ _ => False.elim
      · intro error later herror
        simp only [onRotation, ends_bind, ends_within, ends_modify, ends_get, ends_report, ends_throw]
        exact herror

end Calls

end Session

end SegmentStream
