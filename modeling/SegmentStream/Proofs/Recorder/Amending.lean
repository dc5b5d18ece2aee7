import SegmentStream.Proofs.Recorder.Fitting
import SegmentStream.Proofs.Recorder.Installed

/-!
# Updates are tags

An update between batches takes effect as a tag at the first record of the next
batch does: both come to one boundary in front of its records.  Two runs that part
there differ in when the batch is counted, in what is reported first, and in a
flush between the boundary and the records.  None of these shows in the end.
-/

namespace SegmentStream

open SegmentStream.Action BatchStep

/-! ## A tag at the first record -/

theorem BatchStep.selected_cons {first last : Nat} (h : first < last) (key : String)
    (value : Attribute) (tags : List Tag) :
    selected first last (⟨first, key, value⟩ :: tags) =
      (0, ⟨first, key, value⟩) :: selected first last tags := by
  have hinside : isInside first last ⟨first, key, value⟩ = true := by
    simp [isInside, h]
  have hsort := List.mergeSort_cons offsetLE_trans offsetLE_total (0, ⟨first, key, value⟩)
    ((tags.filter (isInside first last)).map fun tag => (tag.offset - first, tag))
  obtain ⟨front, back, hwith, hwithout, hbefore⟩ := hsort
  -- nothing is sorted before the first record
  have hfront : front = [] := by
    rw [List.eq_nil_iff_forall_not_mem]
    intro entry hentry
    have hafter := hbefore entry hentry
    simp [offsetLE] at hafter
  subst hfront
  have hdifference : first - first = 0 := Nat.sub_self first
  rw [selected, selected, List.filter_cons_of_pos hinside, List.map_cons, hdifference]
  exact hwith.trans (congrArg (List.cons _) hwithout.symm)

namespace Writer

section Writers

variable {writer : Writer} {ceiling itemSize : Nat}

/-- One more tag is counted that was accepted. -/
def tagged (writer : Writer) : Writer :=
  { writer with progress :=
      { writer.progress with counters := writer.progress.counters.addTag true } }

/-- One more batch is counted. -/
def batched (writer : Writer) : Writer :=
  { writer with progress :=
      { writer.progress with counters := writer.progress.counters.addBatch } }

/-- A batch with a tag at its first record is a boundary and the batch without the tag. -/
theorem runBatch_of_boundary {good : Nat → Writer → Prop} {bad : StreamError → Writer → Prop}
    {items : Bytes} {tag : Tag} {tags : List (Nat × Tag)} {update : HeaderUpdate}
    (hprepare : writer.progress.headers.prepare tag.key tag.value = .ok update)
    (h : Ends (boundary (some update)) writer.tagged
      (fun _ next => Ends (runBatch ceiling itemSize items tags) next good bad)
      (fun error next => bad (error.withPersisted 0) next)) :
    Ends (runBatch ceiling itemSize items ((0, tag) :: tags)) writer good bad := by
  have hplan : ∀ room total, plan ceiling room 0 total ((0, tag) :: tags) =
      .boundary tag :: plan ceiling ceiling 0 total tags := by
    intro room total
    rw [plan, Nat.sub_self, BatchStep.run, if_pos rfl, List.nil_append]
  simp only [runBatch, ends_bind, ends_get, ends_pure, hplan, follow, perform, ends_mapFault,
    prepareTag, hprepare, count, changeProgress, ends_modify]
  refine (h.and (boundary_ready (some update))).mono ?_ fun _ _ h => h.1
  rintro ⟨⟩ next ⟨hbatch, hready⟩
  simp only [runBatch, ends_bind, ends_get, ends_pure, hready.room] at hbatch
  exact hbatch

end Writers

/-! ## When a batch is counted -/

/-- The action goes the same way whether the batch is counted before it or behind it. -/
def CountsApart {result : Type} (action : Action StreamError Writer result) : Prop :=
  ∀ writer : Writer, Ends action writer
    (fun value next => action writer.batched = .ok value next.batched)
    (fun cause next => action writer.batched = .error cause next.batched)

namespace CountsApart

variable {result result' : Type}

theorem bind {first : Action StreamError Writer result}
    {next : result → Action StreamError Writer result'} (hfirst : CountsApart first)
    (hnext : ∀ found, CountsApart (next found)) : CountsApart (first >>= next) := by
  intro writer
  rw [ends_bind]
  refine (hfirst writer).mono ?_ ?_
  · intro found later hlater
    rw [bind_of_ok hlater]
    exact hnext found later
  · intro cause later hlater
    exact bind_of_error hlater next

theorem get_bind {next : Writer → Action StreamError Writer result}
    (hsame : ∀ writer : Writer, next writer.batched = next writer)
    (hnext : ∀ writer, CountsApart (next writer)) : CountsApart (get >>= next) := by
  intro writer
  rw [ends_bind, ends_get]
  refine (hnext writer writer).mono ?_ ?_
  · intro value later hlater
    exact (congrFun (hsame writer) writer.batched).trans hlater
  · intro cause later hlater
    exact (congrFun (hsame writer) writer.batched).trans hlater

theorem onScribe (action : Action StreamError Scribe result) :
    CountsApart (Writer.onScribe action) := by
  intro writer
  simp only [Writer.onScribe, ends_within, Action.within]
  have hsame : (⟨writer.batched.progress.headers, writer.batched.outlet⟩ : Scribe) =
      ⟨writer.progress.headers, writer.outlet⟩ := rfl
  unfold Ends
  rw [hsame]
  cases action ⟨writer.progress.headers, writer.outlet⟩ <;> rfl

theorem changeProgress {update : Progress → Progress}
    (h : ∀ writer : Writer, update writer.batched.progress =
      (Writer.batched { writer with progress := update writer.progress }).progress) :
    CountsApart (Writer.changeProgress update) := by
  intro writer
  simp only [Writer.changeProgress, ends_modify]
  have hnext := congrArg (Writer.mk · writer.outlet) (h writer)
  exact congrArg (EStateM.Result.ok ()) hnext

theorem mark (stage : Stage) : CountsApart (Writer.mark stage) := by
  refine changeProgress fun writer => ?_
  by_cases hmarked : writer.progress.stages.contains stage = true
  · have hbatched : writer.batched.progress.mark stage = writer.batched.progress := if_pos hmarked
    have hplain : writer.progress.mark stage = writer.progress := if_pos hmarked
    rw [hbatched, hplain]
  · have hbatched : writer.batched.progress.mark stage = _ := if_neg hmarked
    have hplain : writer.progress.mark stage = _ := if_neg hmarked
    rw [hbatched, hplain]
    rfl

theorem finalize (dataLength : Nat) : CountsApart (Writer.finalize dataLength) := by
  refine (onScribe _).bind fun lengths => ?_
  exact (mark .finalize).bind fun _ => changeProgress fun _ => rfl

theorem closeSegment : CountsApart Writer.closeSegment := by
  refine get_bind (fun _ => rfl) fun writer => (onScribe _).bind fun lengths => ?_
  refine (mark .finalize).bind fun _ => ?_
  exact CountsApart.bind (changeProgress fun _ => rfl) fun _ => changeProgress fun _ => rfl

theorem openSegment : CountsApart Writer.openSegment := by
  refine (onScribe _).bind fun slot => (mark .emit).bind fun _ => ?_
  exact CountsApart.bind (changeProgress fun _ => rfl) fun _ => changeProgress fun _ => rfl

theorem boundary (update : Option HeaderUpdate) : CountsApart (Writer.boundary update) := by
  have happly : CountsApart (Writer.apply update : Action StreamError Writer Unit) :=
    changeProgress fun _ => rfl
  unfold Writer.boundary
  refine get_bind (fun _ => rfl) fun writer => ?_
  dsimp only
  split
  · exact closeSegment.bind fun _ => happly.bind fun _ => openSegment
  · refine happly.bind fun _ => ?_
    split
    · exact finalize 0
    · exact openSegment

end CountsApart

end Writer

/-! ## Images of any target -/

theorem Port.mirrors_of_read {port : Port} {store : Store} (name : String)
    (h : store.read (.buffer name) = port.view) :
    port.Mirrors (fun _ => True)
      ⟨{ location := .buffer name, position := port.channel.offset }, store⟩ := by
  let image : Port := ⟨{ location := .buffer name, position := port.channel.offset }, store⟩
  have hview : image.view = store.read (.buffer name) := view_of_pending_nil rfl
  constructor
  · exact (hview.trans h).symm
  · rfl
  · exact ⟨⟨name, rfl⟩, rfl, rfl⟩
  · exact fun _ _ => trivial

/-- The channels of a target are apart, or none of them ever holds anything back. -/
def Target.IsOrderly (target : Target) : Prop :=
  target.places.Nodup ∨ ∀ channel ∈ target.channels, channel.IsDirect

namespace Outlet

/-- Wherever a target stands and whatever it holds, there is an image of it. -/
theorem exists_image (outlet : Outlet) (horderly : outlet.target.IsOrderly) :
    ∃ image : Outlet, outlet.Mirrors ⟨fun _ => True, outlet.target.places, image.target.places,
      outlet.host.store, image.host.store⟩ image := by
  obtain ⟨⟨label, data, header, dataEnd, headerEnd⟩, host⟩ := outlet
  let port : Port := ⟨data, host.store⟩
  let data' : Channel := { location := .buffer "data", position := port.channel.offset }
  let store : Store := Store.put {} (.buffer "data") port.view
  have hdata : store.read (.buffer "data") = port.view := Store.read_put_self ..
  cases header with
  | none =>
      refine ⟨⟨⟨label, data', none, dataEnd, headerEnd⟩, { store }⟩, ?_⟩
      have hmirrors := Port.mirrors_of_read "data" hdata
      exact ⟨hmirrors, hmirrors, rfl, rfl, rfl, rfl, rfl,
        .inl ⟨List.nodup_singleton _, List.nodup_singleton _⟩, fun _ _ => rfl, fun _ _ => rfl⟩
  | some header =>
      let port' : Port := ⟨header, host.store⟩
      by_cases hplace : header.location = data.location
      · -- channels to one place that hold nothing back have an image in one buffer
        have hdirect : ∀ channel ∈ [data, header], channel.IsDirect := by
          refine horderly.resolve_left fun happart => ?_
          simp [Target.places, Target.channels, hplace] at happart
        have hdata' := hdirect data List.mem_cons_self
        have hheader' := hdirect header (List.mem_cons_of_mem _ List.mem_cons_self)
        have hsame : port'.view = port.view := by
          rw [Port.view_of_isDirect hheader', Port.view_of_isDirect hdata', Port.contents,
            Port.contents, hplace]
        let header' : Channel := { location := .buffer "data", position := port'.channel.offset }
        refine ⟨⟨⟨label, data', some header', dataEnd, headerEnd⟩, { store }⟩, ?_⟩
        exact ⟨Port.mirrors_of_read "data" hdata,
          Port.mirrors_of_read "data" (hdata.trans hsame.symm), rfl, rfl, rfl, rfl, rfl,
          .inr ⟨⟨hplace, hdata', hheader'⟩, ⟨rfl, ⟨rfl, rfl⟩, ⟨rfl, rfl⟩⟩⟩, fun _ _ => rfl,
          fun _ _ => rfl⟩
      · -- channels that are apart have one in two buffers
        let header' : Channel := { location := .buffer "headers", position := port'.channel.offset }
        let store' := store.put (.buffer "headers") port'.view
        have hkept : store'.read (.buffer "data") = port.view :=
          (Store.read_put_of_ne store port'.view (by decide)).trans hdata
        have hheader : store'.read (.buffer "headers") = port'.view := Store.read_put_self ..
        have happart : [data.location, header.location].Nodup := by simpa using Ne.symm hplace
        have happart' : [Location.buffer "data", .buffer "headers"].Nodup := by decide
        refine ⟨⟨⟨label, data', some header', dataEnd, headerEnd⟩, { store := store' }⟩, ?_⟩
        exact ⟨Port.mirrors_of_read "data" hkept, Port.mirrors_of_read "headers" hheader, rfl, rfl,
          rfl, rfl, rfl, .inl ⟨happart, happart'⟩, fun _ _ => rfl, fun _ _ => rfl⟩

/-- Whatever mirrors the first mirrors the second. -/
def Passes (outlet next : Outlet) : Prop :=
  ∀ scene image, outlet.Mirrors scene image → next.Mirrors scene image

theorem Passes.trans {outlet middle next : Outlet} (h : outlet.Passes middle)
    (h' : middle.Passes next) : outlet.Passes next :=
  fun scene image hmirrors => h' scene image (h scene image hmirrors)

/-- A flush does not show in an image. -/
theorem flush_passes (outlet : Outlet) :
    Ends flush outlet (fun _ next => outlet.Passes next) (fun _ _ => True) := by
  have hreflects : ∀ {excused : IoFault → Prop} {port next image : Port}, port.Follows next →
      next.view = port.view → next.channel.offset = port.channel.offset →
      port.Mirrors excused image → port.Reflects excused image next image :=
    fun hfollows hview hoffset h => h.reflects (.of_follows hfollows) (.refl _)
      (hview.trans h.view) (hoffset.trans h.offset)
  have hdata : ∀ outlet : Outlet, Ends (onData Port.flush) outlet
      (fun _ next => outlet.Passes next) (fun _ _ => True) := by
    intro outlet
    rw [ends_onData]
    refine (Port.flush_views outlet.dataPort).mono ?_ fun _ _ _ => trivial
    rintro _ port ⟨hfollows, hview, hoffset, -⟩ scene image h
    exact h.withDataPort (hreflects hfollows hview hoffset h.data)
  simp only [flush, ends_bind, ends_get]
  split
  · rw [ends_bind, ends_onHeader]
    refine (Port.flush_views outlet.headerPort).mono ?_ fun _ _ _ => trivial
    rintro _ port ⟨hfollows, hview, hoffset, -⟩
    refine (hdata _).mono (fun _ next hnext => Passes.trans ?_ hnext) fun _ _ h => h
    intro scene image h
    have hself : image.withHeaderPort image.headerPort = image := by
      obtain ⟨⟨label, data, _ | header, dataEnd, headerEnd⟩, host⟩ := image <;> rfl
    have hheader := h.withHeaderPort (hreflects hfollows hview hoffset h.header)
    rwa [hself] at hheader
  · exact hdata outlet

end Outlet

/-! ## What an image comes to -/

namespace Writer

/-- The writer stands where the action leads its image. -/
def Reflects {result : Type} (writer : Writer) (scene : Scene) (image : Writer)
    (action : Action StreamError Writer result) (value : result) : Prop :=
  ∃ image', action image = .ok value image' ∧ writer.Mirrors scene image'

section Reflects

variable {result result' : Type} {scene : Scene} {writer image : Writer} {ceiling itemSize : Nat}

theorem Mirrors.relog (h : writer.Mirrors scene image) (log : List Event) :
    Mirrors scene { writer with outlet := { writer.outlet with
      host := { writer.outlet.host with log } } } image :=
  ⟨h.progress, h.outlet.relog log image.outlet.host.log⟩

theorem Mirrors.passes {next : Writer} (h : writer.Mirrors scene image)
    (hprogress : next.progress = writer.progress) (hpasses : writer.outlet.Passes next.outlet) :
    next.Mirrors scene image :=
  ⟨hprogress.trans h.progress, hpasses scene image.outlet h.outlet⟩

/-- Where storage alone can fail an action, its result is that of the image. -/
theorem reflects_of_agrees {action : Action StreamError Writer result}
    {good : result → Writer → Prop}
    (h : Agrees (StreamError.IsExcused scene.excused) (Mirrors scene) action action writer image)
    (hends : Ends action writer good (fun error _ => error.IsStorage)) :
    Ends action writer (fun value next => next.Reflects scene image action value ∧ good value next)
      (fun error _ => error.IsStorage) := by
  refine (Ends.and h hends).mono ?_ fun _ _ h => h.2
  rintro value next ⟨himage, hnext⟩
  obtain ⟨value', next', hok, rfl, hmirrors⟩ := himage.exists_ok
  exact ⟨⟨next', hok, hmirrors⟩, hnext⟩

theorem boundary_reflects (h : writer.Mirrors scene image) (hfitted : writer.IsFitted)
    (update : Option HeaderUpdate) :
    Ends (boundary update) writer
      (fun value next => next.Reflects scene image (boundary update) value ∧ next.IsFitted)
      (fun error _ => error.IsStorage) :=
  reflects_of_agrees (boundary_mirrors h update) (boundary_fitted hfitted update)

theorem runBatch_reflects (hsize : 0 < itemSize) (hceiling : 0 < ceiling)
    (h : writer.Mirrors scene image) (hfitted : writer.IsFitted) {items : Bytes}
    {tags : List (Nat × Tag)} (htags : InOrder 0 (items.length / itemSize) tags) :
    Ends (runBatch ceiling itemSize items tags) writer
      (fun count next => next.Reflects scene image (runBatch ceiling itemSize items tags) count ∧
        count = items.length / itemSize)
      (fun error _ => error.IsStorage) := by
  refine reflects_of_agrees (runBatch_mirrors h ceiling itemSize items tags) ?_
  exact (runBatch_fitted hsize hceiling hfitted htags).mono (fun _ _ h => h.1) fun _ _ h => h

theorem Reflects.bind {first : Action StreamError Writer result}
    {second : result → Action StreamError Writer result'} {value : result} {value' : result'}
    {middle : Writer} (himage : first image = .ok value middle)
    (h : writer.Reflects scene middle (second value) value') :
    writer.Reflects scene image (first >>= second) value' := by
  obtain ⟨image', hok, hmirrors⟩ := h
  exact ⟨image', (bind_of_ok himage second).trans hok, hmirrors⟩

end Reflects

end Writer

/-! ## Sessions -/

namespace Session

/--
Two runs have come to the same again: to one recorder, apart from how far calls on its
channels have got, and to the same on every channel, with what is still held back.
-/
structure Rejoins (session other : Session) : Prop where
  recorder : other.recorder = { session.recorder with active := other.recorder.active }
  places : other.recorder.active.map Target.places = session.recorder.active.map Target.places
  ends : other.recorder.active.map (fun target => (target.dataEnd, target.headerEnd)) =
    session.recorder.active.map fun target => (target.dataEnd, target.headerEnd)
  seen : ∀ target, session.recorder.active = some target →
    other.seen target.places = session.seen target.places
  elsewhere : ∀ place, (∀ target, session.recorder.active = some target → place ∉ target.places) →
    other.host.store.read place = session.host.store.read place

section Sessions

variable {session : Session} {target : Target} {scene : Scene} {image : Writer}

theorem rejoins_of_mirrors {writer writer' : Writer} (itemsRead : Nat)
    (h : writer.Mirrors scene image) (h' : writer'.Mirrors scene image) :
    Rejoins ((session.withWriter writer).readTo itemsRead)
      ((session.withWriter writer').readTo itemsRead) := by
  have hprogress : writer'.progress = writer.progress := h'.progress.trans h.progress.symm
  have hplaces : writer'.outlet.target.places = writer.outlet.target.places :=
    h'.outlet.places.trans h.outlet.places.symm
  constructor
  · simp only [readTo, withWriter, hprogress]
  · exact congrArg some hplaces
  · have hdata := h'.outlet.dataEnd.trans h.outlet.dataEnd.symm
    have hheader := h'.outlet.headerEnd.trans h.outlet.headerEnd.symm
    simp only [readTo, withWriter, Option.map_some, hdata, hheader]
  · rintro target ⟨⟩
    have hseen : Session.seen ((session.withWriter writer).readTo itemsRead)
        writer.outlet.target.places = writer.outlet.seen := seen_of_active rfl
    have hseen' : Session.seen ((session.withWriter writer').readTo itemsRead)
        writer'.outlet.target.places = writer'.outlet.seen := seen_of_active rfl
    rw [hplaces] at hseen'
    rw [hseen, hseen', h'.outlet.seen, h.outlet.seen]
  · intro place hplace
    have hother : place ∉ scene.places := h.outlet.places ▸ hplace _ rfl
    exact (h'.outlet.elsewhere place hother).trans (h.outlet.elsewhere place hother).symm

theorem flushUnbuffered_passes (session : Session) (writer : Writer) (itemsRead : Nat)
    (asError : IoFault → StreamError) (hstorage : ∀ cause, (asError cause).IsStorage) :
    Ends (flushUnbuffered asError) ((session.withWriter writer).readTo itemsRead)
      (fun _ next => ∃ flushed : Writer, next = (session.withWriter flushed).readTo itemsRead ∧
        flushed.progress = writer.progress ∧ writer.outlet.Passes flushed.outlet)
      (fun error _ => error.IsStorage) := by
  simp only [flushUnbuffered, ends_bind, ends_get]
  have hactive : ((session.withWriter writer).readTo itemsRead).recorder.active =
      some writer.outlet.target := rfl
  rw [hactive]
  cases ((session.withWriter writer).readTo itemsRead).recorder.unbuffered with
  | false => exact ⟨writer, rfl, rfl, fun _ _ => id⟩
  | true =>
      simp only [ends_onActive, ends_mapFault, Writer.onOutlet, ends_within]
      refine (Outlet.flush_passes writer.outlet).mono ?_ fun cause _ _ => hstorage cause
      exact fun _ outlet hpasses => ⟨⟨writer.progress, outlet⟩, rfl, rfl, hpasses⟩

/-- A batch on the target that is active already, by what the writer makes of it. -/
theorem work_of_runBatch {items : Bytes} {tags : List Tag} (good : Nat → Writer → Prop)
    (hopen : session.recorder.closed = false)
    (hwhole : items.length % session.recorder.config.itemSize.toNat = 0)
    (hidle : session.recorder.rotation.staged = [])
    (hactive : session.recorder.active = some target)
    (hpasses : ∀ count writer next, good count writer → next.progress = writer.progress →
      writer.outlet.Passes next.outlet → good count next)
    (hbatch : ∀ log, Ends (Writer.runBatch session.recorder.config.maxSegmentSize.toNat
        session.recorder.config.itemSize.toNat items (selected session.recorder.itemsRead
          (session.recorder.itemsRead +
            items.length / session.recorder.config.itemSize.toNat) tags))
      (Writer.batched ⟨session.recorder.progress, ⟨target, { session.host with log }⟩⟩) good
      (fun error _ => error.IsStorage)) :
    Ends (work items tags) session
      (fun count next => ∃ writer, good count writer ∧
        next = (session.withWriter writer).readTo (session.recorder.itemsRead +
          items.length / session.recorder.config.itemSize.toNat))
      (fun error _ => error.IsStorage) := by
  rw [ends_work tags hopen hwhole, ends_installPending_idle hidle, ends_takeBatch _ _ hactive]
  simp only [ends_bind, ends_pure, record, ends_get, ends_attempt]
  refine (selectTags_ends _ _ tags).mono ?_ fun _ _ h => h.elim
  rintro entries logged ⟨rfl, log, rfl⟩
  rw [ends_onActive]
  refine (hbatch log).mono ?_ ?_
  · intro count writer hwriter
    refine (flushUnbuffered_passes session writer _ (.write count) fun _ => trivial).mono ?_
      fun _ _ h => h
    rintro ⟨⟩ next ⟨flushed, rfl, hprogress, hflushed⟩
    exact ⟨flushed, hpasses count writer flushed hwriter hprogress hflushed, rfl⟩
  · intro error writer hstorage
    cases error.persisted? <;> exact hstorage

/-! ### Both ways -/

/-- Everything that stands before an update or the tag in its place. -/
structure Awaits (session : Session) (target : Target) (items : Bytes) (key : String)
    (value : Attribute) (update : HeaderUpdate) : Prop where
  usable : session.recorder.config.validate = .ok ()
  fitted : session.IsFitted
  accepting : session.recorder.closed = false
  active : session.recorder.active = some target
  idle : session.recorder.rotation.staged = []
  prepared : session.recorder.progress.headers.prepare key value = .ok update
  filled : items ≠ []
  whole : items.length % session.recorder.config.itemSize.toNat = 0

section Both

variable {items : Bytes} {key : String} {value : Attribute} {update : HeaderUpdate}

/-- What both ways make of the batch, once it is counted. -/
def amended (session : Session) (items : Bytes) (tags : List Tag) (update : HeaderUpdate) :
    Action StreamError Writer Nat := do
  let size := session.recorder.config.itemSize.toNat
  let first := session.recorder.itemsRead
  Writer.boundary (some update)
  Writer.runBatch session.recorder.config.maxSegmentSize.toNat size items
    (selected first (first + items.length / size) tags)

/-- The writer that makes the boundary, with the tag and the batch counted. -/
def amending (session : Session) (target : Target) : Writer :=
  (session.writerOn target).tagged.batched

theorem Awaits.updateAttribute_ends (h : session.Awaits target items key value update)
    (himage : (session.amending target).Mirrors scene image) :
    Ends (updateAttribute key value) session
      (fun _ next => ∃ writer image', next = session.withWriter writer ∧
        Writer.boundary (some update) image = .ok () image' ∧
        writer.batched.Mirrors scene image' ∧ writer.IsFitted)
      (fun error _ => error.IsStorage) := by
  have htagged : (session.writerOn target).tagged.IsFitted :=
    (h.fitted.active target h.active).of_same rfl rfl rfl rfl
  have hbatched : (session.amending target).IsFitted := htagged.of_same rfl rfl rfl rfl
  have hapart := Writer.CountsApart.boundary (some update) (session.writerOn target).tagged
  have hreflects := Writer.boundary_reflects himage hbatched (some update)
  simp only [updateAttribute, ends_bind, ends_get, h.prepared, ends_changeProgress, h.active,
    ends_onActive]
  refine (hapart.and (Writer.boundary_fitted htagged (some update))).mono ?_ fun _ _ h => h.2
  rintro ⟨⟩ writer ⟨hok, hfitted⟩
  obtain ⟨⟨image', himage', hmirrors⟩, -⟩ := hreflects.of_ok hok
  refine (flushUnbuffered_passes session writer session.recorder.itemsRead .io
    fun _ => trivial).mono ?_ fun _ _ h => h
  rintro ⟨⟩ next ⟨flushed, rfl, hprogress, hpasses⟩
  have hbatch : flushed.batched.progress = writer.batched.progress := by
    rw [Writer.batched, Writer.batched, hprogress]
  have hflushed : flushed.batched.Mirrors scene image' := hmirrors.passes hbatch hpasses
  refine ⟨flushed, image', rfl, himage', hflushed, hfitted.of_same ?_ ?_ ?_ ?_⟩
  · rw [hprogress]
  · rw [hprogress]
  · exact hflushed.outlet.isSplit.trans hmirrors.outlet.isSplit.symm
  · exact hflushed.outlet.cursor.trans hmirrors.outlet.cursor.symm

/-- What is left to do behind the boundary is the same for both. -/
theorem Awaits.runBatch_reflects (h : session.Awaits target items key value update)
    (tags : List Tag) {writer image' : Writer}
    (himage : Writer.boundary (some update) image = .ok () image')
    (hmirrors : writer.Mirrors scene image') (hfitted : writer.IsFitted) :
    Ends (Writer.runBatch session.recorder.config.maxSegmentSize.toNat
        session.recorder.config.itemSize.toNat items (selected session.recorder.itemsRead
          (session.recorder.itemsRead +
            items.length / session.recorder.config.itemSize.toNat) tags)) writer
      (fun count next => next.Reflects scene image (session.amended items tags update) count ∧
        count = items.length / session.recorder.config.itemSize.toNat)
      (fun error _ => error.IsStorage) := by
  have horder := selected_inOrder session.recorder.itemsRead (session.recorder.itemsRead +
    items.length / session.recorder.config.itemSize.toNat) tags
  rw [Nat.add_sub_cancel_left] at horder
  refine (Writer.runBatch_reflects (Config.itemSize_pos h.usable) (Config.ceiling_pos h.usable)
    hmirrors hfitted horder).mono ?_ fun _ _ h => h
  rintro count next ⟨hreflects, hcount⟩
  exact ⟨hreflects.bind himage, hcount⟩

/-- The end of both ways. -/
def Completes (session : Session) (scene : Scene) (image : Writer) (items : Bytes) (tags : List Tag)
    (update : HeaderUpdate) (count : Nat) (next : Session) : Prop :=
  count = items.length / session.recorder.config.itemSize.toNat ∧ ∃ writer : Writer,
    writer.Reflects scene image (session.amended items tags update) count ∧
    next = (session.withWriter writer).readTo (session.recorder.itemsRead + count)

theorem Completes.of_reflects {tags : List Tag} {count : Nat} {writer : Writer}
    (h : writer.Reflects scene image (session.amended items tags update) count ∧
      count = items.length / session.recorder.config.itemSize.toNat) :
    session.Completes scene image items tags update count ((session.withWriter writer).readTo
      (session.recorder.itemsRead + items.length / session.recorder.config.itemSize.toNat)) := by
  obtain ⟨hreflects, rfl⟩ := h
  exact ⟨rfl, writer, hreflects, rfl⟩

theorem Awaits.completes_of_writer (h : session.Awaits target items key value update)
    (tags : List Tag) {writer image' : Writer}
    (himage : Writer.boundary (some update) image = .ok () image')
    (hmirrors : writer.batched.Mirrors scene image') (hfitted : writer.IsFitted) :
    Ends (work items tags) (session.withWriter writer)
      (fun count next => session.Completes scene image items tags update count next)
      (fun error _ => error.IsStorage) := by
  have haccepting : (session.withWriter writer).recorder.closed = false := h.accepting
  have hidle : (session.withWriter writer).recorder.rotation.staged = [] := h.idle
  have hactive : (session.withWriter writer).recorder.active = some writer.outlet.target := rfl
  refine (work_of_runBatch (fun count next =>
    next.Reflects scene image (session.amended items tags update) count ∧
      count = items.length / session.recorder.config.itemSize.toNat) haccepting h.whole hidle
        hactive ?_ ?_).mono ?_ fun _ _ h => h
  · rintro count current next ⟨⟨image'', hok, hmirrors⟩, hcount⟩ hprogress hpasses
    exact ⟨⟨image'', hok, hmirrors.passes hprogress hpasses⟩, hcount⟩
  · intro log
    have hrelogged := hmirrors.relog log
    exact h.runBatch_reflects tags himage hrelogged (hfitted.of_same rfl rfl rfl rfl)
  · rintro count next ⟨last, hlast, rfl⟩
    exact .of_reflects hlast

theorem Awaits.completes_of_tag (h : session.Awaits target items key value update)
    (tags : List Tag) (himage : (session.amending target).Mirrors scene image) :
    Ends (work items (⟨session.recorder.itemsRead, key, value⟩ :: tags)) session
      (fun count next => session.Completes scene image items tags update count next)
      (fun error _ => error.IsStorage) := by
  have hfitted := h.fitted.active target h.active
  have hpos : 0 < items.length / session.recorder.config.itemSize.toNat := by
    have hlength : 0 < items.length := List.length_pos_iff.mpr h.filled
    exact Nat.div_pos (Nat.le_of_dvd hlength (Nat.dvd_of_mod_eq_zero h.whole))
      (Config.itemSize_pos h.usable)
  have hselected := selected_cons (Nat.lt_add_of_pos_right hpos : session.recorder.itemsRead < _)
    key value tags
  refine (work_of_runBatch (fun count next =>
    next.Reflects scene image (session.amended items tags update) count ∧
      count = items.length / session.recorder.config.itemSize.toNat) h.accepting h.whole h.idle
        h.active ?_ ?_).mono ?_ fun _ _ h => h
  · rintro count current next ⟨⟨image'', hok, hmirrors⟩, hcount⟩ hprogress hpasses
    exact ⟨⟨image'', hok, hmirrors.passes hprogress hpasses⟩, hcount⟩
  · intro log
    rw [hselected]
    refine Writer.runBatch_of_boundary h.prepared ?_
    have hrelogged := himage.relog log
    refine (Writer.boundary_reflects hrelogged (hfitted.of_same rfl rfl rfl rfl)
      (some update)).mono ?_ fun error _ hstorage => hstorage.withPersisted 0
    rintro ⟨⟩ writer ⟨⟨image', hok, hmirrors⟩, hwriter⟩
    exact h.runBatch_reflects tags hok hmirrors hwriter
  · rintro count next ⟨last, hlast, rfl⟩
    exact .of_reflects hlast

/-- An update and a batch go the way of the batch with a tag in place of the update. -/
theorem Completes.rejoins {tags : List Tag} {count count' : Nat} {next next' : Session}
    (h : session.Completes scene image items tags update count next)
    (h' : session.Completes scene image items tags update count' next') :
    next.Rejoins next' := by
  obtain ⟨rfl, writer, ⟨image', hok, hmirrors⟩, rfl⟩ := h
  obtain ⟨rfl, writer', ⟨image'', hok', hmirrors'⟩, rfl⟩ := h'
  cases hok.symm.trans hok'
  exact rejoins_of_mirrors _ hmirrors hmirrors'

end Both

end Sessions

/-! ## The update and the tag -/

theorem IsSpared.after {excused : IoFault → Prop} {session : Session} {first later : List Call}
    (h : IsSpared excused session (first ++ later)) :
    IsSpared excused (session.after first) later := by
  intro error herror
  apply h error
  rw [replies_append]
  exact List.mem_append_right _ herror

/-- Where storage alone can fail a call, one that is spared succeeds. -/
theorem reply_of_spared {session : Session} {call : Call} {rest : List Call}
    {good : Option Nat → Session → Prop}
    (hspared : IsSpared (fun _ => True) session (call :: rest))
    (h : Ends (reply call) session good (fun error _ => error.IsStorage)) :
    ∃ value, ((reply call).run session).1 = .ok value ∧
      good value ((answer call).stateAfter session) := by
  rw [← stateAfter_reply]
  obtain hgood | ⟨error, hreply, hstorage⟩ := run_of_ends h
  · exact hgood
  · exact absurd hstorage (hspared error (hreply ▸ List.mem_cons_self))

section Served

variable {session : Session} {target : Target} {scene : Scene} {image : Writer} {items : Bytes}
  {key : String} {value : Attribute} {update : HeaderUpdate}

/-- An update and a batch behind it go through, unless storage fails. -/
theorem Awaits.serves_update (h : session.Awaits target items key value update) (tags : List Tag)
    (himage : (session.amending target).Mirrors scene image)
    (hspared : session.IsSpared (fun _ => True) [.update key value, .work items tags]) :
    ∃ stored, session.replies [.update key value, .work items tags] =
        [.ok none, .ok (some stored)] ∧
      session.Completes scene image items tags update stored
        (session.after [.update key value, .work items tags]) := by
  have hupdate : Ends (reply (.update key value)) session
      (fun found next => found = none ∧ ∃ writer image', next = session.withWriter writer ∧
        Writer.boundary (some update) image = .ok () image' ∧
        writer.batched.Mirrors scene image' ∧ writer.IsFitted)
      (fun error _ => error.IsStorage) := by
    rw [ends_reply (by simp)]
    exact (h.updateAttribute_ends himage).mono (fun _ _ h => ⟨rfl, h⟩) fun _ _ h => h
  obtain ⟨_, hreply, rfl, writer, image', hmiddle, hok, hmirrors, hwriter⟩ :=
    reply_of_spared hspared hupdate
  have hbatch : Ends (reply (.work items tags)) (session.withWriter writer)
      (fun found next => ∃ stored, found = some stored ∧
        session.Completes scene image items tags update stored next)
      (fun error _ => error.IsStorage) := by
    rw [reply, ends_map]
    exact (h.completes_of_writer tags hok hmirrors hwriter).mono
      (fun stored _ h => ⟨stored, rfl, h⟩) fun _ _ h => h
  have hrest : (session.withWriter writer).IsSpared (fun _ => True) [.work items tags] := by
    rw [← hmiddle]
    exact fun error herror => hspared error (List.mem_cons_of_mem _ herror)
  obtain ⟨_, hreply', stored, rfl, hcompletes⟩ := reply_of_spared hrest hbatch
  refine ⟨stored, ?_, ?_⟩
  · rw [replies, replies, replies, hreply, hmiddle, hreply']
  · have hafter : session.after [.update key value, .work items tags] =
        (answer (.work items tags)).stateAfter (session.withWriter writer) := by
      rw [← hmiddle]
      rfl
    rwa [hafter]

/-- So does the batch with a tag in place of the update. -/
theorem Awaits.serves_tag (h : session.Awaits target items key value update) (tags : List Tag)
    (himage : (session.amending target).Mirrors scene image)
    (hspared : session.IsSpared (fun _ => True)
      [.work items (⟨session.recorder.itemsRead, key, value⟩ :: tags)]) :
    ∃ stored, session.replies [.work items (⟨session.recorder.itemsRead, key, value⟩ :: tags)] =
        [.ok (some stored)] ∧
      session.Completes scene image items tags update stored
        (session.after [.work items (⟨session.recorder.itemsRead, key, value⟩ :: tags)]) := by
  have htagged : Ends (reply (.work items (⟨session.recorder.itemsRead, key, value⟩ :: tags)))
      session
      (fun found next => ∃ stored, found = some stored ∧
        session.Completes scene image items tags update stored next)
      (fun error _ => error.IsStorage) := by
    rw [reply, ends_map]
    exact (h.completes_of_tag tags himage).mono (fun stored _ h => ⟨stored, rfl, h⟩)
      fun _ _ h => h
  obtain ⟨_, hreply, stored, rfl, hcompletes⟩ := reply_of_spared hspared htagged
  exact ⟨stored, by rw [replies, replies, hreply], hcompletes⟩

end Served

/--
As long as no channel fails, an update in front of a batch comes to the same as a tag at
the first record of the batch, in front of all its tags.  The channels of the target are
apart, as the files of a target always are, or hold nothing back, as buffers never do: what
two channels hold back for one file lands in the order in which they are flushed.
-/
theorem update_rejoins_tag {config : Config} {destination : Destination} {host : Host}
    {session last : Session} {calls : List Call}
    (hstart : Recorder.start config destination host = .ok session.recorder session.host)
    (hlast : session.after calls = last) {target : Target}
    (hactive : last.recorder.active = some target) (horderly : target.IsOrderly)
    (haccepting : last.recorder.closed = false) (hidle : last.recorder.rotation.staged = [])
    {key : String} {value : Attribute} {update : HeaderUpdate}
    (hprepared : last.recorder.progress.headers.prepare key value = .ok update)
    {items : Bytes} (hfilled : items ≠ []) (hwhole : items.length % config.itemSize.toNat = 0)
    (tags : List Tag)
    (hspared : session.IsSpared (fun _ => True) (calls ++ [.update key value, .work items tags]))
    (hspared' : session.IsSpared (fun _ => True)
      (calls ++ [.work items (⟨last.recorder.itemsRead, key, value⟩ :: tags)])) :
    let count := items.length / config.itemSize.toNat
    let updated := [.update key value, .work items tags]
    let tagged := [.work items (⟨last.recorder.itemsRead, key, value⟩ :: tags)]
    last.replies updated = [.ok none, .ok (some count)] ∧
      last.replies tagged = [.ok (some count)] ∧
      (last.after updated).Rejoins (last.after tagged) := by
  intro count updated tagged
  obtain ⟨hconfig, hvalid, hfitted⟩ := (Recorder.start_fitted config destination host).of_ok hstart
  have hvalid' : session.recorder.config.validate = .ok () := hconfig ▸ hvalid
  have hsame : last.recorder.config = config := by
    rw [← hlast, after_config, hconfig]
  have hfitted' : last.IsFitted := hlast ▸ after_isFitted hvalid' hfitted hspared.of_append
  have hbehind : last.IsSpared (fun _ => True) updated := hlast ▸ hspared.after
  have hbehind' : last.IsSpared (fun _ => True) tagged := hlast ▸ hspared'.after
  have hawaits : last.Awaits target items key value update :=
    ⟨hsame ▸ hvalid, hfitted', haccepting, hactive, hidle, hprepared, hfilled, hsame ▸ hwhole⟩
  obtain ⟨outlet, houtlet⟩ := Outlet.exists_image ⟨target, last.host⟩ horderly
  let image : Writer := ⟨(last.amending target).progress, outlet⟩
  let scene : Scene :=
    ⟨fun _ => True, target.places, outlet.target.places, last.host.store, outlet.host.store⟩
  have himage : (last.amending target).Mirrors scene image := ⟨rfl, houtlet⟩
  obtain ⟨stored, hreplies, hcompletes⟩ := hawaits.serves_update tags himage hbehind
  obtain ⟨stored', hreplies', hcompletes'⟩ := hawaits.serves_tag tags himage hbehind'
  have hcount : stored = count := hcompletes.1.trans (by rw [hsame])
  have hcount' : stored' = count := hcompletes'.1.trans (by rw [hsame])
  exact ⟨hcount ▸ hreplies, hcount' ▸ hreplies', hcompletes.rejoins hcompletes'⟩

/-- A full segment, an update behind it, and a tag that the batch does not reach. -/
theorem update_rejoins_tag_split :
    let config : Config := { maxSegmentSize := 2, splitHeader := true, unbuffered := true }
    let data : Channel :=
      { location := .buffer "data", faults := { writes := [(1, .interrupted), (3, .accepts 1)] } }
    let header : Channel := { location := .buffer "headers" }
    let calls : List Call := [.work [1, 2] [⟨1, "size", .uint 9⟩]]
    let tags : List Tag := [⟨9, "note", .uint 1⟩]
    let updated : List Call := [.update "gain" (.uint 3), .work [3, 4] tags]
    let tagged : List Call := [.work [3, 4] (⟨2, "gain", .uint 3⟩ :: tags)]
    ∃ session : Session, Recorder.start config (.channels data (some header)) {} =
        .ok session.recorder session.host ∧
      (session.after calls).replies updated = [.ok none, .ok (some 2)] ∧
      (session.after calls).replies tagged = [.ok (some 2)] ∧
      ((session.after calls).after updated).Rejoins ((session.after calls).after tagged) := by
  intro config data header calls tags updated tagged
  have hends : Ends (Recorder.start config (.channels data (some header))) {}
      (fun recorder started =>
        let last := (Session.mk recorder started).after calls
        last.recorder.itemsRead = 2 ∧ last.recorder.closed = false ∧
          last.recorder.rotation.staged = [] ∧
          (last.recorder.active.map fun target => decide target.places.Nodup) = some true ∧
          (last.recorder.progress.headers.prepare "gain" (.uint 3)).isOk = true ∧
          ((Session.mk recorder started).replies (calls ++ updated)).all Except.isOk = true ∧
          ((Session.mk recorder started).replies (calls ++ tagged)).all Except.isOk = true)
      (fun _ _ => False) := by decide +kernel
  obtain ⟨recorder, started, hstart, hread, haccepting, hidle, happart, hprepared, hall, hall'⟩ :=
    hends.exists_ok
  let session : Session := ⟨recorder, started⟩
  obtain ⟨target, hactive, happart⟩ := Option.map_eq_some_iff.mp happart
  obtain ⟨update, hprepared⟩ : ∃ update,
      (session.after calls).recorder.progress.headers.prepare "gain" (.uint 3) = .ok update := by
    cases hfound : (session.after calls).recorder.progress.headers.prepare "gain" (.uint 3) with
    | ok update => exact ⟨update, rfl⟩
    | error error =>
        rw [hfound] at hprepared
        cases hprepared
  have hspared : session.IsSpared (fun _ => True) (calls ++ updated) := by
    intro error herror
    cases List.all_eq_true.mp hall _ herror
  have hspared' : session.IsSpared (fun _ => True) (calls ++ tagged) := by
    intro error herror
    cases List.all_eq_true.mp hall' _ herror
  have htagged : tagged =
      [.work [3, 4] (⟨(session.after calls).recorder.itemsRead, "gain", .uint 3⟩ :: tags)] := by
    rw [hread]
  rw [htagged] at hspared' ⊢
  have hwhole : [(3 : UInt8), 4].length % config.itemSize.toNat = 0 := by decide
  have hcount : [(3 : UInt8), 4].length / config.itemSize.toNat = 2 := by decide
  have hboth := update_rejoins_tag hstart rfl hactive (.inl (of_decide_eq_true happart)) haccepting hidle
    hprepared (List.cons_ne_nil _ _) hwhole tags hspared hspared'
  rw [hcount] at hboth
  exact ⟨session, hstart, hboth⟩

end Session

end SegmentStream
