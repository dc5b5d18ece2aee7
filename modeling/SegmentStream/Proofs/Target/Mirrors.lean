import SegmentStream.Proofs.Storage.Mirrors
import SegmentStream.Proofs.Target.Calls

/-!
# Mirrored targets

The image of a target writes to buffers of its own at the same offsets.  Calls on
a target go the same way on its image as long as no channel fails, and neither
touches the places of other targets.
-/

namespace SegmentStream

open SegmentStream.Action

/-- A failure of storage, by a cause that is excused. -/
def StreamError.IsExcused (excused : IoFault → Prop) : StreamError → Prop
  | .io cause => excused cause
  | .write _ cause => excused cause
  | _ => False

theorem StreamError.IsExcused.mono {excused excused' : IoFault → Prop} {error : StreamError}
    (h : error.IsExcused excused) (himp : ∀ cause, excused cause → excused' cause) :
    error.IsExcused excused' := by
  cases error with
  | io cause => exact himp cause h
  | write persisted cause => exact himp cause h
  | _ => exact h

/-- The target holds nothing back. -/
def Target.IsFlushed (target : Target) : Prop := ∀ channel ∈ target.channels, channel.pending = []

/-- The places of a target and of its image, and what all other places hold. -/
structure Scene where
  excused : IoFault → Prop
  places : List Location
  places' : List Location
  store : Store
  store' : Store

/-- Both channels write to one place, and neither holds anything back. -/
structure Target.IsShared (target : Target) : Prop where
  together : target.headerChannel.location = target.data.location
  data : target.data.IsDirect
  header : target.headerChannel.IsDirect

theorem Target.IsShared.withCursor {target : Target} (h : target.IsShared) (cursor : Nat) :
    (target.withCursor cursor).IsShared := by
  obtain ⟨label, data, _ | header, dataEnd, headerEnd⟩ := target
  · exact ⟨h.together, h.data, h.header⟩
  · exact ⟨h.together, h.data, h.header⟩

theorem Target.IsShared.withDataEnd {target : Target} (h : target.IsShared) (offset : Nat) :
    Target.IsShared { target with dataEnd := offset } :=
  ⟨h.together, h.data, h.header⟩

namespace Outlet

/--
The image stands where the outlet does; no place of another target has changed.
What one channel writes is nothing to the other, or shows on it at once.
-/
structure Mirrors (scene : Scene) (outlet image : Outlet) : Prop where
  data : outlet.dataPort.Mirrors scene.excused image.dataPort
  header : outlet.headerPort.Mirrors scene.excused image.headerPort
  isSplit : outlet.target.isSplit = image.target.isSplit
  dataEnd : outlet.target.dataEnd = image.target.dataEnd
  headerEnd : outlet.target.headerEnd = image.target.headerEnd
  places : outlet.target.places = scene.places
  places' : image.target.places = scene.places'
  apart : scene.places.Nodup ∧ scene.places'.Nodup ∨
    outlet.target.IsShared ∧ image.target.IsShared
  elsewhere : ∀ place, place ∉ scene.places →
    outlet.host.store.read place = scene.store.read place
  elsewhere' : ∀ place, place ∉ scene.places' →
    image.host.store.read place = scene.store'.read place

section Ports

variable {scene : Scene} {outlet image : Outlet} {port port' : Port}

theorem Mirrors.cursor (h : outlet.Mirrors scene image) :
    outlet.target.cursor = image.target.cursor := by
  unfold Target.cursor
  rw [h.isSplit, h.dataEnd, h.headerEnd]

theorem Mirrors.withDataEnd (h : outlet.Mirrors scene image) (offset : Nat) :
    (outlet.withDataEnd offset).Mirrors scene (image.withDataEnd offset) := by
  refine ⟨h.data, h.header, h.isSplit, rfl, h.headerEnd, h.places, h.places', ?_, h.elsewhere,
    h.elsewhere'⟩
  exact h.apart.imp_right fun hshared =>
    ⟨hshared.1.withDataEnd offset, hshared.2.withDataEnd offset⟩

theorem Mirrors.relog (h : outlet.Mirrors scene image) (log log' : List Event) :
    Mirrors scene { outlet with host := { outlet.host with log } }
      { image with host := { image.host with log := log' } } :=
  ⟨h.data, h.header, h.isSplit, h.dataEnd, h.headerEnd, h.places, h.places', h.apart,
    h.elsewhere, h.elsewhere'⟩

theorem places_withCursor (outlet : Outlet) (cursor : Nat) :
    (outlet.withCursor cursor).target.places = outlet.target.places := by
  obtain ⟨⟨label, data, _ | header, dataEnd, headerEnd⟩, host⟩ := outlet <;> rfl

theorem host_withCursor (outlet : Outlet) (cursor : Nat) :
    (outlet.withCursor cursor).host = outlet.host := by
  obtain ⟨⟨label, data, _ | header, dataEnd, headerEnd⟩, host⟩ := outlet <;> rfl

theorem Mirrors.withCursor (h : outlet.Mirrors scene image) (cursor : Nat) :
    (outlet.withCursor cursor).Mirrors scene (image.withCursor cursor) := by
  have hends : (outlet.withCursor cursor).target.dataEnd = (image.withCursor cursor).target.dataEnd ∧
      (outlet.withCursor cursor).target.headerEnd = (image.withCursor cursor).target.headerEnd := by
    have hsplit := h.isSplit
    have hdataEnd := h.dataEnd
    have hheaderEnd := h.headerEnd
    obtain ⟨⟨label, data, _ | header, dataEnd, headerEnd⟩, host⟩ := outlet <;>
      obtain ⟨⟨label', data', _ | header', dataEnd', headerEnd'⟩, host'⟩ := image
    · exact ⟨rfl, hheaderEnd⟩
    · cases hsplit
    · cases hsplit
    · exact ⟨hdataEnd, rfl⟩
  constructor
  · rw [dataPort_withCursor, dataPort_withCursor]
    exact h.data
  · rw [headerPort_withCursor, headerPort_withCursor]
    exact h.header
  · rw [isSplit_withCursor, isSplit_withCursor]
    exact h.isSplit
  · exact hends.1
  · exact hends.2
  · rw [places_withCursor]
    exact h.places
  · rw [places_withCursor]
    exact h.places'
  · exact h.apart.imp_right fun hshared =>
      ⟨hshared.1.withCursor cursor, hshared.2.withCursor cursor⟩
  · rw [host_withCursor]
    exact h.elsewhere
  · rw [host_withCursor]
    exact h.elsewhere'

/-- Only the place of one channel changes on either side; it is in the scene. -/
theorem Mirrors.elsewhere_of_confines (h : outlet.Mirrors scene image)
    {current current' : Port} (hstore : current.store = outlet.host.store)
    (hstore' : current'.store = image.host.store)
    (hplace : current.channel.location ∈ scene.places)
    (hplace' : current'.channel.location ∈ scene.places')
    (hreflects : current.Reflects scene.excused current' port port') :
    (∀ place, place ∉ scene.places → port.store.read place = scene.store.read place) ∧
      ∀ place, place ∉ scene.places' → port'.store.read place = scene.store'.read place := by
  constructor
  · intro place hother
    have hne : place ≠ current.channel.location := fun heq => hother (heq ▸ hplace)
    rw [hreflects.confines.elsewhere place hne, hstore, h.elsewhere place hother]
  · intro place hother
    have hne : place ≠ current'.channel.location := fun heq => hother (heq ▸ hplace')
    rw [hreflects.confines'.elsewhere place hne, hstore', h.elsewhere' place hother]

theorem data_mem_places (target : Target) : target.data.location ∈ target.places :=
  List.mem_map_of_mem List.mem_cons_self

theorem headerChannel_mem_places (target : Target) :
    target.headerChannel.location ∈ target.places := by
  obtain ⟨label, data, _ | header, dataEnd, headerEnd⟩ := target <;>
    simp [Target.places, Target.channels, Target.headerChannel]

theorem shared_withDataPort (h : outlet.target.IsShared) (hport : outlet.dataPort.Confines port) :
    (outlet.withDataPort port).target.IsShared := by
  have hlocation := hport.stays.location
  have hdirect := hport.direct h.data
  obtain ⟨⟨label, data, _ | header, dataEnd, headerEnd⟩, host⟩ := outlet
  · exact ⟨rfl, hdirect, hdirect⟩
  · exact ⟨h.together.trans hlocation.symm, hdirect, h.header⟩

theorem shared_withHeaderPort (h : outlet.target.IsShared)
    (hport : outlet.headerPort.Confines port) :
    (outlet.withHeaderPort port).target.IsShared := by
  have hlocation := hport.stays.location
  have hdirect := hport.direct h.header
  obtain ⟨⟨label, data, _ | header, dataEnd, headerEnd⟩, host⟩ := outlet
  · exact ⟨rfl, hdirect, hdirect⟩
  · exact ⟨hlocation.trans h.together, h.data, hdirect⟩

theorem Mirrors.withDataPort (h : outlet.Mirrors scene image)
    (hreflects : outlet.dataPort.Reflects scene.excused image.dataPort port port') :
    (outlet.withDataPort port).Mirrors scene (image.withDataPort port') := by
  have hplace : outlet.dataPort.channel.location ∈ scene.places := by
    rw [← h.places]
    exact data_mem_places outlet.target
  have hplace' : image.dataPort.channel.location ∈ scene.places' := by
    rw [← h.places']
    exact data_mem_places image.target
  obtain ⟨helsewhere, helsewhere'⟩ := h.elsewhere_of_confines rfl rfl hplace hplace' hreflects
  have hlocation := hreflects.confines.stays.location
  have hlocation' := hreflects.confines'.stays.location
  have hplaces := h.places
  have hplaces' := h.places'
  have happart := h.apart
  have hheader := h.header
  have hsplit := h.isSplit
  rw [← hplaces, ← hplaces'] at happart
  refine ⟨hreflects.mirrors, ?_, hsplit, h.dataEnd, h.headerEnd, ?_, ?_, ?_, helsewhere,
    helsewhere'⟩
  · obtain ⟨⟨label, data, _ | header, dataEnd, headerEnd⟩, host⟩ := outlet <;>
      obtain ⟨⟨label', data', _ | header', dataEnd', headerEnd'⟩, host'⟩ := image
    · exact hreflects.mirrors
    · cases hsplit
    · cases hsplit
    · rcases happart with ⟨happart, happart'⟩ | ⟨hshared, hshared'⟩
      · -- the channel for headers stands elsewhere on both sides
        have hne := (Target.data_ne_header happart rfl).symm
        have hne' := (Target.data_ne_header happart' rfl).symm
        exact hheader.elsewhere (hreflects.confines.elsewhere _ hne)
          (hreflects.confines'.elsewhere _ hne')
      · exact hheader.together hreflects.mirrors (hshared.together.trans hlocation.symm)
          (hshared'.together.trans hlocation'.symm) hshared.header
          (hreflects.confines.direct hshared.data)
  · rw [← hplaces]
    exact congrArg (· :: outlet.target.header.toList.map Channel.location) hlocation
  · rw [← hplaces']
    exact congrArg (· :: image.target.header.toList.map Channel.location) hlocation'
  · exact h.apart.imp_right fun hshared => ⟨shared_withDataPort hshared.1 hreflects.confines,
      shared_withDataPort hshared.2 hreflects.confines'⟩

theorem Mirrors.withHeaderPort (h : outlet.Mirrors scene image)
    (hreflects : outlet.headerPort.Reflects scene.excused image.headerPort port port') :
    (outlet.withHeaderPort port).Mirrors scene (image.withHeaderPort port') := by
  have hsplit := h.isSplit
  cases hapart : outlet.target.isSplit with
  | false =>
      have hapart' : image.target.isSplit = false := hsplit.symm.trans hapart
      rw [← dataPort_eq_headerPort hapart, ← dataPort_eq_headerPort hapart'] at hreflects
      have hone : ∀ {whole : Outlet} {port : Port}, whole.target.isSplit = false →
          whole.withHeaderPort port = whole.withDataPort port := by
        rintro ⟨⟨label, data, _ | header, dataEnd, headerEnd⟩, host⟩ port hwhole
        · rfl
        · cases hwhole
      rw [hone hapart, hone hapart']
      exact h.withDataPort hreflects
  | true =>
      have hplace : outlet.headerPort.channel.location ∈ scene.places := by
        rw [← h.places]
        exact headerChannel_mem_places outlet.target
      have hplace' : image.headerPort.channel.location ∈ scene.places' := by
        rw [← h.places']
        exact headerChannel_mem_places image.target
      obtain ⟨helsewhere, helsewhere'⟩ := h.elsewhere_of_confines rfl rfl hplace hplace' hreflects
      have hlocation := hreflects.confines.stays.location
      have hlocation' := hreflects.confines'.stays.location
      have hplaces := h.places
      have hplaces' := h.places'
      have happart := h.apart
      have hdata := h.data
      have hdataEnd := h.dataEnd
      have hheaderEnd := h.headerEnd
      have hmeet := h.apart.imp_right fun hshared =>
        And.intro (shared_withHeaderPort hshared.1 hreflects.confines)
          (shared_withHeaderPort hshared.2 hreflects.confines')
      rw [← hplaces, ← hplaces'] at happart
      obtain ⟨⟨label, data, _ | header, dataEnd, headerEnd⟩, host⟩ := outlet
      · cases hapart
      · obtain ⟨⟨label', data', _ | header', dataEnd', headerEnd'⟩, host'⟩ := image
        · cases hsplit
        · refine ⟨?_, hreflects.mirrors, rfl, hdataEnd, hheaderEnd, ?_, ?_, hmeet, helsewhere,
            helsewhere'⟩
          · rcases happart with ⟨happart, happart'⟩ | ⟨hshared, hshared'⟩
            · have hne := Target.data_ne_header happart rfl
              have hne' := Target.data_ne_header happart' rfl
              exact hdata.elsewhere (hreflects.confines.elsewhere _ hne)
                (hreflects.confines'.elsewhere _ hne')
            · exact hdata.together hreflects.mirrors (hlocation.trans hshared.together).symm
                (hlocation'.trans hshared'.together).symm hshared.data
                (hreflects.confines.direct hshared.header)
          · rw [← hplaces]
            exact congrArg (fun place => [data.location, place]) hlocation
          · rw [← hplaces']
            exact congrArg (fun place => [data'.location, place]) hlocation'

end Ports

/-! ## Calls -/

section Calls

variable {scene : Scene} {outlet image : Outlet}

theorem writeData_mirrors (h : outlet.Mirrors scene image) (bytes : Bytes) (recordLength : Nat) :
    Agrees (fun partly => scene.excused partly.cause) (Mirrors scene)
      (writeData bytes recordLength) (writeData bytes recordLength) outlet image := by
  obtain ⟨hwhole', hdelivered⟩ := Port.deliver_mirrors h.data .nothingAccepted bytes
  apply beside_of_ends
  simp only [writeData, ends_bind, ends_get, ends_onData, ends_change, hwhole']
  cases hfault : (Port.deliver .nothingAccepted bytes outlet.dataPort).1.fault with
  | none =>
      obtain ⟨hstored, hreflects⟩ := hdelivered hfault
      simp only [setDataEnd, ends_modify, hstored]
      rw [← h.dataEnd]
      exact ⟨trivial, (h.withDataPort hreflects).withDataEnd _⟩
  | some cause =>
      have hall : ∀ cause, scene.excused cause := by
        apply Port.deliver_excused h.data
        rw [hfault]
        exact Option.some_ne_none cause
      simp only [setDataEnd, report]
      split
      · exact hall cause
      · rw [ends_bind, ends_attempt]
        apply ends_of_forall
        · exact fun _ _ => hall cause
        · exact fun _ _ => hall cause

/-- Only a plan keeps a channel from taking a header, and that excuses everything. -/
theorem appendHeader_mirrors (h : outlet.Mirrors scene image) (region : Bytes) :
    Agrees (fun _ => ∀ cause, scene.excused cause) (Mirrors scene) (appendHeader region)
      (appendHeader region) outlet image := by
  unfold Agrees appendHeader
  rw [beside_get_bind]
  have hwritten : Beside (fun _ => ∀ cause, scene.excused cause) (onHeader (Port.writeAll region))
      (onHeader (Port.writeAll region)) outlet image
      (fun _ _ next next' => next.Mirrors scene next') fun _ _ _ => False := by
    apply Beside.within
    apply (Port.writeAll_mirrors h.header region).mono
    · exact fun _ _ port port' hport => h.withHeaderPort hport.1
    · exact fun _ _ _ => id
  apply Beside.attempt_bind
  · apply hwritten.mono
    · intro _ _ next next' hnext
      apply Beside.bind
      unfold setCursor
      rw [beside_modify, beside_pure, h.cursor]
      exact ⟨rfl, hnext.withCursor _⟩
    · exact fun _ _ _ hfalse => hfalse.elim
  · intro cause later hall
    rw [ends_bind]
    apply ends_of_forall
    · exact fun _ _ => hall
    · exact fun _ _ => hall

/-- Both refuse another length away from the tail, and both stay as they are then. -/
theorem rewriteHeader_mirrors (h : outlet.Mirrors scene image) (slot : Slot) {region : Bytes}
    (hregion : region ≠ []) :
    Agrees (StreamError.IsExcused scene.excused) (Mirrors scene) (rewriteHeader slot region)
      (rewriteHeader slot region) outlet image := by
  unfold Agrees rewriteHeader
  rw [beside_get_bind]
  dsimp only
  rw [h.cursor]
  split
  · apply Beside.bind
    exact beside_throw h
  · apply Beside.bind
    have hwritten : Beside scene.excused
        (onHeader do
          discard (Port.seek (.start slot.offset))
          Port.writeAll region)
        (onHeader do
          discard (Port.seek (.start slot.offset))
          Port.writeAll region) outlet image
        (fun _ _ next next' => next.Mirrors scene next' ∧
          slot.offset + region.length ≤ next.headerPort.view.length) fun _ _ _ => False := by
      apply Beside.within
      apply (Port.rewrite_mirrors h.header slot.offset hregion).mono
      · intro _ _ port port' hport
        constructor
        · exact h.withHeaderPort hport.1
        · change _ ≤ (outlet.withHeaderPort port).headerPort.view.length
          rw [headerPort_withHeaderPort]
          exact hport.2
      · exact fun _ _ _ => id
    refine Beside.mapFault ?_ (fun cause hcause => hcause) fun _ _ _ (hfalse : False) => hfalse.elim
    · apply Beside.bind
      apply hwritten.mono
      · intro _ _ written written' hmirrors
        obtain ⟨hmirrors, hlength⟩ := hmirrors
        split
        · split
          · apply Beside.bind
            apply Beside.within
            apply (Port.truncate_mirrors hmirrors.header hlength).mono
            · intro _ _ port port' hport
              unfold setCursor
              rw [beside_modify, beside_pure]
              exact ⟨rfl, (hmirrors.withHeaderPort hport).withCursor _⟩
            · exact fun _ _ _ => id
          · unfold setCursor
            rw [beside_modify, beside_pure]
            exact ⟨rfl, hmirrors.withCursor _⟩
        · apply Beside.discard
          apply Beside.within
          apply (Port.seek_mirrors hmirrors.header _).mono
          · intro _ _ port port' hport
            rw [beside_pure]
            exact ⟨rfl, hmirrors.withHeaderPort hport.1⟩
          · exact fun _ _ _ => id
      · exact fun _ _ _ => id

theorem flush_mirrors (h : outlet.Mirrors scene image) :
    Agrees scene.excused (Mirrors scene) flush flush outlet image := by
  have hdata : ∀ {outlet image : Outlet}, outlet.Mirrors scene image →
      Agrees scene.excused (Mirrors scene) (onData Port.flush) (onData Port.flush) outlet image := by
    intro outlet image h
    apply Beside.within
    apply (Port.flush_mirrors h.data).mono
    · exact fun _ _ port port' hport => ⟨rfl, h.withDataPort hport⟩
    · exact fun _ _ _ => False.elim
  unfold flush
  rw [agrees_get_bind, h.isSplit]
  split
  · refine Agrees.bind ?_ fun _ _ _ => hdata
    apply Beside.within
    apply (Port.flush_mirrors h.header).mono
    · exact fun _ _ port port' hport => ⟨rfl, h.withHeaderPort hport⟩
    · exact fun _ _ _ => False.elim
  · exact hdata h

end Calls

/-! ## What is on a target -/

section Seen

variable {scene : Scene} {outlet image : Outlet}

/-- What the target will hold once nothing is held back any more. -/
def seen (outlet : Outlet) : Contents :=
  { data := outlet.dataPort.view
    header := if outlet.target.isSplit then some outlet.headerPort.view else none }

theorem Mirrors.seen (h : outlet.Mirrors scene image) : outlet.seen = image.seen := by
  unfold Outlet.seen
  rw [h.data.view, h.header.view, h.isSplit]

theorem stored_of_isFlushed (h : outlet.target.IsFlushed) :
    outlet.target.stored outlet.host.store = outlet.seen := by
  have hview : ∀ channel ∈ outlet.target.channels,
      Port.view ⟨channel, outlet.host.store⟩ = outlet.host.store.read channel.location :=
    fun channel hchannel => Port.view_of_pending_nil (h channel hchannel)
  obtain ⟨⟨label, data, _ | header, dataEnd, headerEnd⟩, host⟩ := outlet
  · have hdata := hview data List.mem_cons_self
    simp only [Target.stored, Contents.stored, Outlet.seen, dataPort, hdata]
    rfl
  · have hdata := hview data List.mem_cons_self
    have hheader := hview header (List.mem_cons_of_mem _ List.mem_cons_self)
    simp only [Target.stored, Contents.stored, Outlet.seen, dataPort, headerPort,
      Target.headerChannel, Option.getD_some, hdata, hheader]
    rfl

/-- A target that holds nothing back is let go of as it is. -/
theorem release_of_isFlushed (h : outlet.target.IsFlushed) : outlet.release = outlet.host := by
  have hsettled : ∀ channel ∈ outlet.target.channels, ∀ store,
      Port.release ⟨channel, store⟩ = store := by
    intro channel hchannel store
    rw [Port.release, Port.settle, if_pos (h channel hchannel)]
  obtain ⟨⟨label, data, _ | header, dataEnd, headerEnd⟩, host⟩ := outlet
  · rw [release, hsettled data List.mem_cons_self]
  · rw [release, hsettled data List.mem_cons_self]
    dsimp only
    rw [hsettled header (List.mem_cons_of_mem _ List.mem_cons_self)]

theorem Mirrors.isFlushed (h : outlet.Mirrors scene image) : image.target.IsFlushed := by
  rintro channel hchannel
  rcases List.mem_cons.mp hchannel with rfl | hheader
  · exact h.data.plain.pending
  · have hplain := h.header.plain
    rw [headerPort, Target.headerChannel, Option.mem_toList.mp hheader] at hplain
    exact hplain.pending

/-- The target writes where it did, and the places of others hold what they held. -/
structure Confines (outlet next : Outlet) : Prop where
  places : next.target.places = outlet.target.places
  elsewhere : ∀ place, place ∉ outlet.target.places →
    next.host.store.read place = outlet.host.store.read place

theorem Confines.trans {outlet next last : Outlet} (h : outlet.Confines next)
    (h' : next.Confines last) : outlet.Confines last := by
  constructor
  · rw [h'.places, h.places]
  · intro place hplace
    rw [h'.elsewhere place (by rwa [h.places]), h.elsewhere place hplace]

theorem Confines.withDataPort {outlet : Outlet} {port : Port} (h : outlet.dataPort.Confines port) :
    outlet.Confines (outlet.withDataPort port) := by
  constructor
  · exact congrArg (· :: outlet.target.header.toList.map Channel.location) h.stays.location
  · intro place hplace
    apply h.elsewhere
    rintro rfl
    exact hplace (data_mem_places outlet.target)

theorem Confines.withHeaderPort {outlet : Outlet} {port : Port}
    (h : outlet.headerPort.Confines port) : outlet.Confines (outlet.withHeaderPort port) := by
  constructor
  · have hlocation := h.stays.location
    obtain ⟨⟨label, data, _ | header, dataEnd, headerEnd⟩, host⟩ := outlet
    · exact congrArg ([·]) hlocation
    · exact congrArg (fun place => [data.location, place]) hlocation
  · intro place hplace
    apply h.elsewhere
    rintro rfl
    exact hplace (headerChannel_mem_places outlet.target)

theorem flush_confines (outlet : Outlet) :
    Ends flush outlet (fun _ next => outlet.Confines next) fun _ next => outlet.Confines next := by
  have hdata : ∀ outlet : Outlet, Ends (onData Port.flush) outlet
      (fun _ next => outlet.Confines next) fun _ next => outlet.Confines next := by
    intro outlet
    rw [ends_onData]
    apply (Port.flush_views outlet.dataPort).mono
    · exact fun _ port hport => .withDataPort (.of_follows hport.1)
    · exact fun _ port hport => .withDataPort (.of_follows hport.1)
  unfold flush
  rw [ends_bind, ends_get]
  dsimp only
  split
  · rw [ends_bind, ends_onHeader]
    apply (Port.flush_views outlet.headerPort).mono
    · intro _ port hport
      have hheader := Confines.withHeaderPort (.of_follows hport.1)
      apply (hdata _).mono
      · exact fun _ next hnext => hheader.trans hnext
      · exact fun _ next hnext => hheader.trans hnext
    · exact fun _ port hport => .withHeaderPort (.of_follows hport.1)
  · exact hdata outlet

theorem flush_isFlushed (outlet : Outlet) :
    Ends flush outlet (fun _ next => next.target.IsFlushed) fun _ _ => True := by
  unfold flush
  rw [ends_bind, ends_get]
  obtain ⟨⟨label, data, _ | header, dataEnd, headerEnd⟩, host⟩ := outlet
  · simp only [Target.isSplit, Option.isSome_none, Bool.false_eq_true, if_false, ends_onData]
    apply (Port.flush_views ⟨data, host.store⟩).mono
    · intro _ port hport
      exact List.forall_mem_singleton.mpr hport.2.2.2
    · exact fun _ _ _ => trivial
  · simp only [Target.isSplit, Option.isSome_some, if_true, ends_bind, ends_onHeader, ends_onData]
    apply (Port.flush_views ⟨header, host.store⟩).mono
    · intro _ port hport
      apply (Port.flush_views ⟨data, port.store⟩).mono
      · intro _ last hlast channel hchannel
        obtain rfl | rfl : channel = last.channel ∨ channel = port.channel := by
          simpa [Target.channels, withDataPort, withHeaderPort, Target.withHeaderChannel,
            Target.isSplit] using hchannel
        · exact hlast.2.2.2
        · exact hport.2.2.2
      · exact fun _ _ _ => trivial
    · exact fun _ _ _ => trivial

end Seen

end Outlet

namespace Target

theorem ends_close {good : Unit → Host → Prop} {bad : IoFault → Host → Prop} (target : Target)
    (host : Host) :
    Ends target.close host good bad ↔
      Ends Outlet.flush ⟨target, host⟩
        (fun _ outlet => good () (outlet.release.report
          (.closedTarget target.label target.dataEnd target.headerEnd)))
        fun cause outlet => bad cause outlet.release := by
  unfold Ends close
  cases Outlet.flush ⟨target, host⟩ <;> rfl

/-- Other places keep what they hold, also where the target cannot be flushed. -/
theorem close_elsewhere (target : Target) (host : Host) {place : Location}
    (hplace : place ∉ target.places) :
    Ends target.close host (fun _ next => next.store.read place = host.store.read place)
      fun _ next => next.store.read place = host.store.read place := by
  have hreleased : ∀ outlet : Outlet, Outlet.Confines ⟨target, host⟩ outlet →
      outlet.release.store.read place = host.store.read place := by
    intro outlet hconfines
    rw [Outlet.release_elsewhere outlet (by rwa [hconfines.places])]
    exact hconfines.elsewhere place hplace
  rw [ends_close]
  apply (Outlet.flush_confines ⟨target, host⟩).mono
  · exact fun _ outlet => hreleased outlet
  · exact fun _ outlet => hreleased outlet

theorem closeQuietly_elsewhere (target : Target) (host : Host) {place : Location}
    (hplace : place ∉ target.places) :
    (target.closeQuietly host).store.read place = host.store.read place := by
  have hclosed := target.close_elsewhere host hplace
  unfold Ends at hclosed
  unfold closeQuietly
  split at hclosed
  · rename_i heq
    rw [heq]
    exact hclosed
  · rename_i heq
    rw [heq]
    exact hclosed

/-- Behind a close both hold the same; other places are as they were. -/
theorem close_mirrors {scene : Scene} {target target' : Target} {host host' : Host}
    (h : Outlet.Mirrors scene ⟨target, host⟩ ⟨target', host'⟩) :
    Beside scene.excused target.close target'.close host host'
      (fun _ _ next next' => target.stored next.store = target'.stored next'.store ∧
        (∀ place, place ∉ scene.places → next.store.read place = scene.store.read place) ∧
        ∀ place, place ∉ scene.places' → next'.store.read place = scene.store'.read place)
      fun _ _ _ => True := by
  have hplaces : target.places = scene.places := h.places
  have hplaces' : target'.places = scene.places' := h.places'
  unfold Beside
  simp only [ends_close]
  refine (Ends.and (Outlet.flush_mirrors h) (Outlet.flush_isFlushed ⟨target, host⟩)).mono ?_ ?_
  · rintro _ outlet ⟨hflushed, hempty⟩
    refine Ends.mono hflushed ?_ fun _ _ hfalse => hfalse
    rintro _ outlet' ⟨-, hmirrors⟩
    have hempty' := hmirrors.isFlushed
    rw [Outlet.release_of_isFlushed hempty, Outlet.release_of_isFlushed hempty']
    refine ⟨?_, ?_, ?_⟩
    · calc target.stored outlet.host.store
          = outlet.target.stored outlet.host.store :=
            stored_congr (hplaces.trans hmirrors.places.symm) fun _ _ => rfl
        _ = outlet'.target.stored outlet'.host.store := by
            rw [Outlet.stored_of_isFlushed hempty, Outlet.stored_of_isFlushed hempty',
              hmirrors.seen]
        _ = target'.stored outlet'.host.store :=
            stored_congr (hmirrors.places'.trans hplaces'.symm) fun _ _ => rfl
    · exact hmirrors.elsewhere
    · exact hmirrors.elsewhere'
  · rintro cause outlet ⟨hfault, -⟩
    refine hfault.imp_right fun hboth => ?_
    exact Ends.mono hboth (fun _ _ hfalse => hfalse) fun _ _ hsame => ⟨hsame.1, trivial⟩

end Target

end SegmentStream
