import SegmentStream.Proofs.Recorder.Images
import SegmentStream.Proofs.Recorder.Opening
import SegmentStream.Proofs.Recorder.Replies

/-!
# Runs and their images

Wherever a recorder starts and whatever it is asked for, there is an image of it
that writes to buffers of its own.  The two stay together until a call ends in a
failure of storage.
-/

namespace SegmentStream

open SegmentStream.Action

/-! ## Fresh targets and their images -/

/-- What a call on any channel of the target may be refused with is excused. -/
def Target.IsExcused (excused : IoFault → Prop) (target : Target) : Prop :=
  ∀ channel ∈ target.channels, channel.IsExcused excused

section Fresh

variable {excused : IoFault → Prop} {rename : Location → Location} {host host' : Host}

theorem Channel.IsFresh.mirrors {channel image : Channel} {store store' : Store}
    (h : channel.IsFresh store) (h' : image.IsFresh store') (hplain : image.IsPlain)
    (hexcused : channel.IsExcused excused) :
    Port.Mirrors excused ⟨channel, store⟩ ⟨image, store'⟩ := by
  constructor
  · rw [Port.view_of_pending_nil h.pending, Port.view_of_pending_nil h'.pending]
    exact h.empty.trans h'.empty.symm
  · unfold Channel.offset
    rw [h.position, h.pending, h'.position, h'.pending]
  · exact hplain
  · exact hexcused

/-- A fresh target has an image in any buffers, as long as nobody else writes to them. -/
theorem Twin.stands_of_fresh {target : Target} {split : Bool} {data header : String}
    (hunused : target.IsUnused split) (hfresh : target.IsFresh host.store)
    (hexcused : target.IsExcused excused)
    (hfresh' : (Target.inMemory split data header).IsFresh host'.store)
    (hplaces : target.places = (Target.inMemory split data header).places.map rename)
    (happart : target.places.Nodup) :
    Twin.Stands ⟨target, .inMemory split data header⟩ excused rename host host' := by
  have happart' : (Target.inMemory split data header).places.Nodup := by
    rw [hplaces] at happart
    exact happart.of_map rename
  have hplain : ∀ channel ∈ (Target.inMemory split data header).channels, channel.IsPlain := by
    cases split with
    | false => exact List.forall_mem_singleton.mpr ⟨⟨data, rfl⟩, rfl, rfl⟩
    | true =>
        exact List.forall_mem_cons.mpr ⟨⟨⟨data, rfl⟩, rfl, rfl⟩,
          List.forall_mem_singleton.mpr ⟨⟨header, rfl⟩, rfl, rfl⟩⟩
  have hheaderChannel : ∀ target : Target, target.headerChannel ∈ target.channels := by
    rintro ⟨label, data, _ | header, dataEnd, headerEnd⟩ <;>
      simp [Target.headerChannel, Target.channels]
  have hmirrors : ∀ {channel image : Channel}, channel ∈ target.channels →
      image ∈ (Target.inMemory split data header).channels →
      Port.Mirrors excused ⟨channel, host.store⟩ ⟨image, host'.store⟩ :=
    fun hchannel himage => (hfresh _ hchannel).mirrors (hfresh' _ himage) (hplain _ himage)
      (hexcused _ hchannel)
  obtain ⟨hsplit', hdataEnd', hheaderEnd'⟩ := Target.inMemory_isUnused split data header
  obtain ⟨hsplit, hdataEnd, hheaderEnd⟩ := hunused
  constructor
  · exact ⟨hmirrors List.mem_cons_self List.mem_cons_self,
      hmirrors (hheaderChannel _) (hheaderChannel _), hsplit.trans hsplit'.symm,
      hdataEnd.trans hdataEnd'.symm, hheaderEnd.trans hheaderEnd'.symm, rfl, rfl,
      .inl ⟨happart, happart'⟩, fun _ _ => rfl, fun _ _ => rfl⟩
  · exact hplaces

end Fresh

namespace Session

section Rotation

variable {album : Album} {pair : Option Twin} {session image : Session}

theorem Shows.places_eq (h : session.Shows album pair image) :
    (pair.toList ++ (album.loose ++ album.staged.reduceOption)).flatMap
      (fun twin => twin.image.places) ++ album.settled.flatten = album.places := by
  rw [Album.places, ← h.taken, List.flatMap_append, List.append_assoc]
  cases pair <;> simp

/-- A fresh target is staged, and one in buffers that are named after its places with its image. -/
theorem requestRotation_mirrors {destination : Destination} {target : Target} {opened : Host}
    {data header : String} (h : session.Mirrors album image) (hloose : album.loose = [])
    (haccepting : image.recorder.rotation.abandoned = false)
    (hopened : Target.openAt destination session.recorder.rotation.split session.host =
      .ok target opened)
    (hfresh : target.IsFresh opened.store) (hexcused : target.IsExcused album.excused)
    (hplaces : target.places = ((Destination.memory data header).places
      session.recorder.rotation.split).map album.rename)
    (happart : (((Destination.memory data header).places session.recorder.rotation.split ++
      album.places).map album.rename).Nodup) :
    Agrees (fun _ => False)
      (fun next next' => ∃ later, album.LeadsTo later ((Destination.memory data header).places
        session.recorder.rotation.split) ∧ next.Mirrors later next')
      (requestRotation destination) (requestRotation (.memory data header)) session image := by
  obtain ⟨pair, h⟩ := h
  have haccepts' : ¬ image.recorder.rotation.abandoned = true := by simp [haccepting]
  have haccepts : ¬ session.recorder.rotation.abandoned = true := by
    rw [h.rotation] at haccepts'
    exact haccepts'
  have hsplit : image.recorder.rotation.split = session.recorder.rotation.split := by
    rw [h.rotation]
  unfold Agrees Beside
  simp only [requestRotation, onRotation, ends_within, RotationDesk.requestRotation, ends_bind,
    ends_get, RotationDesk.onHost, RotationDesk.report, RotationDesk.stage, ends_modify,
    if_neg haccepts, if_neg haccepts', hsplit]
  have hopens := (Target.openAt_opens destination session.recorder.rotation.split
    session.host).of_ok hopened
  have hapart' : target.places.Nodup := by
    rw [List.map_append, ← hplaces] at happart
    exact (List.nodup_append.mp happart).1
  rw [← Target.inMemory_places] at hplaces happart ⊢
  rw [Ends, hopened]
  dsimp only
  apply (Target.openAt_inMemory data header ..).mono
  · intro target' opened' hopened'
    obtain ⟨rfl, hfresh', helsewhere'⟩ := hopened'
    let twin : Twin := ⟨target, .inMemory session.recorder.rotation.split data header⟩
    have hstands : twin.Stands album.excused album.rename opened opened' :=
      Twin.stands_of_fresh hopens.unused hfresh hexcused hfresh' hplaces hapart'
    rw [← h.places_eq] at happart
    have hestate := h.estate.put hstands hopens.elsewhere helsewhere' happart
    have hstaged := h.stage (some twin) (hestate.relog
      (opened.report (.rotationRequested target.label)).log
      (opened'.report (.rotationRequested "<memory>")).log)
    have hleads := Album.leadsTo_stage hloose (some twin)
    rw [Option.toList_some, List.flatMap_singleton] at hleads
    dsimp only at hstaged
    rw [hsplit] at hstaged
    exact ⟨trivial, _, hleads, pair, hstaged⟩
  · exact fun _ _ => False.elim

end Rotation

end Session

/-- What a recorder becomes once the first segment on its target is open. -/
def Recorder.opened (config : Config) (writer : Writer) : Recorder :=
  { config
    progress := writer.progress
    active := some writer.outlet.target
    rotation := { split := config.splitHeader }
    unbuffered := config.unbuffered }

section Start

variable {config : Config} {destination : Destination} {headers : HeaderState} {host : Host}

theorem Recorder.ends_start {good : Recorder → Host → Prop} {bad : StreamError → Host → Prop}
    (hvalid : config.validate = .ok ()) (hheaders : HeaderState.start config = .ok headers) :
    Ends (Recorder.start config destination) host good bad ↔
      Ends (Target.openAt destination config.splitHeader) host
        (fun target opened => Ends Writer.openSegment ⟨{ headers }, ⟨target, opened⟩⟩
          (fun _ writer => good (.opened config writer)
            (writer.outlet.host.report (.started writer.outlet.target.label config.itemSize.toNat
              config.maxSegmentSize.toNat config.splitHeader)))
          fun error writer => bad error writer.outlet.release)
        bad := by
  simp only [Recorder.start, hvalid, hheaders, ends_bind, ends_pure, ends_get]
  unfold Ends
  cases Target.openAt destination config.splitHeader host with
  | error => exact Iff.rfl
  | ok target opened =>
      dsimp only
      cases Writer.openSegment ⟨{ headers }, ⟨target, opened⟩⟩ <;> rfl

/-- A recorder and its image in memory start alike once a fresh target is open. -/
theorem Recorder.start_mirrors {excused : IoFault → Prop} {rename : Location → Location}
    {target : Target} {opened : Host} {data header : String} (hvalid : config.validate = .ok ())
    (hheaders : HeaderState.start config = .ok headers) (host' : Host)
    (hopened : Target.openAt destination config.splitHeader host = .ok target opened)
    (hfresh : target.IsFresh opened.store) (hexcused : target.IsExcused excused)
    (hplaces : target.places =
      ((Destination.memory data header).places config.splitHeader).map rename)
    (happart : target.places.Nodup) :
    Beside (StreamError.IsOverall excused) (Recorder.start config destination)
      (Recorder.start config (.memory data header)) host host'
      (fun recorder recorder' next next' => Session.Mirrors
        { excused, rename, taken := some ((Destination.memory data header).places
            config.splitHeader), staged := [], settled := [] }
        ⟨recorder, next⟩ ⟨recorder', next'⟩) fun _ _ _ => True := by
  obtain ⟨target', opened', hopened', rfl, hfresh', -⟩ :=
    (Target.openAt_inMemory data header config.splitHeader host').exists_ok
  have hunused := ((Target.openAt_opens destination config.splitHeader host).of_ok hopened).unused
  rw [← Target.inMemory_places] at hplaces ⊢
  have hstands : Twin.Stands ⟨target, .inMemory config.splitHeader data header⟩ excused rename
      opened opened' :=
    Twin.stands_of_fresh hunused hfresh hexcused hfresh' hplaces happart
  have hwriters : Writer.Mirrors
      (Twin.scene ⟨target, .inMemory config.splitHeader data header⟩ excused opened opened')
      ⟨{ headers }, ⟨target, opened⟩⟩
      ⟨{ headers }, ⟨.inMemory config.splitHeader data header, opened'⟩⟩ :=
    ⟨rfl, hstands.mirrors⟩
  have hestate : Estate excused rename opened opened'
      [⟨target, .inMemory config.splitHeader data header⟩] [] := by
    refine ⟨List.forall_mem_singleton.mpr hstands, List.forall_mem_nil _, ?_⟩
    rw [List.flatMap_singleton, List.flatten_nil, List.append_nil, ← hplaces]
    exact happart
  simp only [Beside, Recorder.ends_start hvalid hheaders, ends_iff_of_ok hopened,
    ends_iff_of_ok hopened']
  apply Ends.mono (Writer.openSegment_mirrors hwriters)
  · intro _ writer hwriter
    apply hwriter.mono
    · intro _ writer' hmirrors
      replace hmirrors := hmirrors.2
      refine ⟨some ⟨writer.outlet.target, writer'.outlet.target⟩, ?_⟩
      constructor
      · rw [Recorder.opened, Recorder.opened, hmirrors.progress]
        rfl
      · rfl
      · rfl
      · exact congrArg some hmirrors.outlet.places'
      · exact (hestate.act hmirrors.outlet).relog _ _
    · exact fun _ _ => id
  · intro error writer hwriter
    exact hwriter.imp id fun himage => himage.mono (fun _ _ => id) fun _ _ h => ⟨h.1, trivial⟩

end Start

end SegmentStream
