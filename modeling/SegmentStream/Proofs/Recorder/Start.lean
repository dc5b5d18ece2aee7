import Mathlib.Data.List.Nodup
import SegmentStream.Proofs.Recorder.Session

/-!
# The start of a stream

A destination in memory gives a target that keeps nothing yet.  A recorder that
starts on it has written the first header and stands before its first record.
-/

namespace SegmentStream

open SegmentStream.Action

/-! ## Destinations in memory -/

/-- A channel at the start of an empty buffer. -/
structure Channel.IsBlank (channel : Channel) (store : Store) : Prop where
  buffer : ∃ name, channel.location = .buffer name
  position : channel.position = 0
  pending : channel.pending = []
  empty : store.read channel.location = []
  steady : channel.faults.IsSteady

namespace Destination

/-- The buffers a destination writes to. -/
def places (split : Bool) : Destination → List Location
  | file _ => []
  | memory data header => .buffer data :: if split then [.buffer header] else []
  | channels data header => (data :: header.toList).map Channel.location

/-- Buffers of their own with nothing in them; a channel for headers where they stand apart. -/
def IsBlank (split : Bool) (store : Store) : Destination → Prop
  | file _ => False
  | memory data header => split = true → data ≠ header
  | channels data header => header.isSome = split ∧
      (∀ channel ∈ data :: header.toList, channel.IsBlank store) ∧
      ((data :: header.toList).map Channel.location).Nodup

def faultsAhead : Destination → Nat
  | channels data header => data.faultsAhead + (header.map Channel.faultsAhead).getD 0
  | _ => 0

def faultless : Destination → Destination
  | channels data header =>
      channels { data with faults := {} } (header.map fun channel => { channel with faults := {} })
  | other => other

end Destination

/-- What places hold: data first, then headers if they stand apart. -/
def Contents.ofPlaces (store : Store) : List Location → Contents
  | [] => {}
  | data :: headers => { data := store.read data, header := headers.head?.map store.read }

theorem Target.stored_eq (target : Target) (store : Store) :
    target.stored store = .ofPlaces store target.places := by
  obtain ⟨label, data, _ | header, dataEnd, headerEnd⟩ := target <;> rfl

structure Target.Opened (destination : Destination) (split : Bool) (host : Host) (target : Target)
    (next : Host) : Prop where
  keeps : Outlet.Keeps ⟨target, next⟩ (.blank split)
  direct : target.IsDirect
  places : target.places = destination.places split
  faultsAhead : target.faultsAhead = destination.faultsAhead
  elsewhere : ∀ place, place ∉ target.places → next.store.read place = host.store.read place

section Open

variable {destination : Destination} {split : Bool} {host : Host}

theorem faults_isSteady : Faults.IsSteady {} :=
  ⟨rfl, rfl, rfl, rfl, by simp⟩

theorem Outlet.keeps_blank (target : Target) (host : Host) (hsplit : target.header.isSome = split)
    (hblank : ∀ channel ∈ target.channels, channel.IsBlank host.store)
    (hapart : target.places.Nodup) (hstart : target.dataEnd = 0 ∧ target.headerEnd = 0) :
    Outlet.Keeps ⟨target, host⟩ (.blank split) ∧ target.IsDirect := by
  have hdirect : target.IsDirect := by
    intro channel hchannel
    obtain ⟨⟨name, hbuffer⟩, -, hpending, -, -⟩ := hblank channel hchannel
    exact ⟨by rw [Channel.capacity, hbuffer], hpending⟩
  have hview : ∀ channel ∈ target.channels, Port.view ⟨channel, host.store⟩ = [] :=
    fun channel hchannel => (Port.view_of_isDirect (hdirect channel hchannel)).trans
      (hblank channel hchannel).empty
  have hoffset : ∀ channel ∈ target.channels, channel.offset = 0 := by
    intro channel hchannel
    obtain ⟨-, hposition, hpending, -, -⟩ := hblank channel hchannel
    rw [Channel.offset, hposition, hpending]
    rfl
  have hsound : target.IsSound := by
    refine ⟨hapart, ?_, ?_⟩
    · intro place hplace offset
      obtain ⟨channel, hchannel, rfl⟩ := List.mem_map.mp hplace
      obtain ⟨name, hbuffer⟩ := (hblank channel hchannel).buffer
      rw [hbuffer]
      trivial
    · intro plan hplan
      obtain ⟨channel, hchannel, rfl⟩ := List.mem_map.mp hplan
      exact (hblank channel hchannel).steady
  refine ⟨?_, hdirect⟩
  obtain ⟨label, data, header, dataEnd, headerEnd⟩ := target
  obtain ⟨rfl, rfl⟩ := hstart
  cases header with
  | none =>
      cases split
      · exact ⟨⟨hsound, rfl, hview data List.mem_cons_self, rfl, fun h => by cases h⟩,
          hoffset data List.mem_cons_self⟩
      · cases hsplit
  | some header =>
      cases split
      · cases hsplit
      · have hheader : header ∈ data :: (some header).toList :=
          List.mem_cons_of_mem _ List.mem_cons_self
        exact ⟨⟨hsound, rfl, hview header hheader, rfl, fun _ =>
            ⟨hview data List.mem_cons_self, hoffset data List.mem_cons_self, rfl⟩⟩,
          hoffset header hheader⟩

theorem Target.openAt_ends (h : destination.IsBlank split host.store) :
    Ends (Target.openAt destination split) host
      (fun target next => Target.Opened destination split host target next) (fun _ _ => False) := by
  have hfresh : ∀ (name : String) (store : Store), store.read (.buffer name) = [] →
      Channel.IsBlank { location := .buffer name } store :=
    fun name store hempty => ⟨⟨name, rfl⟩, rfl, rfl, hempty, faults_isSteady⟩
  cases destination with
  | file path => exact h.elim
  | memory data header =>
      let first := host.store.put (.buffer data) []
      cases split with
      | false =>
          let target : Target := { label := "<memory>", data := { location := .buffer data } }
          have hblank : ∀ channel ∈ target.channels, channel.IsBlank first :=
            List.forall_mem_singleton.mpr (hfresh data first (Store.read_put_self ..))
          obtain ⟨hkeeps, hdirect⟩ := Outlet.keeps_blank target { host with store := first }
            (rfl : target.header.isSome = false) hblank (List.nodup_singleton _) ⟨rfl, rfl⟩
          refine ⟨hkeeps, hdirect, rfl, rfl, fun place hplace => Store.read_put_of_ne _ _ ?_⟩
          exact fun heq => hplace (heq ▸ List.mem_cons_self)
      | true =>
          let second := first.put (.buffer header) []
          let target : Target :=
            { label := "<memory>"
              data := { location := .buffer data }
              header := some { location := .buffer header } }
          have hne : Location.buffer data ≠ .buffer header := by
            rintro ⟨⟩
            exact h rfl rfl
          have hblank : ∀ channel ∈ target.channels, channel.IsBlank second := by
            refine List.forall_mem_cons.mpr ⟨hfresh data second ?_,
              List.forall_mem_singleton.mpr (hfresh header second (Store.read_put_self ..))⟩
            exact (Store.read_put_of_ne _ _ hne).trans (Store.read_put_self ..)
          have hapart : target.places.Nodup :=
            List.nodup_cons.mpr ⟨List.not_mem_cons_of_ne_of_not_mem hne List.not_mem_nil,
              List.nodup_singleton _⟩
          obtain ⟨hkeeps, hdirect⟩ := Outlet.keeps_blank target { host with store := second }
            (rfl : target.header.isSome = true) hblank hapart ⟨rfl, rfl⟩
          refine ⟨hkeeps, hdirect, rfl, rfl, fun place hplace => ?_⟩
          obtain ⟨hdata, hheader⟩ : place ≠ .buffer data ∧ place ≠ .buffer header := by
            simpa [target, Target.places, Target.channels] using hplace
          exact (Store.read_put_of_ne _ _ hheader).trans (Store.read_put_of_ne _ _ hdata)
  | channels data header =>
      obtain ⟨rfl, hblank, hapart⟩ := h
      let target : Target := { label := "<channels>", data, header }
      obtain ⟨hkeeps, hdirect⟩ := Outlet.keeps_blank target host
        (rfl : target.header.isSome = header.isSome) hblank hapart ⟨rfl, rfl⟩
      cases header with
      | none => exact ⟨hkeeps, hdirect, rfl, rfl, fun _ _ => rfl⟩
      | some header => exact ⟨hkeeps, hdirect, rfl, rfl, fun _ _ => rfl⟩

end Open

/-! ## The first header -/

section Headers

variable {config : Config} {headers : HeaderState}

/-- The first header of a stream is valid and says what the configuration does. -/
structure HeaderState.Starts (config : Config) (headers : HeaderState) : Prop where
  fresh : headers.fresh = headers
  itemSize : headers.header.itemSize = config.recordSize
  version : headers.header.version = formatVersion
  flags : headers.header.flags = if config.splitHeader then detachedFlag else 0
  valid : headers.header.validate = .ok ()
  clock : headers.clock = .start config.startTime config.sampleRate config.relativeRate

theorem HeaderState.of_start (h : HeaderState.start config = .ok headers) :
    HeaderState.Starts config headers := by
  cases hextras : Extras.decode config.extras with
  | error fault =>
      simp only [start, hextras] at h
      cases h
  | ok extras =>
      by_cases hlimit : Config.itemSizeLimit < config.itemSize.toNat
      · simp only [start, hextras, if_pos hlimit] at h
        cases h
      simp only [start, hextras, if_neg hlimit, pure_bind] at h
      generalize hflags : (if config.splitHeader then detachedFlag else 0) = flags at h
      split at h
      · rename_i hvalid
        cases h
        exact ⟨rfl, rfl, rfl, hflags.symm, hvalid, rfl⟩
      · cases h

def Transcript.opening (headers : HeaderState) : Transcript :=
  openNext { headers }

end Headers

/-! ## Recorders -/

namespace Session

/-- The recorder writes to the target, and nothing else is staged for it. -/
structure Serves (session : Session) (config : Config) (target : Target) : Prop where
  config : session.recorder.config = config
  active : session.recorder.active = some target
  idle : session.recorder.rotation.staged = []
  accepting : session.recorder.closed = false

end Session

structure Recorder.Started (config : Config) (destination : Destination) (headers : HeaderState)
    (host : Host) (session : Session) (target : Target) : Prop where
  serves : session.Serves config target
  keeps : (session.writerOn target).Keeps config.splitHeader (.opening headers)
  itemsRead : session.recorder.itemsRead = 0
  split : session.recorder.rotation.split = config.splitHeader
  abandoned : session.recorder.rotation.abandoned = false
  direct : target.IsDirect
  places : target.places = destination.places config.splitHeader
  faultsAhead : target.faultsAhead ≤ destination.faultsAhead
  elsewhere : ∀ place, place ∉ target.places →
    session.host.store.read place = host.store.read place

theorem Recorder.Started.quiet {config : Config} {destination : Destination}
    {headers : HeaderState} {host : Host} {session : Session} {target : Target}
    (h : Recorder.Started config destination headers host session target)
    (hquiet : destination.faultsAhead = 0) : target.faultsAhead = 0 :=
  Nat.le_zero.mp (Nat.le_trans h.faultsAhead (Nat.le_of_eq hquiet))

theorem Recorder.start_ends {config : Config} {destination : Destination} {headers : HeaderState}
    {host : Host} (hvalid : config.validate = .ok ())
    (hheaders : HeaderState.start config = .ok headers)
    (hblank : destination.IsBlank config.splitHeader host.store) :
    Ends (Recorder.start config destination) host
      (fun recorder next => ∃ target,
        Recorder.Started config destination headers host ⟨recorder, next⟩ target)
      (fun _ _ => destination.faultsAhead ≠ 0) := by
  have hfresh := (HeaderState.of_start hheaders).fresh
  simp only [Recorder.start, hvalid, hheaders, ends_bind, ends_pure]
  refine (Target.openAt_ends hblank).mono ?_ fun _ _ h => h.elim
  intro target opened hopened
  have hblankKeeps : Writer.Keeps ⟨{ headers }, ⟨target, opened⟩⟩ config.splitHeader
      { headers } := by
    refine ⟨⟨hfresh, ?_, rfl, rfl⟩, hopened.keeps, fun _ h => by cases h⟩
    rw [← hfresh]
    rfl
  simp only [ends_get]
  have hsegment := Writer.openSegment_ends hblankKeeps rfl
  unfold Ends at hsegment ⊢
  cases hresult : Writer.openSegment ⟨{ headers }, ⟨target, opened⟩⟩ with
  | ok value writer =>
      rw [hresult] at hsegment
      obtain ⟨hfollows, hkeeps⟩ := hsegment
      refine ⟨writer.outlet.target, ⟨rfl, rfl, rfl, rfl⟩, ?_, rfl, rfl, rfl,
        hfollows.direct hopened.direct, hfollows.places.trans hopened.places, ?_,
        fun place hplace => ?_⟩
      · exact hkeeps.congr (Writer.relog_matches writer _)
      · rw [← hopened.faultsAhead]
        exact hfollows.faultsAhead
      · have hplace' : place ∉ target.places := by rwa [← hfollows.places]
        exact (hfollows.elsewhere place hplace').trans (hopened.elsewhere place hplace')
  | error error writer =>
      rw [hresult] at hsegment
      obtain ⟨-, hloses, -⟩ := hsegment
      have hless : writer.outlet.target.faultsAhead < target.faultsAhead := hloses.faultsAhead
      rw [hopened.faultsAhead] at hless
      exact Nat.ne_zero_of_lt hless

def Config.IsUsable (config : Config) : Prop :=
  config.validate = .ok () ∧ ∃ headers, HeaderState.start config = .ok headers

/-- A recorder with a usable configuration starts on a blank destination without faults. -/
theorem Recorder.exists_start {config : Config} {destination : Destination} {host : Host}
    (hconfig : config.IsUsable) (hblank : destination.IsBlank config.splitHeader host.store)
    (hquiet : destination.faultsAhead = 0) :
    ∃ headers recorder started target, HeaderState.start config = .ok headers ∧
      Recorder.start config destination host = .ok recorder started ∧
      Recorder.Started config destination headers host ⟨recorder, started⟩ target := by
  obtain ⟨hvalid, headers, hheaders⟩ := hconfig
  have hstart := (Recorder.start_ends hvalid hheaders hblank).mono (fun _ _ h => h)
    fun _ _ hfaults => hfaults hquiet
  obtain ⟨recorder, started, hrun, target, hstarted⟩ := hstart.exists_ok
  exact ⟨headers, recorder, started, target, hheaders, hrun, hstarted⟩

end SegmentStream
