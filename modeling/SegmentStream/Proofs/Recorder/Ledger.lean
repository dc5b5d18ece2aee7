import SegmentStream.Proofs.Recorder.Reading
import SegmentStream.Proofs.Recorder.Start

/-!
# Who holds what

Besides its active target a recorder is answerable for places in the store:
those of targets that are staged, of targets that it has let go of, and of
destinations that are still to be asked for.  A call changes what one of them
holds; the places of all others stay as they are.
-/

namespace SegmentStream

open SegmentStream.Action

/-! ## Places that nobody writes to -/

section Frame

variable {target : Target} {host host' : Host} {contents : Contents} {split : Bool}

theorem Outlet.Keeps.elsewhere (h : Outlet.Keeps ⟨target, host⟩ contents)
    (hsame : ∀ place ∈ target.places, host'.store.read place = host.store.read place) :
    Outlet.Keeps ⟨target, host'⟩ contents := by
  obtain ⟨⟨hsound, hsplit, hview, hcursor, hdata⟩, hoffset⟩ := h
  have hchannel : ∀ channel ∈ target.channels,
      Port.view ⟨channel, host'.store⟩ = Port.view ⟨channel, host.store⟩ :=
    fun channel hchannel => Port.view_congr rfl (hsame _ (List.mem_map_of_mem hchannel))
  have hheader : target.headerChannel ∈ target.channels := by
    obtain ⟨label, data, _ | header, dataEnd, headerEnd⟩ := target <;>
      simp [Target.headerChannel, Target.channels]
  refine ⟨⟨hsound, hsplit, (hchannel _ hheader).trans hview, hcursor, fun hsplit => ?_⟩, hoffset⟩
  obtain ⟨hview', hoffset', hend⟩ := hdata hsplit
  exact ⟨(hchannel _ List.mem_cons_self).trans hview', hoffset', hend⟩

theorem Destination.IsBlank.elsewhere {destination : Destination} {store store' : Store}
    (h : destination.IsBlank split store)
    (hsame : ∀ place ∈ destination.places split, store'.read place = store.read place) :
    destination.IsBlank split store' := by
  cases destination with
  | file path => exact h
  | memory data header => exact h
  | channels data header =>
      obtain ⟨hsplit, hblank, hapart⟩ := h
      refine ⟨hsplit, fun channel hchannel => ?_, hapart⟩
      obtain ⟨hbuffer, hposition, hpending, hempty, hsteady⟩ := hblank channel hchannel
      have hread := hsame channel.location (List.mem_map_of_mem hchannel)
      exact ⟨hbuffer, hposition, hpending, hread.trans hempty, hsteady⟩

theorem Contents.ofPlaces_congr {store store' : Store} {places : List Location}
    (hsame : ∀ place ∈ places, store'.read place = store.read place) :
    Contents.ofPlaces store' places = .ofPlaces store places := by
  cases places with
  | nil => rfl
  | cons data headers =>
      cases headers with
      | nil => simp [ofPlaces, hsame data List.mem_cons_self]
      | cons header rest =>
          have hheader := hsame header (List.mem_cons_of_mem _ List.mem_cons_self)
          simp [ofPlaces, hsame data List.mem_cons_self, hheader]

end Frame

/-! ## Possessions -/

inductive Possession where
  | reserved (destination : Destination)
  | staged (target : Target)
  | settled (places : List Location) (segments : List Segment)

namespace Possession

def places (split : Bool) : Possession → List Location
  | reserved destination => destination.places split
  | staged target => target.places
  | settled places _ => places

def Stands (config : Config) (store : Store) : Possession → Prop
  | reserved destination =>
      destination.IsBlank config.splitHeader store ∧ destination.faultsAhead = 0
  | staged target =>
      Outlet.Keeps ⟨target, { store }⟩ (.blank config.splitHeader) ∧ target.IsDirect ∧
        target.faultsAhead = 0
  | settled places segments =>
      Contents.ofPlaces store places = .ofSegments config.splitHeader segments ∧
        ∀ segment ∈ segments, segment.IsProper config.recordSize

theorem Stands.elsewhere {config : Config} {store store' : Store} {possession : Possession}
    (h : possession.Stands config store)
    (hsame : ∀ place ∈ possession.places config.splitHeader,
      store'.read place = store.read place) :
    possession.Stands config store' := by
  cases possession with
  | reserved destination => exact ⟨h.1.elsewhere hsame, h.2⟩
  | staged target => exact ⟨h.1.elsewhere hsame, h.2⟩
  | settled places segments => exact ⟨(Contents.ofPlaces_congr hsame).trans h.1, h.2⟩

end Possession

/-- What the places of a list of possessions hold, none of them twice or among those taken. -/
structure Possessions (config : Config) (taken : List Location) (store : Store)
    (possessions : List Possession) : Prop where
  apart : (taken ++ possessions.flatMap (Possession.places config.splitHeader)).Nodup
  stand : ∀ possession ∈ possessions, possession.Stands config store

namespace Possessions

variable {config : Config} {taken : List Location} {store store' : Store}
  {first : Possession} {rest possessions possessions' : List Possession}

theorem perm (h : Possessions config taken store possessions)
    (hperm : possessions.Perm possessions') : Possessions config taken store possessions' := by
  refine ⟨?_, fun possession hmem => h.stand possession (hperm.mem_iff.mpr hmem)⟩
  exact ((hperm.flatMap_right _).append_left taken).nodup_iff.mp h.apart

theorem not_mem (h : Possessions config taken store possessions) {possession : Possession}
    (hmem : possession ∈ possessions) {place : Location} (htaken : place ∈ taken) :
    place ∉ possession.places config.splitHeader := by
  intro hplace
  have hdisjoint := (List.nodup_append.mp h.apart).2.2 place htaken place
  exact hdisjoint (List.mem_flatMap.mpr ⟨possession, hmem, hplace⟩) rfl

theorem elsewhere (h : Possessions config taken store possessions)
    (hsame : ∀ place, place ∉ taken → store'.read place = store.read place) :
    Possessions config taken store' possessions := by
  refine ⟨h.apart, fun possession hmem => (h.stand possession hmem).elsewhere ?_⟩
  exact fun place hplace => hsame place fun htaken => h.not_mem hmem htaken hplace

theorem take (h : Possessions config [] store (first :: rest)) :
    Possessions config (first.places config.splitHeader) store rest ∧
      first.Stands config store := by
  obtain ⟨hfirst, hrest⟩ := List.forall_mem_cons.mp h.stand
  exact ⟨⟨by simpa using h.apart, hrest⟩, hfirst⟩

theorem put (h : Possessions config (first.places config.splitHeader) store rest)
    (hfirst : first.Stands config store) : Possessions config [] store (first :: rest) :=
  ⟨by simpa using h.apart, List.forall_mem_cons.mpr ⟨hfirst, h.stand⟩⟩

/-- One possession is exchanged for another in the same places, while others are taken. -/
theorem exchange {second : Possession} (h : Possessions config taken store (first :: rest))
    (hplaces : second.places config.splitHeader = first.places config.splitHeader)
    (hsame : ∀ place, place ∉ first.places config.splitHeader →
      store'.read place = store.read place)
    (hsecond : second.Stands config store') :
    Possessions config taken store' (second :: rest) := by
  obtain ⟨-, hrest⟩ := List.forall_mem_cons.mp h.stand
  refine ⟨?_, List.forall_mem_cons.mpr ⟨hsecond, fun possession hmem => ?_⟩⟩
  · have hapart := h.apart
    rw [List.flatMap_cons] at hapart ⊢
    rwa [hplaces]
  · refine (hrest possession hmem).elsewhere fun place hplace => hsame place fun hfirst => ?_
    have hapart := (List.nodup_append.mp h.apart).2.1
    rw [List.flatMap_cons] at hapart
    exact (List.nodup_append.mp hapart).2.2 place hfirst place
      (List.mem_flatMap.mpr ⟨possession, hmem, hplace⟩) rfl

end Possessions

end SegmentStream
