import Mathlib.Data.List.Basic
import SegmentStream.Proofs.Outcome
import SegmentStream.Storage.Delivery

/-!
# What a channel holds

The view of a channel is what its place will hold once the bytes held back are
stored.  Every call is described by what it does to the view and to the offset;
whether bytes are held back shows in neither.  A steady channel is one whose
calls all succeed, apart from the writes that are planned to go wrong.
-/

namespace SegmentStream

namespace Bytes

theorem overwrite_of_le {contents : Bytes} {offset : Nat} (data : Bytes)
    (h : offset ≤ contents.length) :
    contents.overwrite offset data =
      contents.take offset ++ data ++ contents.drop (offset + data.length) := by
  simp [overwrite, resize, Nat.sub_eq_zero_of_le h]

theorem overwrite_nil {contents : Bytes} {offset : Nat} (h : offset ≤ contents.length) :
    contents.overwrite offset [] = contents := by
  simp [overwrite_of_le [] h]

/-- Two pieces laid down one behind the other are one piece. -/
theorem overwrite_append (contents first second : Bytes) (offset : Nat) :
    (contents.overwrite offset first).overwrite (offset + first.length) second =
      contents.overwrite offset (first ++ second) := by
  have hle : offset + first.length ≤ (contents.overwrite offset first).length := by
    rw [length_overwrite]
    omega
  have hfront : (contents.overwrite offset first).take (offset + first.length) =
      contents.resize offset ++ first := by
    rw [overwrite]
    exact List.take_left' (by simp)
  have hback : (contents.overwrite offset first).drop
      (offset + first.length + second.length) =
        contents.drop (offset + (first ++ second).length) := by
    rw [overwrite, ← List.drop_drop, List.drop_left' (by simp), List.drop_drop]
    simp [Nat.add_assoc]
  rw [overwrite_of_le second hle, hfront, hback]
  simp [overwrite]

end Bytes

/-- The offsets a channel to this place can go to. -/
def Location.Reaches (location : Location) (offset : Nat) : Prop :=
  match location with
  | .buffer _ => True
  | .file _ => offset < 2 ^ 63

/-- Only writes are planned to go wrong, and only some of them. -/
structure Faults.IsSteady (faults : Faults) : Prop where
  seeks : faults.seeks = []
  flushes : faults.flushes = []
  truncates : faults.truncates = []
  limit : faults.limit = none
  chunk : faults.chunk ≠ some 0

def Channel.IsSteady (channel : Channel) : Prop := channel.faults.IsSteady

/-- The channel holds nothing back; whatever it takes is stored at once. -/
def Channel.IsDirect (channel : Channel) : Prop := channel.capacity = 0 ∧ channel.pending = []

/-- How many of the planned write faults are still to come. -/
def Channel.faultsAhead (channel : Channel) : Nat :=
  channel.faults.writes.countP fun fault => channel.calls.writes ≤ fault.1

namespace Port

/-- What the place of the channel holds once nothing is held back any more. -/
def view (port : Port) : Bytes := port.settle.contents

/-- How a port may differ after calls on it: other places keep what they held. -/
structure Follows (port next : Port) : Prop where
  location : next.channel.location = port.channel.location
  faults : next.channel.faults = port.channel.faults
  writes : port.channel.calls.writes ≤ next.channel.calls.writes
  direct : port.channel.IsDirect → next.channel.IsDirect
  elsewhere : ∀ other, other ≠ port.channel.location →
    next.store.read other = port.store.read other

namespace Follows

theorem refl (port : Port) : port.Follows port :=
  ⟨rfl, rfl, Nat.le_refl _, id, fun _ _ => rfl⟩

theorem trans {first second third : Port} (h : first.Follows second)
    (h' : second.Follows third) : first.Follows third where
  location := h'.location.trans h.location
  faults := h'.faults.trans h.faults
  writes := Nat.le_trans h.writes h'.writes
  direct hdirect := h'.direct (h.direct hdirect)
  elsewhere other hother := by
    rw [h'.elsewhere other (by rwa [h.location]), h.elsewhere other hother]

theorem isSteady {port next : Port} (h : port.Follows next)
    (hsteady : port.channel.IsSteady) : next.channel.IsSteady := by
  rw [Channel.IsSteady, h.faults]
  exact hsteady

theorem faultsAhead_le {port next : Port} (h : port.Follows next) :
    next.channel.faultsAhead ≤ port.channel.faultsAhead := by
  rw [Channel.faultsAhead, Channel.faultsAhead, h.faults]
  apply List.countP_mono_left
  intro fault _ hle
  have := h.writes
  simp only [decide_eq_true_eq] at hle ⊢
  omega

end Follows

/-! ## Settling and accepting -/

theorem view_of_pending_nil {port : Port} (h : port.channel.pending = []) :
    port.view = port.contents := by
  simp [view, settle, h]

theorem view_of_pending_ne {port : Port} (h : port.channel.pending ≠ []) :
    port.view = port.contents.overwrite port.channel.position port.channel.pending := by
  simp [view, settle, h, layDown, contents]

theorem view_of_isDirect {port : Port} (h : port.channel.IsDirect) : port.view = port.contents :=
  view_of_pending_nil h.2

/-- Neither the plan of a channel nor the count of its calls shows in the view. -/
theorem view_eq_of_same {port next : Port}
    (hposition : next.channel.position = port.channel.position)
    (hpending : next.channel.pending = port.channel.pending)
    (hcontents : next.contents = port.contents) : next.view = port.view := by
  by_cases h : port.channel.pending = []
  · rw [view_of_pending_nil h, view_of_pending_nil (hpending.trans h), hcontents]
  · rw [view_of_pending_ne h, view_of_pending_ne (by rwa [hpending]), hcontents, hposition,
      hpending]

theorem view_congr {port other : Port} (hchannel : other.channel = port.channel)
    (hread : other.store.read port.channel.location = port.store.read port.channel.location) :
    other.view = port.view :=
  view_eq_of_same (by rw [hchannel]) (by rw [hchannel]) (by rw [contents, contents, hchannel, hread])

theorem Follows.view_elsewhere {port next : Port} (h : port.Follows next) {channel : Channel}
    (hne : channel.location ≠ port.channel.location) :
    (⟨channel, next.store⟩ : Port).view = (⟨channel, port.store⟩ : Port).view :=
  view_congr rfl (h.elsewhere _ hne)

theorem countCalls_follows (port : Port) {count : Calls → Calls}
    (h : ∀ calls, calls.writes ≤ (count calls).writes) : port.Follows (port.countCalls count) :=
  ⟨rfl, rfl, h _, id, fun _ _ => rfl⟩

@[simp] theorem countCalls_view (port : Port) (count : Calls → Calls) :
    (port.countCalls count).view = port.view :=
  view_eq_of_same rfl rfl rfl

@[simp] theorem countCalls_offset (port : Port) (count : Calls → Calls) :
    (port.countCalls count).channel.offset = port.channel.offset := rfl

@[simp] theorem settle_pending (port : Port) : port.settle.channel.pending = [] := by
  unfold settle
  split
  · assumption
  · rfl

@[simp] theorem settle_location (port : Port) :
    port.settle.channel.location = port.channel.location := by
  unfold settle
  split <;> rfl

@[simp] theorem settle_offset (port : Port) :
    port.settle.channel.offset = port.channel.offset := by
  unfold settle
  split <;> simp [layDown, Channel.offset]

@[simp] theorem settle_contents (port : Port) : port.settle.contents = port.view := rfl

@[simp] theorem settle_view (port : Port) : port.settle.view = port.view :=
  view_of_pending_nil port.settle_pending

theorem layDown_follows (port : Port) (bytes : Bytes) : port.Follows (port.layDown bytes) where
  location := rfl
  faults := rfl
  writes := Nat.le_refl _
  direct := id
  elsewhere _ h := Store.read_put_of_ne _ _ h

theorem settle_follows (port : Port) : port.Follows port.settle := by
  unfold settle
  split
  · exact .refl port
  · exact ⟨rfl, rfl, Nat.le_refl _, fun h => ⟨h.1, rfl⟩, fun _ h => Store.read_put_of_ne _ _ h⟩

theorem holdBack_follows {port : Port} (bytes : Bytes) (h : port.channel.capacity ≠ 0) :
    port.Follows (port.holdBack bytes) :=
  ⟨rfl, rfl, Nat.le_refl _, fun hdirect => absurd hdirect.1 h, fun _ _ => rfl⟩

theorem accept_follows (port : Port) (bytes : Bytes) : port.Follows (port.accept bytes) := by
  have hready : ∀ ready : Port, port.Follows ready →
      port.Follows (if port.channel.capacity ≤ bytes.length then ready.layDown bytes
        else ready.holdBack bytes) := by
    intro ready h
    split
    · exact h.trans (layDown_follows ..)
    · refine h.trans (holdBack_follows bytes ?_)
      rw [Channel.capacity, h.location, ← Channel.capacity]
      omega
  unfold accept
  by_cases hspare : port.channel.capacity - port.channel.pending.length < bytes.length
  · simpa only [hspare, if_true] using hready _ port.settle_follows
  · simpa only [hspare, if_false] using hready _ (.refl port)

theorem layDown_view_of_pending_nil {port : Port} (bytes : Bytes)
    (h : port.channel.pending = []) :
    (port.layDown bytes).view = port.view.overwrite port.channel.offset bytes ∧
      (port.layDown bytes).channel.offset = port.channel.offset + bytes.length := by
  have hpending : (port.layDown bytes).channel.pending = [] := h
  rw [view_of_pending_nil hpending, view_of_pending_nil h]
  simp [layDown, contents, Channel.offset, h]

theorem holdBack_view {port : Port} (bytes : Bytes)
    (h : bytes ≠ [] ∨ port.channel.offset ≤ port.view.length) :
    (port.holdBack bytes).view = port.view.overwrite port.channel.offset bytes ∧
      (port.holdBack bytes).channel.offset = port.channel.offset + bytes.length := by
  refine ⟨?_, by simp [holdBack, Channel.offset, Nat.add_assoc]⟩
  by_cases hbytes : bytes = []
  · subst hbytes
    rw [Bytes.overwrite_nil (h.resolve_left fun hne => hne rfl)]
    simp [holdBack]
  · have hne : (port.holdBack bytes).channel.pending ≠ [] := by simp [holdBack, hbytes]
    rw [view_of_pending_ne hne]
    by_cases hpending : port.channel.pending = []
    · rw [view_of_pending_nil hpending]
      simp [holdBack, contents, Channel.offset, hpending]
    · rw [view_of_pending_ne hpending, Channel.offset, Bytes.overwrite_append]
      simp [holdBack, contents]

/-- Bytes are taken at the offset wherever that is; only nothing at all does not fill a gap. -/
theorem accept_view (port : Port) (bytes : Bytes)
    (h : bytes ≠ [] ∨ port.channel.offset ≤ port.view.length) :
    (port.accept bytes).view = port.view.overwrite port.channel.offset bytes ∧
      (port.accept bytes).channel.offset = port.channel.offset + bytes.length := by
  have hready : ∀ ready : Port, ready.view = port.view →
      ready.channel.offset = port.channel.offset →
      (ready.channel.pending ≠ [] → port.channel.capacity ≤ bytes.length → False) →
      (if port.channel.capacity ≤ bytes.length then ready.layDown bytes
        else ready.holdBack bytes).view = port.view.overwrite port.channel.offset bytes ∧
      (if port.channel.capacity ≤ bytes.length then ready.layDown bytes
        else ready.holdBack bytes).channel.offset = port.channel.offset + bytes.length := by
    intro ready hview hoffset hsettled
    rw [← hview, ← hoffset] at h ⊢
    split
    · rename_i hcapacity
      exact layDown_view_of_pending_nil bytes
        (Classical.byContradiction fun hne => hsettled hne hcapacity)
    · exact holdBack_view bytes h
  unfold accept
  by_cases hspare : port.channel.capacity - port.channel.pending.length < bytes.length
  · simpa only [hspare, if_true] using hready _ port.settle_view port.settle_offset
      fun hne _ => hne port.settle_pending
  simp only [hspare, if_false]
  by_cases hempty : bytes = []
  · -- nothing is laid down, even where bytes held back would be in the way
    subst hempty
    have hinside := h.resolve_left fun hne => hne rfl
    split
    · by_cases hpending : port.channel.pending = []
      · exact layDown_view_of_pending_nil [] hpending
      · have hne : (port.layDown []).channel.pending ≠ [] := hpending
        rw [view_of_pending_ne hne, Bytes.overwrite_nil hinside, view_of_pending_ne hpending]
        have := Bytes.overwrite_append port.contents [] port.channel.pending
          port.channel.position
        refine ⟨?_, by simp [layDown, Channel.offset]⟩
        simpa [layDown, contents] using this
    · exact holdBack_view [] h
  · refine hready port rfl rfl fun hne hcapacity => ?_
    have := List.length_pos_iff.mpr hne
    have := List.length_pos_iff.mpr hempty
    omega

end Port

end SegmentStream
