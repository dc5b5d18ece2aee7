import SegmentStream.Proofs.Attribute.Listing
import SegmentStream.Proofs.Header.Updates

/-!
# Updates in force

After a list of updates the last one for each key is in force: what it states
stands in the header, the clock or the extra attributes.  What was applied
before makes no difference to any key of the list, so updates that were cut
short are made good by applying the whole list.
-/

namespace SegmentStream

/-- The clock counts from where it stands. -/
def Clock.IsAnchored (clock : Clock) : Prop := clock.anchor = clock.now ∧ clock.records = 0

def HeaderUpdate.key : HeaderUpdate → String
  | .version _ => HeaderField.version.key
  | .sampleRate _ => HeaderField.sampleRate.key
  | .time _ => HeaderField.time.key
  | .itemSize _ => HeaderField.itemSize.key
  | .sampleType _ => HeaderField.sampleType.key
  | .isComplex _ => HeaderField.isComplex.key
  | .extra key _ => key

namespace HeaderState

/-- What the update states is so; a time and a rate hold from the record at which they came. -/
def Shows (state : HeaderState) : HeaderUpdate → Prop
  | .version version => state.header.version = version
  | .sampleRate rate =>
      state.clock.sampleRate = rate ∧ state.header.sampleRate = state.clock.effectiveRate ∧
        state.clock.IsAnchored
  | .time time =>
      state.header.time = time ∧ state.clock.now = time ∧ state.clock.IsAnchored
  | .itemSize itemSize => state.header.itemSize = itemSize
  | .sampleType sampleType => state.header.sampleType = sampleType
  | .isComplex isComplex => state.header.isComplex = isComplex
  | .extra key value => state.extras.get? key = some value

theorem shows_apply (state : HeaderState) (update : HeaderUpdate) :
    (state.apply update).Shows update := by
  cases update with
  | sampleRate | time => exact ⟨rfl, rfl, rfl, rfl⟩
  | extra key value => simp [apply, Shows, Extras.get?_insert]
  | _ => rfl

/-- An update for another key hides nothing: a new time anchors the clock as a new rate does. -/
theorem Shows.apply {state : HeaderState} {update : HeaderUpdate} (h : state.Shows update)
    {later : HeaderUpdate} (hkey : later.key ≠ update.key) :
    (state.apply later).Shows update := by
  cases later with
  | sampleRate rate =>
      cases update with
      | sampleRate => exact absurd rfl hkey
      | time time => exact ⟨h.1, h.2.1, rfl, rfl⟩
      | _ => exact h
  | time time =>
      cases update with
      | time => exact absurd rfl hkey
      | sampleRate rate => exact ⟨h.1, h.2.1, rfl, rfl⟩
      | _ => exact h
  | extra key value =>
      cases update with
      | extra key' value' =>
          have hne : ¬ key = key' := hkey
          simpa [HeaderState.apply, Shows, Extras.get?_insert, hne] using h
      | _ => exact h
  | version => cases update with
      | version => exact absurd rfl hkey
      | _ => exact h
  | itemSize => cases update with
      | itemSize => exact absurd rfl hkey
      | _ => exact h
  | sampleType => cases update with
      | sampleType => exact absurd rfl hkey
      | _ => exact h
  | isComplex => cases update with
      | isComplex => exact absurd rfl hkey
      | _ => exact h

theorem Shows.foldl_apply {state : HeaderState} {update : HeaderUpdate} (h : state.Shows update)
    {after : List HeaderUpdate} (hkeys : ∀ later ∈ after, later.key ≠ update.key) :
    (after.foldl HeaderState.apply state).Shows update := by
  induction after generalizing state with
  | nil => exact h
  | cons later after ih =>
      obtain ⟨hlater, hafter⟩ := List.forall_mem_cons.mp hkeys
      exact ih (h.apply hlater) hafter

theorem applyAll_map_some (state : HeaderState) (updates : List HeaderUpdate) :
    state.applyAll (updates.map some) = updates.foldl apply state :=
  List.foldl_map

/--
Updates may be applied in part and then again from the first one on: the header,
the extra attributes with their length, and the clock come to the same, and the
last update for each key is in force.
-/
theorem foldl_apply_again (state : HeaderState) (updates : List HeaderUpdate) :
    (∀ done, done <+: updates →
      updates.foldl apply (done.foldl apply state) = updates.foldl apply state) ∧
    (∀ update, (state.apply update).apply update = state.apply update) ∧
    ∀ before update after, updates = before ++ update :: after →
      (∀ later ∈ after, later.key ≠ update.key) →
      (updates.foldl apply state).Shows update := by
  refine ⟨?_, state.apply_self, ?_⟩
  · intro done hdone
    have hamong : ∀ update ∈ done.map some, update ∈ updates.map some := fun update hupdate =>
      List.map_subset some hdone.subset hupdate
    simp only [← applyAll_map_some]
    exact applyAll_applyAll_of_subset hamong state
  · rintro before update after rfl hkeys
    rw [List.foldl_append, List.foldl_cons]
    exact (shows_apply _ update).foldl_apply hkeys

/-- Five records behind its anchor a clock is given a rate, a time and the first rate again. -/
theorem foldl_apply_again_anchored :
    let clock : Clock := { Clock.start ⟨3, .zero⟩ .one .one with records := 5, now := ⟨8, .zero⟩ }
    let state : HeaderState := { header := {}, extras := .empty, clock }
    let front : List HeaderUpdate := [.sampleRate (.ofCount 2), .extra "a" (.int 1)]
    let back : List HeaderUpdate := [.sampleRate .one, .extra "a" (.text "x")]
    let updates := front ++ .time ⟨9, .zero⟩ :: back
    front <+: updates ∧
      updates.foldl apply (front.foldl apply state) = updates.foldl apply state ∧
      (updates.foldl apply state).Shows (.time ⟨9, .zero⟩) := by
  intro clock state front back updates
  obtain ⟨hagain, -, hlast⟩ := foldl_apply_again state updates
  have hfront : front <+: updates := List.prefix_append ..
  exact ⟨hfront, hagain front hfront, hlast front _ back rfl (by decide)⟩

end HeaderState

end SegmentStream
