import SegmentStream.Header.State
import SegmentStream.Proofs.Outcome

/-!
# Updates of the header state

An update replaces what the same field or key held before, so of two updates
either the second hides the first or their order does not matter.  Updates that
are applied again before all of a list that holds them change nothing.
-/

namespace SegmentStream

/-! ## Inserting by key -/

theorem keyBefore_irrefl (key : String) : ¬ keyBefore key key :=
  List.lt_irrefl _

theorem keyBefore_asymm {first second : String} (h : keyBefore first second) :
    ¬ keyBefore second first :=
  fun h' => keyBefore_irrefl first (keyBefore_trans h h')

theorem insertEntry_same (key : String) (first second : Attribute) (entries : List Entry) :
    insertEntry key second (insertEntry key first entries) = insertEntry key second entries := by
  induction entries with
  | nil => simp [insertEntry]
  | cons head rest ih =>
      obtain ⟨other, held⟩ := head
      by_cases heq : key = other
      · simp [insertEntry, heq]
      · by_cases hbefore : keyBefore key other
        · simp [insertEntry, heq, hbefore]
        · simp [insertEntry, heq, hbefore, ih]

/-- The order of two keys decides which of them a later entry meets first. -/
theorem insertEntry_before {first second : String} (value value' : Attribute)
    (entries : List Entry) (h : keyBefore first second) :
    insertEntry first value (insertEntry second value' entries) =
      insertEntry second value' (insertEntry first value entries) := by
  have hne : first ≠ second := fun heq => keyBefore_irrefl first (heq ▸ h)
  have hnot := keyBefore_asymm h
  induction entries with
  | nil => simp [insertEntry, hne, hne.symm, h, hnot]
  | cons head rest ih =>
      obtain ⟨other, held⟩ := head
      by_cases hsecond : second = other
      · subst hsecond
        simp [insertEntry, hne, hne.symm, h, hnot]
      by_cases hbefore : keyBefore second other
      · have hfirst : keyBefore first other := keyBefore_trans h hbefore
        have hfirst' : first ≠ other := fun heq => keyBefore_irrefl first (heq ▸ hfirst)
        simp [insertEntry, hsecond, hbefore, hfirst, hfirst', hne, hne.symm, h, hnot]
      by_cases hfirst : first = other
      · subst hfirst
        simp [insertEntry, hne.symm, hnot]
      by_cases hbefore' : keyBefore first other
      · simp [insertEntry, hsecond, hbefore, hfirst, hbefore', hne.symm, hnot]
      · simp [insertEntry, hsecond, hbefore, hfirst, hbefore', ih]

theorem insertEntry_comm {first second : String} (value value' : Attribute)
    (entries : List Entry) (h : first ≠ second) :
    insertEntry first value (insertEntry second value' entries) =
      insertEntry second value' (insertEntry first value entries) := by
  by_cases hbefore : keyBefore first second
  · exact insertEntry_before value value' entries hbefore
  · exact (insertEntry_before value' value entries (keyBefore_of_not h hbefore)).symm

namespace Extras

/-- Of two values for one key the later stays. -/
theorem insert_insert_same (extras : Extras) (key : String) (first second : Attribute) :
    (extras.insert key first).insert key second = extras.insert key second :=
  eq_of_entries (insertEntry_same key first second extras.entries)

theorem insert_insert_comm (extras : Extras) {first second : String} (value value' : Attribute)
    (h : first ≠ second) :
    (extras.insert first value).insert second value' =
      (extras.insert second value').insert first value :=
  eq_of_entries (insertEntry_comm value' value extras.entries (Ne.symm h))

end Extras

/-! ## Accepted updates -/

namespace HeaderUpdate

def IsProper (size : UInt32) : HeaderUpdate → Prop
  | .version word => word ≠ 0
  | .sampleRate rate => rate.isPositiveFinite = true
  | .itemSize size' => size' = size
  | _ => True

theorem prepare_isProper {size : UInt32} {key : String} {value : Attribute}
    {update : HeaderUpdate} (h : prepare size key value = .ok update) : update.IsProper size := by
  unfold prepare at h
  cases hfield : HeaderField.ofKey? key with
  | none =>
      rw [hfield] at h
      cases h
      trivial
  | some field =>
      rw [hfield] at h
      cases field with
      | version =>
          obtain ⟨word, -, h⟩ := bind_ok h
          split at h
          · rename_i hrange
            cases h
            intro hzero
            have hword : word.toNat = 0 := by
              have := congrArg UInt16.toNat hzero
              simp only [UInt64.toNat_toUInt16] at this
              rw [Nat.mod_eq_of_lt hrange.2] at this
              exact this
            have hpos := hrange.1
            rw [UInt64.lt_iff_toNat_lt, hword] at hpos
            exact absurd hpos (Nat.not_lt_zero _)
          · cases h
      | sampleRate =>
          obtain ⟨rate, -, h⟩ := bind_ok h
          split at h
          · rename_i hrate
            cases h
            exact hrate
          · cases h
      | time =>
          obtain ⟨time, -, h⟩ := bind_ok h
          cases h
          trivial
      | itemSize =>
          obtain ⟨word, -, h⟩ := bind_ok h
          split at h
          · cases h
            rfl
          · cases h
      | sampleType =>
          obtain ⟨word, -, h⟩ := bind_ok h
          split at h
          · cases h
            trivial
          · cases h
      | isComplex =>
          obtain ⟨flag, -, h⟩ := bind_ok h
          cases h
          trivial
      | dataOffset => cases h
      | dataLength => cases h
end HeaderUpdate

namespace HeaderState

/-! ## Applying updates -/

def applySome (state : HeaderState) (update : Option HeaderUpdate) : HeaderState :=
  (update.map state.apply).getD state

def applyAll (state : HeaderState) (updates : List (Option HeaderUpdate)) : HeaderState :=
  updates.foldl applySome state

@[simp] theorem applySome_none (state : HeaderState) : state.applySome none = state := rfl

@[simp] theorem applySome_some (state : HeaderState) (update : HeaderUpdate) :
    state.applySome (some update) = state.apply update := rfl

@[simp] theorem applyAll_nil (state : HeaderState) : state.applyAll [] = state := rfl

@[simp] theorem applyAll_cons (state : HeaderState) (update : Option HeaderUpdate)
    (rest : List (Option HeaderUpdate)) :
    state.applyAll (update :: rest) = (state.applySome update).applyAll rest := rfl

theorem applyAll_append (state : HeaderState) (first second : List (Option HeaderUpdate)) :
    state.applyAll (first ++ second) = (state.applyAll first).applyAll second :=
  List.foldl_append

/-- Two updates of one field or key: the first is hidden.  Of others the order is free. -/
theorem apply_apply (first second : HeaderUpdate) :
    (∀ state : HeaderState, (state.apply first).apply second = state.apply second) ∨
      ∀ state : HeaderState,
        (state.apply first).apply second = (state.apply second).apply first := by
  cases first with
  | extra key value =>
      cases second with
      | extra key' value' =>
          by_cases hkey : key = key'
          · subst hkey
            refine .inl fun state => ?_
            simp only [apply, Extras.insert_insert_same]
          · refine .inr fun state => ?_
            simp only [apply, Extras.insert_insert_comm _ value value' hkey]
      | _ => exact .inr fun _ => rfl
  | version => cases second with
      | version => exact .inl fun _ => rfl
      | _ => exact .inr fun _ => rfl
  | sampleRate => cases second with
      | sampleRate => exact .inl fun _ => rfl
      | _ => exact .inr fun _ => rfl
  | time => cases second with
      | time => exact .inl fun _ => rfl
      | _ => exact .inr fun _ => rfl
  | itemSize => cases second with
      | itemSize => exact .inl fun _ => rfl
      | _ => exact .inr fun _ => rfl
  | sampleType => cases second with
      | sampleType => exact .inl fun _ => rfl
      | _ => exact .inr fun _ => rfl
  | isComplex => cases second with
      | isComplex => exact .inl fun _ => rfl
      | _ => exact .inr fun _ => rfl

theorem apply_self (state : HeaderState) (update : HeaderUpdate) :
    (state.apply update).apply update = state.apply update := by
  cases update with
  | extra key value => simp only [apply, Extras.insert_insert_same]
  | _ => rfl

/-- An update that comes again later may as well come only then. -/
theorem apply_applyAll_of_mem {update : HeaderUpdate} {updates : List (Option HeaderUpdate)}
    (h : some update ∈ updates) (state : HeaderState) :
    (state.apply update).applyAll updates = state.applyAll updates := by
  induction updates generalizing state with
  | nil => simp at h
  | cons head rest ih =>
      rcases List.mem_cons.mp h with rfl | hrest
      · simp only [applyAll_cons, applySome_some, apply_self]
      · cases head with
        | none => exact ih hrest state
        | some other =>
            simp only [applyAll_cons, applySome_some]
            rcases apply_apply update other with hhidden | hfree
            · rw [hhidden]
            · rw [hfree, ih hrest]

theorem applySome_itemSize {state : HeaderState} {size : UInt32} {update : Option HeaderUpdate}
    (hproper : ∀ accepted, update = some accepted → accepted.IsProper size)
    (h : state.header.itemSize = size) : (state.applySome update).header.itemSize = size := by
  cases update with
  | none => exact h
  | some update =>
      cases update with
      | itemSize size' => exact hproper _ rfl
      | _ => exact h

/-- Updates applied before a list that holds them all change nothing. -/
theorem applyAll_applyAll_of_subset {first second : List (Option HeaderUpdate)}
    (h : ∀ update ∈ first, update ∈ second) (state : HeaderState) :
    (state.applyAll first).applyAll second = state.applyAll second := by
  induction first generalizing state with
  | nil => rfl
  | cons head rest ih =>
      have hrest := fun update hupdate => h update (List.mem_cons_of_mem _ hupdate)
      rw [applyAll_cons, ih hrest]
      cases head with
      | none => rfl
      | some update => exact apply_applyAll_of_mem (h _ List.mem_cons_self) state

/-! ## The state as the next header states it -/

/-- No header is open, and the next one states no data yet. -/
def fresh (state : HeaderState) : HeaderState := (state.measure 0).releaseSlot

@[simp] theorem fresh_fresh (state : HeaderState) : state.fresh.fresh = state.fresh := rfl

@[simp] theorem fresh_measure (state : HeaderState) (dataLength : Nat) :
    (state.measure dataLength).fresh = state.fresh := rfl

@[simp] theorem fresh_releaseSlot (state : HeaderState) : state.releaseSlot.fresh = state.fresh :=
  rfl

@[simp] theorem regionSize_fresh (state : HeaderState) : state.fresh.regionSize = state.regionSize :=
  rfl

@[simp] theorem region_releaseSlot (state : HeaderState) :
    state.releaseSlot.region = state.region := rfl

@[simp] theorem regionSize_measure (state : HeaderState) (dataLength : Nat) :
    (state.measure dataLength).regionSize = state.regionSize := rfl

@[simp] theorem region_length (state : HeaderState) : state.region.length = state.regionSize :=
  encodeRegion_length ..

theorem fresh_applySome (state : HeaderState) (update : Option HeaderUpdate) :
    (state.fresh.applySome update).fresh = (state.applySome update).fresh := by
  cases update with
  | none => rfl
  | some update => cases update <;> rfl

theorem fresh_applyAll (state : HeaderState) (updates : List (Option HeaderUpdate)) :
    (state.fresh.applyAll updates).fresh = (state.applyAll updates).fresh := by
  induction updates generalizing state with
  | nil => rfl
  | cons head rest ih =>
      rw [applyAll_cons, applyAll_cons, ← ih, fresh_applySome, ih]

theorem fresh_advance (state : HeaderState) (records : Nat) :
    (state.advance records).fresh = state.fresh.advance records := rfl

theorem measure_fresh (state : HeaderState) (dataLength : Nat) :
    state.fresh.measure dataLength = (state.measure dataLength).releaseSlot := rfl

end HeaderState

end SegmentStream
