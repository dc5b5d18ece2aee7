import SegmentStream.Action

/-!
# Outcomes of actions

`Ends action current good bad` says what an action run in `current` comes to: a
result and a state in `good`, or a fault and a state in `bad`.  The rules below
take an action apart, so that what is said of its parts decides what is said of
the whole.
-/

namespace SegmentStream

/-! ## Results without a state -/

theorem bind_ok {α β ε : Type} {first : Except ε α} {next : α → Except ε β} {result : β}
    (h : first >>= next = .ok result) : ∃ value, first = .ok value ∧ next value = .ok result := by
  cases first with
  | error cause => cases h
  | ok value => exact ⟨value, rfl, h⟩

theorem guard_ok {α β ε : Type} {condition : Prop} [Decidable condition] {fault : ε}
    {next : α → Except ε β} {rest : Except ε β} {result : β}
    (h : (if condition then (throw fault >>= next) else rest) = .ok result) :
    ¬ condition ∧ rest = .ok result := by
  split at h
  · cases h
  · exact ⟨‹_›, h⟩

end SegmentStream

namespace SegmentStream.Action

variable {fault fault' state part result result' : Type}

def Ends (action : Action fault state result) (current : state)
    (good : result → state → Prop) (bad : fault → state → Prop) : Prop :=
  match action current with
  | .ok value next => good value next
  | .error cause next => bad cause next

theorem Ends.mono {action : Action fault state result} {current : state}
    {good good' : result → state → Prop} {bad bad' : fault → state → Prop}
    (h : Ends action current good bad)
    (hgood : ∀ value next, good value next → good' value next)
    (hbad : ∀ cause next, bad cause next → bad' cause next) :
    Ends action current good' bad' := by
  unfold Ends at *
  split at h
  · exact hgood _ _ h
  · exact hbad _ _ h

theorem Ends.and {action : Action fault state result} {current : state}
    {good good' : result → state → Prop} {bad bad' : fault → state → Prop}
    (h : Ends action current good bad) (h' : Ends action current good' bad') :
    Ends action current (fun value next => good value next ∧ good' value next)
      (fun cause next => bad cause next ∧ bad' cause next) := by
  unfold Ends at *
  split at h <;> simp_all only [and_self]

instance (action : Action fault state result) (current : state) (good : result → state → Prop)
    (bad : fault → state → Prop) [∀ value next, Decidable (good value next)]
    [∀ cause next, Decidable (bad cause next)] : Decidable (Ends action current good bad) :=
  match h : action current with
  | .ok value next => decidable_of_iff (good value next) (by simp [Ends, h])
  | .error cause next => decidable_of_iff (bad cause next) (by simp [Ends, h])

theorem ends_of_forall {action : Action fault state result} {current : state}
    {good : result → state → Prop} {bad : fault → state → Prop}
    (hgood : ∀ value next, good value next) (hbad : ∀ cause next, bad cause next) :
    Ends action current good bad := by
  unfold Ends
  split
  · exact hgood _ _
  · exact hbad _ _

theorem Ends.exists_ok {action : Action fault state result} {current : state}
    {good : result → state → Prop} (h : Ends action current good fun _ _ => False) :
    ∃ value next, action current = .ok value next ∧ good value next := by
  unfold Ends at h
  split at h
  · exact ⟨_, _, by assumption, h⟩
  · exact h.elim

theorem Ends.of_ok {action : Action fault state result} {current next : state} {value : result}
    {good : result → state → Prop} {bad : fault → state → Prop}
    (h : Ends action current good bad) (hok : action current = .ok value next) :
    good value next := by
  simpa [Ends, hok] using h

theorem ends_iff_of_ok {action : Action fault state result} {current next : state} {value : result}
    {good : result → state → Prop} {bad : fault → state → Prop}
    (h : action current = .ok value next) : Ends action current good bad ↔ good value next := by
  rw [Ends, h]

theorem Ends.of_error {action : Action fault state result} {current next : state}
    {cause : fault} {good : result → state → Prop} {bad : fault → state → Prop}
    (h : Ends action current good bad) (herror : action current = .error cause next) :
    bad cause next := by
  simpa [Ends, herror] using h

/-- What holds whether the action ends in a result or in a fault. -/
theorem Ends.stateAfter {action : Action fault state result} {current : state}
    {always : state → Prop}
    (h : Ends action current (fun _ next => always next) (fun _ next => always next)) :
    always (action.stateAfter current) := by
  unfold Ends at h
  rw [Action.stateAfter]
  split at h <;> simp only [*]

theorem Ends.imp {action : Action fault state result} {current : state}
    {always always' : state → Prop}
    (h : Ends action current (fun _ next => always next) (fun _ next => always next))
    (himp : ∀ next, always next → always' next) :
    Ends action current (fun _ next => always' next) (fun _ next => always' next) :=
  h.mono (fun _ next => himp next) fun _ next => himp next

/-! ## Rules -/

section Rules

variable {good : result → state → Prop} {bad : fault → state → Prop} {current : state}

@[simp] theorem ends_pure (value : result) :
    Ends (pure value : Action fault state result) current good bad ↔ good value current :=
  Iff.rfl

@[simp] theorem ends_throw (cause : fault) :
    Ends (throw cause : Action fault state result) current good bad ↔ bad cause current :=
  Iff.rfl

@[simp] theorem ends_bind (action : Action fault state result')
    (next : result' → Action fault state result) :
    Ends (action >>= next) current good bad ↔
      Ends action current (fun value later => Ends (next value) later good bad) bad := by
  simp only [Ends, bind, EStateM.bind]
  cases action current <;> rfl

@[simp] theorem ends_map (f : result' → result) (action : Action fault state result') :
    Ends (f <$> action) current good bad ↔
      Ends action current (fun value later => good (f value) later) bad := by
  simp only [Ends, Functor.map, EStateM.map]
  cases action current <;> rfl

@[simp] theorem ends_discard {good : PUnit → state → Prop}
    (action : Action fault state result') :
    Ends (discard action) current good bad ↔
      Ends action current (fun _ later => good ⟨⟩ later) bad := by
  simp only [discard, Functor.discard]
  exact ends_map (fun _ => PUnit.unit) action

@[simp] theorem ends_get {good : state → state → Prop} :
    Ends (get : Action fault state state) current good bad ↔ good current current :=
  Iff.rfl

@[simp] theorem ends_set {good : PUnit → state → Prop} (next : state) :
    Ends (set next : Action fault state PUnit) current good bad ↔ good ⟨⟩ next :=
  Iff.rfl

@[simp] theorem ends_modify {good : PUnit → state → Prop} (update : state → state) :
    Ends (modify update : Action fault state PUnit) current good bad ↔
      good ⟨⟩ (update current) :=
  Iff.rfl

@[simp] theorem ends_change (update : state → result × state) :
    Ends (change update : Action fault state result) current good bad ↔
      good (update current).1 (update current).2 :=
  Iff.rfl

@[simp] theorem ends_attempt {good : Except fault' result → state → Prop}
    (action : Action fault' state result) :
    Ends (attempt action : Action fault state (Except fault' result)) current good bad ↔
      Ends action current (fun value later => good (.ok value) later)
        (fun cause later => good (.error cause) later) := by
  simp only [Ends, attempt]
  cases action current <;> rfl

@[simp] theorem ends_mapFault (rename : fault' → fault) (action : Action fault' state result) :
    Ends (mapFault rename action) current good bad ↔
      Ends action current good (fun cause later => bad (rename cause) later) := by
  simp only [Ends, mapFault]
  cases action current <;> rfl

@[simp] theorem ends_within (get : state → part) (put : state → part → state)
    (action : Action fault part result) :
    Ends (within get put action) current good bad ↔
      Ends action (get current) (fun value later => good value (put current later))
        (fun cause later => bad cause (put current later)) := by
  simp only [Ends, within]
  cases action (get current) <;> rfl

end Rules

end SegmentStream.Action
