import SegmentStream.Proofs.Outcome

/-!
# Actions side by side

Two actions run beside each other when both end in results, or both in the same
fault.  A fault of the first may be excused: nothing more is asked then, except
that whatever catches it ends in an excused fault as well.  The rules below
compare actions part by part.  Actions agree if their results are the same and
their states stay related.
-/

namespace SegmentStream.Action

variable {fault fault' state state' part part' result result' value value' : Type}

def Beside (excused : fault → Prop) (first : Action fault state result)
    (second : Action fault state' result') (current : state) (current' : state')
    (good : result → result' → state → state' → Prop) (bad : fault → state → state' → Prop) :
    Prop :=
  Ends first current
    (fun value next => Ends second current' (fun value' next' => good value value' next next')
      fun _ _ => False)
    (fun cause next => excused cause ∨ Ends second current' (fun _ _ => False)
      fun cause' next' => cause' = cause ∧ bad cause next next')

section Rules

variable {excused : fault → Prop} {current : state} {current' : state'}
  {good : result → result' → state → state' → Prop} {bad : fault → state → state' → Prop}

theorem Beside.mono {first : Action fault state result} {second : Action fault state' result'}
    {good' : result → result' → state → state' → Prop} {bad' : fault → state → state' → Prop}
    (h : Beside excused first second current current' good bad)
    (hgood : ∀ value value' next next', good value value' next next' →
      good' value value' next next')
    (hbad : ∀ cause next next', bad cause next next' → bad' cause next next') :
    Beside excused first second current current' good' bad' := by
  apply Ends.mono h
  · intro value next hnext
    apply hnext.mono
    · exact fun value' next' => hgood value value' next next'
    · exact fun _ _ => id
  · intro cause next hnext
    cases hnext with
    | inl hexcused => exact .inl hexcused
    | inr hfault =>
        right
        apply hfault.mono
        · exact fun _ _ => id
        · intro cause' next' hnext'
          exact ⟨hnext'.1, hbad cause next next' hnext'.2⟩

theorem Beside.excuse {excused' : fault → Prop} {first : Action fault state result}
    {second : Action fault state' result'}
    (h : Beside excused first second current current' good bad)
    (hexcused : ∀ cause, excused cause → excused' cause) :
    Beside excused' first second current current' good bad :=
  Ends.mono h (fun _ _ => id) fun cause _ => Or.imp_left (hexcused cause)

/-- Where the second ends in a result, only excused faults are left to the first. -/
theorem Beside.sound {first : Action fault state result} {second : Action fault state' result'}
    {bad' : fault → state → state' → Prop}
    (h : Beside excused first second current current' good bad)
    (hsound : Ends second current' (fun _ _ => True) fun _ _ => False) :
    Beside excused first second current current' good bad' := by
  apply Ends.mono h
  · exact fun _ _ => id
  · intro cause next hnext
    cases hnext with
    | inl hexcused => exact .inl hexcused
    | inr hfault =>
        unfold Ends at hfault hsound
        split at hfault
        · exact hfault.elim
        · rename_i heq
          rw [heq] at hsound
          exact hsound.elim

theorem beside_pure {value : result} {value' : result'} :
    Beside excused (pure value) (pure value') current current' good bad ↔
      good value value' current current' :=
  Iff.rfl

theorem beside_throw {cause : fault} (h : bad cause current current') :
    Beside excused (throw cause : Action fault state result)
      (throw cause : Action fault state' result') current current' good bad :=
  .inr ⟨rfl, h⟩

theorem beside_modify {good : PUnit → PUnit → state → state' → Prop} {update : state → state}
    {update' : state' → state'} :
    Beside excused (modify update) (modify update') current current' good bad ↔
      good ⟨⟩ ⟨⟩ (update current) (update' current') :=
  Iff.rfl

theorem Beside.bind {first : Action fault state value} {second : Action fault state' value'}
    {next : value → Action fault state result} {next' : value' → Action fault state' result'}
    (h : Beside excused first second current current'
      (fun found found' later later' => Beside excused (next found) (next' found') later later'
        good bad) bad) :
    Beside excused (first >>= next) (second >>= next') current current' good bad := by
  unfold Beside
  rw [ends_bind]
  apply Ends.mono h
  · intro found later hlater
    unfold Ends at hlater
    split at hlater
    · rename_i found' later' hsecond
      apply Ends.mono hlater
      · intro found'' last hlast
        rw [ends_bind, Ends, hsecond]
        exact hlast
      · intro cause last hlast
        cases hlast with
        | inl hexcused => exact .inl hexcused
        | inr hfault =>
            right
            rw [ends_bind, Ends, hsecond]
            exact hfault
    · exact hlater.elim
  · intro cause later hlater
    cases hlater with
    | inl hexcused => exact .inl hexcused
    | inr hfault =>
        right
        rw [ends_bind]
        apply hfault.mono
        · exact fun _ _ hfalse => hfalse.elim
        · exact fun _ _ => id

theorem Beside.discard {good : PUnit → PUnit → state → state' → Prop}
    {first : Action fault state value} {second : Action fault state' value'}
    (h : Beside excused first second current current' (fun _ _ => good ⟨⟩ ⟨⟩) bad) :
    Beside excused (discard first) (discard second) current current' good bad := by
  unfold Beside
  simp only [ends_discard]
  exact h

theorem beside_get_bind {next : state → Action fault state result}
    {next' : state' → Action fault state' result'} :
    Beside excused (get >>= next) (get >>= next') current current' good bad ↔
      Beside excused (next current) (next' current') current current' good bad := by
  unfold Beside
  simp only [ends_bind, ends_get]

theorem Beside.mapFault {excused' : fault' → Prop} {bad' : fault' → state → state' → Prop}
    {rename : fault → fault'} {first : Action fault state result}
    {second : Action fault state' result'}
    (h : Beside excused first second current current' good bad)
    (hexcused : ∀ cause, excused cause → excused' (rename cause))
    (hbad : ∀ cause next next', bad cause next next' → bad' (rename cause) next next') :
    Beside excused' (mapFault rename first) (mapFault rename second) current current' good bad' := by
  unfold Beside
  rw [ends_mapFault]
  apply Ends.mono h
  · intro value next hnext
    rw [ends_mapFault]
    exact hnext
  · intro cause next hnext
    cases hnext with
    | inl hcause => exact .inl (hexcused cause hcause)
    | inr hfault =>
        right
        rw [ends_mapFault]
        apply hfault.mono
        · exact fun _ _ => id
        · intro cause' next' hnext'
          obtain ⟨rfl, hnext'⟩ := hnext'
          exact ⟨rfl, hbad _ next next' hnext'⟩

/--
Actions that run a part each and go on by what became of it.  What catches a
fault goes on with it; an excused one it ends in an excused one.
-/
theorem Beside.caught {excused' : fault' → Prop} {bad : fault' → state → state' → Prop}
    {first : Action fault part value} {second : Action fault part' value'} {here : part}
    {here' : part'} {whole : Action fault' state result} {whole' : Action fault' state' result'}
    (next : Except fault value → part → Action fault' state result) (put : part → state)
    (next' : Except fault value' → part' → Action fault' state' result') (put' : part' → state')
    (hwhole : ∀ {good bad}, Ends whole current good bad ↔ Ends first here
      (fun found later => Ends (next (.ok found) later) (put later) good bad)
      fun cause later => Ends (next (.error cause) later) (put later) good bad)
    (hwhole' : ∀ {good bad}, Ends whole' current' good bad ↔ Ends second here'
      (fun found later => Ends (next' (.ok found) later) (put' later) good bad)
      fun cause later => Ends (next' (.error cause) later) (put' later) good bad)
    (h : Beside excused first second here here'
      (fun found found' later later' => Beside excused' (next (.ok found) later)
        (next' (.ok found') later') (put later) (put' later') good bad)
      fun cause later later' => Beside excused' (next (.error cause) later)
        (next' (.error cause) later') (put later) (put' later') good bad)
    (hexcused : ∀ cause later, excused cause →
      Ends (next (.error cause) later) (put later) (fun _ _ => False)
        fun cause' _ => excused' cause') :
    Beside excused' whole whole' current current' good bad := by
  unfold Beside
  rw [hwhole]
  apply Ends.mono h
  · intro found later hlater
    unfold Ends at hlater
    split at hlater
    · rename_i found' later' hsecond
      apply Ends.mono hlater
      · intro value last hlast
        rw [hwhole', Ends, hsecond]
        exact hlast
      · intro cause last hlast
        rw [hwhole', Ends, hsecond]
        exact hlast
    · exact hlater.elim
  · intro cause later hlater
    cases hlater with
    | inl hcause =>
        apply (hexcused cause later hcause).mono
        · exact fun _ _ hfalse => hfalse.elim
        · exact fun _ _ hexcused => .inl hexcused
    | inr hfault =>
        unfold Ends at hfault
        split at hfault
        · exact hfault.elim
        · rename_i cause' later' hsecond
          obtain ⟨rfl, hnext⟩ := hfault
          apply Ends.mono hnext
          · intro value last hlast
            rw [hwhole', Ends, hsecond]
            exact hlast
          · intro cause last hlast
            rw [hwhole', Ends, hsecond]
            exact hlast

theorem Beside.attempt_bind {excused' : fault' → Prop}
    {first : Action fault state value} {second : Action fault state' value'}
    {next : Except fault value → Action fault' state result}
    {next' : Except fault value' → Action fault' state' result'}
    {bad : fault' → state → state' → Prop}
    (h : Beside excused first second current current'
      (fun found found' later later' => Beside excused' (next (.ok found)) (next' (.ok found'))
        later later' good bad)
      (fun cause later later' => Beside excused' (next (.error cause)) (next' (.error cause))
        later later' good bad))
    (hexcused : ∀ cause later, excused cause →
      Ends (next (.error cause)) later (fun _ _ => False) fun cause' _ => excused' cause') :
    Beside excused' (first.attempt >>= next) (second.attempt >>= next') current current'
      good bad := by
  apply Beside.caught (fun outcome _ => next outcome) id (fun outcome _ => next' outcome) id ?_ ?_
    h hexcused
  · simp only [ends_bind, ends_attempt, id, implies_true]
  · simp only [ends_bind, ends_attempt, id, implies_true]

theorem Beside.within {get : state → part} {put : state → part → state} {get' : state' → part'}
    {put' : state' → part' → state'} {first : Action fault part result}
    {second : Action fault part' result'}
    (h : Beside excused first second (get current) (get' current')
      (fun found found' later later' => good found found' (put current later) (put' current' later'))
      (fun cause later later' => bad cause (put current later) (put' current' later'))) :
    Beside excused (within get put first) (within get' put' second) current current' good bad := by
  unfold Beside
  rw [ends_within]
  apply Ends.mono h
  · intro found later hlater
    rw [ends_within]
    exact hlater
  · intro cause later hlater
    cases hlater with
    | inl hexcused => exact .inl hexcused
    | inr hfault =>
        right
        rw [ends_within]
        exact hfault

/-- A first action whose every fault is excused, and a second that ends in a result. -/
theorem beside_of_ends {first : Action fault state result} {second : Action fault state' result'}
    (h : Ends first current (fun found later => Ends second current'
      (fun found' later' => good found found' later later') fun _ _ => False)
      fun cause _ => excused cause) :
    Beside excused first second current current' good bad :=
  Ends.mono h (fun _ _ => id) fun _ _ => .inl

end Rules

/-! ## Agreement -/

/-- The same result or the same fault, and related states behind it. -/
def Agrees (excused : fault → Prop) (related : state → state' → Prop)
    (first : Action fault state result) (second : Action fault state' result) (current : state)
    (current' : state') : Prop :=
  Beside excused first second current current'
    (fun value value' next next' => value = value' ∧ related next next')
    fun _ next next' => related next next'

section Agreement

variable {excused : fault → Prop} {related close : state → state' → Prop} {current : state}
  {current' : state'}

theorem agrees_pure (h : related current current') (found : result) :
    Agrees excused related (pure found) (pure found) current current' :=
  ⟨rfl, h⟩

theorem agrees_throw (h : related current current') (cause : fault) :
    Agrees excused related (throw cause : Action fault state result)
      (throw cause : Action fault state' result) current current' :=
  beside_throw h

theorem agrees_modify {update : state → state} {update' : state' → state'}
    (h : related (update current) (update' current')) :
    Agrees excused related (modify update) (modify update') current current' :=
  ⟨rfl, h⟩

theorem agrees_get_bind {next : state → Action fault state result}
    {next' : state' → Action fault state' result} :
    Agrees excused related (get >>= next) (get >>= next') current current' ↔
      Agrees excused related (next current) (next' current') current current' :=
  beside_get_bind

theorem Agrees.excuse {excused' : fault → Prop} {first : Action fault state result}
    {second : Action fault state' result} (h : Agrees excused related first second current current')
    (hexcused : ∀ cause, excused cause → excused' cause) :
    Agrees excused' related first second current current' :=
  Beside.excuse h hexcused

theorem Agrees.bind_beside {good : result → result' → state → state' → Prop}
    {bad : fault → state → state' → Prop} {first : Action fault state value}
    {second : Action fault state' value} {next : value → Action fault state result}
    {next' : value → Action fault state' result'}
    (h : Agrees excused close first second current current')
    (hclose : ∀ cause later later', close later later' → bad cause later later')
    (hnext : ∀ found later later', close later later' →
      Beside excused (next found) (next' found) later later' good bad) :
    Beside excused (first >>= next) (second >>= next') current current' good bad := by
  apply Beside.bind
  apply Beside.mono h
  · intro found found' later later' hlater
    obtain ⟨rfl, hlater⟩ := hlater
    exact hnext found later later' hlater
  · exact hclose

/-- The first parts may leave the states closer to each other than is asked for in the end. -/
theorem Agrees.bind_of {first : Action fault state value} {second : Action fault state' value}
    {next : value → Action fault state result} {next' : value → Action fault state' result}
    (h : Agrees excused close first second current current')
    (hclose : ∀ later later', close later later' → related later later')
    (hnext : ∀ found later later', close later later' →
      Agrees excused related (next found) (next' found) later later') :
    Agrees excused related (first >>= next) (second >>= next') current current' :=
  h.bind_beside (fun _ => hclose) hnext

theorem Agrees.bind {first : Action fault state value} {second : Action fault state' value}
    {next : value → Action fault state result} {next' : value → Action fault state' result}
    (h : Agrees excused related first second current current')
    (hnext : ∀ found later later', related later later' →
      Agrees excused related (next found) (next' found) later later') :
    Agrees excused related (first >>= next) (second >>= next') current current' :=
  h.bind_of (fun _ _ => id) hnext

theorem Agrees.map {first : Action fault state value} {second : Action fault state' value}
    (h : Agrees excused related first second current current') (f : value → result) :
    Agrees excused related (f <$> first) (f <$> second) current current' := by
  unfold Agrees Beside
  simp only [ends_map]
  apply Beside.mono h
  · exact fun _ _ _ _ hnext => ⟨congrArg f hnext.1, hnext.2⟩
  · exact fun _ _ _ => id

theorem Agrees.attempt_bind {excused' : fault' → Prop}
    {first : Action fault state value} {second : Action fault state' value}
    {next : Except fault value → Action fault' state result}
    {next' : Except fault value → Action fault' state' result}
    (h : Agrees excused close first second current current')
    (hnext : ∀ outcome later later', close later later' →
      Agrees excused' related (next outcome) (next' outcome) later later')
    (hexcused : ∀ cause later, excused cause →
      Ends (next (.error cause)) later (fun _ _ => False) fun cause' _ => excused' cause') :
    Agrees excused' related (first.attempt >>= next) (second.attempt >>= next') current
      current' := by
  refine Beside.attempt_bind ?_ hexcused
  apply Beside.mono h
  · intro found found' later later' hlater
    obtain ⟨rfl, hlater⟩ := hlater
    exact hnext (.ok found) later later' hlater
  · exact fun cause later later' => hnext (.error cause) later later'

theorem Agrees.mapFault {excused' : fault' → Prop} {rename : fault → fault'}
    {first : Action fault state result} {second : Action fault state' result}
    (h : Agrees excused related first second current current')
    (hexcused : ∀ cause, excused cause → excused' (rename cause)) :
    Agrees excused' related (mapFault rename first) (mapFault rename second) current current' :=
  Beside.mapFault h hexcused fun _ _ _ => id

theorem Agrees.within {related' : part → part' → Prop} {get : state → part}
    {put : state → part → state} {get' : state' → part'} {put' : state' → part' → state'}
    {first : Action fault part result} {second : Action fault part' result}
    (h : Agrees excused related' first second (get current) (get' current'))
    (hput : ∀ later later', related' later later' →
      related (put current later) (put' current' later')) :
    Agrees excused related (within get put first) (within get' put' second) current current' := by
  apply Beside.within
  apply Beside.mono h
  · exact fun _ _ later later' hlater => ⟨hlater.1, hput later later' hlater.2⟩
  · exact fun _ later later' hlater => hput later later' hlater

/-- Unless a fault is excused, both actions leave related states and give the same. -/
theorem Agrees.run_eq {first : Action fault state result} {second : Action fault state' result}
    (h : Agrees excused related first second current current')
    (hsound : ∀ cause, (first.run current).1 = .error cause → ¬ excused cause) :
    (first.run current).1 = (second.run current').1 ∧
      related (first.stateAfter current) (second.stateAfter current') := by
  simp only [Agrees, Beside, Ends] at h
  unfold run at hsound ⊢
  unfold stateAfter
  cases hfirst : first current with
  | ok found next =>
      simp only [hfirst] at h ⊢
      cases hsecond : second current' with
      | ok found' next' =>
          simp only [hsecond] at h ⊢
          exact ⟨congrArg Except.ok h.1, h.2⟩
      | error cause' next' =>
          simp only [hsecond] at h
  | error cause next =>
      simp only [hfirst] at h hsound ⊢
      replace h := h.resolve_left (hsound cause rfl)
      cases hsecond : second current' with
      | ok found' next' =>
          simp only [hsecond] at h
      | error cause' next' =>
          simp only [hsecond] at h ⊢
          exact ⟨congrArg Except.error h.1.symm, h.2⟩

end Agreement

end SegmentStream.Action
