import SegmentStream.Proofs.Recorder.Chronicle

/-!
# Moves of a chronicle

Every call is a few moves of the chronicle, one after the other: acts on the
active target, records that are dropped and updates without one, a target that is
let go of, and one that is turned to.  What every move keeps, every run keeps.
-/

namespace SegmentStream

/-! ## Updates -/

/-- The updates that a call asks for, if they are accepted. -/
def Call.updates (size : UInt32) : Call → List HeaderUpdate
  | .work _ tags => tags.filterMap (Tag.update? size)
  | .update key value => (HeaderUpdate.prepare size key value).toOption.toList
  | _ => []

theorem Call.exists_prepare {size : UInt32} {call : Call} {update : HeaderUpdate}
    (h : update ∈ call.updates size) :
    ∃ key value, HeaderUpdate.prepare size key value = .ok update := by
  cases call with
  | work items tags =>
      obtain ⟨tag, -, hupdate⟩ := List.mem_filterMap.mp h
      exact ⟨tag.key, tag.value, Tag.prepare_of_update? hupdate⟩
  | update key value =>
      rw [updates] at h
      cases hprepare : HeaderUpdate.prepare size key value with
      | error cause =>
          rw [hprepare] at h
          cases h
      | ok accepted =>
          rw [hprepare] at h
          obtain rfl := List.mem_singleton.mp h
          exact ⟨key, value, hprepare⟩
  | _ => cases h

theorem Call.updates_isProper {size : UInt32} {call : Call} {update : HeaderUpdate}
    (h : update ∈ call.updates size) : update.IsProper size := by
  obtain ⟨key, value, hprepare⟩ := exists_prepare h
  exact HeaderUpdate.prepare_isProper hprepare

namespace Chronicle

/-! ## Moves -/

/-- One move of a chronicle, with updates out of those that are allowed. -/
inductive Moves (config : Config) (allowed : HeaderUpdate → Prop) (chronicle : Chronicle) :
    Chronicle → Prop
  | aside {later : Chronicle} (hpast : later.past = chronicle.past)
      (hcurrent : later.current = chronicle.current) (htape : later.tape = chronicle.tape) :
      Moves config allowed chronicle later
  | play {places : List Location} {acts : List Act} (hcurrent : chronicle.current = some places)
      (hacts : ∀ act ∈ acts, act.IsOf config.recordSize allowed) :
      Moves config allowed chronicle
        { chronicle with tape := chronicle.tape.play config.ceiling acts }
  | drop (records : Nat) (hcurrent : chronicle.current = none) :
      Moves config allowed chronicle { chronicle with tape := chronicle.tape.dropped records }
  | amend {update : HeaderUpdate} (hcurrent : chronicle.current = none) (hupdate : allowed update) :
      Moves config allowed chronicle
        { chronicle with tape := (chronicle.tape.countTag (some update)).apply (some update) }
  | retire {places : List Location} (hcurrent : chronicle.current = some places) :
      Moves config allowed chronicle
        { chronicle with
          past := chronicle.past ++ [⟨places, chronicle.tape.close.closed⟩]
          current := none
          tape := chronicle.tape.detached }
  | install (places : List Location) (hcurrent : chronicle.current = none) :
      Moves config allowed chronicle
        { chronicle with current := some places, tape := chronicle.tape.installed }

/-- What every move keeps. -/
def IsKept (config : Config) (allowed : HeaderUpdate → Prop) (holds : Chronicle → Prop) : Prop :=
  ∀ chronicle later, Moves config allowed chronicle later → holds chronicle → holds later

section Kept

variable {config : Config} {allowed : HeaderUpdate → Prop} {holds : Chronicle → Prop}
  {chronicle : Chronicle}

theorem IsKept.aside (h : IsKept config allowed holds) {later : Chronicle}
    (hholds : holds chronicle) (hpast : later.past = chronicle.past)
    (hcurrent : later.current = chronicle.current) (htape : later.tape = chronicle.tape) :
    holds later :=
  h _ _ (.aside hpast hcurrent htape) hholds

theorem IsKept.retire (h : IsKept config allowed holds) (hholds : holds chronicle) :
    holds chronicle.retire := by
  rw [Chronicle.retire]
  split
  · exact hholds
  · next places hcurrent => exact h _ _ (.retire hcurrent) hholds

theorem IsKept.turn (h : IsKept config allowed holds) (hholds : holds chronicle) :
    holds chronicle.turn := by
  rw [Chronicle.turn]
  split
  · exact hholds
  · next command _ =>
      let emptied : Chronicle := { chronicle with
        staged := [], unused := chronicle.unused ++ chronicle.staged.dropLast.reduceOption }
      have hretired : holds emptied.retire := h.retire (h.aside hholds rfl rfl rfl)
      cases command with
      | none => exact hretired
      | some places => exact h _ _ (.install places (current_retire emptied)) hretired

theorem IsKept.take (h : IsKept config allowed holds) {records : List Bytes} {tags : List Tag}
    (hrecords : ∀ record ∈ records, record.length = config.recordSize.toNat)
    (htags : ∀ update ∈ tags.filterMap (Tag.update? config.recordSize), allowed update)
    (hholds : holds chronicle) : holds (chronicle.take config records tags) := by
  cases hcurrent : chronicle.current with
  | none =>
      rw [take_of_none hcurrent]
      exact h.aside (h _ _ (.drop records.length hcurrent) hholds) rfl rfl rfl
  | some places =>
      rw [take_of_some hcurrent]
      exact h.aside (h _ _ (.play hcurrent (script_isOf htags _ hrecords)) hholds) rfl rfl rfl

theorem IsKept.amend (h : IsKept config allowed holds) {update : HeaderUpdate}
    (hupdate : allowed update) (hholds : holds chronicle) :
    holds (chronicle.amend config update) := by
  cases hcurrent : chronicle.current with
  | none =>
      rw [amend_of_none hcurrent]
      exact h _ _ (.amend hcurrent hupdate) hholds
  | some places =>
      rw [amend_of_some hcurrent]
      have hacts : ∀ act ∈ [Act.cut (some update)], act.IsOf config.recordSize allowed := by
        rw [List.forall_mem_singleton]
        rintro accepted ⟨⟩
        exact hupdate
      exact h _ _ (.play hcurrent hacts) hholds

theorem IsKept.step (h : IsKept config allowed holds) (hvalid : config.validate = .ok ())
    {call : Call} (hcall : ∀ update ∈ call.updates config.recordSize, allowed update)
    (hholds : holds chronicle) : holds (chronicle.step config call) := by
  cases call with
  | work items tags =>
      rw [Chronicle.step]
      split
      · exact hholds
      · apply h.take _ hcall (h.turn hholds)
        rw [Config.recordSize_toNat hvalid]
        exact length_of_mem_wholeRecords _ items
  | update key value =>
      rw [Chronicle.step]
      split
      · exact hholds
      · next update hprepare =>
          apply h.amend _ hholds
          apply hcall
          rw [Call.updates, hprepare]
          exact List.mem_singleton_self _
  | setUnbuffered unbuffered => exact hholds
  | rotate destination =>
      rw [Chronicle.step]
      split
      · exact h.aside hholds rfl rfl rfl
      · exact hholds
  | close => exact h.aside hholds rfl rfl rfl
  | shutdown =>
      rw [Chronicle.step]
      split
      · exact hholds
      · exact h.aside (h.retire hholds) rfl rfl rfl

theorem IsKept.run (h : IsKept config allowed holds) (hvalid : config.validate = .ok ())
    {calls : List Call}
    (hcalls : ∀ call ∈ calls, ∀ update ∈ call.updates config.recordSize, allowed update)
    (hholds : holds chronicle) : holds (chronicle.run config calls) := by
  induction calls generalizing chronicle with
  | nil => exact hholds
  | cons call rest ih =>
      obtain ⟨hcall, hrest⟩ := List.forall_mem_cons.mp hcalls
      exact ih hrest (h.step hvalid hcall hholds)

end Kept

end Chronicle

end SegmentStream
