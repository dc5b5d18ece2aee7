import Mathlib.Logic.Relation
import SegmentStream.Proofs.Attribute.Listing
import SegmentStream.Proofs.Recorder.Counting
import SegmentStream.Proofs.Recorder.Portraits

/-!
# Headers, clocks and configurations in step

A header repeats the time and the rate of the clock, and both go back to the
configuration.  All that a recorder does to its header state is a sequence of
edits of four kinds, also where a call fails between two of them.  What every
edit keeps therefore holds behind every call.
-/

namespace SegmentStream

open SegmentStream.Action

/-! ## Edits of the header state -/

namespace HeaderState

/-- The update is one that the state accepts for some key and value. -/
def Admits (state : HeaderState) (update : HeaderUpdate) : Prop :=
  ∃ key value, state.prepare key value = .ok update

inductive Edit (state : HeaderState) : HeaderState → Prop
  | measure (dataLength : Nat) : Edit state (state.measure dataLength)
  | slot (slot : Option Slot) : Edit state { state with slot }
  | advance (records : Nat) : Edit state (state.advance records)
  | apply {update : HeaderUpdate} (h : state.Admits update) : Edit state (state.apply update)

def Evolves : HeaderState → HeaderState → Prop := Relation.ReflTransGen Edit

section Evolves

variable {state middle next : HeaderState}

theorem Evolves.refl (state : HeaderState) : state.Evolves state := Relation.ReflTransGen.refl

theorem Evolves.trans (h : state.Evolves middle) (h' : middle.Evolves next) :
    state.Evolves next :=
  Relation.ReflTransGen.trans h h'

theorem Edit.evolves (h : state.Edit next) : state.Evolves next := Relation.ReflTransGen.single h

/-- What every edit keeps, every sequence of edits keeps. -/
theorem Evolves.keeps {holds : HeaderState → Prop}
    (hedit : ∀ {state next : HeaderState}, state.Edit next → holds state → holds next)
    (h : state.Evolves next) (hstate : holds state) : holds next := by
  induction h with
  | refl => exact hstate
  | tail _ hlast ih => exact hedit hlast ih

theorem Admits.isProper {update : HeaderUpdate} (h : state.Admits update) :
    update.IsProper state.header.itemSize := by
  obtain ⟨key, value, hprepare⟩ := h
  exact HeaderUpdate.prepare_isProper hprepare

theorem Edit.itemSize (h : state.Edit next) : next.header.itemSize = state.header.itemSize := by
  cases h with
  | measure | slot | advance => rfl
  | apply hadmits =>
      refine @applySome_itemSize state _ (some _) ?_ rfl
      rintro accepted ⟨⟩
      exact hadmits.isProper

theorem Evolves.itemSize (h : state.Evolves next) :
    next.header.itemSize = state.header.itemSize :=
  h.keeps (fun {earlier later} hedit (hsame : earlier.header.itemSize = state.header.itemSize) =>
    (hedit.itemSize.trans hsame : later.header.itemSize = state.header.itemSize)) rfl

/-- What is accepted depends on the record size only, which no edit changes. -/
theorem Evolves.admits (h : state.Evolves next) {update : HeaderUpdate}
    (hadmits : state.Admits update) : next.Admits update := by
  obtain ⟨key, value, hprepare⟩ := hadmits
  refine ⟨key, value, ?_⟩
  rw [prepare, h.itemSize]
  exact hprepare

theorem advance_releaseSlot_evolves (state : HeaderState) (records : Nat) :
    state.Evolves (state.advance records).releaseSlot :=
  (Edit.advance records).evolves.trans (Edit.slot none).evolves

end Evolves

/-! ## What edits keep -/

/--
The header says what the clock and the configuration say.  Of the keys that name header
fields the extra attributes hold just those of `supplied`, with their values.
-/
structure IsInStep (config : Config) (supplied : Extras) (state : HeaderState) : Prop where
  time : state.header.time = state.clock.now
  sampleRate : state.header.sampleRate = state.clock.effectiveRate
  itemSize : state.header.itemSize.toNat = config.itemSize.toNat
  isDetached : state.header.isDetached = config.splitHeader
  relativeRate : state.clock.relativeRate = config.relativeRate
  extras : ∀ field : HeaderField, state.extras.get? field.key = supplied.get? field.key

section InStep

variable {config : Config} {supplied : Extras} {state next : HeaderState}

/-- Only a key that names no header field goes to the extra attributes. -/
theorem Admits.ofKey?_extra {key : String} {value : Attribute}
    (h : state.Admits (.extra key value)) : HeaderField.ofKey? key = none := by
  obtain ⟨key', value', hprepare⟩ := h
  rw [prepare, HeaderUpdate.prepare] at hprepare
  cases hfield : HeaderField.ofKey? key' with
  | none =>
      rw [hfield] at hprepare
      cases hprepare
      exact hfield
  | some field =>
      rw [hfield] at hprepare
      cases field with
      | dataOffset | dataLength => cases hprepare
      | time | isComplex =>
          obtain ⟨reading, -, hreading⟩ := bind_ok hprepare
          cases hreading
      | version | sampleRate | itemSize =>
          obtain ⟨reading, -, hreading⟩ := bind_ok hprepare
          split at hreading <;> cases hreading
      | sampleType =>
          obtain ⟨reading, -, hreading⟩ := bind_ok hprepare
          split at hreading <;> cases hreading

theorem IsInStep.apply (h : state.IsInStep config supplied) {update : HeaderUpdate}
    (hadmits : state.Admits update) : (state.apply update).IsInStep config supplied := by
  have hsize := (congrArg UInt32.toNat (Edit.apply hadmits).itemSize).trans h.itemSize
  obtain ⟨htime, hrate, -, hdetached, hrelative, hextras⟩ := h
  cases update with
  | sampleRate rate => exact ⟨htime, rfl, hsize, hdetached, hrelative, hextras⟩
  | time time => exact ⟨rfl, hrate, hsize, hdetached, hrelative, hextras⟩
  | extra key value =>
      refine ⟨htime, hrate, hsize, hdetached, hrelative, fun field => ?_⟩
      have hne : key ≠ field.key := by
        rintro rfl
        have hfree := hadmits.ofKey?_extra
        simp at hfree
      simp [HeaderState.apply, Extras.get?_insert, hne, hextras]
  | version | itemSize | sampleType | isComplex =>
      exact ⟨htime, hrate, hsize, hdetached, hrelative, hextras⟩

theorem IsInStep.advance (h : state.IsInStep config supplied) (records : Nat) :
    (state.advance records).IsInStep config supplied := by
  obtain ⟨htime, hrate, hsize, hdetached, hrelative, hextras⟩ := h
  have hclock : (state.clock.advance records).effectiveRate = state.clock.effectiveRate ∧
      (state.clock.advance records).relativeRate = state.clock.relativeRate := by
    unfold Clock.advance
    split <;> exact ⟨rfl, rfl⟩
  exact ⟨rfl, hrate.trans hclock.1.symm, hsize, hdetached, hclock.2.trans hrelative, hextras⟩

theorem IsInStep.edit (hedit : state.Edit next) (h : state.IsInStep config supplied) :
    next.IsInStep config supplied := by
  cases hedit with
  | measure | slot => exact ⟨h.time, h.sampleRate, h.itemSize, h.isDetached, h.relativeRate, h.extras⟩
  | advance records => exact h.advance records
  | apply hadmits => exact h.apply hadmits

theorem IsInStep.of_start (hvalid : config.validate = .ok ()) {headers : HeaderState}
    (h : HeaderState.start config = .ok headers) :
    ∃ supplied, Extras.decode config.extras = .ok supplied ∧
      headers.IsInStep config supplied := by
  cases hextras : Extras.decode config.extras with
  | error fault =>
      simp only [start, hextras] at h
      cases h
  | ok supplied =>
      refine ⟨supplied, rfl, ?_⟩
      have hstarts := HeaderState.of_start h
      by_cases hlimit : Config.itemSizeLimit < config.itemSize.toNat
      · simp only [start, hextras, if_pos hlimit] at h
        cases h
      simp only [start, hextras, if_neg hlimit, pure_bind] at h
      split at h
      · cases h
        refine ⟨rfl, rfl, Config.recordSize_toNat hvalid, ?_, rfl, fun _ => rfl⟩
        rw [Header.isDetached, hstarts.flags]
        cases config.splitHeader <;> rfl
      · cases h

end InStep

end HeaderState

/-! ## Scribes and writers -/

namespace Scribe

def Evolves (scribe next : Scribe) : Prop := scribe.headers.Evolves next.headers

section Calls

variable {fault result : Type}

theorem Evolves.refl (scribe : Scribe) : scribe.Evolves scribe :=
  HeaderState.Evolves.refl scribe.headers

theorem Evolves.trans {scribe middle next : Scribe} (h : scribe.Evolves middle)
    (h' : middle.Evolves next) : scribe.Evolves next :=
  HeaderState.Evolves.trans h h'

theorem onOutlet_evolves (action : Action fault Outlet result) :
    Respects Evolves (onOutlet action) :=
  respects_within (fun scribe _ => .refl scribe) action

theorem changeHeaders_evolves {update : HeaderState → HeaderState}
    (h : ∀ headers : HeaderState, headers.Evolves (update headers)) :
    Respects Evolves (changeHeaders update : Action fault Scribe Unit) :=
  respects_modify fun scribe => h scribe.headers

theorem setSlot_evolves (slot : Slot) :
    Respects Evolves (setSlot slot : Action fault Scribe Unit) :=
  changeHeaders_evolves fun _ => (HeaderState.Edit.slot (some slot)).evolves

theorem measure_evolves (dataLength : Nat) :
    Respects Evolves (changeHeaders (·.measure dataLength) : Action fault Scribe Unit) :=
  changeHeaders_evolves fun _ => (HeaderState.Edit.measure dataLength).evolves

theorem emit_evolves : Respects Evolves emit := by
  unfold emit
  apply (measure_evolves 0).bind Evolves.trans
  intro _
  apply (respects_get Evolves.refl).bind Evolves.trans
  intro scribe
  apply (onOutlet_evolves _).bind Evolves.trans
  intro slot
  apply (setSlot_evolves slot).bind Evolves.trans
  intro _
  apply (onOutlet_evolves _).bind Evolves.trans
  intro _
  exact respects_pure Evolves.refl slot

theorem finalize_evolves (dataLength : Nat) : Respects Evolves (finalize dataLength) := by
  unfold finalize
  apply (respects_get Evolves.refl).bind Evolves.trans
  intro scribe
  split
  · exact respects_throw Evolves.refl _
  · apply (measure_evolves dataLength).bind Evolves.trans
    intro _
    apply (respects_get Evolves.refl).bind Evolves.trans
    intro measured
    apply (onOutlet_evolves _).bind Evolves.trans
    intro rewritten
    apply (setSlot_evolves rewritten).bind Evolves.trans
    intro _
    apply (onOutlet_evolves _).bind Evolves.trans
    intro _
    exact respects_pure Evolves.refl _

theorem closeSegment_evolves (records : Nat) : Respects Evolves (closeSegment records) := by
  unfold closeSegment
  apply (respects_get Evolves.refl).bind Evolves.trans
  intro scribe
  apply (finalize_evolves _).bind Evolves.trans
  intro lengths
  apply (changeHeaders_evolves fun headers =>
    headers.advance_releaseSlot_evolves records).bind Evolves.trans
  intro _
  exact respects_pure Evolves.refl lengths

end Calls

end Scribe

namespace Writer

def Evolves (writer next : Writer) : Prop :=
  writer.progress.headers.Evolves next.progress.headers

section Calls

variable {fault result : Type}

theorem Evolves.refl (writer : Writer) : writer.Evolves writer :=
  HeaderState.Evolves.refl writer.progress.headers

theorem Evolves.trans {writer middle next : Writer} (h : writer.Evolves middle)
    (h' : middle.Evolves next) : writer.Evolves next :=
  HeaderState.Evolves.trans h h'

theorem onOutlet_evolves (action : Action fault Outlet result) :
    Respects Evolves (onOutlet action) :=
  respects_within (fun writer _ => .refl writer) action

theorem onScribe_evolves {action : Action fault Scribe result}
    (h : Respects Scribe.Evolves action) : Respects Evolves (onScribe action) := by
  intro writer
  rw [onScribe, ends_within]
  exact h _

theorem changeProgress_evolves {update : Progress → Progress}
    (h : ∀ progress, (update progress).headers = progress.headers) :
    Respects Evolves (changeProgress update : Action fault Writer Unit) := by
  apply respects_modify
  intro writer
  unfold Evolves
  rw [h]
  exact HeaderState.Evolves.refl _

theorem mark_evolves (stage : Stage) :
    Respects Evolves (mark stage : Action fault Writer Unit) :=
  changeProgress_evolves fun progress => progress.mark_headers stage

theorem count_evolves (update : Counters → Counters) :
    Respects Evolves (count update : Action fault Writer Unit) :=
  changeProgress_evolves fun _ => rfl

theorem setRecords_evolves (records : Nat) :
    Respects Evolves (setRecords records : Action fault Writer Unit) :=
  changeProgress_evolves fun _ => rfl

theorem addRecords_evolves (records itemSize : Nat) :
    Respects Evolves (addRecords records itemSize : Action fault Writer Unit) := by
  unfold addRecords
  apply (respects_get Evolves.refl).bind Evolves.trans
  intro writer
  apply (setRecords_evolves _).bind Evolves.trans
  intro _
  exact count_evolves _

theorem writeRecords_evolves (itemSize : Nat) (items : Bytes) :
    Respects Evolves (writeRecords itemSize items) := by
  unfold writeRecords
  apply (onOutlet_evolves _).attempt.bind Evolves.trans
  intro outcome
  apply (mark_evolves .write).bind Evolves.trans
  intro _
  cases outcome with
  | ok => exact addRecords_evolves _ _
  | error partly =>
      apply (addRecords_evolves _ _).bind Evolves.trans
      intro _
      exact respects_throw Evolves.refl _

theorem finalize_evolves (dataLength : Nat) : Respects Evolves (finalize dataLength) := by
  unfold finalize
  apply (onScribe_evolves (Scribe.finalize_evolves dataLength)).bind Evolves.trans
  intro lengths
  apply (mark_evolves .finalize).bind Evolves.trans
  intro _
  exact count_evolves _

theorem closeSegment_evolves : Respects Evolves closeSegment := by
  unfold closeSegment
  apply (respects_get Evolves.refl).bind Evolves.trans
  intro writer
  apply (onScribe_evolves (Scribe.closeSegment_evolves _)).bind Evolves.trans
  intro lengths
  apply (mark_evolves .finalize).bind Evolves.trans
  intro _
  apply (setRecords_evolves 0).bind Evolves.trans
  intro _
  exact count_evolves _

theorem openSegment_evolves : Respects Evolves openSegment := by
  unfold openSegment
  apply (onScribe_evolves Scribe.emit_evolves).bind Evolves.trans
  intro slot
  apply (mark_evolves .emit).bind Evolves.trans
  intro _
  apply (count_evolves _).bind Evolves.trans
  intro _
  exact setRecords_evolves 0

theorem roll_evolves : Respects Evolves roll := by
  unfold roll
  apply (respects_get Evolves.refl).bind Evolves.trans
  intro writer
  dsimp only
  split
  · apply closeSegment_evolves.bind Evolves.trans
    intro _
    exact openSegment_evolves
  · exact openSegment_evolves

/-! ### Updates -/

theorem apply_evolves {writer : Writer} {update : Option HeaderUpdate}
    (h : ∀ accepted, update = some accepted → writer.progress.headers.Admits accepted) :
    Ends (apply update : Action fault Writer Unit) writer (fun _ next => writer.Evolves next)
      fun _ next => writer.Evolves next := by
  simp only [apply, changeProgress, ends_modify]
  cases update with
  | none => exact .refl writer
  | some accepted => exact (HeaderState.Edit.apply (h accepted rfl)).evolves

theorem boundary_evolves {writer : Writer} {update : Option HeaderUpdate}
    (h : ∀ accepted, update = some accepted → writer.progress.headers.Admits accepted) :
    Ends (boundary update) writer (fun _ next => writer.Evolves next)
      fun _ next => writer.Evolves next := by
  have hafter : ∀ (action : Action StreamError Writer Unit) (middle : Writer),
      Respects Evolves action → writer.Evolves middle →
        Ends action middle (fun _ next => writer.Evolves next) fun _ next => writer.Evolves next :=
    fun action middle haction hmiddle => (haction middle).imp fun _ => hmiddle.trans
  unfold boundary
  simp only [ends_bind, ends_get]
  split
  · simp only [ends_bind]
    apply (closeSegment_evolves writer).mono
    · intro _ closed hclosed
      apply (apply_evolves fun accepted haccepted => hclosed.admits (h accepted haccepted)).mono
      · exact fun _ applied happlied =>
          hafter openSegment applied openSegment_evolves (hclosed.trans happlied)
      · exact fun _ _ => hclosed.trans
    · exact fun _ _ hclosed => hclosed
  · simp only [ends_bind]
    apply (apply_evolves h).mono
    · intro _ applied happlied
      split
      · exact hafter _ applied (finalize_evolves 0) happlied
      · exact hafter _ applied openSegment_evolves happlied
    · exact fun _ _ happlied => happlied

theorem prepareTag_admits (writer : Writer) (tag : Tag) :
    Ends (prepareTag tag : Action fault Writer (Option HeaderUpdate)) writer
      (fun update next => next.progress.headers = writer.progress.headers ∧
        ∀ accepted, update = some accepted → writer.progress.headers.Admits accepted)
      fun _ _ => False := by
  simp only [prepareTag, ends_bind, ends_get]
  cases hprepare : writer.progress.headers.prepare tag.key tag.value with
  | ok update =>
      refine ⟨rfl, ?_⟩
      rintro accepted ⟨⟩
      exact ⟨tag.key, tag.value, hprepare⟩
  | error cause =>
      refine ⟨rfl, ?_⟩
      rintro accepted ⟨⟩

/-! ### Batches -/

theorem perform_evolves (itemSize written : Nat) (items : Bytes) (step : BatchStep) :
    Respects Evolves (perform itemSize written items step) := by
  cases step with
  | roll =>
      apply Respects.mapFault
      apply (respects_get Evolves.refl).bind Evolves.trans
      intro writer
      apply (onOutlet_evolves _).bind Evolves.trans
      intro _
      apply roll_evolves.bind Evolves.trans
      intro _
      exact respects_pure Evolves.refl items
  | write records =>
      apply ((writeRecords_evolves _ _).mapFault _).bind Evolves.trans
      intro _
      exact respects_pure Evolves.refl _
  | boundary tag =>
      apply Respects.mapFault
      intro writer
      simp only [ends_bind, ends_pure]
      apply (prepareTag_admits writer tag).mono
      · rintro update counted ⟨hheaders, hadmits⟩
        rw [← hheaders] at hadmits
        have hcut := boundary_evolves hadmits
        unfold Evolves at hcut ⊢
        rwa [hheaders] at hcut
      · exact fun _ _ => False.elim

theorem runBatch_evolves (ceiling itemSize : Nat) (items : Bytes) (tags : List (Nat × Tag)) :
    Respects Evolves (runBatch ceiling itemSize items tags) := by
  have hfollow : ∀ (steps : List BatchStep) (written : Nat) (items : Bytes),
      Respects Evolves (follow itemSize steps written items) := by
    intro steps
    induction steps with
    | nil => exact fun _ _ => respects_pure Evolves.refl ()
    | cons step rest ih =>
        intro written items
        unfold follow
        apply (perform_evolves itemSize written items step).bind Evolves.trans
        exact fun later => ih _ later
  unfold runBatch
  apply (respects_get Evolves.refl).bind Evolves.trans
  intro writer
  apply (hfollow _ _ _).bind Evolves.trans
  intro _
  exact respects_pure Evolves.refl _

end Calls

end Writer

/-! ## Sessions -/

namespace Session

def Evolves (session next : Session) : Prop :=
  session.recorder.progress.headers.Evolves next.recorder.progress.headers

section Calls

variable {fault result : Type}

theorem Evolves.refl (session : Session) : session.Evolves session :=
  HeaderState.Evolves.refl session.recorder.progress.headers

theorem Evolves.trans {session middle next : Session} (h : session.Evolves middle)
    (h' : middle.Evolves next) : session.Evolves next :=
  HeaderState.Evolves.trans h h'

theorem change_evolves {update : Recorder → Recorder}
    (h : ∀ recorder, (update recorder).progress.headers = recorder.progress.headers) :
    Respects Evolves (change update : Action fault Session Unit) := by
  intro session
  rw [ends_change]
  unfold Evolves
  rw [h]
  exact HeaderState.Evolves.refl _

theorem report_evolves (event : Event) :
    Respects Evolves (report event : Action fault Session Unit) := by
  intro session
  exact .refl session

theorem onRotation_evolves (action : Action fault RotationDesk result) :
    Respects Evolves (onRotation action) :=
  respects_within (fun session _ => .refl session) action

theorem onTarget_evolves (target : Target) {action : Action fault Writer result}
    (h : Respects Writer.Evolves action) :
    Respects Evolves (onTarget target action :
      Action fault Session (Except fault result × Target)) := by
  intro session
  rw [ends_onTarget]
  exact h _

theorem onActive_evolves (target : Target) {action : Action fault Writer result}
    (h : Respects Writer.Evolves action) : Respects Evolves (onActive target action) := by
  intro session
  rw [ends_onActive]
  exact h _

/-! ### Targets -/

theorem retire_evolves (target : Target) : Respects Evolves (retire target) := by
  intro session
  have hreleased : ∀ closed : Session, session.Evolves closed → ∀ host : Host,
      session.Evolves
        { recorder := { closed.recorder with progress := { closed.recorder.progress with
            headers := closed.recorder.progress.headers.releaseSlot, records := 0 } }
          host } :=
    fun closed hclosed host => Evolves.trans hclosed (HeaderState.Edit.slot none).evolves
  simp only [retire, ends_bind, ends_get]
  cases session.recorder.progress.headers.isOpen with
  | false =>
      simp only [Bool.false_eq_true, if_false, ends_bind, ends_pure, ends_changeProgress,
        ends_report, ends_attempt, onHost, ends_within]
      apply ends_of_forall
      · exact fun _ host => hreleased session (.refl session) _
      · exact fun _ host => hreleased session (.refl session) _
  | true =>
      simp only [if_true, ends_bind, ends_onTarget, ends_changeProgress, ends_report, ends_attempt,
        onHost, ends_within]
      apply (Writer.closeSegment_evolves (session.writerOn target)).mono
      · intro _ writer hwriter
        apply ends_of_forall
        · exact fun _ host => hreleased (session.withProgress writer) hwriter _
        · exact fun _ host => hreleased (session.withProgress writer) hwriter _
      · intro error writer hwriter
        apply ends_of_forall
        · exact fun _ host => hreleased (session.withProgress writer) hwriter _
        · exact fun _ host => hreleased (session.withProgress writer) hwriter _

theorem retireActive_evolves : Respects Evolves retireActive := by
  unfold retireActive
  apply (respects_get Evolves.refl).bind Evolves.trans
  intro session
  split
  · exact respects_pure Evolves.refl _
  · refine (change_evolves ?_).bind Evolves.trans fun _ => ?_
    · exact fun _ => rfl
    exact retire_evolves _

theorem install_evolves (target : Target) : Respects Evolves (install target) := by
  unfold install
  refine (change_evolves ?_).bind Evolves.trans fun _ => ?_
  · exact fun _ => rfl
  apply (onTarget_evolves target (Writer.onScribe_evolves Scribe.emit_evolves)).bind Evolves.trans
  rintro ⟨outcome, written⟩
  cases outcome with
  | ok slot =>
      refine (change_evolves ?_).bind Evolves.trans fun _ => ?_
      · exact fun _ => rfl
      apply (report_evolves _).bind Evolves.trans
      intro _
      exact change_evolves fun _ => rfl
  | error error =>
      intro session
      exact .refl session

theorem turnTo_evolves (command : RotationCommand) (retired : Except StreamError Unit) :
    Respects Evolves (turnTo command retired) := by
  have hmarked : Respects Evolves
      (changeProgress (·.mark .rotate) : Action StreamError Session Unit) :=
    change_evolves fun recorder => recorder.progress.mark_headers .rotate
  have hdetach : Respects Evolves detach := by
    apply (report_evolves _).bind Evolves.trans
    intro _
    exact change_evolves fun _ => rfl
  unfold turnTo
  cases command
  case' install target => apply (install_evolves target).attempt.bind Evolves.trans
  case' detach => apply hdetach.attempt.bind Evolves.trans
  all_goals
    intro outcome
    apply hmarked.bind Evolves.trans
    intro _
    split
    · exact respects_throw Evolves.refl _
    · exact respects_throw Evolves.refl _
    · exact respects_pure Evolves.refl _

theorem installPending_evolves : Respects Evolves installPending := by
  unfold installPending
  apply (onRotation_evolves _).bind Evolves.trans
  intro command
  cases command with
  | none => exact respects_pure Evolves.refl _
  | some command =>
      apply retireActive_evolves.attempt.bind Evolves.trans
      intro retired
      exact turnTo_evolves command retired

/-! ### Calls -/

theorem selectTags_evolves (first last : Nat) (tags : List Tag) :
    Respects Evolves (selectTags first last tags :
      Action StreamError Session (List (Nat × Tag))) := by
  intro session
  apply (selectTags_ends first last tags).mono
  · rintro _ _ ⟨-, log, rfl⟩
    exact .refl session
  · exact fun _ _ => False.elim

theorem record_evolves (target : Target) (items : Bytes) (tags : List Tag) :
    Respects Evolves (record target items tags) := by
  unfold record
  apply (respects_get Evolves.refl).bind Evolves.trans
  intro session
  apply (selectTags_evolves _ _ tags).bind Evolves.trans
  intro entries
  apply (onActive_evolves target (Writer.runBatch_evolves _ _ _ _)).attempt.bind Evolves.trans
  intro outcome
  cases outcome with
  | ok written =>
      refine (change_evolves ?_).bind Evolves.trans fun _ => ?_
      · exact fun _ => rfl
      exact respects_pure Evolves.refl _
  | error error =>
      dsimp only
      split
      · refine (change_evolves ?_).bind Evolves.trans fun _ => ?_
        · exact fun _ => rfl
        exact respects_throw Evolves.refl _
      · exact respects_throw Evolves.refl _

theorem flushUnbuffered_evolves (asError : IoFault → StreamError) :
    Respects Evolves (flushUnbuffered asError) := by
  unfold flushUnbuffered
  apply (respects_get Evolves.refl).bind Evolves.trans
  intro session
  dsimp only
  split
  · exact onActive_evolves _ ((Writer.onOutlet_evolves _).mapFault asError)
  · exact respects_pure Evolves.refl _

theorem drop_evolves (records : Nat) :
    Respects Evolves (drop records : Action StreamError Session Unit) := by
  intro session
  simp only [drop, ends_bind, ends_get]
  cases session.recorder.dropping with
  | true => exact .refl session
  | false => exact .refl session

theorem takeBatch_evolves (items : Bytes) (tags : List Tag) :
    Respects Evolves (takeBatch items tags) := by
  unfold takeBatch
  refine (change_evolves ?_).bind Evolves.trans fun _ => ?_
  · exact fun _ => rfl
  apply (respects_get Evolves.refl).bind Evolves.trans
  intro session
  dsimp only
  split
  · apply (drop_evolves _).bind Evolves.trans
    intro _
    exact respects_pure Evolves.refl _
  · apply (record_evolves _ items tags).bind Evolves.trans
    intro written
    apply (flushUnbuffered_evolves _).bind Evolves.trans
    intro _
    exact respects_pure Evolves.refl _

theorem work_evolves (items : Bytes) (tags : List Tag) :
    Respects Evolves (work items tags) := by
  intro session
  by_cases hrefused : session.recorder.closed = true ∨
      items.length % session.recorder.config.itemSize.toNat ≠ 0
  · apply (work_refused tags hrefused).mono
    · exact fun _ _ => False.elim
    · rintro _ _ rfl
      exact .refl _
  · obtain ⟨hopen, hwhole⟩ := not_or.mp hrefused
    rw [ends_work tags (Bool.eq_false_of_not_eq_true hopen) (not_not.mp hwhole)]
    apply (installPending_evolves session).mono
    · intro _ turned hturned
      exact (takeBatch_evolves items tags turned).imp fun _ => hturned.trans
    · exact fun _ _ hturned => hturned

/-- The update that is carried out is the one that was checked. -/
theorem updateAttribute_evolves (key : String) (value : Attribute) :
    Respects Evolves (updateAttribute key value) := by
  intro session
  simp only [updateAttribute, ends_bind, ends_get]
  cases hprepare : session.recorder.progress.headers.prepare key value with
  | error cause => exact .refl session
  | ok update =>
      have hadmits : session.recorder.progress.headers.Admits update := ⟨key, value, hprepare⟩
      simp only [ends_bind, ends_changeProgress, ends_get]
      cases hactive : session.recorder.active with
      | none => exact (HeaderState.Edit.apply hadmits).evolves
      | some target =>
          simp only [ends_bind, ends_onActive]
          apply (Writer.boundary_evolves _).mono
          · intro _ writer hwriter
            exact (flushUnbuffered_evolves .io _).imp fun _ => Evolves.trans hwriter
          · exact fun _ _ hwriter => hwriter
          · rintro accepted ⟨⟩
            exact hadmits

theorem shutdown_evolves : Respects Evolves shutdown := by
  unfold shutdown
  apply (respects_get Evolves.refl).bind Evolves.trans
  intro session
  dsimp only
  split
  · exact respects_pure Evolves.refl _
  · refine (change_evolves ?_).bind Evolves.trans fun _ => ?_
    · exact fun _ => rfl
    apply retireActive_evolves.attempt.bind Evolves.trans
    intro retired
    apply (onRotation_evolves _).bind Evolves.trans
    intro _
    apply (respects_get Evolves.refl).bind Evolves.trans
    intro later
    apply (report_evolves _).bind Evolves.trans
    intro _
    split
    · exact respects_pure Evolves.refl _
    · exact respects_throw Evolves.refl _

theorem answer_evolves (call : Call) : Respects Evolves (answer call) := by
  cases call with
  | work items tags =>
      intro session
      rw [answer, ends_discard]
      exact work_evolves items tags session
  | update key value => exact updateAttribute_evolves key value
  | setUnbuffered unbuffered =>
      intro session
      exact .refl session
  | rotate destination => exact onRotation_evolves _
  | close => exact onRotation_evolves _
  | shutdown => exact shutdown_evolves

theorem after_evolves (session : Session) (calls : List Call) :
    session.Evolves (session.after calls) := by
  induction calls generalizing session with
  | nil => exact .refl session
  | cons call rest ih => exact ((answer_evolves call session).stateAfter).trans (ih _)

end Calls

end Session

/-! ## Every state -/

section States

variable {config : Config} {destination : Destination} {host started : Host} {recorder : Recorder}

theorem Recorder.start_evolves (hvalid : config.validate = .ok ()) {headers : HeaderState}
    (hheaders : HeaderState.start config = .ok headers) :
    Ends (Recorder.start config destination) host
      (fun recorder _ => recorder.config = config ∧ headers.Evolves recorder.progress.headers)
      fun _ _ => True := by
  rw [Recorder.ends_start hvalid hheaders]
  apply ends_of_forall _ fun _ _ => trivial
  intro target opened
  apply (Writer.openSegment_evolves _).mono
  · exact fun _ writer hwriter => ⟨rfl, hwriter⟩
  · exact fun _ _ _ => trivial

/--
Behind any calls, and wherever the storage failed in them, the header has the time and
the rate of the clock and the record size and layout of the configuration, the relative
rate is that of the configuration, and a key that names a header field is among the
extra attributes only as the configuration supplied it.
-/
theorem Session.after_isInStep
    (hstart : Recorder.start config destination host = .ok recorder started) :
    ∃ supplied, Extras.decode config.extras = .ok supplied ∧
      ∀ calls, ((Session.mk recorder started).after calls).recorder.progress.headers.IsInStep
        config supplied := by
  obtain ⟨hvalid, headers, hheaders⟩ := Recorder.isUsable_of_start hstart
  obtain ⟨supplied, hsupplied, hinStep⟩ := HeaderState.IsInStep.of_start hvalid hheaders
  obtain ⟨-, hstarted⟩ := (Recorder.start_evolves hvalid hheaders).of_ok hstart
  refine ⟨supplied, hsupplied, fun calls => ?_⟩
  have hevolves := hstarted.trans ((Session.mk recorder started).after_evolves calls)
  exact hevolves.keeps HeaderState.IsInStep.edit hinStep

/-- An extra attribute named as a field, supplied at the start, on channels that fail. -/
theorem Session.after_isInStep_supplied :
    let config : Config :=
      { itemSize := 2
        relativeRate := Binary64.tenTo 3
        splitHeader := true
        extras := (Extras.ofList [("size", .uint 9)]).encode }
    let data : Channel := { location := .buffer "data", faults := { writes := [(0, .accepts 3)] } }
    let header : Channel :=
      { location := .buffer "headers", faults := { writes := [(1, .failed)], seeks := [2] } }
    ∃ recorder started supplied,
      Recorder.start config (.channels data (some header)) {} = .ok recorder started ∧
      Extras.decode config.extras = .ok supplied ∧ supplied.get? "size" = some (.uint 9) ∧
      ∀ calls, ((Session.mk recorder started).after calls).recorder.progress.headers.IsInStep
        config supplied := by
  intro config data header
  have hsize : (Extras.decode config.extras).toOption.bind (·.get? "size") = some (.uint 9) := by
    decide +kernel
  have hends : Ends (Recorder.start config (.channels data (some header))) {} (fun _ _ => True)
      fun _ _ => False := by decide +kernel
  obtain ⟨recorder, started, hstart, -⟩ := hends.exists_ok
  obtain ⟨supplied, hsupplied, hinStep⟩ := Session.after_isInStep hstart
  rw [hsupplied] at hsize
  exact ⟨recorder, started, supplied, hstart, hsupplied, hsize, hinStep⟩

end States

end SegmentStream
