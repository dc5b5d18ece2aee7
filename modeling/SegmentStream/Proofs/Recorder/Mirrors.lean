import SegmentStream.Proofs.Recorder.Session
import SegmentStream.Proofs.Target.Mirrors

/-!
# Mirrored writers

A writer and its image have made the same progress on targets that mirror each
other.  Each operation of a writer goes the same way on both, unless a channel
fails.
-/

namespace SegmentStream

open SegmentStream.Action

/-- A failure of storage where every cause is excused. -/
def StreamError.IsOverall (excused : IoFault → Prop) (error : StreamError) : Prop :=
  error.IsExcused excused ∧ ∀ cause, excused cause

/-! ## Headers -/

namespace Scribe

structure Mirrors (scene : Scene) (scribe image : Scribe) : Prop where
  headers : scribe.headers = image.headers
  outlet : scribe.outlet.Mirrors scene image.outlet

section Calls

variable {fault result : Type} {scene : Scene} {scribe image : Scribe}

theorem onOutlet_mirrors {excused : fault → Prop} {action : Action fault Outlet result}
    (h : scribe.Mirrors scene image)
    (haction : Agrees excused (Outlet.Mirrors scene) action action scribe.outlet image.outlet) :
    Agrees excused (Mirrors scene) (onOutlet action) (onOutlet action) scribe image :=
  Agrees.within haction fun _ _ houtlet => ⟨h.headers, houtlet⟩

theorem report_mirrors {excused : fault → Prop} (h : scribe.Mirrors scene image) (event : Event) :
    Agrees excused (Mirrors scene) (onOutlet (Outlet.report event))
      (onOutlet (Outlet.report event)) scribe image :=
  onOutlet_mirrors h (agrees_modify (h.outlet.relog _ _))

theorem changeHeaders_mirrors {excused : fault → Prop} (h : scribe.Mirrors scene image)
    (update : HeaderState → HeaderState) :
    Agrees excused (Mirrors scene) (changeHeaders update) (changeHeaders update) scribe image :=
  agrees_modify ⟨congrArg update h.headers, h.outlet⟩

/-- A new header is never refused for its form, and only by a channel with a plan. -/
theorem emit_mirrors (h : scribe.Mirrors scene image) :
    Agrees (StreamError.IsOverall scene.excused) (Mirrors scene) emit emit scribe image := by
  unfold emit
  apply Agrees.bind (changeHeaders_mirrors h _)
  intro _ measured measured' h
  rw [agrees_get_bind, h.headers]
  apply Agrees.bind
  · apply onOutlet_mirrors h
    exact (Outlet.appendHeader_mirrors h.outlet _).mapFault fun cause hall => ⟨hall cause, hall⟩
  · intro slot _ _ h
    apply Agrees.bind (changeHeaders_mirrors h _)
    intro _ _ _ h
    apply Agrees.bind (report_mirrors h _)
    exact fun _ _ _ h => agrees_pure h slot

theorem finalize_mirrors (h : scribe.Mirrors scene image) (dataLength : Nat) :
    Agrees (StreamError.IsExcused scene.excused) (Mirrors scene) (finalize dataLength)
      (finalize dataLength) scribe image := by
  unfold finalize
  rw [agrees_get_bind, h.headers]
  cases image.headers.slot with
  | none => exact agrees_throw h _
  | some slot =>
      apply Agrees.bind (changeHeaders_mirrors h _)
      intro _ measured measured' h
      rw [agrees_get_bind, h.headers]
      have hregion : measured'.headers.region ≠ [] := by
        apply List.ne_nil_of_length_pos
        rw [HeaderState.region_length]
        exact Nat.lt_of_lt_of_le (by decide) (Nat.le_add_right headerSize _)
      apply Agrees.bind
      · exact onOutlet_mirrors h (Outlet.rewriteHeader_mirrors h.outlet slot hregion)
      · intro rewritten _ _ h
        apply Agrees.bind (changeHeaders_mirrors h _)
        intro _ _ _ h
        apply Agrees.bind (report_mirrors h _)
        exact fun _ _ _ h => agrees_pure h _

theorem closeSegment_mirrors (h : scribe.Mirrors scene image) (records : Nat) :
    Agrees (StreamError.IsExcused scene.excused) (Mirrors scene) (closeSegment records)
      (closeSegment records) scribe image := by
  unfold closeSegment
  rw [agrees_get_bind, h.headers]
  apply Agrees.bind (finalize_mirrors h _)
  intro lengths _ _ h
  apply Agrees.bind (changeHeaders_mirrors h _)
  exact fun _ _ _ h => agrees_pure h lengths

end Calls

end Scribe

/-! ## Segments and batches -/

namespace Writer

structure Mirrors (scene : Scene) (writer image : Writer) : Prop where
  progress : writer.progress = image.progress
  outlet : writer.outlet.Mirrors scene image.outlet

section Calls

variable {fault result : Type} {scene : Scene} {writer image : Writer}

theorem onOutlet_mirrors {excused : fault → Prop} {action : Action fault Outlet result}
    (h : writer.Mirrors scene image)
    (haction : Agrees excused (Outlet.Mirrors scene) action action writer.outlet image.outlet) :
    Agrees excused (Mirrors scene) (onOutlet action) (onOutlet action) writer image :=
  Agrees.within haction fun _ _ houtlet => ⟨h.progress, houtlet⟩

theorem report_mirrors {excused : fault → Prop} (h : writer.Mirrors scene image) (event : Event) :
    Agrees excused (Mirrors scene) (onOutlet (Outlet.report event))
      (onOutlet (Outlet.report event)) writer image :=
  onOutlet_mirrors h (agrees_modify (h.outlet.relog _ _))

theorem onScribe_mirrors {excused : fault → Prop} {action : Action fault Scribe result}
    (h : writer.Mirrors scene image)
    (haction : Agrees excused (Scribe.Mirrors scene) action action
      ⟨writer.progress.headers, writer.outlet⟩ ⟨image.progress.headers, image.outlet⟩) :
    Agrees excused (Mirrors scene) (onScribe action) (onScribe action) writer image := by
  unfold onScribe
  apply Agrees.within
  · exact haction
  intro scribe scribe' hscribe
  constructor
  · rw [h.progress, hscribe.headers]
  · exact hscribe.outlet

theorem Mirrors.scribe (h : writer.Mirrors scene image) :
    Scribe.Mirrors scene ⟨writer.progress.headers, writer.outlet⟩
      ⟨image.progress.headers, image.outlet⟩ :=
  ⟨congrArg Progress.headers h.progress, h.outlet⟩

theorem changeProgress_mirrors {excused : fault → Prop} (h : writer.Mirrors scene image)
    (update : Progress → Progress) :
    Agrees excused (Mirrors scene) (changeProgress update) (changeProgress update) writer
      image :=
  agrees_modify ⟨congrArg update h.progress, h.outlet⟩

theorem addRecords_mirrors {excused : fault → Prop} (h : writer.Mirrors scene image)
    (records itemSize : Nat) :
    Agrees excused (Mirrors scene) (addRecords records itemSize) (addRecords records itemSize)
      writer image := by
  unfold addRecords
  rw [agrees_get_bind, h.progress]
  apply Agrees.bind (changeProgress_mirrors h _)
  exact fun _ _ _ h => changeProgress_mirrors h _

theorem writeRecords_mirrors (h : writer.Mirrors scene image) (itemSize : Nat) (items : Bytes) :
    Agrees (fun stopped => scene.excused stopped.2) (Mirrors scene) (writeRecords itemSize items)
      (writeRecords itemSize items) writer image := by
  unfold writeRecords
  apply Agrees.attempt_bind
  · exact onOutlet_mirrors h (Outlet.writeData_mirrors h.outlet items itemSize)
  · intro outcome _ _ h
    apply Agrees.bind (changeProgress_mirrors h _)
    intro _ _ _ h
    cases outcome with
    | ok => exact addRecords_mirrors h _ _
    | error partly =>
        apply Agrees.bind (addRecords_mirrors h _ _)
        exact fun _ _ _ h => agrees_throw h _
  · exact fun partly later hcause => hcause

theorem finalize_mirrors (h : writer.Mirrors scene image) (dataLength : Nat) :
    Agrees (StreamError.IsExcused scene.excused) (Mirrors scene) (finalize dataLength)
      (finalize dataLength) writer image := by
  unfold finalize
  apply Agrees.bind (onScribe_mirrors h (Scribe.finalize_mirrors h.scribe dataLength))
  intro lengths _ _ h
  apply Agrees.bind (changeProgress_mirrors h _)
  exact fun _ _ _ h => changeProgress_mirrors h _

theorem closeSegment_mirrors (h : writer.Mirrors scene image) :
    Agrees (StreamError.IsExcused scene.excused) (Mirrors scene) closeSegment closeSegment writer
      image := by
  unfold closeSegment
  rw [agrees_get_bind, h.progress]
  apply Agrees.bind (onScribe_mirrors h (Scribe.closeSegment_mirrors h.scribe _))
  intro lengths _ _ h
  apply Agrees.bind (changeProgress_mirrors h _)
  intro _ _ _ h
  apply Agrees.bind (changeProgress_mirrors h _)
  exact fun _ _ _ h => changeProgress_mirrors h _

theorem openSegment_mirrors (h : writer.Mirrors scene image) :
    Agrees (StreamError.IsOverall scene.excused) (Mirrors scene) openSegment openSegment writer
      image := by
  unfold openSegment
  apply Agrees.bind (onScribe_mirrors h (Scribe.emit_mirrors h.scribe))
  intro slot _ _ h
  apply Agrees.bind (changeProgress_mirrors h _)
  intro _ _ _ h
  apply Agrees.bind (changeProgress_mirrors h _)
  exact fun _ _ _ h => changeProgress_mirrors h _

theorem roll_mirrors (h : writer.Mirrors scene image) :
    Agrees (StreamError.IsExcused scene.excused) (Mirrors scene) roll roll writer image := by
  unfold roll
  rw [agrees_get_bind, h.progress]
  split
  · apply Agrees.bind (closeSegment_mirrors h)
    exact fun _ _ _ h => (openSegment_mirrors h).excuse fun _ => And.left
  · exact (openSegment_mirrors h).excuse fun _ => And.left

theorem boundary_mirrors (h : writer.Mirrors scene image) (update : Option HeaderUpdate) :
    Agrees (StreamError.IsExcused scene.excused) (Mirrors scene) (boundary update)
      (boundary update) writer image := by
  unfold boundary
  rw [agrees_get_bind, h.progress]
  dsimp only
  split
  · apply Agrees.bind (closeSegment_mirrors h)
    intro _ _ _ h
    apply Agrees.bind (changeProgress_mirrors h _)
    exact fun _ _ _ h => (openSegment_mirrors h).excuse fun _ => And.left
  · apply Agrees.bind (changeProgress_mirrors h _)
    intro _ _ _ h
    split
    · exact finalize_mirrors h 0
    · exact (openSegment_mirrors h).excuse fun _ => And.left

theorem prepareTag_mirrors {excused : fault → Prop} (h : writer.Mirrors scene image) (tag : Tag) :
    Agrees excused (Mirrors scene) (prepareTag tag) (prepareTag tag) writer image := by
  unfold prepareTag
  rw [agrees_get_bind, h.progress]
  cases image.progress.headers.prepare tag.key tag.value with
  | ok update =>
      apply Agrees.bind (changeProgress_mirrors h _)
      exact fun _ _ _ h => agrees_pure h _
  | error cause =>
      apply Agrees.bind (report_mirrors h _)
      intro _ _ _ h
      apply Agrees.bind (changeProgress_mirrors h _)
      exact fun _ _ _ h => agrees_pure h _

theorem withPersisted_isExcused (excused : IoFault → Prop) (persisted : Nat) (error : StreamError)
    (h : error.IsExcused excused) : (error.withPersisted persisted).IsExcused excused := by
  cases error <;> exact h

theorem perform_mirrors (h : writer.Mirrors scene image) (itemSize written : Nat) (items : Bytes)
    (step : BatchStep) :
    Agrees (StreamError.IsExcused scene.excused) (Mirrors scene)
      (perform itemSize written items step) (perform itemSize written items step) writer
      image := by
  have hexcused := withPersisted_isExcused scene.excused written
  unfold perform
  cases step with
  | roll =>
      refine Agrees.mapFault ?_ hexcused
      rw [agrees_get_bind, h.progress]
      apply Agrees.bind (report_mirrors h _)
      intro _ _ _ h
      apply Agrees.bind (roll_mirrors h)
      exact fun _ _ _ h => agrees_pure h items
  | write records =>
      apply Agrees.bind
      · exact (writeRecords_mirrors h itemSize _).mapFault fun _ hcause => hcause
      · exact fun _ _ _ h => agrees_pure h _
  | boundary tag =>
      refine Agrees.mapFault ?_ hexcused
      apply Agrees.bind (prepareTag_mirrors h tag)
      intro update _ _ h
      apply Agrees.bind (boundary_mirrors h update)
      exact fun _ _ _ h => agrees_pure h items

theorem follow_mirrors (h : writer.Mirrors scene image) (itemSize : Nat) (steps : List BatchStep)
    (written : Nat) (items : Bytes) :
    Agrees (StreamError.IsExcused scene.excused) (Mirrors scene)
      (follow itemSize steps written items) (follow itemSize steps written items) writer
      image := by
  induction steps generalizing writer image written items with
  | nil => exact agrees_pure h ()
  | cons step rest ih =>
      unfold follow
      apply Agrees.bind (perform_mirrors h itemSize written items step)
      exact fun later _ _ h => ih h _ later

theorem runBatch_mirrors (h : writer.Mirrors scene image) (ceiling itemSize : Nat) (items : Bytes)
    (tags : List (Nat × Tag)) :
    Agrees (StreamError.IsExcused scene.excused) (Mirrors scene)
      (runBatch ceiling itemSize items tags) (runBatch ceiling itemSize items tags) writer
      image := by
  unfold runBatch room
  rw [agrees_get_bind, h.progress]
  apply Agrees.bind (follow_mirrors h itemSize _ 0 items)
  exact fun _ _ _ h => agrees_pure h _

end Calls

end Writer

end SegmentStream
