import Mathlib.Data.List.Chain
import SegmentStream.Proofs.Recorder.Counting

/-!
# The loop over a batch

A batch can be written without a plan: a loop that goes from one phase to the
next, and looks only at what the writer has room for and at the next tag, does
the same.  Each turn is checked for the differences and the slices that it takes,
so a loop that never goes astray never leaves its batch.

Two of the three phases store nothing.  What runs out is the number of records
and tags left; a full segment costs two turns more, but no segment is full just
behind its header.
-/

namespace SegmentStream

open SegmentStream.Action BatchStep

namespace Action

variable {fault state result result' : Type}

theorem bind_of_ok {action : Action fault state result} {current next : state} {value : result}
    (h : action current = .ok value next) (rest : result → Action fault state result') :
    (action >>= rest) current = rest value next := by
  simp only [bind, EStateM.bind, h]

theorem bind_of_error {action : Action fault state result} {current next : state} {cause : fault}
    (h : action current = .error cause next) (rest : result → Action fault state result') :
    (action >>= rest) current = .error cause next := by
  simp only [bind, EStateM.bind, h]

end Action

/-! ## Plans from a point on -/

namespace BatchStep

section Plan

variable {ceiling : Nat}

/-- Where the next cut falls: at the first of the tags, or behind the last record. -/
def nextStop (total : Nat) : List (Nat × Tag) → Nat
  | [] => total
  | (offset, _) :: _ => offset

/-- What is left of a plan once the next cut is reached. -/
def behindStop (ceiling total : Nat) : List (Nat × Tag) → List BatchStep
  | [] => []
  | (offset, tag) :: rest => .boundary tag :: plan ceiling ceiling offset total rest

theorem plan_eq_append (ceiling room written total : Nat) (tags : List (Nat × Tag)) :
    plan ceiling room written total tags =
      run ceiling room (nextStop total tags - written) ++ behindStop ceiling total tags := by
  cases tags with
  | nil => exact (List.append_nil _).symm
  | cons head rest => rfl

theorem plan_at_stop (ceiling room total : Nat) (tags : List (Nat × Tag)) :
    plan ceiling room (nextStop total tags) total tags = behindStop ceiling total tags := by
  rw [plan_eq_append, Nat.sub_self, run, if_pos rfl, List.nil_append]

theorem plan_full (hceiling : 0 < ceiling) {written total : Nat} {tags : List (Nat × Tag)}
    (h : written < nextStop total tags) :
    plan ceiling 0 written total tags = .roll :: plan ceiling ceiling written total tags := by
  rw [plan_eq_append, run, if_neg (by omega), if_neg (Nat.lt_irrefl 0), if_pos hceiling,
    plan_eq_append]
  rfl

theorem plan_write {room written total : Nat} {tags : List (Nat × Tag)}
    (h : written < nextStop total tags) (hroom : 0 < room) :
    let count := min room (nextStop total tags - written)
    plan ceiling room written total tags =
      .write count :: plan ceiling (room - count) (written + count) total tags := by
  intro count
  rw [plan_eq_append, run, if_neg (by omega), if_pos hroom, plan_eq_append, ← Nat.sub_sub]
  rfl

theorem InOrder.nextStop_le {written total : Nat} {tags : List (Nat × Tag)}
    (h : InOrder written total tags) : nextStop total tags ≤ total := by
  cases tags with
  | nil => exact Nat.le_refl _
  | cons head rest => exact Nat.le_of_lt (h.inside head List.mem_cons_self).2

theorem InOrder.drop {total : Nat} {tags : List (Nat × Tag)} (h : InOrder 0 total tags)
    (passed : Nat) : InOrder 0 total (tags.drop passed) :=
  ⟨h.pairwise.sublist (List.drop_sublist ..),
    fun tag htag => h.inside tag (List.mem_of_mem_drop htag)⟩

theorem InOrder.le_nextStop {total offset : Nat} {tag : Tag} {rest : List (Nat × Tag)}
    (h : InOrder 0 total ((offset, tag) :: rest)) : offset ≤ nextStop total rest := by
  cases rest with
  | nil => exact Nat.le_of_lt (h.inside _ List.mem_cons_self).2
  | cons next later => exact (h.tail.inside next List.mem_cons_self).1

/-- The tag that a step cuts at. -/
def tag? : BatchStep → Option Tag
  | .boundary tag => some tag
  | _ => none

end Plan

end BatchStep

/-! ## What a step leaves of the room -/

namespace Writer

section Room

variable {writer : Writer} {ceiling itemSize : Nat}

/-- The room behind a step, by the room before it. -/
def roomBehind (ceiling room : Nat) : Option BatchStep → Nat
  | none => room
  | some (.write count) => room - count
  | some _ => ceiling

theorem openSegment_ready :
    Ends openSegment writer (fun _ next => next.IsReady) (fun _ _ => True) := by
  simp only [openSegment, ends_bind, onScribe, ends_within, mark, changeProgress, count, setRecords,
    ends_modify]
  refine Scribe.emit_stays.mono ?_ fun _ _ _ => trivial
  rintro slot ⟨headers, outlet⟩ ⟨hslot, rfl, -, -⟩
  refine ⟨rfl, writer.outlet.target.cursor, ?_⟩
  simp only [Progress.mark_headers]
  exact congrArg some hslot

theorem roll_ready : Ends roll writer (fun _ next => next.IsReady) (fun _ _ => True) := by
  simp only [roll, ends_bind, ends_get]
  split
  · rw [ends_bind]
    exact ends_of_forall (fun _ _ => openSegment_ready) fun _ _ => trivial
  · exact openSegment_ready

theorem boundary_ready (update : Option HeaderUpdate) :
    Ends (boundary update) writer (fun _ next => next.IsReady) (fun _ _ => True) := by
  simp only [boundary, ends_bind, ends_get]
  split
  · simp only [ends_bind]
    refine ends_of_forall (fun _ closed => ?_) fun _ _ => trivial
    exact ends_of_forall (fun _ _ => openSegment_ready) fun _ _ => trivial
  · rename_i hempty
    simp only [apply, changeProgress, ends_bind, ends_modify]
    cases hslot : writer.progress.headers.slot with
    | none =>
        simp only [HeaderState.isOpen, hslot, Option.isSome_none, Bool.false_eq_true, if_false]
        exact openSegment_ready
    | some slot =>
        simp only [HeaderState.isOpen, hslot, Option.isSome_some, if_true]
        have happlied : (writer.applied update).progress.headers.slot = some slot :=
          (applySome_slot ..).trans hslot
        exact (finalize_tallies happlied (Nat.eq_zero_of_not_pos hempty)).mono (fun _ _ h => h.2)
          fun _ _ _ => trivial

theorem isOpen_of_room (h : 0 < writer.room ceiling) : writer.progress.headers.isOpen = true := by
  by_contra hclosed
  rw [room, if_neg hclosed] at h
  exact Nat.lt_irrefl 0 h

/-- A step that is carried out takes its records off the items and off the room. -/
theorem perform_room (hsize : 0 < itemSize) {written : Nat} {items : Bytes} {step : BatchStep}
    (hwrite : ∀ count, step = .write count →
      0 < count ∧ count ≤ writer.room ceiling ∧ count * itemSize ≤ items.length) :
    Ends (perform itemSize written items step) writer
      (fun later next => later = items.drop (step.records * itemSize) ∧
        next.room ceiling = roomBehind ceiling (writer.room ceiling) (some step))
      (fun _ _ => True) := by
  have hcut : items = items.drop (0 * itemSize) := by rw [Nat.zero_mul, List.drop_zero]
  cases step with
  | roll =>
      simp only [perform, ends_mapFault, ends_bind, ends_get, onOutlet, Outlet.report, ends_within,
        ends_modify, ends_pure]
      exact roll_ready.mono (fun _ next hready => ⟨hcut, hready.room ceiling⟩) fun _ _ h => h
  | boundary tag =>
      simp only [perform, ends_mapFault, ends_bind, ends_pure]
      refine ends_of_forall (fun update prepared => ?_) fun _ _ => trivial
      exact (boundary_ready update).mono (fun _ next hready => ⟨hcut, hready.room ceiling⟩)
        fun _ _ h => h
  | write count =>
      obtain ⟨hcount, hroom, hfits⟩ := hwrite count rfl
      have hopen := isOpen_of_room (Nat.lt_of_lt_of_le hcount hroom)
      have hnow := List.length_take_of_le hfits
      simp only [perform, List.splitAt_eq, ends_bind, ends_mapFault, ends_pure]
      refine (writeRecords_tallies hsize hnow hcount hopen).mono ?_ fun _ _ _ => trivial
      rintro ⟨⟩ next ⟨-, hheaders, hrecords⟩
      refine ⟨rfl, ?_⟩
      rw [roomBehind, room, room, hheaders, hrecords, if_pos hopen, if_pos hopen, Nat.sub_add_eq]

end Room

end Writer

/-! ## What a step leaves of the tags -/

/-- Tags that were looked at. -/
def Counters.tags (counters : Counters) : Nat := counters.tagsApplied + counters.tagsRejected

namespace Writer

section Tags

variable {fault result : Type}

/-- No tag is looked at. -/
def KeepsTags (writer next : Writer) : Prop :=
  next.progress.counters.tags = writer.progress.counters.tags

theorem KeepsTags.refl (writer : Writer) : writer.KeepsTags writer := rfl

theorem KeepsTags.trans {writer middle next : Writer} (h : writer.KeepsTags middle)
    (h' : middle.KeepsTags next) : writer.KeepsTags next :=
  Eq.trans h' h

theorem onOutlet_keepsTags (action : Action fault Outlet result) :
    Respects KeepsTags (onOutlet action) :=
  respects_within (fun writer _ => .refl writer) action

theorem onScribe_keepsTags (action : Action fault Scribe result) :
    Respects KeepsTags (onScribe action) :=
  respects_within (fun writer _ => .refl writer) action

theorem changeProgress_keepsTags {update : Progress → Progress}
    (h : ∀ progress, (update progress).counters.tags = progress.counters.tags) :
    Respects KeepsTags (changeProgress update : Action fault Writer Unit) :=
  respects_modify fun writer => h writer.progress

theorem mark_keepsTags (stage : Stage) :
    Respects KeepsTags (mark stage : Action fault Writer Unit) :=
  changeProgress_keepsTags fun _ => by rw [Progress.mark_counters]

theorem count_keepsTags {update : Counters → Counters}
    (h : ∀ counters, (update counters).tags = counters.tags) :
    Respects KeepsTags (count update : Action fault Writer Unit) :=
  changeProgress_keepsTags fun progress => h progress.counters

theorem setRecords_keepsTags (records : Nat) :
    Respects KeepsTags (setRecords records : Action fault Writer Unit) :=
  changeProgress_keepsTags fun _ => rfl

theorem openSegment_keepsTags : Respects KeepsTags openSegment := by
  unfold openSegment
  apply (onScribe_keepsTags _).bind KeepsTags.trans
  intro slot
  apply (mark_keepsTags _).bind KeepsTags.trans
  intro _
  apply Respects.bind (count_keepsTags ?_) KeepsTags.trans
  · exact fun _ => setRecords_keepsTags 0
  · exact fun _ => rfl

theorem closeSegment_keepsTags : Respects KeepsTags closeSegment := by
  unfold closeSegment
  apply (respects_get KeepsTags.refl).bind KeepsTags.trans
  intro writer
  apply (onScribe_keepsTags _).bind KeepsTags.trans
  intro lengths
  apply (mark_keepsTags _).bind KeepsTags.trans
  intro _
  apply (setRecords_keepsTags 0).bind KeepsTags.trans
  exact fun _ => count_keepsTags fun _ => rfl

theorem finalize_keepsTags (dataLength : Nat) : Respects KeepsTags (finalize dataLength) := by
  unfold finalize
  apply (onScribe_keepsTags _).bind KeepsTags.trans
  intro lengths
  apply (mark_keepsTags _).bind KeepsTags.trans
  exact fun _ => count_keepsTags fun _ => rfl

theorem roll_keepsTags : Respects KeepsTags roll := by
  unfold roll
  apply (respects_get KeepsTags.refl).bind KeepsTags.trans
  intro writer
  dsimp only
  split
  · apply closeSegment_keepsTags.bind KeepsTags.trans
    exact fun _ => openSegment_keepsTags
  · exact openSegment_keepsTags

theorem boundary_keepsTags (update : Option HeaderUpdate) :
    Respects KeepsTags (boundary update) := by
  have happly : Respects KeepsTags (apply update : Action StreamError Writer Unit) :=
    changeProgress_keepsTags fun _ => rfl
  unfold boundary
  apply (respects_get KeepsTags.refl).bind KeepsTags.trans
  intro writer
  dsimp only
  split
  · apply closeSegment_keepsTags.bind KeepsTags.trans
    intro _
    apply happly.bind KeepsTags.trans
    exact fun _ => openSegment_keepsTags
  · apply happly.bind KeepsTags.trans
    intro _
    split
    · exact finalize_keepsTags 0
    · exact openSegment_keepsTags

theorem writeRecords_keepsTags (itemSize : Nat) (items : Bytes) :
    Respects KeepsTags (writeRecords itemSize items) := by
  have hadd : ∀ records, Respects KeepsTags
      (addRecords records itemSize : Action (Nat × IoFault) Writer Unit) := by
    intro records
    unfold addRecords
    apply (respects_get KeepsTags.refl).bind KeepsTags.trans
    intro writer
    apply (setRecords_keepsTags _).bind KeepsTags.trans
    exact fun _ => count_keepsTags fun _ => rfl
  unfold writeRecords
  apply (onOutlet_keepsTags _).attempt.bind KeepsTags.trans
  intro outcome
  apply (mark_keepsTags _).bind KeepsTags.trans
  intro _
  cases outcome with
  | ok => exact hadd _
  | error partly =>
      apply (hadd _).bind KeepsTags.trans
      exact fun _ => respects_throw KeepsTags.refl _

/-- A tag is counted when it is looked at, whatever is found. -/
theorem prepareTag_tags (tag : Tag) (writer : Writer) :
    Ends (prepareTag tag : Action fault Writer (Option HeaderUpdate)) writer
      (fun _ next => next.progress.counters.tags = writer.progress.counters.tags + 1)
      fun _ _ => False := by
  simp only [prepareTag, ends_bind, ends_get]
  cases writer.progress.headers.prepare tag.key tag.value with
  | ok update => exact Nat.add_right_comm ..
  | error cause => rfl

/-- Only a boundary looks at a tag, and at its own. -/
theorem perform_tags (itemSize written : Nat) (items : Bytes) (step : BatchStep)
    (writer : Writer) :
    Ends (perform itemSize written items step) writer
      (fun _ next => next.progress.counters.tags =
        writer.progress.counters.tags + (tag? step).toList.length)
      fun _ _ => True := by
  cases step with
  | roll =>
      simp only [perform, ends_mapFault, ends_bind, ends_get, ends_pure]
      apply (onOutlet_keepsTags (Outlet.report _) writer).mono _ fun _ _ _ => trivial
      intro _ reported hreported
      apply (roll_keepsTags reported).mono _ fun _ _ _ => trivial
      exact fun _ _ hrolled => hreported.trans hrolled
  | write records =>
      simp only [perform, ends_mapFault, ends_bind, ends_pure]
      apply (writeRecords_keepsTags itemSize _ writer).mono _ fun _ _ _ => trivial
      exact fun _ _ hwritten => hwritten
  | boundary tag =>
      simp only [perform, ends_mapFault, ends_bind, ends_pure]
      apply (prepareTag_tags tag writer).mono _ fun _ _ h => h.elim
      intro update prepared hprepared
      apply (boundary_keepsTags update prepared).mono _ fun _ _ _ => trivial
      exact fun _ next hcut => Eq.trans hcut hprepared

end Tags

end Writer

/-! ## The loop -/

/-- A batch of items in the hands of a loop, with the tags at their offsets in it. -/
structure BatchLoop where
  ceiling : Nat
  itemSize : Nat
  items : Bytes
  tags : List (Nat × Tag)

namespace BatchLoop

inductive Phase where
  | writing
  | full
  | atTag
  deriving DecidableEq

/-- Where the loop is in its batch: records written and tags passed. -/
structure Point where
  phase : Phase := .writing
  written : Nat := 0
  passed : Nat := 0

inductive Turn where
  /-- The loop goes on, perhaps behind a step. -/
  | next (step : Option BatchStep) (later : Point)
  | done (records : Nat)
  /-- A difference below zero, or an index behind the end. -/
  | stray

variable (loop : BatchLoop)

def total : Nat := loop.items.length / loop.itemSize

/-- Where the next cut falls once so many tags are passed. -/
def stop (passed : Nat) : Nat := nextStop loop.total (loop.tags.drop passed)

/-- What the loop does next; only a segment that is to be written to is asked for its room. -/
def turn (point : Point) (room : Nat) : Turn :=
  match point.phase with
  | .writing =>
      let stop := loop.stop point.passed
      if point.written = stop then
        if point.passed < loop.tags.length then .next none { point with phase := .atTag }
        else .done point.written
      else if room = 0 then .next none { point with phase := .full }
      else if stop < point.written then .stray
      else
        let count := min room (stop - point.written)
        let written := point.written + count
        if loop.items.length < written * loop.itemSize then .stray
        else .next (some (.write count)) { point with written }
  | .full => .next (some .roll) { point with phase := .writing }
  | .atTag =>
      match loop.tags[point.passed]? with
      | none => .stray
      | some (_, tag) =>
          .next (some (.boundary tag)) ⟨.writing, point.written, point.passed + 1⟩

/-- The items behind those that are written. -/
def itemsLeft (point : Point) : Bytes := loop.items.drop (point.written * loop.itemSize)

def take (point : Point) : Action StreamError Writer Turn := do
  let turn := loop.turn point ((← get).room loop.ceiling)
  match turn with
  | .next (some step) _ =>
      let _ ← Writer.perform loop.itemSize point.written (loop.itemsLeft point) step
      return turn
  | turn => return turn

/-- Takes so many turns at most; no result if they do not suffice or the loop goes astray. -/
def run : Nat → Point → Action StreamError Writer (Option Nat)
  | 0, _ => return none
  | fuel + 1, point => do
      match ← loop.take point with
      | .next _ later => run fuel later
      | .done records => return some records
      | .stray => return none

/-- Where the loop can be, with the steps it has carried out on its way. -/
inductive Reaches (start : Writer) : List BatchStep → Point → Writer → Prop
  | start : Reaches start [] {} start
  | turn {steps : List BatchStep} {point later : Point} {step : Option BatchStep}
      {writer next : Writer} (hreaches : Reaches start steps point writer)
      (htake : loop.take point writer = .ok (.next step later) next) :
      Reaches start (steps ++ step.toList) later next

/-! ## Turns -/

/-- A point of the batch, with the room there. -/
structure IsInside (point : Point) (room : Nat) : Prop where
  written : point.written ≤ loop.stop point.passed
  passed : point.passed ≤ loop.tags.length
  full : point.phase = .full → point.written < loop.stop point.passed ∧ room = 0
  atTag : point.phase = .atTag →
    point.written = loop.stop point.passed ∧ point.passed < loop.tags.length

/-- The turns of a loop that does not go astray. -/
inductive Turns : Point → Nat → Turn → Prop
  | reached {written passed room : Nat} (hstop : written = loop.stop passed)
      (htag : passed < loop.tags.length) :
      Turns ⟨.writing, written, passed⟩ room (.next none ⟨.atTag, written, passed⟩)
  | finished {room : Nat} :
      Turns ⟨.writing, loop.total, loop.tags.length⟩ room (.done loop.total)
  | filled {written passed : Nat} (hstop : written < loop.stop passed) :
      Turns ⟨.writing, written, passed⟩ 0 (.next none ⟨.full, written, passed⟩)
  | wrote {written passed room : Nat} (hstop : written < loop.stop passed) (hroom : 0 < room) :
      Turns ⟨.writing, written, passed⟩ room
        (.next (some (.write (min room (loop.stop passed - written))))
          ⟨.writing, written + min room (loop.stop passed - written), passed⟩)
  | rolled {written passed : Nat} (hstop : written < loop.stop passed) :
      Turns ⟨.full, written, passed⟩ 0 (.next (some .roll) ⟨.writing, written, passed⟩)
  | cut {written passed room : Nat} {tag : Tag}
      (htag : loop.tags[passed]? = some (written, tag)) :
      Turns ⟨.atTag, written, passed⟩ room
        (.next (some (.boundary tag)) ⟨.writing, written, passed + 1⟩)

section Turns

variable {loop} {point later : Point} {room : Nat} {step : Option BatchStep}

theorem stop_of_tag {passed offset : Nat} {tag : Tag}
    (h : loop.tags[passed]? = some (offset, tag)) :
    loop.tags.drop passed = (offset, tag) :: loop.tags.drop (passed + 1) ∧
      loop.stop passed = offset := by
  obtain ⟨hlt, hget⟩ := List.getElem?_eq_some_iff.mp h
  have hdrop : loop.tags.drop passed = (offset, tag) :: loop.tags.drop (passed + 1) := by
    rw [List.drop_eq_getElem_cons hlt, hget]
  rw [stop, hdrop]
  exact ⟨rfl, rfl⟩

theorem stop_of_no_tags (loop : BatchLoop) : loop.stop loop.tags.length = loop.total := by
  rw [stop, List.drop_length]
  rfl

variable (htags : InOrder 0 loop.total loop.tags)

include htags

theorem stop_le (passed : Nat) : loop.stop passed ≤ loop.total := (htags.drop passed).nextStop_le

theorem stop_le_stop {passed offset : Nat} {tag : Tag}
    (h : loop.tags[passed]? = some (offset, tag)) : offset ≤ loop.stop (passed + 1) := by
  have hdrop := htags.drop passed
  rw [(stop_of_tag h).1] at hdrop
  exact hdrop.le_nextStop

theorem slice_fits (passed written : Nat) (hstop : written ≤ loop.stop passed) :
    written * loop.itemSize ≤ loop.items.length :=
  Nat.le_trans (Nat.mul_le_mul_right _ (Nat.le_trans hstop (stop_le htags passed)))
    (Nat.div_mul_le_self ..)

theorem IsInside.turns (h : loop.IsInside point room) :
    loop.Turns point room (loop.turn point room) := by
  obtain ⟨phase, written, passed⟩ := point
  obtain ⟨hwritten, hpassed, hfull, hatTag⟩ := h
  cases phase with
  | writing =>
      by_cases hstop : written = loop.stop passed
      · by_cases htag : passed < loop.tags.length
        · rw [turn, if_pos hstop, if_pos htag]
          exact .reached hstop htag
        · have hlast : passed = loop.tags.length := Nat.le_antisymm hpassed (Nat.not_lt.mp htag)
          subst hlast
          rw [turn, if_pos hstop, if_neg htag, hstop, stop_of_no_tags]
          exact .finished
      · have hlt : written < loop.stop passed := Nat.lt_of_le_of_ne hwritten hstop
        rcases Nat.eq_zero_or_pos room with rfl | hroom
        · rw [turn, if_neg hstop, if_pos rfl]
          exact .filled hlt
        · have hslice := slice_fits htags passed (written + min room (loop.stop passed - written))
            (by omega)
          rw [turn, if_neg hstop, if_neg (Nat.ne_of_gt hroom), if_neg (Nat.not_lt.mpr hwritten),
            if_neg (Nat.not_lt.mpr hslice)]
          exact .wrote hlt hroom
  | full =>
      obtain ⟨hlt, rfl⟩ := hfull rfl
      exact .rolled hlt
  | atTag =>
      obtain ⟨hstop, hlt⟩ := hatTag rfl
      have htag : loop.tags[passed]? = some (written, loop.tags[passed].2) := by
        have hget : loop.tags[passed]? = some (loop.tags[passed].1, loop.tags[passed].2) :=
          List.getElem?_eq_getElem hlt
        rw [hget, ← (stop_of_tag hget).2, ← hstop]
      rw [turn, htag]
      exact .cut htag

omit htags in
theorem Turns.not_stray : ¬ loop.Turns point room .stray := nofun

/-- Behind a turn the loop is inside its batch again. -/
theorem Turns.isInside (h : loop.IsInside point room)
    (hturn : loop.Turns point room (.next step later)) :
    loop.IsInside later (Writer.roomBehind loop.ceiling room step) := by
  obtain ⟨hwritten, hpassed, -, -⟩ := h
  cases hturn with
  | reached hstop htag => exact ⟨hwritten, hpassed, nofun, fun _ => ⟨hstop, htag⟩⟩
  | filled hstop => exact ⟨hwritten, hpassed, fun _ => ⟨hstop, rfl⟩, nofun⟩
  | wrote hstop hroom => exact ⟨by simp only; omega, hpassed, nofun, nofun⟩
  | rolled hstop => exact ⟨hwritten, hpassed, nofun, nofun⟩
  | cut htag =>
      obtain ⟨hlt, -⟩ := List.getElem?_eq_some_iff.mp htag
      exact ⟨stop_le_stop htags htag, hlt, nofun, nofun⟩

/-- Whatever is written is there to be taken, and there is room for it. -/
theorem Turns.fits {count : Nat}
    (hturn : loop.Turns point room (.next (some (.write count)) later)) :
    0 < count ∧ count ≤ room ∧ count * loop.itemSize ≤ (loop.itemsLeft point).length := by
  cases hturn with
  | @wrote written passed _ hstop hroom =>
      have hslice := slice_fits htags passed (written + min room (loop.stop passed - written))
        (by omega)
      refine ⟨by omega, Nat.min_le_left .., ?_⟩
      rw [Nat.add_mul] at hslice
      rw [itemsLeft, List.length_drop]
      exact Nat.le_sub_of_add_le' hslice

/-- The turns of a point beside those that its records and tags pay for. -/
def surplus (loop : BatchLoop) (point : Point) (room : Nat) : Nat :=
  match point.phase with
  | .writing => if point.written < loop.stop point.passed ∧ 0 < room then 0 else 2
  | _ => 1

omit htags in
theorem surplus_le : loop.surplus point room ≤ 2 := by
  unfold surplus
  split
  · split
    · exact Nat.zero_le 2
    · exact Nat.le_refl 2
  · exact Nat.le_succ 1

/-- Bounds the turns that are left. -/
def weight (loop : BatchLoop) (point : Point) (room : Nat) : Nat :=
  3 * (loop.total - point.written) + 2 * (loop.tags.length - point.passed) +
    loop.surplus point room

theorem Turns.weight_lt (hceiling : 0 < loop.ceiling)
    (hturn : loop.Turns point room (.next step later)) :
    loop.weight later (Writer.roomBehind loop.ceiling room step) < loop.weight point room := by
  have hsurplus : loop.surplus later (Writer.roomBehind loop.ceiling room step) ≤ 2 := surplus_le
  unfold weight
  cases hturn with
  | @reached written passed _ hstop htag =>
      have hbefore : loop.surplus ⟨.writing, written, passed⟩ room = 2 :=
        if_neg fun h => Nat.ne_of_lt h.1 hstop
      have hbehind : loop.surplus ⟨.atTag, written, passed⟩ room = 1 := rfl
      rw [hbefore, Writer.roomBehind, hbehind]
      exact Nat.lt_succ_self _
  | @filled written passed hstop =>
      have hbefore : loop.surplus ⟨.writing, written, passed⟩ 0 = 2 :=
        if_neg fun h => Nat.lt_irrefl 0 h.2
      have hbehind : loop.surplus ⟨.full, written, passed⟩ 0 = 1 := rfl
      rw [hbefore, Writer.roomBehind, hbehind]
      exact Nat.lt_succ_self _
  | @wrote written passed _ hstop hroom =>
      have hle := stop_le htags passed
      simp only
      omega
  | @rolled written passed hstop =>
      have hbefore : loop.surplus ⟨.full, written, passed⟩ 0 = 1 := rfl
      have hbehind : loop.surplus ⟨.writing, written, passed⟩ loop.ceiling = 0 :=
        if_pos ⟨hstop, hceiling⟩
      rw [hbefore, Writer.roomBehind, hbehind]
      · exact Nat.lt_succ_self _
      · exact nofun
  | @cut written passed _ tag htag =>
      obtain ⟨hlt, -⟩ := List.getElem?_eq_some_iff.mp htag
      have hbefore : loop.surplus ⟨.atTag, written, passed⟩ room = 1 := rfl
      rw [hbefore]
      simp only
      omega

end Turns

/-! ## What the plan still holds -/

section Rest

variable {point later : Point} {room : Nat} {step : Option BatchStep}

/-- What is left of the plan of the batch. -/
def rest (point : Point) (room : Nat) : List BatchStep :=
  plan loop.ceiling room point.written loop.total (loop.tags.drop point.passed)

variable {loop}

/-- A turn carries out what the plan says next, or nothing. -/
theorem Turns.rest (hceiling : 0 < loop.ceiling)
    (hturn : loop.Turns point room (.next step later)) :
    loop.rest point room =
      step.toList ++ loop.rest later (Writer.roomBehind loop.ceiling room step) := by
  cases hturn with
  | reached => rfl
  | filled => rfl
  | wrote hstop hroom => exact plan_write hstop hroom
  | rolled hstop => exact plan_full hceiling hstop
  | @cut written passed _ tag htag =>
      obtain ⟨hdrop, hstop⟩ := stop_of_tag htag
      have hplan := plan_at_stop loop.ceiling room loop.total (loop.tags.drop passed)
      rw [hdrop] at hplan
      rw [BatchLoop.rest, hdrop]
      exact hplan

theorem Turns.of_done {records : Nat} (hturn : loop.Turns point room (.done records)) :
    records = loop.total ∧ point.written = loop.total ∧ point.passed = loop.tags.length := by
  cases hturn with
  | finished => exact ⟨rfl, rfl, rfl⟩

theorem rest_of_done (hwritten : point.written = loop.total)
    (hpassed : point.passed = loop.tags.length) : loop.rest point room = [] := by
  rw [rest, hwritten, hpassed, List.drop_length]
  exact plan_at_stop loop.ceiling room loop.total []

theorem Turns.written (hturn : loop.Turns point room (.next step later)) :
    later.written = point.written + (step.toList.map records).sum := by
  cases hturn <;> rfl

end Rest

/-! ## Steps on the way -/

/-- The steps that lead to a point. -/
structure IsTrail (steps : List BatchStep) (point : Point) (room : Nat) : Prop where
  records : (steps.map BatchStep.records).sum = point.written
  tags : steps.filterMap tag? = (loop.tags.take point.passed).map Prod.snd
  writes : ∀ count, .write count ∈ steps → 0 < count
  rolls : steps.IsChain fun first second => first = .roll → 0 < second.records
  fresh : steps.getLast? = some .roll →
    point.phase = .writing ∧ point.written < loop.stop point.passed ∧ 0 < room

section Trail

theorem isChain_append_step {steps : List BatchStep} {step : BatchStep}
    (h : steps.IsChain fun first second => first = .roll → 0 < second.records)
    (hstep : steps.getLast? = some .roll → 0 < step.records) :
    (steps ++ [step]).IsChain fun first second => first = .roll → 0 < second.records := by
  rw [List.isChain_append]
  refine ⟨h, List.isChain_singleton step, ?_⟩
  rintro last hlast second hsecond rfl
  cases hsecond
  exact hstep hlast

variable {loop} {point later : Point} {room : Nat} {steps : List BatchStep}
  {step : Option BatchStep}

theorem Turns.isTrail (hceiling : 0 < loop.ceiling) (h : loop.IsTrail steps point room)
    (hturn : loop.Turns point room (.next step later)) :
    loop.IsTrail (steps ++ step.toList) later (Writer.roomBehind loop.ceiling room step) := by
  obtain ⟨hrecords, htags, hwrites, hrolls, hfresh⟩ := h
  cases hturn with
  | reached hstop htag =>
      rw [Option.toList_none, List.append_nil]
      refine ⟨hrecords, htags, hwrites, hrolls, fun hlast => ?_⟩
      exact absurd hstop (Nat.ne_of_lt (hfresh hlast).2.1)
  | filled hstop =>
      rw [Option.toList_none, List.append_nil]
      refine ⟨hrecords, htags, hwrites, hrolls, fun hlast => ?_⟩
      exact absurd (hfresh hlast).2.2 (Nat.lt_irrefl 0)
  | @wrote written passed _ hstop hroom =>
      have hcount : 0 < min room (loop.stop passed - written) := by omega
      refine ⟨?_, ?_, ?_, ?_, ?_⟩
      · simp [hrecords, BatchStep.records]
      · simp [htags, tag?]
      · rintro count hmem
        rcases List.mem_append.mp hmem with hmem | hmem
        · exact hwrites count hmem
        · cases List.mem_singleton.mp hmem
          exact hcount
      · exact isChain_append_step hrolls fun _ => hcount
      · simp
  | rolled hstop =>
      refine ⟨?_, ?_, ?_, ?_, ?_⟩
      · simp [hrecords, BatchStep.records]
      · simp [htags, tag?]
      · rintro count hmem
        rcases List.mem_append.mp hmem with hmem | hmem
        · exact hwrites count hmem
        · cases List.mem_singleton.mp hmem
      · exact isChain_append_step hrolls fun hlast => Phase.noConfusion (hfresh hlast).1
      · exact fun _ => ⟨rfl, hstop, hceiling⟩
  | @cut written passed _ tag htag =>
      refine ⟨?_, ?_, ?_, ?_, ?_⟩
      · simp [hrecords, BatchStep.records]
      · simp [htags, tag?, List.take_add_one, htag]
      · rintro count hmem
        rcases List.mem_append.mp hmem with hmem | hmem
        · exact hwrites count hmem
        · cases List.mem_singleton.mp hmem
      · exact isChain_append_step hrolls fun hlast => Phase.noConfusion (hfresh hlast).1
      · simp

end Trail

/-! ## Runs -/

section Runs

variable {loop} {point : Point} {writer start : Writer} {steps : List BatchStep}

theorem isInside_start (room : Nat) : loop.IsInside {} room :=
  ⟨Nat.zero_le _, Nat.zero_le _, nofun, nofun⟩

theorem isTrail_start (room : Nat) : loop.IsTrail [] {} room :=
  ⟨rfl, rfl, nofun, .nil, nofun⟩

theorem take_of_step {step : BatchStep} {later : Point}
    (h : loop.turn point (writer.room loop.ceiling) = .next (some step) later) :
    loop.take point writer =
      (Writer.perform loop.itemSize point.written (loop.itemsLeft point) step >>=
        fun _ => pure (.next (some step) later)) writer := by
  change (match loop.turn point (writer.room loop.ceiling) with
    | .next (some step) _ => _
    | turn => pure turn : Action StreamError Writer Turn) writer = _
  rw [h]

theorem take_of_no_step {turn : Turn} (h : loop.turn point (writer.room loop.ceiling) = turn)
    (hturn : ∀ step later, turn ≠ .next (some step) later) :
    loop.take point writer = .ok turn writer := by
  change (match loop.turn point (writer.room loop.ceiling) with
    | .next (some step) _ => _
    | turn => pure turn : Action StreamError Writer Turn) writer = _
  rw [h]
  split
  · exact absurd rfl (hturn _ _)
  · rfl

theorem runBatch_eq_follow (loop : BatchLoop) (start : Writer) :
    (some <$> Writer.runBatch loop.ceiling loop.itemSize loop.items loop.tags) start =
      (Writer.follow loop.itemSize (loop.rest {} (start.room loop.ceiling)) 0
        (loop.itemsLeft {}) >>= fun _ => pure (some loop.total)) start := by
  have hitems : loop.itemsLeft {} = loop.items := by
    rw [itemsLeft, Nat.zero_mul, List.drop_zero]
  rw [hitems, map_eq_pure_bind, Writer.runBatch, bind_assoc]
  simp only [bind_assoc, pure_bind]
  rfl

theorem run_of_next {fuel : Nat} {step : Option BatchStep} {later : Point} {next : Writer}
    (h : loop.take point writer = .ok (.next step later) next) :
    loop.run (fuel + 1) point writer = loop.run fuel later next := by
  rw [run, bind_of_ok h]

variable (hceiling : 0 < loop.ceiling) (hsize : 0 < loop.itemSize)
  (htags : InOrder 0 loop.total loop.tags)

include hsize htags

theorem perform_step {step : BatchStep} {later : Point}
    (h : loop.IsInside point (writer.room loop.ceiling))
    (hturn : loop.turn point (writer.room loop.ceiling) = .next (some step) later) :
    Ends (Writer.perform loop.itemSize point.written (loop.itemsLeft point) step) writer
      (fun items next => items = loop.itemsLeft later ∧ next.room loop.ceiling =
        Writer.roomBehind loop.ceiling (writer.room loop.ceiling) (some step))
      (fun _ _ => True) := by
  have hturns := h.turns htags
  rw [hturn] at hturns
  have hwritten : later.written = point.written + step.records := hturns.written
  have hfits : ∀ count, step = .write count → 0 < count ∧ count ≤ writer.room loop.ceiling ∧
      count * loop.itemSize ≤ (loop.itemsLeft point).length := by
    rintro count rfl
    exact hturns.fits htags
  refine (Writer.perform_room hsize hfits).mono ?_ fun _ _ h => h
  · rintro items next ⟨rfl, hroom⟩
    refine ⟨?_, hroom⟩
    rw [itemsLeft, itemsLeft, List.drop_drop, hwritten, Nat.add_mul]

/-- What a turn comes to, and the room and the tags behind it. -/
theorem take_ends (h : loop.IsInside point (writer.room loop.ceiling)) :
    Ends (loop.take point) writer
      (fun turn next => loop.Turns point (writer.room loop.ceiling) turn ∧
        ∀ step later, turn = .next step later →
          next.room loop.ceiling =
            Writer.roomBehind loop.ceiling (writer.room loop.ceiling) step ∧
          next.progress.counters.tags =
            writer.progress.counters.tags + (step.toList.filterMap tag?).length)
      (fun _ _ => True) := by
  have hturns := h.turns htags
  cases hturn : loop.turn point (writer.room loop.ceiling) with
  | next step later =>
      rw [hturn] at hturns
      cases step with
      | none =>
          rw [ends_iff_of_ok (take_of_no_step hturn nofun)]
          refine ⟨hturns, ?_⟩
          rintro step later' heq
          cases heq
          exact ⟨rfl, rfl⟩
      | some step =>
          have hperform := (perform_step hsize htags h hturn).and
            (Writer.perform_tags loop.itemSize point.written (loop.itemsLeft point) step writer)
          rw [Ends, take_of_step hturn, ← Ends, ends_bind]
          refine hperform.mono ?_ fun _ _ h => h.1
          rintro items next ⟨⟨-, hroom⟩, hlooked⟩
          refine ⟨hturns, ?_⟩
          rintro step' later' heq
          cases heq
          refine ⟨hroom, hlooked.trans ?_⟩
          cases step <;> rfl
  | done records =>
      rw [hturn] at hturns
      rw [ends_iff_of_ok (take_of_no_step hturn nofun)]
      exact ⟨hturns, nofun⟩
  | stray =>
      rw [hturn] at hturns
      exact hturns.not_stray.elim

include hceiling

/-- The loop stays inside its batch, its steps are in order, and each counts its tag. -/
theorem Reaches.isTrail (h : loop.Reaches start steps point writer) :
    loop.IsInside point (writer.room loop.ceiling) ∧
      loop.IsTrail steps point (writer.room loop.ceiling) ∧
      writer.progress.counters.tags =
        start.progress.counters.tags + (steps.filterMap tag?).length := by
  induction h with
  | start => exact ⟨isInside_start _, isTrail_start _, rfl⟩
  | turn hreaches htake ih =>
      obtain ⟨hinside, htrail, hlooked⟩ := ih
      obtain ⟨hturns, hbehind⟩ := (take_ends hsize htags hinside).of_ok htake
      obtain ⟨hroom, hlooks⟩ := hbehind _ _ rfl
      rw [hroom, hlooks, hlooked, List.filterMap_append, List.length_append, Nat.add_assoc]
      exact ⟨hturns.isInside htags hinside, hturns.isTrail hceiling htrail, rfl⟩

/-- With turns enough the loop carries out what is left of the plan. -/
theorem run_eq_follow (fuel : Nat) (h : loop.IsInside point (writer.room loop.ceiling))
    (hfuel : loop.weight point (writer.room loop.ceiling) < fuel) :
    loop.run fuel point writer =
      (Writer.follow loop.itemSize (loop.rest point (writer.room loop.ceiling)) point.written
        (loop.itemsLeft point) >>= fun _ => pure (some loop.total)) writer := by
  induction fuel generalizing point writer with
  | zero => exact absurd hfuel (Nat.not_lt_zero _)
  | succ fuel ih =>
      have hturns := h.turns htags
      cases hturn : loop.turn point (writer.room loop.ceiling) with
      | stray =>
          rw [hturn] at hturns
          exact hturns.not_stray.elim
      | done records =>
          rw [hturn] at hturns
          obtain ⟨rfl, hwritten, hpassed⟩ := hturns.of_done
          rw [run, bind_of_ok (take_of_no_step hturn nofun), rest_of_done hwritten hpassed]
          rfl
      | next step later =>
          rw [hturn] at hturns
          have hinside := hturns.isInside htags h
          have hweight := Nat.lt_of_lt_of_le (hturns.weight_lt htags hceiling)
            (Nat.le_of_lt_succ hfuel)
          have hwritten := hturns.written
          rw [hturns.rest hceiling]
          cases step with
          | none =>
              have hleft : loop.itemsLeft later = loop.itemsLeft point := by
                rw [itemsLeft, itemsLeft, hwritten]
                rfl
              rw [run_of_next (take_of_no_step hturn nofun), ih hinside hweight, hleft, hwritten]
              rfl
          | some step =>
              have hperform := perform_step hsize htags h hturn
              have htake := take_of_step hturn
              rw [Option.toList_some, List.singleton_append, Writer.follow, bind_assoc]
              cases hstep : Writer.perform loop.itemSize point.written (loop.itemsLeft point) step
                writer with
              | error cause next =>
                  rw [bind_of_error hstep] at htake
                  rw [run, bind_of_error htake, bind_of_error hstep]
              | ok items next =>
                  obtain ⟨rfl, hroom⟩ := hperform.of_ok hstep
                  rw [bind_of_ok hstep] at htake
                  rw [← hroom] at hinside hweight
                  rw [run_of_next htake, ih hinside hweight, bind_of_ok hstep, ← hroom, hwritten]
                  rfl

/--
The loop ends, and comes to what the plan of its batch comes to, wherever it starts and
whatever fails.  On its way it never takes a difference below zero or a slice behind
the end; it writes a record at least whenever it writes, and it does so directly behind
a full segment; every tag that it passes it has applied or rejected, once and in order;
and it is done once all records are written and all tags passed.
-/
theorem runs_to_end (start : Writer) :
    let run := loop.run (3 * loop.total + 2 * loop.tags.length + 3) {}
    run start =
      (some <$> Writer.runBatch loop.ceiling loop.itemSize loop.items loop.tags) start ∧
    ∀ steps point writer, loop.Reaches start steps point writer →
      point.written ≤ loop.stop point.passed ∧ loop.stop point.passed ≤ loop.total ∧
      (steps.map BatchStep.records).sum = point.written ∧
      steps.filterMap tag? = (loop.tags.take point.passed).map Prod.snd ∧
      writer.progress.counters.tagsApplied + writer.progress.counters.tagsRejected =
        start.progress.counters.tagsApplied + start.progress.counters.tagsRejected +
          point.passed ∧
      (∀ count, .write count ∈ steps → 0 < count) ∧
      (steps.IsChain fun first second => first = .roll → 0 < second.records) ∧
      Ends (loop.take point) writer
        (fun turn _ => turn ≠ .stray ∧ ∀ records, turn = .done records →
          records = loop.total ∧ point.written = loop.total ∧ point.passed = loop.tags.length)
        (fun _ _ => True) := by
  intro run
  have hinside : loop.IsInside {} (start.room loop.ceiling) := isInside_start _
  have hweight : loop.weight {} (start.room loop.ceiling) <
      3 * loop.total + 2 * loop.tags.length + 3 :=
    Nat.add_lt_add_left (Nat.lt_succ_of_le surplus_le) _
  refine ⟨(run_eq_follow hceiling hsize htags _ hinside hweight).trans
    (runBatch_eq_follow loop start).symm, ?_⟩
  intro steps point writer hreaches
  obtain ⟨hinside, htrail, hcounted⟩ := hreaches.isTrail hceiling hsize htags
  rw [htrail.tags, List.length_map, List.length_take_of_le hinside.passed] at hcounted
  refine ⟨hinside.written, stop_le htags _, htrail.records, htrail.tags, hcounted, htrail.writes,
    htrail.rolls, ?_⟩
  refine (take_ends hsize htags hinside).mono ?_ fun _ _ _ => trivial
  rintro turn next ⟨hturns, -⟩
  refine ⟨?_, ?_⟩
  · rintro rfl
    exact hturns.not_stray
  · rintro records rfl
    exact hturns.of_done

end Runs

/-- Three records behind a full segment, on storage that fails within the last of them. -/
theorem runs_to_end_torn_record :
    let loop : BatchLoop :=
      { ceiling := 2
        itemSize := 2
        items := [1, 2, 3, 4, 5, 6]
        tags := [(1, ⟨1, "gain", .uint 3⟩), (1, ⟨1, "size", .uint 9⟩)] }
    let data : Channel :=
      { location := .buffer "data"
        position := 76
        faults :=
          { writes := [(0, .interrupted), (2, .accepts 3), (8, .accepts 3), (9, .failed)] } }
    let start : Writer :=
      { progress :=
          { headers :=
              { header := { itemSize := 2 }
                extras := .ofList []
                clock := .start default .one .one
                slot := some ⟨0, 72⟩ }
            records := 2 }
        outlet :=
          { target := { label := "tape", data, dataEnd := 76 }
            host := { store := { contents := [(.buffer "data", List.replicate 76 0)] } } } }
    let run := loop.run (3 * loop.total + 2 * loop.tags.length + 3) {}
    InOrder 0 loop.total loop.tags ∧ start.room loop.ceiling = 0 ∧
      Ends run start (fun _ _ => False) (fun error next => error = .write 2 .writeFailed ∧
        next.progress.counters.tagsApplied = 1 ∧ next.progress.counters.tagsRejected = 1) ∧
      run start =
        (some <$> Writer.runBatch loop.ceiling loop.itemSize loop.items loop.tags) start ∧
      ∀ steps point writer, loop.Reaches start steps point writer →
        point.written ≤ loop.stop point.passed ∧ loop.stop point.passed ≤ loop.total ∧
        steps.filterMap tag? = (loop.tags.take point.passed).map Prod.snd ∧
        writer.progress.counters.tagsApplied + writer.progress.counters.tagsRejected =
          point.passed := by
  intro loop data start run
  have htags : InOrder 0 loop.total loop.tags := ⟨by decide, by decide⟩
  obtain ⟨hrun, hreach⟩ := runs_to_end (by decide) (by decide) htags start
  refine ⟨htags, rfl, by decide +kernel, hrun, fun steps point writer h => ?_⟩
  obtain ⟨hwritten, hstop, -, hpassed, hcounted, -⟩ := hreach steps point writer h
  exact ⟨hwritten, hstop, hpassed, hcounted.trans (Nat.zero_add _)⟩

end BatchLoop

end SegmentStream
