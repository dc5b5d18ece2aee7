import SegmentStream.Proofs.Recorder.Transcript
import SegmentStream.Recorder.Plan

/-!
# Scripts of a batch

The plan of a batch amounts to a script: the records in their order, each behind
the cuts that fall before it.  The script does not depend on the room that was
left or on the order of tags at different records.
-/

namespace SegmentStream

/-- The update a tag asks for, if it is accepted. -/
def Tag.update? (itemSize : UInt32) (tag : Tag) : Option HeaderUpdate :=
  (HeaderUpdate.prepare itemSize tag.key tag.value).toOption

/-- The cuts before each record of a stream. -/
abbrev Cues := Nat → List (Option HeaderUpdate)

/-- What tags at indices of the whole stream ask for before each record. -/
def cuesOf (itemSize : UInt32) (tags : List Tag) : Cues := fun index =>
  (tags.filter fun tag => tag.offset == index).map (Tag.update? itemSize)

/-- The acts for records of a stream, the first of which has index `first`. -/
def script (cues : Cues) : Nat → List Bytes → List Act
  | _, [] => []
  | first, record :: rest =>
      (cues first).map .cut ++ .record record :: script cues (first + 1) rest

/-! ## Scripts -/

section Script

variable {cues cues' : Cues}

theorem script_congr {first : Nat} {records : List Bytes}
    (h : ∀ index, first ≤ index → index < first + records.length → cues index = cues' index) :
    script cues first records = script cues' first records := by
  induction records generalizing first with
  | nil => rfl
  | cons record rest ih =>
      simp only [List.length_cons] at h
      rw [script, script, h first (Nat.le_refl _) (by omega),
        ih fun index hle hlt => h index (by omega) (by omega)]

theorem script_append (cues : Cues) (first : Nat) (front back : List Bytes) :
    script cues first (front ++ back) =
      script cues first front ++ script cues (first + front.length) back := by
  induction front generalizing first with
  | nil => rfl
  | cons record rest ih =>
      simp only [List.cons_append, script, ih, List.length_cons, List.append_assoc]
      rw [Nat.add_right_comm, Nat.add_assoc]

theorem script_of_silent {first : Nat} {records : List Bytes}
    (h : ∀ index, first ≤ index → index < first + records.length → cues index = []) :
    script cues first records = records.map .record := by
  induction records generalizing first with
  | nil => rfl
  | cons record rest ih =>
      simp only [List.length_cons] at h
      rw [script, h first (Nat.le_refl _) (by omega),
        ih fun index hle hlt => h index (by omega) (by omega)]
      rfl

theorem script_shift (cues : Cues) (shift first : Nat) (records : List Bytes) :
    script (fun index => cues (shift + index)) first records =
      script cues (shift + first) records := by
  induction records generalizing first with
  | nil => rfl
  | cons record rest ih => rw [script, script, ih, Nat.add_assoc]

/-- What is left of acts once so many records are stored. -/
def resumeAt : Nat → List Act → List Act
  | 0, acts => acts
  | _ + 1, [] => []
  | count + 1, .record _ :: rest => resumeAt count rest
  | count + 1, .cut _ :: rest => resumeAt (count + 1) rest

@[simp] theorem resumeAt_zero (acts : List Act) : resumeAt 0 acts = acts := by
  unfold resumeAt
  rfl

theorem resumeAt_cuts (count : Nat) (updates : List (Option HeaderUpdate)) (acts : List Act) :
    resumeAt (count + 1) (updates.map .cut ++ acts) = resumeAt (count + 1) acts := by
  induction updates with
  | nil => rfl
  | cons update rest ih => exact ih

theorem resumeAt_records (records : List Bytes) (count : Nat) (acts : List Act) :
    resumeAt (records.length + count) (records.map .record ++ acts) = resumeAt count acts := by
  induction records with
  | nil => simp
  | cons record rest ih =>
      rw [List.length_cons, Nat.succ_add]
      exact ih

theorem resumeAt_records_of_le {records : List Bytes} {count : Nat} (h : count ≤ records.length)
    (acts : List Act) : resumeAt count (records.map .record ++ acts) =
      (records.drop count).map .record ++ acts := by
  have hfront := resumeAt_records (records.take count) 0 ((records.drop count).map .record ++ acts)
  rw [List.length_take, Nat.min_eq_left h, Nat.add_zero, resumeAt_zero, ← List.append_assoc,
    ← List.map_append, List.take_append_drop] at hfront
  exact hfront

theorem resumeAt_script (cues : Cues) (first count : Nat) (records : List Bytes) :
    resumeAt count (script cues first records) =
      script cues (first + count) (records.drop count) := by
  induction records generalizing first count with
  | nil => cases count <;> simp [script, resumeAt]
  | cons record rest ih =>
      cases count with
      | zero => simp
      | succ count =>
          rw [script, resumeAt_cuts, resumeAt, ih, List.drop_succ_cons, Nat.add_right_comm]
          rfl

end Script

/-! ## Plans -/

namespace BatchStep

/-- The acts that steps carry out on the records left. -/
def acts (itemSize : UInt32) : List BatchStep → List Bytes → List Act
  | [], _ => []
  | .roll :: rest, records => acts itemSize rest records
  | .write count :: rest, records =>
      (records.take count).map .record ++ acts itemSize rest (records.drop count)
  | .boundary tag :: rest, records => .cut (tag.update? itemSize) :: acts itemSize rest records

/-- Steps that never write more than there is room for, and roll only for a record. -/
def Fits (ceiling : Nat) : Nat → Nat → List BatchStep → Prop
  | _, _, [] => True
  | room, left, .roll :: rest =>
      room = 0 ∧ (∃ count later, rest = .write count :: later) ∧ Fits ceiling ceiling left rest
  | room, left, .write count :: rest =>
      0 < count ∧ count ≤ room ∧ count ≤ left ∧ Fits ceiling (room - count) (left - count) rest
  | _, left, .boundary _ :: rest => 0 < left ∧ Fits ceiling ceiling left rest

section Plan

variable {ceiling : Nat}

theorem run_eq_write (hceiling : 0 < ceiling) {records : Nat} (h : 0 < records) :
    ∃ count later, run ceiling ceiling records = .write count :: later := by
  rw [run, if_neg (by omega), if_pos hceiling]
  exact ⟨_, _, rfl⟩

theorem run_append_fits (hceiling : 0 < ceiling) (tail : List BatchStep) (room records : Nat)
    {left : Nat} (hle : records ≤ left)
    (htail : ∀ room, Fits ceiling room (left - records) tail) :
    Fits ceiling room left (run ceiling room records ++ tail) := by
  fun_induction run ceiling room records generalizing left with
  | case1 room => exact htail room
  | case2 room records hne hroom count =>
      rename_i ih
      have hcount : count = min room records := rfl
      refine ⟨by omega, by omega, by omega, ih (by omega) fun room' => ?_⟩
      have hleft : left - count - (records - count) = left - records := by omega
      rw [hleft]
      exact htail room'
  | case3 room records hne hroom hceiling' ih =>
      obtain ⟨count, later, hrun⟩ := run_eq_write hceiling (Nat.pos_of_ne_zero hne)
      exact ⟨by omega, ⟨count, later ++ tail, by rw [hrun]; rfl⟩, ih hle htail⟩
  | case4 room records hne hroom hceiling' => exact absurd hceiling hceiling'

theorem run_append_acts (hceiling : 0 < ceiling) (itemSize : UInt32) (tail : List BatchStep)
    (room count : Nat) {records : List Bytes} (hle : count ≤ records.length) :
    acts itemSize (run ceiling room count ++ tail) records =
      (records.take count).map .record ++ acts itemSize tail (records.drop count) := by
  fun_induction run ceiling room count generalizing records with
  | case1 room => simp
  | case2 room left hne hroom now =>
      rename_i ih
      have hnow : now + (left - now) = left := by omega
      have hlength : left - now ≤ (records.drop now).length := by
        rw [List.length_drop]
        omega
      rw [List.cons_append, acts, ih hlength, List.drop_drop, hnow, ← List.append_assoc,
        ← List.map_append, ← List.take_add, hnow]
  | case3 room left hne hroom hceiling' ih => exact ih hle
  | case4 room left hne hroom hceiling' => exact absurd hceiling hceiling'

/-- Tags with their offsets in a batch, in order. -/
structure InOrder (written stop : Nat) (tags : List (Nat × Tag)) : Prop where
  pairwise : tags.Pairwise fun first second => first.1 ≤ second.1
  inside : ∀ tag ∈ tags, written ≤ tag.1 ∧ tag.1 < stop

theorem InOrder.tail {written stop offset : Nat} {tag : Tag} {rest : List (Nat × Tag)}
    (h : InOrder written stop ((offset, tag) :: rest)) : InOrder offset stop rest := by
  obtain ⟨hhead, hrest⟩ := List.pairwise_cons.mp h.pairwise
  exact ⟨hrest, fun other hother =>
    ⟨hhead other hother, (h.inside other (List.mem_cons_of_mem _ hother)).2⟩⟩

theorem plan_fits (hceiling : 0 < ceiling) {tags : List (Nat × Tag)} (room : Nat)
    {written stop : Nat} (htags : InOrder written stop tags) :
    Fits ceiling room (stop - written) (plan ceiling room written stop tags) := by
  induction tags generalizing room written with
  | nil =>
      have h := run_append_fits hceiling [] room (stop - written) (Nat.le_refl _)
        fun _ => trivial
      rwa [List.append_nil] at h
  | cons head rest ih =>
      obtain ⟨offset, tag⟩ := head
      obtain ⟨hwritten, hstop⟩ := htags.inside _ List.mem_cons_self
      simp only at hwritten hstop
      refine run_append_fits hceiling _ room _ (by omega) fun _ => ⟨by omega, ?_⟩
      have hleft : stop - written - (offset - written) = stop - offset := by omega
      rw [hleft]
      exact ih ceiling htags.tail

theorem plan_records (hceiling : 0 < ceiling) {tags : List (Nat × Tag)} (room : Nat)
    {written stop : Nat} (htags : InOrder written stop tags) :
    ((plan ceiling room written stop tags).map records).sum = stop - written := by
  induction tags generalizing room written with
  | nil => exact run_records hceiling room _
  | cons head rest ih =>
      obtain ⟨offset, tag⟩ := head
      obtain ⟨hwritten, hstop⟩ := htags.inside _ List.mem_cons_self
      have hrest := ih ceiling htags.tail
      simp only [plan, List.map_append, List.map_cons, List.sum_append, List.sum_cons,
        run_records hceiling, hrest, records]
      omega

/-- The cuts at tags with their offsets in the batch. -/
def cues (itemSize : UInt32) (tags : List (Nat × Tag)) : Cues := fun index =>
  (tags.filter fun tag => tag.1 == index).map fun tag => tag.2.update? itemSize

theorem plan_acts (hceiling : 0 < ceiling) (itemSize : UInt32) {tags : List (Nat × Tag)}
    (room : Nat) {written stop : Nat} {records : List Bytes}
    (hstop : written + records.length = stop) (htags : InOrder written stop tags) :
    acts itemSize (plan ceiling room written stop tags) records =
      script (cues itemSize tags) written records := by
  induction tags generalizing room written records with
  | nil =>
      have h := run_append_acts hceiling itemSize [] room records.length (Nat.le_refl _)
      rw [List.append_nil, List.take_length, acts, List.append_nil] at h
      rw [plan, ← hstop, Nat.add_sub_cancel_left, h]
      exact (script_of_silent fun _ _ _ => rfl).symm
  | cons head rest ih =>
      obtain ⟨offset, tag⟩ := head
      obtain ⟨hwritten, hbefore⟩ := htags.inside _ List.mem_cons_self
      simp only at hwritten hbefore
      have hpast := htags.tail.inside
      have hlength : (records.drop (offset - written)).length = stop - offset := by
        rw [List.length_drop]
        omega
      -- records up to the tag, its cut, and what the plan does from there on
      have hsilent : script (cues itemSize ((offset, tag) :: rest)) written
          (records.take (offset - written)) =
            (records.take (offset - written)).map .record := by
        refine script_of_silent fun index hle hlt => ?_
        rw [List.length_take] at hlt
        have hnone : ∀ other ∈ (offset, tag) :: rest, ¬ (other.1 == index) = true := by
          intro other hother
          rw [beq_iff_eq]
          rcases List.mem_cons.mp hother with rfl | hother
          · simp only
            omega
          · have := (hpast other hother).1
            omega
        rw [cues, List.filter_eq_nil_iff.mpr hnone, List.map_nil]
      have hsplit := script_append (cues itemSize ((offset, tag) :: rest)) written
        (records.take (offset - written)) (records.drop (offset - written))
      rw [List.take_append_drop, hsilent, List.length_take,
        Nat.min_eq_left (by omega), Nat.add_sub_cancel' hwritten] at hsplit
      rw [plan, run_append_acts hceiling itemSize _ room _ (by omega), acts,
        ih ceiling (by omega) htags.tail, hsplit]
      congr 1
      cases hdrop : records.drop (offset - written) with
      | nil =>
          rw [hdrop, List.length_nil] at hlength
          omega
      | cons record later =>
          have hhere : cues itemSize ((offset, tag) :: rest) offset =
              tag.update? itemSize :: cues itemSize rest offset := by
            simp [cues]
          have hlater : script (cues itemSize ((offset, tag) :: rest)) (offset + 1) later =
              script (cues itemSize rest) (offset + 1) later := by
            refine script_congr fun index hle _ => ?_
            have hne : (offset == index) = false := beq_false_of_ne (by omega)
            simp [cues, hne]
          rw [script, script, hhere, hlater]
          rfl

end Plan

/-! ## Tags of a batch -/

def isInside (first last : Nat) (tag : Tag) : Bool := first ≤ tag.offset && tag.offset < last

/-- The tags inside a batch with their offsets in it, sorted; ties stay as they are. -/
def selected (first last : Nat) (tags : List Tag) : List (Nat × Tag) :=
  ((tags.filter (isInside first last)).map fun tag => (tag.offset - first, tag)).mergeSort
    fun x y => x.1 ≤ y.1

section Selected

variable (first last : Nat) (tags : List Tag)

theorem mem_selected {first last : Nat} {tags : List Tag} {entry : Nat × Tag}
    (h : entry ∈ selected first last tags) :
    entry.2 ∈ tags ∧ first ≤ entry.2.offset ∧ entry.2.offset < last ∧
      entry.1 = entry.2.offset - first := by
  rw [selected, List.mem_mergeSort] at h
  obtain ⟨tag, htag, rfl⟩ := List.mem_map.mp h
  obtain ⟨hmem, hinside⟩ := List.mem_filter.mp htag
  simp only [isInside, Bool.and_eq_true, decide_eq_true_eq] at hinside
  exact ⟨hmem, hinside.1, hinside.2, rfl⟩

/-- The order by offsets. -/
def offsetLE (x y : Nat × Tag) : Bool := x.1 ≤ y.1

theorem offsetLE_trans (x y z : Nat × Tag) (h : offsetLE x y = true) (h' : offsetLE y z = true) :
    offsetLE x z = true := by
  simp only [offsetLE, decide_eq_true_eq] at h h' ⊢
  exact Nat.le_trans h h'

theorem offsetLE_total (x y : Nat × Tag) : (offsetLE x y || offsetLE y x) = true := by
  simpa [offsetLE] using Nat.le_total x.1 y.1

theorem selected_inOrder : InOrder 0 (last - first) (selected first last tags) where
  pairwise := by
    have h := List.pairwise_mergeSort offsetLE_trans offsetLE_total
      ((tags.filter (isInside first last)).map fun tag => (tag.offset - first, tag))
    exact h.imp fun hle => by simpa [offsetLE] using hle
  inside := by
    intro entry hentry
    obtain ⟨-, hle, hlt, heq⟩ := mem_selected hentry
    omega

/-- A stable sort keeps entries of one offset in their order. -/
theorem filter_mergeSort (entries : List (Nat × Tag)) (offset : Nat) :
    (entries.mergeSort fun x y => x.1 ≤ y.1).filter (fun entry => entry.1 == offset) =
      entries.filter fun entry => entry.1 == offset := by
  have hties : (entries.filter fun entry => entry.1 == offset).Pairwise
      fun x y => offsetLE x y = true := by
    refine List.pairwise_of_forall_mem_list fun x hx y hy => ?_
    have hx := (List.mem_filter.mp hx).2
    have hy := (List.mem_filter.mp hy).2
    rw [beq_iff_eq] at hx hy
    exact decide_eq_true (Nat.le_of_eq (hx.trans hy.symm))
  have hsublist := List.sublist_mergeSort offsetLE_trans offsetLE_total hties List.filter_sublist
  have hall : (entries.filter fun entry => entry.1 == offset).filter
      (fun entry => entry.1 == offset) = entries.filter fun entry => entry.1 == offset := by
    rw [List.filter_filter]
    simp
  have hsublist' := hsublist.filter fun entry => entry.1 == offset
  rw [hall] at hsublist'
  exact (hsublist'.eq_of_length ((List.mergeSort_perm entries _).filter _).length_eq.symm).symm

/-- Sorted or not, the tags of a batch ask for the same cuts before each of its records. -/
theorem cues_selected (itemSize : UInt32) {index : Nat} (h : index < last - first) :
    cues itemSize (selected first last tags) index = cuesOf itemSize tags (first + index) := by
  rw [cues, selected, filter_mergeSort, cuesOf, List.filter_map, List.filter_filter, List.map_map]
  have hsame : ∀ tag ∈ tags, (((fun entry : Nat × Tag => entry.1 == index) ∘ fun tag =>
      (tag.offset - first, tag)) tag && isInside first last tag) = (tag.offset == first + index) := by
    intro tag _
    rw [Bool.eq_iff_iff]
    simp only [Function.comp_apply, isInside, Bool.and_eq_true, beq_iff_eq, decide_eq_true_eq]
    omega
  rw [List.filter_congr hsame]
  rfl

/-- What the plan of a batch carries out, by the indices of the whole stream. -/
theorem acts_selected {ceiling : Nat} (hceiling : 0 < ceiling) (itemSize : UInt32) (room : Nat)
    (records : List Bytes) :
    acts itemSize (plan ceiling room 0 records.length
        (selected first (first + records.length) tags)) records =
      script (cuesOf itemSize tags) first records := by
  have horder := selected_inOrder first (first + records.length) tags
  rw [Nat.add_sub_cancel_left] at horder
  rw [plan_acts hceiling itemSize room (Nat.zero_add _) horder]
  have hshift := script_shift (cuesOf itemSize tags) first 0 records
  rw [Nat.add_zero] at hshift
  rw [← hshift]
  refine script_congr fun index _ hlt => ?_
  exact cues_selected first (first + records.length) tags itemSize (by omega)

end Selected

end BatchStep

end SegmentStream
