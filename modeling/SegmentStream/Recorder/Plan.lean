import SegmentStream.Attribute.Basic

/-!
# Plans of a batch

Where a batch is cut depends only on the segment limit, the room left in the
running segment and the offsets of the tags, so the cuts are planned before
anything is written.  A segment is rolled only once a record needs the room:
no plan ends in a roll.
-/

namespace SegmentStream

/-- An attribute that takes effect at a record of the stream. -/
structure Tag where
  offset : Nat
  key : String
  value : Attribute
  deriving DecidableEq, Repr

inductive BatchStep where
  /-- Close the running segment, if there is one, and open the next. -/
  | roll
  | write (records : Nat)
  | boundary (tag : Tag)
  deriving DecidableEq, Repr

namespace BatchStep

def records : BatchStep → Nat
  | write records => records
  | _ => 0

/--
The steps for records without a boundary between them: first those that fit into
the room, then segments of at most `ceiling` records, each behind a roll.
-/
def run (ceiling room records : Nat) : List BatchStep :=
  if records = 0 then []
  else if 0 < room then
    let count := min room records
    .write count :: run ceiling (room - count) (records - count)
  else if 0 < ceiling then .roll :: run ceiling ceiling records
  else []
termination_by 2 * records + (if room = 0 then 1 else 0)
decreasing_by
  · split <;> split <;> omega
  · split <;> split <;> omega

/--
The steps from record `written` up to `stop`, cut at the tags.  Behind a tag the
segment has room for `ceiling` records.
-/
def plan (ceiling room written stop : Nat) : List (Nat × Tag) → List BatchStep
  | [] => run ceiling room (stop - written)
  | (offset, tag) :: rest =>
      run ceiling room (offset - written) ++
        .boundary tag :: plan ceiling ceiling offset stop rest

/-! ## A plan takes every record and every tag once -/

theorem run_records {ceiling : Nat} (h : 0 < ceiling) (room records : Nat) :
    ((run ceiling room records).map BatchStep.records).sum = records := by
  fun_induction run ceiling room records with
  | case1 => rfl
  | case2 room records hne hroom count ih =>
      simp only [List.map_cons, List.sum_cons, ih, BatchStep.records]
      omega
  | case3 room records hne hroom hceiling ih => simpa [BatchStep.records] using ih
  | case4 room records hne hroom hceiling => omega

end BatchStep

end SegmentStream
