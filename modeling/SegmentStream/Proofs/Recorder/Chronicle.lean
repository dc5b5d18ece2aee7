import SegmentStream.Proofs.Recorder.Reading
import SegmentStream.Proofs.Recorder.Start

/-!
# Chronicles

What calls make of a recorder whose storage does not fail: which target takes the
next batch, what is on it, what is on those before it, and what is staged.  A
chronicle names targets by the places they write to.
-/

namespace SegmentStream

open SegmentStream.Action

/-! ## Calls -/

inductive Call where
  | work (items : Bytes) (tags : List Tag)
  | update (key : String) (value : Attribute)
  | setUnbuffered (unbuffered : Bool)
  | rotate (destination : Destination)
  | close
  | shutdown

/-- Channels for headers are given just where headers stand apart. -/
def Destination.fits (split : Bool) : Destination → Bool
  | channels _ header => header.isSome == split
  | _ => true

theorem Target.openAt_refused {destination : Destination} {split : Bool} {host : Host}
    (hfits : destination.fits split = false) :
    Ends (Target.openAt destination split) host (fun _ _ => False)
      (fun _ later => later = host) := by
  cases destination with
  | file path => cases hfits
  | memory data header => cases hfits
  | channels data header =>
      cases header with
      | none =>
          obtain rfl : split = true := by simpa [Destination.fits] using hfits
          rfl
      | some header =>
          obtain rfl : split = false := by simpa [Destination.fits] using hfits
          rfl

/-- The destinations that calls open, in order. -/
def destinationsOf (split : Bool) (calls : List Call) : List Destination :=
  calls.filterMap fun
    | .rotate destination => if destination.fits split then some destination else none
    | _ => none

theorem destinationsOf_append (split : Bool) (first later : List Call) :
    destinationsOf split (first ++ later) =
      destinationsOf split first ++ destinationsOf split later :=
  List.filterMap_append

theorem destinationsOf_cons (split : Bool) (call : Call) (rest : List Call) :
    destinationsOf split (call :: rest) = destinationsOf split [call] ++ destinationsOf split rest :=
  destinationsOf_append split [call] rest

theorem destinationsOf_rotate (split : Bool) (destination : Destination) :
    destinationsOf split [.rotate destination] =
      if destination.fits split then [destination] else [] := by
  by_cases hfits : destination.fits split = true <;> simp [destinationsOf, hfits]

/-- What a call has a recorder set to, if it does. -/
def Call.unbuffered? : Call → Option Bool
  | .setUnbuffered unbuffered => some unbuffered
  | _ => none

/-- Whether a recorder is unbuffered behind calls, by the last of them that sets it. -/
def unbufferedBehind (unbuffered : Bool) (calls : List Call) : Bool :=
  (calls.filterMap Call.unbuffered?).getLastD unbuffered

theorem unbufferedBehind_cons (unbuffered : Bool) (call : Call) (rest : List Call) :
    unbufferedBehind unbuffered (call :: rest) =
      unbufferedBehind (call.unbuffered?.getD unbuffered) rest := by
  unfold unbufferedBehind
  cases hset : call.unbuffered? with
  | none => rw [List.filterMap_cons_none hset, Option.getD_none]
  | some later => rw [List.filterMap_cons_some hset, List.getLastD_cons, Option.getD_some]

namespace Session

def answer : Call → Action StreamError Session Unit
  | .work items tags => discard (work items tags)
  | .update key value => updateAttribute key value
  | .setUnbuffered unbuffered => setUnbuffered unbuffered
  | .rotate destination => requestRotation destination
  | .close => requestClose
  | .shutdown => shutdown

/-- The session behind calls, whether they are accepted or not. -/
def after (session : Session) (calls : List Call) : Session :=
  calls.foldl (fun session call => (answer call).stateAfter session) session

end Session

/-! ## Records -/

/-- Bytes cut into records; bytes behind the last whole record are left out. -/
def wholeRecords (size : Nat) (items : Bytes) : List Bytes :=
  if size = 0 ∨ items.length < size then []
  else items.take size :: wholeRecords size (items.drop size)
termination_by items.length
decreasing_by
  rw [List.length_drop]
  omega

section Records

variable {size : Nat}

theorem wholeRecords_flatten (hsize : 0 < size) {items : Bytes}
    (hwhole : items.length % size = 0) : (wholeRecords size items).flatten = items := by
  fun_induction wholeRecords size items with
  | case1 items hnone =>
      have hless : items.length < size := hnone.resolve_left (Nat.ne_of_gt hsize)
      rw [Nat.mod_eq_of_lt hless] at hwhole
      rw [List.length_eq_zero_iff.mp hwhole]
      rfl
  | case2 items hsome ih =>
      have hle : size ≤ items.length := Nat.le_of_not_lt fun hless => hsome (.inr hless)
      have hrest : (items.drop size).length % size = 0 := by
        rw [List.length_drop, ← Nat.mod_eq_sub_mod hle, hwhole]
      rw [List.flatten_cons, ih hrest, List.take_append_drop]

theorem length_of_mem_wholeRecords (size : Nat) (items : Bytes) :
    ∀ record ∈ wholeRecords size items, record.length = size := by
  fun_induction wholeRecords size items with
  | case1 => exact List.forall_mem_nil _
  | case2 items hsome ih =>
      exact List.forall_mem_cons.mpr ⟨List.length_take_of_le (by omega), ih⟩

theorem wholeRecords_length (hsize : 0 < size) {items : Bytes} (hwhole : items.length % size = 0) :
    (wholeRecords size items).length = items.length / size := by
  have hflat := flatten_length (length_of_mem_wholeRecords size items)
  rw [wholeRecords_flatten hsize hwhole] at hflat
  rw [hflat, Nat.mul_div_cancel _ hsize]

end Records

/-! ## Transcripts across targets -/

namespace Transcript

/-- What is left of a transcript once its target is let go of: the headers and the counts. -/
def detached (transcript : Transcript) : Transcript :=
  { headers := transcript.close.headers, counters := transcript.close.counters }

/-- The first header on a target that was staged. -/
def installed (transcript : Transcript) : Transcript :=
  { transcript.openNext with counters := transcript.openNext.counters.addRotation }

/-- Records are counted that go to no target. -/
def dropped (transcript : Transcript) (records : Nat) : Transcript :=
  { transcript with counters := transcript.counters.addDropped records }

section Proper

variable {size : UInt32} {ceiling : Nat} {transcript : Transcript}

theorem IsProper.headers_close (h : transcript.IsProper size ceiling) :
    transcript.close.headers.IsProper size := by
  rw [Transcript.close]
  split
  · exact h.headers
  · exact h.headers.advance _

theorem IsProper.detached (h : transcript.IsProper size ceiling) :
    transcript.detached.IsProper size ceiling := by
  refine ⟨?_, h.headers_close, List.forall_mem_nil _, fun _ h => by cases h⟩
  rw [Transcript.detached, Transcript.close]
  split
  · exact h.fresh
  · rw [HeaderState.fresh_advance, h.fresh]

theorem IsProper.installed (h : transcript.IsProper size ceiling) :
    transcript.installed.IsProper size ceiling := by
  obtain ⟨hfresh, hheaders, hclosed, hrunning⟩ := h.openNext
  exact ⟨hfresh, hheaders, hclosed, hrunning⟩

end Proper

end Transcript

/-! ## Chronicles -/

/-- A target that the recorder has let go of, with all that it holds. -/
structure Chapter where
  places : List Location
  segments : List Segment

structure Chronicle where
  past : List Chapter := []
  /-- The active target, unless the recorder is detached. -/
  current : Option (List Location)
  /-- What is on the active target; without one, the headers and counts for the next. -/
  tape : Transcript
  /-- Targets that are staged, or the end of the active one, oldest first. -/
  staged : List (Option (List Location)) := []
  /-- Targets that were staged and let go of unused. -/
  unused : List (List Location) := []
  itemsRead : Nat := 0
  closed : Bool := false

namespace Chronicle

section Steps

variable (config : Config) (chronicle : Chronicle)

def retire : Chronicle :=
  match chronicle.current with
  | none => chronicle
  | some places =>
      { chronicle with
        past := chronicle.past ++ [⟨places, chronicle.tape.close.closed⟩]
        current := none
        tape := chronicle.tape.detached }

def install : Option (List Location) → Chronicle
  | none => chronicle
  | some places => { chronicle with current := some places, tape := chronicle.tape.installed }

/-- The last staged command is carried out; targets staged before it are let go of. -/
def turn : Chronicle :=
  match chronicle.staged.getLast? with
  | none => chronicle
  | some command =>
      let unused := chronicle.unused ++ chronicle.staged.dropLast.reduceOption
      { chronicle with staged := [], unused }.retire.install command

/-- Records go to the active target, or are dropped. -/
def take (records : List Bytes) (tags : List Tag) : Chronicle :=
  { chronicle with
    tape := match chronicle.current with
      | none => chronicle.tape.dropped records.length
      | some _ => chronicle.tape.play config.ceiling
          (script (cuesOf config.recordSize tags) chronicle.itemsRead records)
    itemsRead := chronicle.itemsRead + records.length }

def amend (update : HeaderUpdate) : Chronicle :=
  { chronicle with
    tape := match chronicle.current with
      | none => (chronicle.tape.countTag (some update)).apply (some update)
      | some _ => chronicle.tape.step config.ceiling (.cut (some update)) }

def stage (command : Option (List Location)) : Chronicle :=
  { chronicle with staged := chronicle.staged ++ [command] }

def finish : Chronicle :=
  { chronicle.retire with
    closed := true
    staged := []
    unused := chronicle.unused ++ chronicle.staged.reduceOption }

def step : Call → Chronicle
  | .work items tags =>
      if chronicle.closed = true ∨ items.length % config.itemSize.toNat ≠ 0 then chronicle
      else chronicle.turn.take config (wholeRecords config.itemSize.toNat items) tags
  | .update key value =>
      match HeaderUpdate.prepare config.recordSize key value with
      | .error _ => chronicle
      | .ok update => chronicle.amend config update
  | .setUnbuffered _ => chronicle
  | .rotate destination =>
      if destination.fits config.splitHeader then
        chronicle.stage (some (destination.places config.splitHeader))
      else chronicle
  | .close => chronicle.stage none
  | .shutdown => if chronicle.closed then chronicle else chronicle.finish

def run (calls : List Call) : Chronicle := calls.foldl (step config) chronicle

end Steps

section Retire

variable (chronicle : Chronicle)

@[simp] theorem current_retire : chronicle.retire.current = none := by
  rw [retire]
  split
  · assumption
  · rfl

@[simp] theorem staged_retire : chronicle.retire.staged = chronicle.staged := by
  rw [retire]
  split <;> rfl

@[simp] theorem unused_retire : chronicle.retire.unused = chronicle.unused := by
  rw [retire]
  split <;> rfl

@[simp] theorem closed_retire : chronicle.retire.closed = chronicle.closed := by
  rw [retire]
  split <;> rfl

theorem retire_closed (closed : Bool) :
    { chronicle with closed }.retire = { chronicle.retire with closed } := by
  simp only [retire]
  split <;> rfl

theorem retire_cleared (unused : List (List Location)) :
    { chronicle with staged := [], unused }.retire =
      { chronicle.retire with staged := [], unused } := by
  simp only [retire]
  split <;> rfl

end Retire

/-- How a staged command is carried out when it is the last. -/
theorem turn_of_concat {chronicle : Chronicle} {front : List (Option (List Location))}
    {command : Option (List Location)} (h : chronicle.staged = front ++ [command]) :
    chronicle.turn = { chronicle.retire with
      staged := [], unused := chronicle.unused ++ front.reduceOption }.install command := by
  rw [turn, h, List.getLast?_concat, List.dropLast_concat]
  exact congrArg (install · command) (retire_cleared chronicle _)

section Cases

variable {config : Config} {chronicle : Chronicle} {places : List Location}

theorem take_of_none (h : chronicle.current = none) (records : List Bytes) (tags : List Tag) :
    chronicle.take config records tags =
      { chronicle with
        tape := chronicle.tape.dropped records.length
        itemsRead := chronicle.itemsRead + records.length } := by
  simp only [take, h]

theorem take_of_some (h : chronicle.current = some places) (records : List Bytes)
    (tags : List Tag) :
    chronicle.take config records tags =
      { chronicle with
        tape := chronicle.tape.play config.ceiling
          (script (cuesOf config.recordSize tags) chronicle.itemsRead records)
        itemsRead := chronicle.itemsRead + records.length } := by
  simp only [take, h]

theorem amend_of_none (h : chronicle.current = none) (update : HeaderUpdate) :
    chronicle.amend config update =
      { chronicle with tape := (chronicle.tape.countTag (some update)).apply (some update) } := by
  simp only [amend, h]

theorem amend_of_some (h : chronicle.current = some places) (update : HeaderUpdate) :
    chronicle.amend config update =
      { chronicle with tape := chronicle.tape.step config.ceiling (.cut (some update)) } := by
  simp only [amend, h]

theorem run_append (chronicle : Chronicle) (first later : List Call) :
    chronicle.run config (first ++ later) = (chronicle.run config first).run config later :=
  List.foldl_append

end Cases

/-! ## Chapters remain -/

/-- What is past stays past, and a target that is active no longer is past. -/
structure Continues (earlier later : Chronicle) : Prop where
  past : earlier.past <+: later.past
  current : ∀ places, earlier.current = some places →
    later.current = some places ∨ ∃ segments, ⟨places, segments⟩ ∈ later.past

section Continues

variable {first second third : Chronicle} (config : Config) (chronicle : Chronicle)

theorem Continues.of_eq (hpast : second.past = first.past)
    (hcurrent : second.current = first.current) : first.Continues second :=
  ⟨hpast ▸ List.prefix_rfl, fun _ h => .inl (hcurrent.trans h)⟩

theorem Continues.trans (h : first.Continues second) (h' : second.Continues third) :
    first.Continues third := by
  refine ⟨h.past.trans h'.past, fun places hcurrent => ?_⟩
  rcases h.current places hcurrent with hstays | ⟨segments, hpast⟩
  · exact h'.current places hstays
  · exact .inr ⟨segments, h'.past.subset hpast⟩

theorem continues_retire : chronicle.Continues chronicle.retire := by
  rw [retire]
  split
  · exact .of_eq rfl rfl
  · next places hcurrent =>
      refine ⟨List.prefix_append _ _, fun active hactive => ?_⟩
      obtain rfl : places = active := Option.some.inj (hcurrent.symm.trans hactive)
      exact .inr ⟨_, List.mem_append_right _ List.mem_cons_self⟩

theorem continues_install {chronicle : Chronicle} (hnone : chronicle.current = none)
    (command : Option (List Location)) : chronicle.Continues (chronicle.install command) := by
  cases command with
  | none => exact .of_eq rfl rfl
  | some places =>
      refine ⟨List.prefix_rfl, fun active hactive => ?_⟩
      cases hnone.symm.trans hactive

theorem continues_turn : chronicle.Continues chronicle.turn := by
  rw [turn]
  split
  · exact .of_eq rfl rfl
  · next command _ =>
      let emptied : Chronicle := { chronicle with
        staged := [], unused := chronicle.unused ++ chronicle.staged.dropLast.reduceOption }
      have hemptied : chronicle.Continues emptied := .of_eq rfl rfl
      have hinstall := continues_install (current_retire emptied) command
      exact hemptied.trans ((continues_retire emptied).trans hinstall)

theorem continues_step (call : Call) : chronicle.Continues (chronicle.step config call) := by
  cases call with
  | work items tags =>
      rw [step]
      split
      · exact .of_eq rfl rfl
      · exact (continues_turn chronicle).trans (.of_eq rfl rfl)
  | update key value =>
      rw [step]
      split <;> exact .of_eq rfl rfl
  | setUnbuffered unbuffered => exact .of_eq rfl rfl
  | rotate destination =>
      rw [step]
      split <;> exact .of_eq rfl rfl
  | close => exact .of_eq rfl rfl
  | shutdown =>
      rw [step]
      split
      · exact .of_eq rfl rfl
      · exact (continues_retire chronicle).trans (.of_eq rfl rfl)

theorem continues_run (calls : List Call) : chronicle.Continues (chronicle.run config calls) := by
  induction calls generalizing chronicle with
  | nil => exact .of_eq rfl rfl
  | cons call rest ih => exact (continues_step config chronicle call).trans (ih _)

/-- Nothing is written behind the end. -/
theorem past_run_of_closed {chronicle : Chronicle} (h : chronicle.closed = true)
    (calls : List Call) : (chronicle.run config calls).past = chronicle.past := by
  induction calls generalizing chronicle with
  | nil => rfl
  | cons call rest ih =>
      have hstep : (chronicle.step config call).past = chronicle.past ∧
          (chronicle.step config call).closed = true := by
        cases call with
        | work items tags => rw [step, if_pos (.inl h)]; exact ⟨rfl, h⟩
        | update key value =>
            rw [step]
            split <;> exact ⟨rfl, h⟩
        | rotate destination =>
            rw [step]
            split <;> exact ⟨rfl, h⟩
        | shutdown => rw [step, if_pos h]; exact ⟨rfl, h⟩
        | _ => exact ⟨rfl, h⟩
      exact (ih hstep.2).trans hstep.1

end Continues

/-- The chronicle of a recorder that has written its first header. -/
def start (config : Config) (destination : Destination) (headers : HeaderState) : Chronicle :=
  { current := some (destination.places config.splitHeader), tape := .opening headers }

end Chronicle

end SegmentStream
