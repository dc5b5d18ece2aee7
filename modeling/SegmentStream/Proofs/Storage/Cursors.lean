import SegmentStream.Proofs.Outcome
import SegmentStream.Storage.Channel

/-!
# Cursors on one buffer

Channels to one buffer share its bytes and stand at offsets of their own.
Whatever they did before, a write lays its bytes down where its channel stands
and moves that channel only, a cut moves none, and a seek goes to where it is
asked to, unless that is before the start.
-/

namespace SegmentStream

open SegmentStream.Action

/-! ## Bytes laid down -/

namespace Bytes

/-- What stands where after `data` is laid down at `offset`. -/
structure LaidDown (before : Bytes) (offset : Nat) (data after : Bytes) : Prop where
  written : ∀ i, offset ≤ i → i < offset + data.length → after[i]? = data[i - offset]?
  kept : ∀ i, i < before.length → (i < offset ∨ offset + data.length ≤ i) → after[i]? = before[i]?
  gap : ∀ i, before.length ≤ i → i < offset → after[i]? = some 0
  length : after.length = max before.length (offset + data.length)

theorem getElem?_resize (contents : Bytes) {length i : Nat} (h : i < length) :
    (contents.resize length)[i]? = some (contents[i]?.getD 0) := by
  by_cases hinside : i < contents.length
  · have hmin : i < min length contents.length := by omega
    simp [resize, List.getElem?_append, List.length_take, hmin, hinside]
  · have hmin : ¬ i < min length contents.length := by omega
    have hgap : i - min length contents.length < length - contents.length := by omega
    simp [resize, List.getElem?_append, List.length_take, hmin, hinside, hgap]

theorem overwrite_laidDown (contents : Bytes) (offset : Nat) (data : Bytes) :
    contents.LaidDown offset data (contents.overwrite offset data) := by
  have hfront : ∀ i, i < offset →
      (contents.overwrite offset data)[i]? = some (contents[i]?.getD 0) := by
    intro i hi
    rw [overwrite, List.append_assoc, List.getElem?_append_left (by simpa using hi),
      getElem?_resize contents hi]
  constructor
  case written =>
    intro i hlow hhigh
    have hfront' : (contents.resize offset).length ≤ i := by simpa using hlow
    rw [overwrite, List.append_assoc, List.getElem?_append_right hfront', length_resize,
      List.getElem?_append_left (by omega)]
  case kept =>
    rintro i hi (hbefore | hbehind)
    · rw [hfront i hbefore, List.getElem?_eq_getElem hi, Option.getD_some]
    · have hback : (contents.resize offset ++ data).length ≤ i := by simpa using hbehind
      have hstands : offset + data.length + (i - (offset + data.length)) = i := by omega
      rw [overwrite, List.getElem?_append_right hback, List.getElem?_drop, List.length_append,
        length_resize, hstands]
  case gap =>
    intro i hbehind hi
    rw [hfront i hi, List.getElem?_eq_none hbehind, Option.getD_none]
  case length => exact length_overwrite ..

theorem LaidDown.unique {before data after after' : Bytes} {offset : Nat}
    (h : before.LaidDown offset data after) (h' : before.LaidDown offset data after') :
    after = after' := by
  have hlength := h.length
  have hlength' := h'.length
  apply List.ext_getElem?
  intro i
  by_cases hdata : offset ≤ i ∧ i < offset + data.length
  · rw [h.written i hdata.1 hdata.2, h'.written i hdata.1 hdata.2]
  have hbeside : i < offset ∨ offset + data.length ≤ i := by omega
  by_cases hold : i < before.length
  · rw [h.kept i hold hbeside, h'.kept i hold hbeside]
  rcases hbeside with hgap | hbehind
  · rw [h.gap i (by omega) hgap, h'.gap i (by omega) hgap]
  · rw [List.getElem?_eq_none (by omega), List.getElem?_eq_none (by omega)]

/-- Overwriting does what laying bytes down says, and nothing else does. -/
theorem laidDown_iff {before data after : Bytes} {offset : Nat} :
    before.LaidDown offset data after ↔ after = before.overwrite offset data := by
  constructor
  · exact fun h => h.unique (overwrite_laidDown ..)
  · rintro rfl
    exact overwrite_laidDown ..

end Bytes

/-! ## One cursor -/

/-- The channel holds nothing back from the buffer and never fails. -/
structure Channel.IsCursor (name : String) (channel : Channel) : Prop where
  location : channel.location = .buffer name
  faults : channel.faults = {}
  pending : channel.pending = []

theorem Channel.IsCursor.moved {name : String} {channel : Channel} (h : channel.IsCursor name)
    (position : Nat) (calls : Calls) : { channel with position, calls }.IsCursor name :=
  ⟨h.location, h.faults, h.pending⟩

namespace SeekGoal

/-- Where a seek is asked to go from an offset in contents of this length. -/
def requested (goal : SeekGoal) (length offset : Nat) : Int :=
  match goal with
  | .start goal => goal
  | .ending shift => length + shift
  | .current shift => offset + shift

/-- Where a seek in a buffer goes, or would go before the start. -/
def target (goal : SeekGoal) (length offset : Nat) : Int :=
  match goal with
  | .start goal => goal
  | .ending shift => length + shift
  | .current shift => if offset + shift < 0 then offset + shift else (offset + shift) % 2 ^ 64

variable {goal : SeekGoal} {length offset : Nat}

theorem target_neg_iff : goal.target length offset < 0 ↔ goal.requested length offset < 0 := by
  cases goal with
  | start | ending => rfl
  | current shift =>
      rw [target, requested]
      split <;> omega

theorem target_eq_requested (hlow : 0 ≤ goal.requested length offset)
    (hword : goal.requested length offset < 2 ^ 64) :
    goal.target length offset = goal.requested length offset := by
  cases goal with
  | start | ending => rfl
  | current shift =>
      rw [requested] at hlow hword
      rw [target, requested]
      split <;> omega

end SeekGoal

namespace Port

section Cursor

variable {name : String} {port : Port}

theorem settle_cursor (h : port.channel.IsCursor name) : port.settle = port := by
  rw [settle, if_pos h.pending]

theorem accept_cursor (h : port.channel.IsCursor name) (bytes : Bytes) :
    port.accept bytes = port.layDown bytes := by
  have hcapacity : port.channel.capacity = 0 := by
    rw [Channel.capacity, h.location]
  simp [accept, settle_cursor h, hcapacity]

theorem offset_cursor (h : port.channel.IsCursor name) :
    port.channel.offset = port.channel.position := by
  rw [Channel.offset, h.pending, List.length_nil, Nat.add_zero]

theorem write_cursor (h : port.channel.IsCursor name) (bytes : Bytes) :
    Ends (write bytes) port
      (fun count next => count = bytes.length ∧ next.channel.IsCursor name ∧
        next.contents = port.contents.overwrite port.channel.offset bytes ∧
        next.channel.offset = port.channel.offset + bytes.length)
      (fun _ _ => False) := by
  let counted := port.countCalls fun calls => { calls with writes := calls.writes + 1 }
  have hcounted : counted.channel.IsCursor name := h.moved ..
  have hplan : port.channel.faults.ofWrite? port.channel.calls.writes = none := by
    rw [Faults.ofWrite?, h.faults]
    rfl
  have hfull : port.channel.isFull = false := by
    rw [Channel.isFull, h.faults]
  have hall : port.channel.admitted bytes.length = bytes.length := by
    rw [Channel.admitted, hplan, h.faults]
    simp
  have hlaid : counted.accept bytes = counted.layDown bytes := accept_cursor hcounted bytes
  have hnext : (counted.layDown bytes).channel.IsCursor name := h.moved ..
  simp only [Ends, write, hplan, hfull, hall, Bool.false_eq_true, if_false, List.take_length]
  refine ⟨trivial, ?_⟩
  rw [hlaid, offset_cursor hnext, offset_cursor h]
  refine ⟨hnext, ?_, rfl⟩
  simp [layDown, contents, counted, countCalls]

theorem seek_eq (h : port.channel.IsCursor name) (goal : SeekGoal) :
    let target := goal.target port.contents.length port.channel.offset
    let counted := port.countCalls fun calls => { calls with seeks := calls.seeks + 1 }
    seek goal port =
      if target < 0 then .error .seekBeforeStart counted
      else .ok target.toNat
        { counted with channel := { counted.channel with position := target.toNat } } := by
  obtain ⟨⟨location, position, pending, faults, calls⟩, store⟩ := port
  obtain ⟨rfl, rfl, rfl⟩ := h
  intro target counted
  -- the three goals differ in nothing but the target
  by_cases hneg : target < 0
  · have hlands : (Location.buffer name).offsetOf target = .error .seekBeforeStart := if_pos hneg
    rw [if_pos hneg]
    cases goal <;> simp only [seek] <;> erw [hlands] <;> rfl
  · have hlands : (Location.buffer name).offsetOf target = .ok target.toNat := if_neg hneg
    rw [if_neg hneg]
    cases goal <;> simp only [seek] <;> erw [hlands] <;> rfl

/-- A seek is refused exactly if it is asked to go before the start. -/
theorem seek_cursor (h : port.channel.IsCursor name) (goal : SeekGoal) :
    let requested := goal.requested port.contents.length port.channel.offset
    Ends (seek goal) port
      (fun reached next => 0 ≤ requested ∧ (requested < 2 ^ 64 → reached = requested.toNat) ∧
        next.channel.IsCursor name ∧ next.contents = port.contents ∧
        next.channel.offset = reached)
      (fun cause next => requested < 0 ∧ cause = .seekBeforeStart ∧
        next.channel.IsCursor name ∧ next.contents = port.contents ∧
        next.channel.offset = port.channel.offset) := by
  intro requested
  rw [Ends, seek_eq h]
  by_cases hneg : requested < 0
  · rw [if_pos (SeekGoal.target_neg_iff.mpr hneg)]
    exact ⟨hneg, rfl, h.moved .., rfl, rfl⟩
  · have hlow : 0 ≤ requested := Int.not_lt.mp hneg
    rw [if_neg (mt SeekGoal.target_neg_iff.mp hneg)]
    refine ⟨hlow, fun hword => ?_, h.moved .., rfl, ?_⟩
    · rw [SeekGoal.target_eq_requested hlow hword]
    · exact offset_cursor (h.moved ..)

theorem truncate_cursor (h : port.channel.IsCursor name) (length : Nat) :
    Ends ((fun _ => 0) <$> truncate length) port
      (fun answer next => answer = 0 ∧ next.channel.IsCursor name ∧
        next.contents = port.contents.take length ∧ next.channel.offset = port.channel.offset)
      (fun _ _ => False) := by
  obtain ⟨⟨location, position, pending, faults, calls⟩, store⟩ := port
  obtain ⟨rfl, rfl, rfl⟩ := h
  exact ⟨rfl, ⟨rfl, rfl, rfl⟩, Store.read_put_self .., rfl⟩

end Cursor

end Port

/-! ## Cursors and their calls -/

structure Cursors where
  channels : List Channel
  store : Store
  deriving DecidableEq, Repr

inductive CursorCall where
  /-- A new cursor that stands where this one does. -/
  | clone
  | write (bytes : Bytes)
  | seek (goal : SeekGoal)
  | truncate (length : Nat)
  deriving DecidableEq, Repr

namespace Cursors

variable {name : String} {cursors : Cursors} {cursor offset : Nat} {channel : Channel}

/-- One cursor at the start of an empty buffer. -/
def fresh (name : String) : Cursors := ⟨[{ location := .buffer name }], {}⟩

def contents (cursors : Cursors) (name : String) : Bytes := cursors.store.read (.buffer name)

def positions (cursors : Cursors) : List Nat := cursors.channels.map Channel.offset

/-- The cursors after one of them acted on the store and moved. -/
def putBack (cursors : Cursors) (cursor : Nat) (port : Port) : Cursors :=
  ⟨cursors.channels.set cursor port.channel, port.store⟩

def through (cursors : Cursors) (cursor : Nat) (channel : Channel)
    (action : Action IoFault Port Nat) : Except IoFault Nat × Cursors :=
  let (answer, port) := action.run ⟨channel, cursors.store⟩
  (answer, cursors.putBack cursor port)

def perform (cursors : Cursors) (cursor : Nat) (channel : Channel) :
    CursorCall → Except IoFault Nat × Cursors
  | .clone =>
      (.ok cursors.channels.length, { cursors with channels := cursors.channels ++ [channel] })
  | .write bytes => cursors.through cursor channel (Port.write bytes)
  | .seek goal => cursors.through cursor channel (Port.seek goal)
  | .truncate length => cursors.through cursor channel ((fun _ => 0) <$> Port.truncate length)

/-- What a call answers and what comes of the cursors; only a cursor that is there can be called. -/
def call? (cursors : Cursors) (cursor : Nat) (call : CursorCall) :
    Option (Except IoFault Nat × Cursors) :=
  cursors.channels[cursor]?.map fun channel => cursors.perform cursor channel call

/-- What comes of the cursors by calls one after the other. -/
def run? (cursors : Cursors) : List (Nat × CursorCall) → Option Cursors
  | [] => some cursors
  | (cursor, call) :: calls => do
      let (_, next) ← cursors.call? cursor call
      next.run? calls

/-! ## One call -/

def IsShared (name : String) (cursors : Cursors) : Prop :=
  ∀ channel ∈ cursors.channels, channel.IsCursor name

theorem fresh_isShared (name : String) : (fresh name).IsShared name :=
  List.forall_mem_singleton.mpr ⟨rfl, rfl, rfl⟩

/-- What a call of a cursor at this offset answers and changes. -/
def Effect (name : String) (before : Cursors) (cursor offset : Nat) (answer : Except IoFault Nat)
    (after : Cursors) : CursorCall → Prop
  | .clone =>
      answer = .ok before.positions.length ∧ after.contents name = before.contents name ∧
        after.positions = before.positions ++ [offset]
  | .write bytes =>
      answer = .ok bytes.length ∧
        (before.contents name).LaidDown offset bytes (after.contents name) ∧
        after.positions = before.positions.set cursor (offset + bytes.length)
  | .seek goal =>
      let requested := goal.requested (before.contents name).length offset
      after.contents name = before.contents name ∧
        (requested < 0 → answer = .error .seekBeforeStart ∧ after.positions = before.positions) ∧
        (0 ≤ requested → requested < 2 ^ 64 → answer = .ok requested.toNat ∧
          after.positions = before.positions.set cursor requested.toNat)
  | .truncate length =>
      answer = .ok 0 ∧ after.contents name = (before.contents name).take length ∧
        after.positions = before.positions

theorem putBack_isShared (hshared : cursors.IsShared name) {port : Port}
    (h : port.channel.IsCursor name) : (cursors.putBack cursor port).IsShared name := by
  intro channel hchannel
  rcases List.mem_or_eq_of_mem_set hchannel with hold | rfl
  · exact hshared channel hold
  · exact h

theorem putBack_contents {port : Port} (h : port.channel.IsCursor name) :
    (cursors.putBack cursor port).contents name = port.contents := by
  rw [contents, putBack, Port.contents, h.location]

theorem putBack_positions (port : Port) :
    (cursors.putBack cursor port).positions =
      cursors.positions.set cursor port.channel.offset :=
  List.map_set

theorem putBack_positions_of_eq (h : cursors.positions[cursor]? = some offset) {port : Port}
    (hoffset : port.channel.offset = offset) :
    (cursors.putBack cursor port).positions = cursors.positions := by
  obtain ⟨hlt, hstands⟩ := List.getElem?_eq_some_iff.mp h
  rw [putBack_positions, hoffset, ← hstands, List.set_getElem_self]

theorem through_cases (cursor : Nat) {action : Action IoFault Port Nat}
    {good : Nat → Port → Prop} {bad : IoFault → Port → Prop}
    (h : Ends action ⟨channel, cursors.store⟩ good bad) :
    (∃ value next, good value next ∧
      cursors.through cursor channel action = (.ok value, cursors.putBack cursor next)) ∨
    ∃ cause next, bad cause next ∧
      cursors.through cursor channel action = (.error cause, cursors.putBack cursor next) := by
  unfold Ends at h
  split at h <;> rename_i heq
  · exact .inl ⟨_, _, h, by rw [through, Action.run, heq]⟩
  · exact .inr ⟨_, _, h, by rw [through, Action.run, heq]⟩

/-- Every call of a cursor has its effect, and what the cursors share stays shared. -/
theorem perform_effect (hshared : cursors.IsShared name)
    (hchannel : cursors.channels[cursor]? = some channel) (call : CursorCall) :
    let (answer, after) := cursors.perform cursor channel call
    after.IsShared name ∧ Effect name cursors cursor channel.offset answer after call := by
  let port : Port := ⟨channel, cursors.store⟩
  have hcursor : port.channel.IsCursor name := hshared channel (List.mem_of_getElem? hchannel)
  have hstands : cursors.positions[cursor]? = some channel.offset := by
    simp [positions, hchannel]
  have hcontents : port.contents = cursors.contents name := by
    rw [Port.contents, hcursor.location, contents]
  cases call with
  | clone =>
      refine ⟨?_, ?_, rfl, ?_⟩
      · exact List.forall_mem_append.mpr ⟨hshared, List.forall_mem_singleton.mpr hcursor⟩
      · simp [positions]
      · simp [positions]
  | write bytes =>
      rw [perform]
      obtain ⟨_, next, ⟨rfl, hnext, hlaid, hmoved⟩, heq⟩ | ⟨_, _, hfalse, _⟩ :=
        through_cases cursor (Port.write_cursor hcursor bytes)
      · rw [heq]
        refine ⟨putBack_isShared hshared hnext, rfl, ?_, ?_⟩
        · rw [Bytes.laidDown_iff, putBack_contents hnext, hlaid, hcontents]
        · rw [putBack_positions, hmoved]
      · exact hfalse.elim
  | seek goal =>
      rw [perform]
      obtain ⟨reached, next, ⟨hsign, hexact, hnext, hkept, hmoved⟩, heq⟩ |
          ⟨_, next, ⟨hsign, rfl, hnext, hkept, hstays⟩, heq⟩ :=
        through_cases cursor (Port.seek_cursor hcursor goal)
      · rw [heq]
        rw [hcontents] at hsign hexact hkept
        refine ⟨putBack_isShared hshared hnext, (putBack_contents hnext).trans hkept, ?_, ?_⟩
        · exact fun hneg => absurd hneg (Int.not_lt.mpr hsign)
        · intro _ hword
          rw [putBack_positions, hmoved, hexact hword]
          exact ⟨rfl, rfl⟩
      · rw [heq]
        rw [hcontents] at hsign hkept
        refine ⟨putBack_isShared hshared hnext, (putBack_contents hnext).trans hkept, ?_, ?_⟩
        · exact fun _ => ⟨rfl, putBack_positions_of_eq hstands hstays⟩
        · exact fun hpos => absurd hsign (Int.not_lt.mpr hpos)
  | truncate length =>
      rw [perform]
      obtain ⟨_, next, ⟨rfl, hnext, hcut, hstays⟩, heq⟩ | ⟨_, _, hfalse, _⟩ :=
        through_cases cursor (Port.truncate_cursor hcursor length)
      · rw [heq]
        refine ⟨putBack_isShared hshared hnext, rfl, ?_, putBack_positions_of_eq hstands hstays⟩
        rw [putBack_contents hnext, hcut, hcontents]
      · exact hfalse.elim

/-! ## A run of calls -/

theorem run?_isShared {after : Cursors} (hshared : cursors.IsShared name)
    {calls : List (Nat × CursorCall)} (hrun : cursors.run? calls = some after) :
    after.IsShared name := by
  induction calls generalizing cursors with
  | nil =>
      cases hrun
      exact hshared
  | cons first calls ih =>
      obtain ⟨cursor, call⟩ := first
      obtain ⟨⟨answer, next⟩, hcall, hrest⟩ := Option.bind_eq_some_iff.mp hrun
      obtain ⟨channel, hchannel, heq⟩ := Option.map_eq_some_iff.mp hcall
      have heffect := perform_effect hshared hchannel call
      rw [heq] at heffect
      exact ih heffect.1 hrest

/--
Whatever the cursors on one buffer were called for before, the next call of a
cursor that is there answers and has its effect: a write lays its bytes down
where the cursor stands and moves no other, a seek goes where it is asked to
unless that is before the start, and a cut keeps the front and moves no cursor.
-/
theorem effect_after_run {name : String} {cursors before : Cursors} (hshared : cursors.IsShared name)
    {calls : List (Nat × CursorCall)} (hrun : cursors.run? calls = some before)
    {cursor offset : Nat} (hoffset : before.positions[cursor]? = some offset) (call : CursorCall) :
    ∃ answer after, before.call? cursor call = some (answer, after) ∧
      Effect name before cursor offset answer after call := by
  rw [positions, List.getElem?_map] at hoffset
  obtain ⟨channel, hchannel, rfl⟩ := Option.map_eq_some_iff.mp hoffset
  refine ⟨_, _, ?_, (perform_effect (run?_isShared hshared hrun) hchannel call).2⟩
  rw [call?, hchannel]
  rfl

/-- A cut by the other cursor leaves a cursor behind the end. -/
theorem effect_after_run_behind_end :
    let calls : List (Nat × CursorCall) :=
      [(0, .write [1, 2, 3, 4]), (0, .clone), (0, .truncate 2)]
    ∃ before, (fresh "b").run? calls = some before ∧
      before.contents "b" = [1, 2] ∧ before.positions = [4, 4] ∧
      ∀ call, ∃ answer after, before.call? 1 call = some (answer, after) ∧
        Effect "b" before 1 4 answer after call := by
  intro calls
  let before := ((fresh "b").run? calls).getD (fresh "b")
  have hrun : (fresh "b").run? calls = some before := by rfl
  have hstands : before.positions[1]? = some 4 := by rfl
  refine ⟨before, hrun, by rfl, by rfl, fun call => ?_⟩
  exact effect_after_run (fresh_isShared "b") hrun hstands call

example :
    let calls : List (Nat × CursorCall) :=
      [(0, .write [1, 2, 3, 4]), (0, .clone), (0, .truncate 2), (1, .write [9])]
    ((fresh "b").run? calls).map (fun cursors => (cursors.contents "b", cursors.positions)) =
      some ([1, 2, 0, 0, 9], [4, 5]) := by
  rfl

end Cursors

end SegmentStream
