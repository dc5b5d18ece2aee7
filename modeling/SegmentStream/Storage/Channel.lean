import SegmentStream.Action
import SegmentStream.Storage.Store

/-!
# Channels

A channel is a place of its own in one buffer or file of the store: it writes
there and moves on, and it can be moved and cut.  A channel to a file holds
writes back until they fill its capacity.  `Faults` plans which calls go wrong,
so a failing storage is a value like any other.  A buffer takes bytes at any offset
and grows to any length: memory has no end here, and a write to a buffer fails only
where a fault is planned.
-/

namespace SegmentStream

/-! ## Planned faults -/

inductive WriteFault where
  | interrupted
  | failed
  /-- At most so many bytes are taken. -/
  | accepts (most : Nat)
  deriving DecidableEq, Repr

/-- What a write does that finds no room below the limit. -/
inductive WhenFull where
  | fail
  | acceptNothing
  /-- Fail, but have no limit from then on. -/
  | failOnce
  deriving DecidableEq, Repr

/-- Calls of each kind are counted from zero; every call counts, failing or not. -/
structure Faults where
  writes : List (Nat × WriteFault) := []
  seeks : List Nat := []
  flushes : List Nat := []
  truncates : List Nat := []
  /-- The most bytes any write takes. -/
  chunk : Option Nat := none
  /-- No write goes beyond this offset. -/
  limit : Option Nat := none
  whenFull : WhenFull := .fail
  deriving DecidableEq, Repr

instance : Inhabited Faults := ⟨{}⟩

structure Calls where
  writes : Nat := 0
  seeks : Nat := 0
  flushes : Nat := 0
  truncates : Nat := 0
  deriving DecidableEq, Repr

instance : Inhabited Calls := ⟨{}⟩

def Faults.ofWrite? (faults : Faults) (call : Nat) : Option WriteFault :=
  faults.writes.lookup call

/-! ## Channels and ports -/

/-- Bytes that a channel to a file holds back. -/
def fileCapacity : Nat := 65536

structure Channel where
  location : Location
  position : Nat := 0
  pending : Bytes := []
  faults : Faults := {}
  calls : Calls := {}
  deriving DecidableEq, Repr

namespace Channel

/-- A buffer is written to at once. -/
def capacity (channel : Channel) : Nat :=
  match channel.location with
  | .buffer _ => 0
  | .file _ => fileCapacity

def offset (channel : Channel) : Nat := channel.position + channel.pending.length

def isFull (channel : Channel) : Bool :=
  match channel.faults.limit with
  | none => false
  | some limit => limit ≤ channel.offset

/-- How many of the bytes offered to a write are taken, if there is room. -/
def admitted (channel : Channel) (offered : Nat) : Nat :=
  let room := (channel.faults.limit.map (· - channel.offset)).getD offered
  let chunk := channel.faults.chunk.getD offered
  match channel.faults.ofWrite? channel.calls.writes with
  | some (.accepts most) => min (min offered most) (min room chunk)
  | _ => min offered (min room chunk)

/-- Planned interruptions that are still to come. -/
def interruptionsLeft (channel : Channel) : Nat :=
  (channel.faults.writes.filter fun fault =>
    channel.calls.writes ≤ fault.1 && fault.2 == .interrupted).length

end Channel

structure Port where
  channel : Channel
  store : Store
  deriving DecidableEq, Repr

inductive SeekGoal where
  | start (offset : Nat)
  | ending (shift : Int)
  | current (shift : Int)
  deriving DecidableEq, Repr

/--
The offset a seek may go to.  A buffer has none before its start; offsets in a
file are below `2 ^ 63`.
-/
def Location.offsetOf (location : Location) (goal : Int) : Except IoFault Nat :=
  match location with
  | .buffer _ => if goal < 0 then .error .seekBeforeStart else .ok goal.toNat
  | .file _ =>
      if goal < 0 ∨ 2 ^ 63 ≤ goal then .error .invalidArgument else .ok goal.toNat

/-- Where a shift leads.  Offsets in a buffer are words, and a sum beyond them wraps. -/
def Location.shifted (location : Location) (position : Nat) (shift : Int) : Int :=
  let goal := position + shift
  match location with
  | .buffer _ => if goal < 0 then goal else goal % 2 ^ 64
  | .file _ => goal

namespace Port

def contents (port : Port) : Bytes := port.store.read port.channel.location

/-! ## Moving bytes to the store -/

/-- Bytes are laid down at the position, which moves behind them. -/
def layDown (port : Port) (bytes : Bytes) : Port :=
  { channel := { port.channel with position := port.channel.position + bytes.length }
    store := port.store.put port.channel.location
      (port.contents.overwrite port.channel.position bytes) }

def settle (port : Port) : Port :=
  if port.channel.pending = [] then port
  else
    let cleared := { port with channel := { port.channel with pending := [] } }
    cleared.layDown port.channel.pending

def holdBack (port : Port) (bytes : Bytes) : Port :=
  { port with channel := { port.channel with pending := port.channel.pending ++ bytes } }

/-- Bytes are held back while they fit; bytes that fill the capacity on their own never are. -/
def accept (port : Port) (bytes : Bytes) : Port :=
  let spare := port.channel.capacity - port.channel.pending.length
  let ready := if spare < bytes.length then port.settle else port
  if port.channel.capacity ≤ bytes.length then ready.layDown bytes else ready.holdBack bytes

/-! ## Calls -/

def countCalls (port : Port) (count : Calls → Calls) : Port :=
  { port with channel := { port.channel with calls := count port.channel.calls } }

def write (bytes : Bytes) : Action IoFault Port Nat := fun port =>
  let channel := port.channel
  let port := port.countCalls fun calls => { calls with writes := calls.writes + 1 }
  match channel.faults.ofWrite? channel.calls.writes with
  | some .interrupted => .error .interrupted port
  | some .failed => .error .writeFailed port
  | _ =>
      if channel.isFull then
        match channel.faults.whenFull with
        | .fail => .error .diskFull port
        | .acceptNothing => .ok 0 port
        | .failOnce =>
            let faults := { channel.faults with limit := none }
            .error .diskFull { port with channel := { port.channel with faults } }
      else
        let count := channel.admitted bytes.length
        .ok count (port.accept (bytes.take count))

def seek (goal : SeekGoal) : Action IoFault Port Nat := fun port =>
  let call := port.channel.calls.seeks
  let port := port.countCalls fun calls => { calls with seeks := calls.seeks + 1 }
  if port.channel.faults.seeks.contains call then .error .seekFailed port
  else
    let port := port.settle
    let target : Int := match goal with
      | .start offset => offset
      | .ending shift => port.contents.length + shift
      | .current shift => port.channel.location.shifted port.channel.position shift
    match port.channel.location.offsetOf target with
    | .error fault => .error fault port
    | .ok offset => .ok offset { port with channel := { port.channel with position := offset } }

def flush : Action IoFault Port Unit := fun port =>
  let call := port.channel.calls.flushes
  let port := port.countCalls fun calls => { calls with flushes := calls.flushes + 1 }
  if port.channel.faults.flushes.contains call then .error .flushFailed port
  else .ok () port.settle

/-- Sets the length; a buffer is only ever cut.  The place to write at does not move. -/
def truncate (length : Nat) : Action IoFault Port Unit := fun port =>
  let call := port.channel.calls.truncates
  let port := port.countCalls fun calls => { calls with truncates := calls.truncates + 1 }
  if port.channel.faults.truncates.contains call then .error .truncateFailed port
  else
    let port := port.settle
    let cut (contents : Bytes) :=
      { port with store := port.store.put port.channel.location contents }
    match port.channel.location with
    | .buffer _ => .ok () (cut (port.contents.take length))
    | .file _ =>
        if 2 ^ 63 ≤ length then .error .lengthOutOfRange port
        else .ok () (cut (port.contents.resize length))

/-! ## What a call leaves alone -/

theorem settle_channel (port : Port) :
    port.settle.channel.faults = port.channel.faults ∧
      port.settle.channel.calls = port.channel.calls := by
  unfold settle
  split <;> simp [layDown]

theorem accept_channel (port : Port) (bytes : Bytes) :
    (port.accept bytes).channel.faults = port.channel.faults ∧
      (port.accept bytes).channel.calls = port.channel.calls := by
  unfold accept
  simp only
  split <;> split <;> simp [layDown, holdBack, port.settle_channel]

/-- Every write counts, and none changes which writes go wrong. -/
theorem write_channel (bytes : Bytes) (port : Port) :
    let next := (write bytes).stateAfter port
    next.channel.faults.writes = port.channel.faults.writes ∧
      next.channel.calls.writes = port.channel.calls.writes + 1 := by
  simp only [Action.stateAfter, write]
  split <;> rename_i heq <;> revert heq
  all_goals
    split
    · intro h; simp at h <;> simp [← h, countCalls]
    · intro h; simp at h <;> simp [← h, countCalls]
    · split
      · split <;> intro h <;> simp at h <;> simp [← h, countCalls]
      · intro h; simp at h <;> simp [← h, accept_channel, countCalls]

end Port

end SegmentStream
