import SegmentStream.Storage.Delivery
import SegmentStream.Target.Destination

/-!
# Targets

A target is one channel for data, or one for data and one for headers, each
with the offset where its next bytes go.  Whole records and header regions are
appended; a header region can also be rewritten where it stands.  A failed
append is taken back, so what a target holds is always whole.
-/

namespace SegmentStream

structure Target where
  label : String
  data : Channel
  header : Option Channel := none
  dataEnd : Nat := 0
  headerEnd : Nat := 0
  deriving DecidableEq, Repr

namespace Target

def isSplit (target : Target) : Bool := target.header.isSome

def headerChannel (target : Target) : Channel := target.header.getD target.data

def withHeaderChannel (target : Target) (channel : Channel) : Target :=
  if target.isSplit then { target with header := some channel }
  else { target with data := channel }

def cursor (target : Target) : Nat :=
  if target.isSplit then target.headerEnd else target.dataEnd

def withCursor (target : Target) (cursor : Nat) : Target :=
  if target.isSplit then { target with headerEnd := cursor }
  else { target with dataEnd := cursor }

def describe (target : Target) : String :=
  let split := if target.isSplit then "true" else "false"
  s!"OutputTarget \x7b label: {Text.quoted target.label}, split: {split}, " ++
    s!"data_pos: {target.dataEnd}, header_pos: {target.headerEnd} \x7d"

end Target

structure Outlet where
  target : Target
  host : Host
  deriving DecidableEq, Repr

/-- Why a write of records stopped, and how many bytes of whole records it left. -/
structure PartialWrite where
  written : Nat
  cause : IoFault
  deriving DecidableEq, Repr

namespace Outlet

/-! ## Acting on a channel -/

variable {fault result : Type}

def onData (action : Action fault Port result) : Action fault Outlet result :=
  action.within (fun outlet => ⟨outlet.target.data, outlet.host.store⟩) fun outlet port =>
    { target := { outlet.target with data := port.channel }
      host := { outlet.host with store := port.store } }

def onHeader (action : Action fault Port result) : Action fault Outlet result :=
  action.within (fun outlet => ⟨outlet.target.headerChannel, outlet.host.store⟩)
    fun outlet port =>
      { target := outlet.target.withHeaderChannel port.channel
        host := { outlet.host with store := port.store } }

def report (event : Event) : Action fault Outlet Unit :=
  modify fun outlet => { outlet with host := outlet.host.report event }

def setDataEnd (offset : Nat) : Action fault Outlet Unit :=
  modify fun outlet => { outlet with target := { outlet.target with dataEnd := offset } }

def setCursor (offset : Nat) : Action fault Outlet Unit :=
  modify fun outlet => { outlet with target := outlet.target.withCursor offset }

/-! ## Appending -/

/--
Appends whole records.  After a failure the data is cut back to the last whole
record; only if that fails too does a torn record stay.
-/
def writeData (bytes : Bytes) (recordLength : Nat) : Action PartialWrite Outlet Unit := do
  let target := (← get).target
  let delivery ← onData (Action.change (Port.deliver .nothingAccepted bytes))
  match delivery.fault with
  | none => setDataEnd (target.dataEnd + delivery.stored)
  | some cause =>
      let whole := delivery.stored - delivery.stored % max recordLength 1
      let keep := target.dataEnd + whole
      if whole = delivery.stored then setDataEnd keep
      else
        match ← (onData (Port.rewind keep)).attempt with
        | .ok () => setDataEnd keep
        | .error obstacle =>
            report (.keptPartialRecord target.label keep obstacle)
            setDataEnd (target.dataEnd + delivery.stored)
      throw ⟨whole, cause⟩

/-- Appends a header region and gives its slot.  A torn region is cut off again. -/
def appendHeader (region : Bytes) : Action IoFault Outlet Slot := do
  let cursor := (← get).target.cursor
  match ← (onHeader (Port.writeAll region)).attempt with
  | .error cause =>
      onHeader (Port.rewind cursor)
      throw cause
  | .ok () =>
      setCursor (cursor + region.length)
      return ⟨cursor, region.length⟩

/-! ## Rewriting -/

/--
Writes a header region over a slot and goes back to the end.  Another length is
allowed only in the last slot, where the end moves along.
-/
def rewriteHeader (slot : Slot) (region : Bytes) : Action StreamError Outlet Slot := do
  let cursor := (← get).target.cursor
  let tail := slot.isTail cursor
  if region.length ≠ slot.length ∧ !tail then
    throw (.format (.regionResized slot.offset slot.length region.length))
  let rewritten : Slot := ⟨slot.offset, region.length⟩
  Action.mapFault .io do
    onHeader do
      discard (Port.seek (.start slot.offset))
      Port.writeAll region
    if tail then
      if region.length < slot.length then onHeader (Port.truncate rewritten.stop)
      setCursor rewritten.stop
    else discard (onHeader (Port.seek (.start cursor)))
  return rewritten

/-! ## Closing -/

/-- Flushes the headers first, so that no data is ever without its header. -/
def flush : Action IoFault Outlet Unit := do
  if (← get).target.isSplit then onHeader Port.flush
  onData Port.flush

def release (outlet : Outlet) : Host :=
  let store := Port.release ⟨outlet.target.data, outlet.host.store⟩
  let store := match outlet.target.header with
    | none => store
    | some channel => Port.release ⟨channel, store⟩
  { outlet.host with store }

end Outlet

namespace Target

def openAt (destination : Destination) (split : Bool) : Action StreamError Host Target := do
  let (data, header) ← destination.openChannels split
  return { label := destination.label, data, header }

/-- Flushes a target and lets go of it, also when the flush fails. -/
def close (target : Target) : Action IoFault Host Unit := fun host =>
  match Outlet.flush ⟨target, host⟩ with
  | .error cause outlet => .error cause outlet.release
  | .ok () outlet =>
      .ok () (outlet.release.report
        (.closedTarget target.label target.dataEnd target.headerEnd))

/-- Closes a target; a failure is only reported. -/
def closeQuietly (target : Target) (host : Host) : Host :=
  match target.close host with
  | .ok () host => host
  | .error cause host => host.report (.closeFailed target.label cause)

end Target

end SegmentStream
