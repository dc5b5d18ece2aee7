import SegmentStream.Header.State
import SegmentStream.Target.Basic

/-!
# Writing headers

A header is written when its segment opens, stating no data yet.  When the
segment is closed the same slot is written again with the length of the data,
and the clock moves to the first record of the next segment.
-/

namespace SegmentStream

structure Scribe where
  headers : HeaderState
  outlet : Outlet
  deriving DecidableEq

namespace Scribe

variable {fault result : Type}

def onOutlet (action : Action fault Outlet result) : Action fault Scribe result :=
  action.within Scribe.outlet fun scribe outlet => { scribe with outlet }

def changeHeaders (update : HeaderState → HeaderState) : Action fault Scribe Unit :=
  modify fun scribe => { scribe with headers := update scribe.headers }

def setSlot (slot : Slot) : Action fault Scribe Unit :=
  changeHeaders fun headers => { headers with slot := some slot }

/-- Writes the current header as a new, open one. -/
def emit : Action StreamError Scribe Slot := do
  changeHeaders (·.measure 0)
  let headers := (← get).headers
  let slot ← onOutlet (Action.mapFault .io (Outlet.appendHeader headers.region))
  setSlot slot
  onOutlet (Outlet.report (.emittedHeader slot.offset slot.length headers.header.time))
  return slot

/--
Writes the open header again, stating the length of its data.  Gives the length
of its region before and after.
-/
def finalize (dataLength : Nat) : Action StreamError Scribe (Nat × Nat) := do
  match (← get).headers.slot with
  | none => throw (.misuse .noHeaderEmitted)
  | some slot =>
      changeHeaders (·.measure dataLength)
      let headers := (← get).headers
      let rewritten ← onOutlet (Outlet.rewriteHeader slot headers.region)
      setSlot rewritten
      onOutlet (Outlet.report
        (.finalizedHeader slot.offset dataLength headers.header.dataOffset.toNat))
      return (slot.length, rewritten.length)

/-- Finalizes the open header for so many records and moves on behind them. -/
def closeSegment (records : Nat) : Action StreamError Scribe (Nat × Nat) := do
  let lengths ← finalize (records * (← get).headers.header.itemSize.toNat)
  changeHeaders fun headers => (headers.advance records).releaseSlot
  return lengths

end Scribe

end SegmentStream
