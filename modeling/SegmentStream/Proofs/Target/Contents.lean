import SegmentStream.Proofs.Storage.Calls
import SegmentStream.Target.Basic

/-!
# What a target holds

Data and headers of a target in one byte string, or in one each.  A target keeps
its contents when its channels hold just them and stand at their ends.  A worn
target has had a header rewritten in part: its header channel may stand anywhere
and may hold stale bytes behind the contents.
-/

namespace SegmentStream

/-! ## Contents -/

structure Contents where
  data : Bytes := []
  header : Option Bytes := none
  deriving DecidableEq

namespace Contents

def blank (split : Bool) : Contents := { header := if split then some [] else none }

def headerBytes (contents : Contents) : Bytes := contents.header.getD contents.data

def withHeaderBytes (contents : Contents) (bytes : Bytes) : Contents :=
  match contents.header with
  | none => { contents with data := bytes }
  | some _ => { contents with header := some bytes }

def appendHeader (contents : Contents) (region : Bytes) : Contents :=
  contents.withHeaderBytes (contents.headerBytes ++ region)

def appendData (contents : Contents) (bytes : Bytes) : Contents :=
  { contents with data := contents.data ++ bytes }

@[simp] theorem headerBytes_withHeaderBytes (contents : Contents) (bytes : Bytes) :
    (contents.withHeaderBytes bytes).headerBytes = bytes := by
  obtain ⟨data, _ | header⟩ := contents <;> rfl

@[simp] theorem withHeaderBytes_headerBytes (contents : Contents) :
    contents.withHeaderBytes contents.headerBytes = contents := by
  obtain ⟨data, _ | header⟩ := contents <;> rfl

@[simp] theorem withHeaderBytes_withHeaderBytes (contents : Contents) (first second : Bytes) :
    (contents.withHeaderBytes first).withHeaderBytes second =
      contents.withHeaderBytes second := by
  obtain ⟨data, _ | header⟩ := contents <;> rfl

@[simp] theorem withHeaderBytes_isSome (contents : Contents) (bytes : Bytes) :
    (contents.withHeaderBytes bytes).header.isSome = contents.header.isSome := by
  obtain ⟨data, _ | header⟩ := contents <;> rfl

theorem withHeaderBytes_data {contents : Contents} (bytes : Bytes)
    (h : contents.header.isSome = true) : (contents.withHeaderBytes bytes).data = contents.data := by
  obtain ⟨data, _ | header⟩ := contents
  · simp at h
  · rfl

@[simp] theorem appendHeader_nil (contents : Contents) : contents.appendHeader [] = contents := by
  simp [appendHeader]

@[simp] theorem appendData_nil (contents : Contents) : contents.appendData [] = contents := by
  simp [appendData]

@[simp] theorem appendData_appendData (contents : Contents) (first second : Bytes) :
    (contents.appendData first).appendData second = contents.appendData (first ++ second) := by
  simp [appendData]

end Contents

/-! ## Places and plans -/

namespace Target

def channels (target : Target) : List Channel := target.data :: target.header.toList

def places (target : Target) : List Location := target.channels.map Channel.location

/-- Headers that stand apart have a place of their own. -/
theorem data_ne_header {target : Target} (happart : target.places.Nodup)
    (hsplit : target.isSplit = true) : target.data.location ≠ target.headerChannel.location := by
  obtain ⟨label, data, _ | header, dataEnd, headerEnd⟩ := target
  · cases hsplit
  · simpa [places, channels, headerChannel] using happart

def plans (target : Target) : List Faults := target.channels.map Channel.faults

def faultsAhead (target : Target) : Nat :=
  target.data.faultsAhead + (target.header.map Channel.faultsAhead).getD 0

/-- Nothing a target is given is held back. -/
def IsDirect (target : Target) : Prop := ∀ channel ∈ target.channels, channel.IsDirect

/-- The channels write to places of their own, can go anywhere there, and are steady. -/
structure IsSound (target : Target) : Prop where
  apart : target.places.Nodup
  reaches : ∀ place ∈ target.places, ∀ offset, place.Reaches offset
  steady : ∀ plan ∈ target.plans, plan.IsSteady

theorem isSound_congr {target next : Target} (hplaces : next.places = target.places)
    (hplans : next.plans = target.plans) (h : target.IsSound) : next.IsSound := by
  obtain ⟨hapart, hreaches, hsteady⟩ := h
  rw [← hplaces] at hapart hreaches
  rw [← hplans] at hsteady
  exact ⟨hapart, hreaches, hsteady⟩

end Target

namespace Outlet

/-- How an outlet may differ after calls on it: places of others keep what they held. -/
structure Follows (outlet next : Outlet) : Prop where
  label : next.target.label = outlet.target.label
  places : next.target.places = outlet.target.places
  plans : next.target.plans = outlet.target.plans
  faultsAhead : next.target.faultsAhead ≤ outlet.target.faultsAhead
  direct : outlet.target.IsDirect → next.target.IsDirect
  elsewhere : ∀ place, place ∉ outlet.target.places →
    next.host.store.read place = outlet.host.store.read place

namespace Follows

theorem refl (outlet : Outlet) : outlet.Follows outlet :=
  ⟨rfl, rfl, rfl, Nat.le_refl _, id, fun _ _ => rfl⟩

theorem trans {first second third : Outlet} (h : first.Follows second)
    (h' : second.Follows third) : first.Follows third where
  label := h'.label.trans h.label
  places := h'.places.trans h.places
  plans := h'.plans.trans h.plans
  faultsAhead := Nat.le_trans h'.faultsAhead h.faultsAhead
  direct hdirect := h'.direct (h.direct hdirect)
  elsewhere place hplace := by
    rw [h'.elsewhere place (by rwa [h.places]), h.elsewhere place hplace]

theorem quiet {outlet next : Outlet} (h : outlet.Follows next)
    (hquiet : outlet.target.faultsAhead = 0) : next.target.faultsAhead = 0 :=
  Nat.le_zero.mp (Nat.le_trans h.faultsAhead (Nat.le_of_eq hquiet))

theorem isSound {outlet next : Outlet} (h : outlet.Follows next) (hsound : outlet.target.IsSound) :
    next.target.IsSound :=
  Target.isSound_congr h.places h.plans hsound

end Follows

/-! ## Ports of an outlet -/

def dataPort (outlet : Outlet) : Port := ⟨outlet.target.data, outlet.host.store⟩

def headerPort (outlet : Outlet) : Port := ⟨outlet.target.headerChannel, outlet.host.store⟩

def withDataPort (outlet : Outlet) (port : Port) : Outlet :=
  { target := { outlet.target with data := port.channel }
    host := { outlet.host with store := port.store } }

def withHeaderPort (outlet : Outlet) (port : Port) : Outlet :=
  { target := outlet.target.withHeaderChannel port.channel
    host := { outlet.host with store := port.store } }

section Ends

variable {fault result : Type} {good : result → Outlet → Prop} {bad : fault → Outlet → Prop}

theorem ends_onData (action : Action fault Port result) (outlet : Outlet) :
    Action.Ends (onData action) outlet good bad ↔
      Action.Ends action outlet.dataPort (fun value port => good value (outlet.withDataPort port))
        (fun cause port => bad cause (outlet.withDataPort port)) :=
  Action.ends_within ..

theorem ends_onHeader (action : Action fault Port result) (outlet : Outlet) :
    Action.Ends (onHeader action) outlet good bad ↔
      Action.Ends action outlet.headerPort
        (fun value port => good value (outlet.withHeaderPort port))
        (fun cause port => bad cause (outlet.withHeaderPort port)) :=
  Action.ends_within ..

end Ends

@[simp] theorem headerPort_withHeaderPort (outlet : Outlet) (port : Port) :
    (outlet.withHeaderPort port).headerPort = port := by
  obtain ⟨⟨label, data, _ | header, dataEnd, headerEnd⟩, host⟩ := outlet <;> rfl

@[simp] theorem dataPort_withDataPort (outlet : Outlet) (port : Port) :
    (outlet.withDataPort port).dataPort = port := rfl

@[simp] theorem isSplit_withHeaderPort (outlet : Outlet) (port : Port) :
    (outlet.withHeaderPort port).target.isSplit = outlet.target.isSplit := by
  obtain ⟨⟨label, data, _ | header, dataEnd, headerEnd⟩, host⟩ := outlet <;> rfl

@[simp] theorem cursor_withHeaderPort (outlet : Outlet) (port : Port) :
    (outlet.withHeaderPort port).target.cursor = outlet.target.cursor := by
  obtain ⟨⟨label, data, _ | header, dataEnd, headerEnd⟩, host⟩ := outlet <;> rfl

@[simp] theorem dataEnd_withHeaderPort (outlet : Outlet) (port : Port) :
    (outlet.withHeaderPort port).target.dataEnd = outlet.target.dataEnd := by
  obtain ⟨⟨label, data, _ | header, dataEnd, headerEnd⟩, host⟩ := outlet <;> rfl

theorem dataPort_eq_headerPort {outlet : Outlet} (h : outlet.target.isSplit = false) :
    outlet.dataPort = outlet.headerPort := by
  obtain ⟨⟨label, data, _ | header, dataEnd, headerEnd⟩, host⟩ := outlet
  · rfl
  · simp [Target.isSplit] at h

theorem faultsAhead_withHeaderPort_lt {outlet : Outlet} {port : Port}
    (h : port.channel.faultsAhead < outlet.headerPort.channel.faultsAhead) :
    (outlet.withHeaderPort port).target.faultsAhead < outlet.target.faultsAhead := by
  obtain ⟨⟨label, data, _ | header, dataEnd, headerEnd⟩, host⟩ := outlet
  · exact h
  · exact Nat.add_lt_add_left h _

theorem faultsAhead_withDataPort_lt {outlet : Outlet} {port : Port}
    (h : port.channel.faultsAhead < outlet.dataPort.channel.faultsAhead) :
    (outlet.withDataPort port).target.faultsAhead < outlet.target.faultsAhead :=
  Nat.add_lt_add_right h _

theorem withHeaderPort_follows {outlet : Outlet} {port : Port}
    (h : outlet.headerPort.Follows port) : outlet.Follows (outlet.withHeaderPort port) := by
  have hahead := h.faultsAhead_le
  obtain ⟨hlocation, hfaults, hwrites, hdirect, helsewhere⟩ := h
  obtain ⟨⟨label, data, _ | header, dataEnd, headerEnd⟩, host⟩ := outlet
  · refine ⟨rfl, congrArg (fun place => [place]) hlocation,
      congrArg (fun plan => [plan]) hfaults, hahead, fun h => ?_,
      fun place hplace => helsewhere place ?_⟩
    · exact List.forall_mem_singleton.mpr (hdirect (h data (List.mem_singleton_self data)))
    · exact fun heq => hplace (List.mem_cons.mpr (.inl heq))
  · refine ⟨rfl, congrArg (fun place => [data.location, place]) hlocation,
      congrArg (fun plan => [data.faults, plan]) hfaults, Nat.add_le_add_left hahead _,
      fun h => ?_, fun place hplace => helsewhere place ?_⟩
    · obtain ⟨hdata, hheader⟩ := List.forall_mem_cons.mp h
      refine List.forall_mem_cons.mpr ⟨hdata, List.forall_mem_singleton.mpr ?_⟩
      exact hdirect (List.forall_mem_singleton.mp hheader)
    · exact fun heq => hplace (List.mem_cons.mpr (.inr (List.mem_cons.mpr (.inl heq))))

theorem withDataPort_follows {outlet : Outlet} {port : Port}
    (h : outlet.dataPort.Follows port) : outlet.Follows (outlet.withDataPort port) := by
  have hahead := h.faultsAhead_le
  obtain ⟨hlocation, hfaults, hwrites, hdirect, helsewhere⟩ := h
  simp only [dataPort] at hlocation hfaults hahead
  refine ⟨rfl, ?_, ?_, ?_, fun h => ?_, fun place hplace => helsewhere place ?_⟩
  · simpa [Target.places, Target.channels, withDataPort] using hlocation
  · simpa [Target.plans, Target.channels, withDataPort] using hfaults
  · exact Nat.add_le_add_right hahead _
  · obtain ⟨hdata, hheader⟩ := List.forall_mem_cons.mp h
    exact List.forall_mem_cons.mpr ⟨hdirect hdata, hheader⟩
  · simp only [Target.places, Target.channels, List.map_cons, List.mem_cons, not_or] at hplace
    exact hplace.1

theorem dataPort_withHeaderPort {outlet : Outlet} {port : Port}
    (hsound : outlet.target.IsSound) (hsplit : outlet.target.isSplit = true)
    (h : outlet.headerPort.Follows port) :
    (outlet.withHeaderPort port).dataPort.view = outlet.dataPort.view ∧
      (outlet.withHeaderPort port).dataPort.channel = outlet.dataPort.channel := by
  have hne := Target.data_ne_header hsound.apart hsplit
  obtain ⟨⟨label, data, _ | header, dataEnd, headerEnd⟩, host⟩ := outlet
  · cases hsplit
  · exact ⟨h.view_elsewhere hne, rfl⟩

theorem headerPort_withDataPort {outlet : Outlet} {port : Port}
    (hsound : outlet.target.IsSound) (hsplit : outlet.target.isSplit = true)
    (h : outlet.dataPort.Follows port) :
    (outlet.withDataPort port).headerPort.view = outlet.headerPort.view ∧
      (outlet.withDataPort port).headerPort.channel = outlet.headerPort.channel := by
  have hne := (Target.data_ne_header hsound.apart hsplit).symm
  obtain ⟨⟨label, data, _ | header, dataEnd, headerEnd⟩, host⟩ := outlet
  · cases hsplit
  · exact ⟨h.view_elsewhere hne, rfl⟩

theorem headerPort_isSteady {outlet : Outlet} (hsound : outlet.target.IsSound) :
    outlet.headerPort.channel.IsSteady := by
  apply hsound.steady
  obtain ⟨⟨label, data, _ | header, dataEnd, headerEnd⟩, host⟩ := outlet <;>
    simp [Target.plans, Target.channels, headerPort, Target.headerChannel]

theorem dataPort_isSteady {outlet : Outlet} (hsound : outlet.target.IsSound) :
    outlet.dataPort.channel.IsSteady := by
  apply hsound.steady
  simp [Target.plans, Target.channels, dataPort]

theorem headerPort_reaches {outlet : Outlet} (hsound : outlet.target.IsSound) (offset : Nat) :
    outlet.headerPort.channel.location.Reaches offset := by
  apply hsound.reaches
  obtain ⟨⟨label, data, _ | header, dataEnd, headerEnd⟩, host⟩ := outlet <;>
    simp [Target.places, Target.channels, headerPort, Target.headerChannel]

theorem dataPort_reaches {outlet : Outlet} (hsound : outlet.target.IsSound) (offset : Nat) :
    outlet.dataPort.channel.location.Reaches offset := by
  apply hsound.reaches
  simp [Target.places, Target.channels, dataPort]

/-! ## Keeping contents -/

/-- The data of a split outlet: all stored, with the channel at its end. -/
structure HoldsData (outlet : Outlet) (data : Bytes) : Prop where
  view : outlet.dataPort.view = data
  offset : outlet.dataPort.channel.offset = data.length
  dataEnd : outlet.target.dataEnd = data.length

/-- The contents stand in the channels, with stale bytes behind the headers. -/
structure Worn (outlet : Outlet) (contents : Contents) (stale : Bytes) : Prop where
  sound : outlet.target.IsSound
  split : outlet.target.isSplit = contents.header.isSome
  view : outlet.headerPort.view = contents.headerBytes ++ stale
  cursor : outlet.target.cursor = contents.headerBytes.length
  data : outlet.target.isSplit = true → outlet.HoldsData contents.data

/-- The channels hold the contents and stand at their ends. -/
structure Keeps (outlet : Outlet) (contents : Contents) : Prop where
  worn : outlet.Worn contents []
  offset : outlet.headerPort.channel.offset = contents.headerBytes.length

theorem Keeps.view {outlet : Outlet} {contents : Contents} (h : outlet.Keeps contents) :
    outlet.headerPort.view = contents.headerBytes := by
  rw [h.worn.view, List.append_nil]

theorem Keeps.inside {outlet : Outlet} {contents : Contents} (h : outlet.Keeps contents) :
    outlet.headerPort.channel.offset ≤ outlet.headerPort.view.length := by
  exact Nat.le_of_eq (by rw [h.offset, h.view])

theorem Keeps.holdsData {outlet : Outlet} {contents : Contents} (h : outlet.Keeps contents) :
    outlet.HoldsData contents.data := by
  by_cases hsplit : outlet.target.isSplit = true
  · exact h.worn.data hsplit
  · have hsplit := Bool.not_eq_true _ ▸ hsplit
    have hbytes : contents.headerBytes = contents.data := by
      have hnone : contents.header = none := by
        have := h.worn.split
        rw [hsplit] at this
        simpa using this.symm
      simp [Contents.headerBytes, hnone]
    have hport := dataPort_eq_headerPort hsplit
    refine ⟨?_, ?_, ?_⟩
    · rw [hport, h.view, hbytes]
    · rw [hport, h.offset, hbytes]
    · rw [← hbytes, ← h.worn.cursor, Target.cursor, hsplit]
      rfl

theorem Worn.relog {outlet : Outlet} {contents : Contents} {stale : Bytes}
    (h : outlet.Worn contents stale) (log : List Event) :
    Worn { outlet with host := { outlet.host with log } } contents stale :=
  ⟨h.sound, h.split, h.view, h.cursor, fun hsplit =>
    ⟨(h.data hsplit).view, (h.data hsplit).offset, (h.data hsplit).dataEnd⟩⟩

theorem Keeps.relog {outlet : Outlet} {contents : Contents} (h : outlet.Keeps contents)
    (log : List Event) : Keeps { outlet with host := { outlet.host with log } } contents :=
  ⟨h.worn.relog log, h.offset⟩

theorem relog_follows (outlet : Outlet) (log : List Event) :
    outlet.Follows { outlet with host := { outlet.host with log } } :=
  ⟨rfl, rfl, rfl, Nat.le_refl _, id, fun _ _ => rfl⟩

theorem Worn.report {outlet : Outlet} {contents : Contents} {stale : Bytes}
    (h : outlet.Worn contents stale) (event : Event) :
    Worn { outlet with host := outlet.host.report event } contents stale :=
  h.relog _

theorem Keeps.report {outlet : Outlet} {contents : Contents} (h : outlet.Keeps contents)
    (event : Event) : Keeps { outlet with host := outlet.host.report event } contents :=
  h.relog _

theorem report_follows (outlet : Outlet) (event : Event) :
    outlet.Follows { outlet with host := outlet.host.report event } :=
  relog_follows outlet _

end Outlet

end SegmentStream
