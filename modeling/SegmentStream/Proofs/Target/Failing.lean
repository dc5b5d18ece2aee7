import SegmentStream.Proofs.Storage.Failing
import SegmentStream.Proofs.Target.Calls

/-!
# Targets that fail

Where a target stands after calls that may fail at any point.  A failure leaves
the end of the headers where it was, and a header that cannot be written again
keeps its slot.
-/

namespace SegmentStream

open SegmentStream.Action

def Target.CutsBack (target : Target) : Prop := ∀ channel ∈ target.channels, channel.CutsBack

namespace Outlet

/-- The target is laid out as before, and its channels can cut back what they could. -/
structure Stays (outlet next : Outlet) : Prop where
  isSplit : next.target.isSplit = outlet.target.isSplit
  cutsBack : outlet.target.CutsBack → next.target.CutsBack

/-- Why a header with a slot was not written again at this length. -/
def Withholds (outlet : Outlet) (slot : Slot) (length : Nat) : StreamError → Prop
  | .io _ => True
  | .format (.regionResized ..) => length ≠ slot.length ∧ slot.isTail outlet.target.cursor = false
  | _ => False

namespace Stays

variable {outlet next last : Outlet}

theorem refl (outlet : Outlet) : outlet.Stays outlet := ⟨rfl, id⟩

theorem trans (h : outlet.Stays next) (h' : next.Stays last) : outlet.Stays last :=
  ⟨h'.isSplit.trans h.isSplit, fun hcuts => h'.cutsBack (h.cutsBack hcuts)⟩

theorem report (outlet : Outlet) (event : Event) :
    outlet.Stays { outlet with host := outlet.host.report event } :=
  ⟨rfl, id⟩

theorem withDataEnd (outlet : Outlet) (offset : Nat) :
    outlet.Stays { outlet with target := { outlet.target with dataEnd := offset } } :=
  ⟨rfl, id⟩

theorem withCursor (outlet : Outlet) (offset : Nat) : outlet.Stays (outlet.withCursor offset) := by
  obtain ⟨⟨label, data, _ | header, dataEnd, headerEnd⟩, host⟩ := outlet <;> exact ⟨rfl, id⟩

theorem withDataPort {port : Port} (h : outlet.dataPort.Stays port) :
    outlet.Stays (outlet.withDataPort port) := by
  refine ⟨rfl, fun hcuts => ?_⟩
  obtain ⟨hdata, hheader⟩ := List.forall_mem_cons.mp hcuts
  exact List.forall_mem_cons.mpr ⟨h.cutsBack hdata, hheader⟩

theorem withHeaderPort {port : Port} (h : outlet.headerPort.Stays port) :
    outlet.Stays (outlet.withHeaderPort port) := by
  refine ⟨isSplit_withHeaderPort .., fun hcuts => ?_⟩
  obtain ⟨⟨label, data, _ | header, dataEnd, headerEnd⟩, host⟩ := outlet
  · exact List.forall_mem_singleton.mpr (h.cutsBack (List.forall_mem_singleton.mp hcuts))
  · obtain ⟨hdata, hheader⟩ := List.forall_mem_cons.mp hcuts
    have hnext := h.cutsBack (List.forall_mem_singleton.mp hheader)
    exact List.forall_mem_cons.mpr ⟨hdata, List.forall_mem_singleton.mpr hnext⟩

end Stays

/-! ## Calls -/

section Calls

variable (outlet : Outlet)

theorem cursor_withDataEnd (target : Target) {offset : Nat}
    (h : target.isSplit = true ∨ offset = target.dataEnd) :
    { target with dataEnd := offset }.cursor = target.cursor := by
  obtain ⟨label, data, _ | header, dataEnd, headerEnd⟩ := target
  · rcases h with h | rfl
    · cases h
    · rfl
  · rfl

/-- A failed write leaves whole records, and none of them if nothing but torn bytes was taken. -/
theorem writeData_stays (bytes : Bytes) (recordLength : Nat) :
    Ends (writeData bytes recordLength) outlet
      (fun _ next => outlet.Stays next ∧
        (outlet.target.isSplit = true → next.target.cursor = outlet.target.cursor))
      (fun partly next => outlet.Stays next ∧ max recordLength 1 ∣ partly.written ∧
        (outlet.target.isSplit = true ∨ outlet.target.CutsBack ∧ partly.written = 0 →
          next.target.cursor = outlet.target.cursor)) := by
  simp only [writeData, ends_bind, ends_get, ends_onData, ends_change]
  have hstays := outlet.dataPort.deliver_stays .nothingAccepted bytes
  have hwhole (hnone : outlet.dataPort.channel.faults = {}) :=
    Port.deliver_whole .nothingAccepted bytes hnone
  generalize Port.deliver .nothingAccepted bytes outlet.dataPort = outcome at hstays hwhole ⊢
  obtain ⟨⟨stored, fault⟩, port⟩ := outcome
  simp only at hstays hwhole ⊢
  have hport := Stays.withDataPort hstays
  cases fault with
  | none => exact ⟨hport.trans (.withDataEnd ..), fun hsplit => cursor_withDataEnd _ (.inl hsplit)⟩
  | some cause =>
      have hdvd : max recordLength 1 ∣ stored - stored % max recordLength 1 :=
        Nat.dvd_sub_mod stored
      generalize stored - stored % max recordLength 1 = whole at hdvd
      have hkept : ∀ target : Target, target.dataEnd = outlet.target.dataEnd →
          target.isSplit = outlet.target.isSplit →
          outlet.target.isSplit = true ∨ outlet.target.CutsBack ∧ whole = 0 →
            { target with dataEnd := outlet.target.dataEnd + whole }.cursor = target.cursor := by
        rintro target hend hsame (hsplit | ⟨-, rfl⟩)
        · exact cursor_withDataEnd _ (.inl (hsame.trans hsplit))
        · exact cursor_withDataEnd _ (.inr hend.symm)
      by_cases hall : whole = stored
      · simp only [if_pos hall]
        exact ⟨hport.trans (.withDataEnd ..), hdvd, hkept _ rfl rfl⟩
      · simp only [if_neg hall, ends_bind, ends_attempt, ends_onData, dataPort_withDataPort]
        have hboth : ∀ later, port.Stays later → outlet.Stays (outlet.withDataPort later) :=
          fun later hlater => .withDataPort (hstays.trans hlater)
        have hrewound := Port.rewind_stays port (outlet.target.dataEnd + whole)
        have hcut : outlet.target.CutsBack → Ends (Port.rewind (outlet.target.dataEnd + whole))
            port (fun _ _ => True) (fun _ _ => False) := by
          intro hcuts
          have hdata := hcuts _ List.mem_cons_self
          rcases hdata.place with ⟨name, hbuffer⟩ | hnone
          · exact (Port.rewind_ok (hstays.cutsBack hdata) (hstays.location.trans hbuffer) _).mono
              (fun _ _ _ => trivial) fun _ _ h => h
          · cases hwhole hnone
        unfold Ends at hrewound hcut ⊢
        split at hrewound <;> rename_i heq <;> simp only [heq] at hcut ⊢
        · exact ⟨(hboth _ hrewound).trans (.withDataEnd ..), hdvd, hkept _ rfl rfl⟩
        · refine ⟨((hboth _ hrewound).trans (.report ..)).trans (.withDataEnd ..), hdvd, ?_⟩
          rintro (hsplit | ⟨hcuts, -⟩)
          · exact cursor_withDataEnd _ (.inl hsplit)
          · exact (hcut hcuts).elim

theorem appendHeader_stays (region : Bytes) :
    Ends (appendHeader region) outlet
      (fun slot next => slot = ⟨outlet.target.cursor, region.length⟩ ∧ outlet.Stays next ∧
        next.target.cursor = slot.stop)
      (fun _ next => outlet.Stays next ∧ next.target.cursor = outlet.target.cursor) := by
  simp only [appendHeader, ends_bind, ends_get, ends_attempt, ends_onHeader, ends_throw]
  refine (Port.writeAll_stays outlet.headerPort region).mono ?_ ?_
  · rintro ⟨⟩ port hstays
    exact ⟨rfl, (Stays.withHeaderPort hstays).trans (.withCursor ..), cursor_withCursor ..⟩
  · rintro cause port hstays
    simp only [headerPort_withHeaderPort]
    have hcut : ∀ cut, port.Stays cut →
        outlet.Stays ((outlet.withHeaderPort port).withHeaderPort cut) ∧
          ((outlet.withHeaderPort port).withHeaderPort cut).target.cursor =
            outlet.target.cursor := by
      intro cut hcut
      rw [withHeaderPort_withHeaderPort]
      exact ⟨.withHeaderPort (hstays.trans hcut), cursor_withHeaderPort ..⟩
    exact (Port.rewind_stays port _).mono (fun _ _ h => hcut _ h) fun _ _ h => hcut _ h

theorem rewriteHeader_stays (slot : Slot) (region : Bytes) :
    Ends (rewriteHeader slot region) outlet
      (fun rewritten next => rewritten = ⟨slot.offset, region.length⟩ ∧ outlet.Stays next ∧
        next.target.cursor = if slot.isTail outlet.target.cursor then rewritten.stop
          else outlet.target.cursor)
      (fun error next => outlet.Withholds slot region.length error ∧ outlet.Stays next ∧
        next.target.cursor = outlet.target.cursor) := by
  have hmoved : ∀ port, outlet.headerPort.Stays port →
      outlet.Stays (outlet.withHeaderPort port) ∧
        (outlet.withHeaderPort port).target.cursor = outlet.target.cursor :=
    fun port hport => ⟨.withHeaderPort hport, cursor_withHeaderPort ..⟩
  have hwritten : ∀ {good : Unit → Port → Prop} {bad : IoFault → Port → Prop},
      (∀ port, outlet.headerPort.Stays port → good () port) →
      (∀ cause port, outlet.headerPort.Stays port → bad cause port) →
      Ends (Port.seek (.start slot.offset)) outlet.headerPort
        (fun _ port => Ends (Port.writeAll region) port good bad) bad := by
    intro good bad hgood hbad
    refine (Port.seek_stays _ _).mono ?_ hbad
    rintro offset port hport
    exact (Port.writeAll_stays port region).mono (fun _ _ h => hgood _ (hport.trans h))
      fun _ _ h => hbad _ _ (hport.trans h)
  simp only [rewriteHeader, ends_bind, ends_get]
  cases htail : slot.isTail outlet.target.cursor with
  | true =>
      simp only [Bool.not_true, Bool.false_eq_true, and_false, if_false, if_true, ends_pure,
        ends_mapFault, ends_bind, ends_onHeader, ends_discard]
      refine hwritten (fun port hport => ?_) fun _ port hport => ⟨trivial, hmoved port hport⟩
      have hset : ∀ later, outlet.headerPort.Stays later →
          outlet.Stays ((outlet.withHeaderPort later).withCursor (slot.offset + region.length)) ∧
            ((outlet.withHeaderPort later).withCursor
              (slot.offset + region.length)).target.cursor = slot.offset + region.length :=
        fun later hlater => ⟨(Stays.withHeaderPort hlater).trans (.withCursor ..),
          cursor_withCursor ..⟩
      by_cases hshorter : region.length < slot.length
      · simp only [if_pos hshorter, ends_bind, ends_onHeader, headerPort_withHeaderPort]
        refine (Port.truncate_stays port _).mono ?_ ?_
        · rintro ⟨⟩ cut hcut
          rw [withHeaderPort_withHeaderPort]
          exact ⟨trivial, hset _ (hport.trans hcut)⟩
        · rintro cause cut hcut
          rw [withHeaderPort_withHeaderPort]
          exact ⟨trivial, hmoved _ (hport.trans hcut)⟩
      · simp only [if_neg hshorter]
        exact ⟨trivial, hset _ hport⟩
  | false =>
      by_cases hresized : region.length = slot.length
      · simp only [hresized, ne_eq, not_true_eq_false, false_and, if_false, Bool.false_eq_true,
          ends_pure, ends_mapFault, ends_bind, ends_onHeader, ends_discard]
        refine hwritten (fun port hport => ?_) fun _ port hport => ⟨trivial, hmoved port hport⟩
        rw [headerPort_withHeaderPort]
        refine (Port.seek_stays port _).mono ?_ ?_
        · rintro offset later hlater
          rw [withHeaderPort_withHeaderPort]
          exact ⟨trivial, hmoved _ (hport.trans hlater)⟩
        · rintro cause later hlater
          rw [withHeaderPort_withHeaderPort]
          exact ⟨trivial, hmoved _ (hport.trans hlater)⟩
      · simp only [ne_eq, hresized, not_false_eq_true, Bool.not_false, and_self, if_true]
        exact ⟨⟨hresized, htail⟩, .refl outlet, rfl⟩

theorem flush_stays :
    Ends flush outlet
      (fun _ next => outlet.Stays next ∧ next.target.cursor = outlet.target.cursor)
      (fun _ next => outlet.Stays next ∧ next.target.cursor = outlet.target.cursor) := by
  have hdata : ∀ current : Outlet,
      outlet.Stays current ∧ current.target.cursor = outlet.target.cursor →
      Ends (onData Port.flush) current
        (fun _ next => outlet.Stays next ∧ next.target.cursor = outlet.target.cursor)
        (fun _ next => outlet.Stays next ∧ next.target.cursor = outlet.target.cursor) := by
    rintro current ⟨hstays, hcursor⟩
    rw [ends_onData]
    exact (Port.flush_stays _).mono (fun _ _ h => ⟨hstays.trans (.withDataPort h), hcursor⟩)
      fun _ _ h => ⟨hstays.trans (.withDataPort h), hcursor⟩
  simp only [flush, ends_bind, ends_get]
  cases outlet.target.isSplit with
  | false => exact hdata outlet ⟨.refl outlet, rfl⟩
  | true =>
      simp only [if_true, ends_bind, ends_onHeader]
      refine (Port.flush_stays _).mono (fun _ port hport => hdata _ ?_) fun _ port hport => ?_
      · exact ⟨.withHeaderPort hport, cursor_withHeaderPort ..⟩
      · exact ⟨.withHeaderPort hport, cursor_withHeaderPort ..⟩

end Calls

end Outlet

end SegmentStream
