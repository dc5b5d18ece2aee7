import Mathlib.Order.Bounds.Defs
import SegmentStream.Proofs.Storage.Laying
import SegmentStream.Proofs.Target.Calls

/-!
# Appending where writes may fail

Whichever writes go wrong, a target grows by whole records and whole headers
only.  What a channel took of a torn one is taken back, as long as the channel
can be moved and cut, and the other channel of a split target is left alone.
-/

namespace SegmentStream.Outlet

open SegmentStream.Action

/-! ## The other channel -/

/-- Only the channel for headers was used; data that stands apart is as it was. -/
structure SparesData (outlet next : Outlet) : Prop where
  label : next.target.label = outlet.target.label
  split : next.target.isSplit = outlet.target.isSplit
  data : outlet.target.isSplit = true → next.target.data = outlet.target.data
  dataEnd : outlet.target.isSplit = true → next.target.dataEnd = outlet.target.dataEnd
  confines : outlet.headerPort.Confines next.headerPort

/-- Only the channel for data was used; headers that stand apart are as they were. -/
structure SparesHeader (outlet next : Outlet) : Prop where
  label : next.target.label = outlet.target.label
  header : next.target.header = outlet.target.header
  headerEnd : next.target.headerEnd = outlet.target.headerEnd
  confines : outlet.dataPort.Confines next.dataPort

section Spares

variable {outlet next last : Outlet} {port : Port}

theorem SparesData.trans (h : outlet.SparesData next) (h' : next.SparesData last) :
    outlet.SparesData last where
  label := h'.label.trans h.label
  split := h'.split.trans h.split
  data hsplit := (h'.data (h.split.trans hsplit)).trans (h.data hsplit)
  dataEnd hsplit := (h'.dataEnd (h.split.trans hsplit)).trans (h.dataEnd hsplit)
  confines := h.confines.trans h'.confines

theorem withHeaderPort_sparesData (h : outlet.headerPort.Confines port) :
    outlet.SparesData (outlet.withHeaderPort port) := by
  obtain ⟨⟨label, data, _ | header, dataEnd, headerEnd⟩, host⟩ := outlet
  · exact ⟨rfl, rfl, nofun, nofun, h⟩
  · exact ⟨rfl, rfl, fun _ => rfl, fun _ => rfl, h⟩

theorem withCursor_sparesData (outlet : Outlet) (cursor : Nat) :
    outlet.SparesData (outlet.withCursor cursor) := by
  obtain ⟨⟨label, data, _ | header, dataEnd, headerEnd⟩, host⟩ := outlet
  · exact ⟨rfl, rfl, nofun, nofun, .refl _⟩
  · exact ⟨rfl, rfl, fun _ => rfl, fun _ => rfl, .refl _⟩

theorem SparesHeader.trans (h : outlet.SparesHeader next) (h' : next.SparesHeader last) :
    outlet.SparesHeader last :=
  ⟨h'.label.trans h.label, h'.header.trans h.header, h'.headerEnd.trans h.headerEnd,
    h.confines.trans h'.confines⟩

theorem withDataPort_sparesHeader (h : outlet.dataPort.Confines port) :
    outlet.SparesHeader (outlet.withDataPort port) :=
  ⟨rfl, rfl, rfl, h⟩

theorem withDataEnd_sparesHeader (outlet : Outlet) (offset : Nat) :
    outlet.SparesHeader (outlet.withDataEnd offset) :=
  ⟨rfl, rfl, rfl, .refl _⟩

theorem SparesHeader.headerPort_view (h : outlet.SparesHeader next)
    (hsplit : outlet.target.isSplit = true) (hapart : outlet.target.places.Nodup) :
    next.headerPort.view = outlet.headerPort.view := by
  have hne := (Target.data_ne_header hapart hsplit).symm
  have hchannel : next.target.headerChannel = outlet.target.headerChannel := by
    rw [Target.headerChannel, Target.headerChannel, h.header]
    obtain ⟨⟨label, data, _ | header, dataEnd, headerEnd⟩, host⟩ := outlet
    · cases hsplit
    · rfl
  rw [headerPort, hchannel]
  exact h.confines.view_elsewhere hne

theorem SparesData.dataPort_view (h : outlet.SparesData next)
    (hsplit : outlet.target.isSplit = true) (hapart : outlet.target.places.Nodup) :
    next.dataPort.view = outlet.dataPort.view := by
  have hne := Target.data_ne_header hapart hsplit
  rw [dataPort, h.data hsplit]
  exact h.confines.view_elsewhere hne

/-- The data channel ends behind these bytes, and by nothing else has the target changed. -/
structure SetsData (outlet next : Outlet) (bytes : Bytes) : Prop where
  view : next.dataPort.view = bytes
  ends : next.dataPort.EndsAt next.target.dataEnd
  spares : outlet.SparesHeader next
  headers : outlet.target.isSplit = true → outlet.target.places.Nodup →
    next.headerPort.view = outlet.headerPort.view

/-- The header channel ends behind these bytes, and by nothing else has the target changed. -/
structure SetsHeaders (outlet next : Outlet) (bytes : Bytes) : Prop where
  view : next.headerPort.view = bytes
  ends : next.headerPort.EndsAt next.target.cursor
  spares : outlet.SparesData next
  data : outlet.target.isSplit = true → outlet.target.places.Nodup →
    next.dataPort.view = outlet.dataPort.view

theorem SparesHeader.setsData {bytes : Bytes} (h : outlet.SparesHeader next)
    (hview : next.dataPort.view = bytes) (hends : next.dataPort.EndsAt next.target.dataEnd) :
    outlet.SetsData next bytes :=
  ⟨hview, hends, h, h.headerPort_view⟩

theorem SparesData.setsHeaders {bytes : Bytes} (h : outlet.SparesData next)
    (hview : next.headerPort.view = bytes) (hends : next.headerPort.EndsAt next.target.cursor) :
    outlet.SetsHeaders next bytes :=
  ⟨hview, hends, h, h.dataPort_view⟩

end Spares

/-! ## Records -/

section Records

variable {outlet : Outlet}

/-- How many of some bytes the data channel takes until it refuses or has them all. -/
def accepted (outlet : Outlet) (bytes : Bytes) : Nat :=
  (Port.deliver .nothingAccepted bytes outlet.dataPort).1.stored

theorem writeData_lays (bytes : Bytes) (recordLength : Nat)
    (hle : outlet.dataPort.channel.offset ≤ outlet.dataPort.view.length) :
    Ends (writeData bytes recordLength) outlet
      (fun _ next => outlet.SparesHeader next ∧ outlet.dataPort.Lays next.dataPort bytes ∧
        next.target.dataEnd = outlet.target.dataEnd + bytes.length)
      (fun _ _ => True) := by
  obtain ⟨-, hcomplete, -, hlays⟩ := Port.deliver_views outlet.dataPort .nothingAccepted bytes
  have hlaid := hlays (.inr hle)
  simp only [writeData, ends_bind, ends_get, ends_onData, ends_change]
  generalize Port.deliver .nothingAccepted bytes outlet.dataPort = outcome at hcomplete hlaid ⊢
  obtain ⟨⟨stored, fault⟩, port⟩ := outcome
  simp only at hcomplete hlaid ⊢
  cases fault with
  | none =>
      rw [hcomplete rfl] at hlaid ⊢
      rw [List.take_length] at hlaid
      exact ⟨(withDataPort_sparesHeader hlaid.confines).trans (withDataEnd_sparesHeader ..),
        hlaid, rfl⟩
  | some cause =>
      dsimp only
      split
      · trivial
      · simp only [ends_bind, ends_attempt, ends_onData]
        apply ends_of_forall <;> exact fun _ _ => trivial

/-- After a failure the data channel ends behind the last whole record that it took. -/
theorem writeData_partly (bytes : Bytes) (recordLength : Nat)
    (hend : outlet.dataPort.EndsAt outlet.target.dataEnd)
    (hmobile : outlet.dataPort.channel.IsMobile (outlet.target.dataEnd + bytes.length)) :
    Ends (writeData bytes recordLength) outlet (fun _ _ => True)
      (fun partly next => outlet.SetsData next (outlet.dataPort.view ++ bytes.take partly.written) ∧
        outlet.accepted bytes < bytes.length ∧
        partly.written = outlet.accepted bytes - outlet.accepted bytes % max recordLength 1) := by
  obtain ⟨-, -, hrefused, hlays⟩ := Port.deliver_views outlet.dataPort .nothingAccepted bytes
  have hlaid := hlays (.inr hend.le)
  simp only [writeData, ends_bind, ends_get, ends_onData, ends_change, accepted]
  generalize Port.deliver .nothingAccepted bytes outlet.dataPort = outcome at hrefused hlaid ⊢
  obtain ⟨⟨stored, fault⟩, port⟩ := outcome
  simp only at hrefused hlaid ⊢
  cases fault with
  | none => trivial
  | some cause =>
      have hless := hrefused (Option.some_ne_none cause)
      have hview := hlaid.view_of_endsAt hend
      have hends := hlaid.endsAt hend
      rw [List.length_take_of_le (Nat.le_of_lt hless)] at hends
      have hmod := Nat.mod_le stored (max recordLength 1)
      generalize hwhole : stored - stored % max recordLength 1 = whole
      have htake : (bytes.take whole).length = whole := List.length_take_of_le (by omega)
      by_cases hall : whole = stored
      · simp only [if_pos hall]
        rw [hall] at htake ⊢
        have hspares := (withDataPort_sparesHeader hlaid.confines).trans
          (withDataEnd_sparesHeader _ (outlet.target.dataEnd + stored))
        exact ⟨hspares.setsData hview hends, hless, rfl⟩
      · -- a torn record is taken back
        simp only [if_neg hall, ends_bind, ends_attempt, ends_onData, dataPort_withDataPort]
        have hmobile' := hlaid.confines.isMobile hmobile
        apply (Port.rewind_views (outlet.target.dataEnd + whole) hmobile' (by omega)
          (by rw [hends.view]; omega)).mono
        · rintro ⟨⟩ cut ⟨hconfines, hcut, hends'⟩
          have hspares := (withDataPort_sparesHeader (hlaid.confines.trans hconfines)).trans
            (withDataEnd_sparesHeader _ (outlet.target.dataEnd + whole))
          refine ⟨hspares.setsData ?_ hends', hless, rfl⟩
          have hfront : bytes.take whole = (bytes.take stored).take whole := by
            rw [List.take_take, Nat.min_eq_left (by omega)]
          rw [hfront]
          refine hcut.trans ?_
          rw [hview, ← hend.view, List.take_length_add_append]
        · exact fun _ _ => False.elim

end Records

/-! ## Headers -/

section Headers

variable {outlet : Outlet}

/--
A region is laid down where the header channel stands.  One that is not taken
whole is cut off at the cursor, wherever the channel stood.
-/
theorem appendHeader_lays (region : Bytes)
    (hmobile : outlet.headerPort.channel.IsMobile outlet.target.cursor)
    (hle : outlet.headerPort.channel.offset ≤ outlet.headerPort.view.length)
    (hcursor : outlet.target.cursor ≤ outlet.headerPort.view.length) :
    Ends (appendHeader region) outlet
      (fun slot next => slot = ⟨outlet.target.cursor, region.length⟩ ∧ outlet.SparesData next ∧
        outlet.headerPort.Lays next.headerPort region ∧
        next.target.cursor = outlet.target.cursor + region.length)
      (fun _ next => outlet.SparesData next ∧ next.headerPort.EndsAt outlet.target.cursor ∧
        next.target.cursor = outlet.target.cursor ∧ ∃ count, count < region.length ∧
          next.headerPort.view = (outlet.headerPort.view.overwrite outlet.headerPort.channel.offset
            (region.take count)).take outlet.target.cursor) := by
  simp only [appendHeader, ends_bind, ends_get, ends_attempt, ends_onHeader, ends_throw]
  apply (Port.writeAll_lays region hle).mono
  · rintro ⟨⟩ port hlays
    have hspares := (withHeaderPort_sparesData hlays.confines).trans
      (withCursor_sparesData _ (outlet.target.cursor + region.length))
    refine ⟨rfl, hspares, ?_, cursor_withCursor ..⟩
    change outlet.headerPort.Lays (withCursor _ _).headerPort region
    rwa [headerPort_withCursor, headerPort_withHeaderPort]
  · rintro cause port ⟨-, count, hless, hlays⟩
    have hview := hlays.view_of_le hle
    have hlength : outlet.target.cursor ≤ port.view.length := by
      rw [hview, Bytes.length_overwrite]
      omega
    rw [headerPort_withHeaderPort]
    apply (Port.rewind_views _ (hlays.confines.isMobile hmobile) (Nat.le_refl _) hlength).mono
    · rintro ⟨⟩ cut ⟨hconfines, hcut, hends⟩
      rw [withHeaderPort_withHeaderPort, headerPort_withHeaderPort, cursor_withHeaderPort]
      refine ⟨withHeaderPort_sparesData (hlays.confines.trans hconfines), hends, rfl, count,
        hless, ?_⟩
      rw [hcut, hview]
    · exact fun _ _ => False.elim

theorem appendHeader_whole (region : Bytes)
    (hmobile : outlet.headerPort.channel.IsMobile outlet.target.cursor)
    (hend : outlet.headerPort.EndsAt outlet.target.cursor) :
    Ends (appendHeader region) outlet
      (fun slot next => slot = ⟨outlet.target.cursor, region.length⟩ ∧
        outlet.SetsHeaders next (outlet.headerPort.view ++ region))
      (fun _ next => outlet.SetsHeaders next outlet.headerPort.view) := by
  apply (appendHeader_lays region hmobile hend.le (Nat.le_of_eq hend.view.symm)).mono
  · rintro slot next ⟨hslot, hspares, hlays, hcursor⟩
    refine ⟨hslot, hspares.setsHeaders (hlays.view_of_endsAt hend) ?_⟩
    rw [hcursor]
    exact hlays.endsAt hend
  · rintro cause next ⟨hspares, hends, hcursor, count, -, hview⟩
    refine hspares.setsHeaders ?_ (by rwa [hcursor])
    rw [hview, hend.offset, ← hend.view, Bytes.overwrite_length, List.take_left]

end Headers

/-! ## Whole records and whole headers -/

theorem isGreatest_multiple {unit : Nat} (bound : Nat) (hunit : 0 < unit) :
    IsGreatest {multiple | unit ∣ multiple ∧ multiple ≤ bound} (bound - bound % unit) := by
  refine ⟨⟨Nat.dvd_sub_mod bound, Nat.sub_le ..⟩, ?_⟩
  rintro _ ⟨⟨times, rfl⟩, hle⟩
  have htimes : times ≤ bound / unit := (Nat.le_div_iff_mul_le hunit).mpr (by rwa [Nat.mul_comm])
  have hsplit := Nat.div_add_mod bound unit
  have := Nat.mul_le_mul_left unit htimes
  omega

/--
Whatever writes go wrong on a target at its ends, what an append leaves is whole.
Records that do not fit are dropped from the first that was not taken in full; a
header is taken or not.
-/
theorem append_whole {outlet : Outlet} (bytes : Bytes) (recordLength : Nat) (region : Bytes)
    (hwhole : recordLength ∣ bytes.length)
    (hdata : outlet.dataPort.EndsAt outlet.target.dataEnd)
    (hheader : outlet.headerPort.EndsAt outlet.target.cursor)
    (hmobile : outlet.dataPort.channel.IsMobile (outlet.target.dataEnd + bytes.length))
    (hmobile' : outlet.headerPort.channel.IsMobile outlet.target.cursor) :
    Ends (writeData bytes recordLength) outlet
      (fun _ next => outlet.SetsData next (outlet.dataPort.view ++ bytes))
      (fun partly next => outlet.SetsData next (outlet.dataPort.view ++ bytes.take partly.written) ∧
        IsGreatest {whole | recordLength ∣ whole ∧ whole ≤ outlet.accepted bytes}
          partly.written) ∧
    Ends (appendHeader region) outlet
      (fun slot next => slot = ⟨outlet.target.cursor, region.length⟩ ∧
        outlet.SetsHeaders next (outlet.headerPort.view ++ region))
      (fun _ next => outlet.SetsHeaders next outlet.headerPort.view) := by
  constructor
  · apply ((writeData_lays bytes recordLength hdata.le).and
      (writeData_partly bytes recordLength hdata hmobile)).mono
    · rintro _ next ⟨⟨hspares, hlays, hdataEnd⟩, -⟩
      apply hspares.setsData (hlays.view_of_endsAt hdata)
      rw [hdataEnd]
      exact hlays.endsAt hdata
    · rintro partly next ⟨-, happends, hless, hwritten⟩
      have hrecord : 0 < recordLength := by
        apply Nat.pos_of_ne_zero
        rintro rfl
        have := Nat.eq_zero_of_zero_dvd hwhole
        omega
      rw [Nat.max_eq_left hrecord] at hwritten
      rw [hwritten] at happends ⊢
      exact ⟨happends, isGreatest_multiple _ hrecord⟩
  · exact appendHeader_whole region hmobile' hheader

/-- Of two records behind two bytes, one and a half are taken. -/
theorem append_whole_torn_record :
    let data : Channel :=
      { location := .buffer "data", position := 2
        faults := { writes := [(0, .interrupted), (1, .accepts 3), (2, .failed)] } }
    let outlet : Outlet :=
      { target := { label := "tape", data, dataEnd := 2 }
        host := { store := { contents := [(.buffer "data", [1, 2])] } } }
    outlet.dataPort.EndsAt 2 ∧
      (∃ next, writeData [3, 4, 5, 6] 2 outlet = .error ⟨2, .writeFailed⟩ next ∧
        outlet.SetsData next [1, 2, 3, 4]) ∧
      Ends (appendHeader [7]) outlet
        (fun slot next => slot = ⟨2, 1⟩ ∧ outlet.SetsHeaders next [1, 2, 7])
        (fun _ next => outlet.SetsHeaders next [1, 2]) := by
  intro data outlet
  have hend : outlet.dataPort.EndsAt 2 := ⟨by decide, rfl⟩
  have hmobile : ∀ reach, data.IsMobile reach := fun _ => ⟨rfl, rfl, trivial⟩
  obtain ⟨hwrite, hheader⟩ := append_whole [3, 4, 5, 6] 2 [7] (by decide) hend hend (hmobile _)
    (hmobile _)
  have hrun : (match writeData [3, 4, 5, 6] 2 outlet with
      | .error partly _ => decide (partly = ⟨2, .writeFailed⟩)
      | .ok _ _ => false) = true := by decide +kernel
  refine ⟨hend, ?_, hheader⟩
  split at hrun
  · rename_i partly next hfailed
    obtain rfl := of_decide_eq_true hrun
    exact ⟨next, hfailed, (hwrite.of_error hfailed).1⟩
  · cases hrun

end SegmentStream.Outlet
