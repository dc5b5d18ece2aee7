import SegmentStream.Proofs.Target.Appending

/-!
# Rewriting a header in its place

A header is rewritten in its slot and nowhere else, and the channel goes back to
its end.  Where a write refuses the rest of the header, though, the channel stays
where the write stopped, and what is appended next is laid down there.
-/

namespace SegmentStream.Outlet

open SegmentStream.Action

section Rewrite

variable {outlet : Outlet} {slot : Slot} {region : Bytes}

theorem rewriteTail_ends {port : Port} (hend : outlet.headerPort.EndsAt outlet.target.cursor)
    (hmobile : outlet.headerPort.channel.IsMobile outlet.target.cursor)
    (htail : slot.stop = outlet.target.cursor) (hconfines : outlet.headerPort.Confines port)
    (hview : port.view = outlet.headerPort.view.overwrite slot.offset region)
    (hoffset : port.channel.offset = slot.offset + region.length) :
    Ends (do
        if region.length < slot.length then onHeader (Port.truncate (slot.offset + region.length))
        setCursor (slot.offset + region.length))
      (outlet.withHeaderPort port)
      (fun _ next => outlet.SetsHeaders next (outlet.headerPort.view.take slot.offset ++ region))
      (fun (_ : IoFault) _ => False) := by
  let front := outlet.headerPort.view.take slot.offset ++ region
  have hlength : outlet.headerPort.view.length = slot.offset + slot.length := by
    rw [hend.view, ← htail, Slot.stop]
  have hfront : front.length = slot.offset + region.length := by
    simp only [front, List.length_append, List.length_take]
    omega
  have hlaid : port.view = front ++ outlet.headerPort.view.drop (slot.offset + region.length) := by
    rw [hview, Bytes.overwrite_of_le _ (by omega)]
  have hmoved : ∀ last : Port, outlet.headerPort.Confines last → last.view = front →
      last.channel.offset = slot.offset + region.length →
      outlet.SetsHeaders ((outlet.withHeaderPort last).withCursor (slot.offset + region.length))
        front := by
    intro last hlast hview' hoffset'
    have hspares := (withHeaderPort_sparesData hlast).trans
      (withCursor_sparesData _ (slot.offset + region.length))
    apply hspares.setsHeaders
    · rw [headerPort_withCursor, headerPort_withHeaderPort, hview']
    · rw [headerPort_withCursor, headerPort_withHeaderPort, cursor_withCursor]
      exact ⟨by rw [hview', hfront], hoffset'⟩
  by_cases hshort : region.length < slot.length
  · -- what the old region has beyond the new one is cut off
    simp only [if_pos hshort, ends_bind, ends_onHeader, headerPort_withHeaderPort,
      withHeaderPort_withHeaderPort]
    have hmobile' := hconfines.isMobile hmobile
    have hreaches : port.channel.location.Reaches (slot.offset + region.length) := by
      apply hmobile'.reaches.mono
      rw [← htail, Slot.stop]
      omega
    apply (Port.truncate_ends hmobile'.truncates hreaches (by simp [hlaid, hfront])).mono
    · rintro ⟨⟩ cut ⟨hfollows, hcut, hoffset'⟩
      refine hmoved cut (hconfines.trans (.of_follows hfollows)) ?_ (hoffset'.trans hoffset)
      rw [hcut, hlaid, ← hfront, List.take_left]
    · exact fun _ _ => False.elim
  · rw [if_neg hshort]
    refine hmoved port hconfines ?_ hoffset
    rw [hlaid, List.drop_eq_nil_of_le (by omega), List.append_nil]

theorem rewriteHeader_fits (hend : outlet.headerPort.EndsAt outlet.target.cursor)
    (hmobile : outlet.headerPort.channel.IsMobile outlet.target.cursor)
    (hslot : slot.stop ≤ outlet.target.cursor)
    (hfits : region.length = slot.length ∨ slot.stop = outlet.target.cursor) :
    Ends (rewriteHeader slot region) outlet
      (fun rewritten next => rewritten = ⟨slot.offset, region.length⟩ ∧
        outlet.SetsHeaders next (outlet.headerPort.view.take slot.offset ++ region ++
          outlet.headerPort.view.drop slot.stop))
      (fun cause next => ¬ outlet.headerPort.channel.faults.IsYielding ∧
        (∃ fault, cause = .io fault) ∧ outlet.SparesData next ∧
        next.target.cursor = outlet.target.cursor ∧ ∃ accepted, accepted < region.length ∧
          next.headerPort.view =
            outlet.headerPort.view.overwrite slot.offset (region.take accepted) ∧
          next.headerPort.channel.offset = slot.offset + accepted) := by
  have hfree : ¬ (region.length ≠ slot.length ∧
      (!slot.isTail outlet.target.cursor) = true) := by
    rw [Slot.isTail, Bool.not_eq_true', beq_eq_false_iff_ne]
    tauto
  have hoffset : slot.offset ≤ outlet.target.cursor := by
    rw [Slot.stop] at hslot
    omega
  have hinside : slot.offset ≤ outlet.headerPort.view.length := by rwa [hend.view]
  simp only [rewriteHeader, ends_bind, ends_get, ends_mapFault, if_neg hfree, ends_pure]
  simp only [ends_onHeader]
  apply (Port.layOver_views hmobile hoffset hinside region).mono
  · rintro ⟨⟩ port ⟨hconfines, hview, hoffset'⟩
    by_cases htail : slot.stop = outlet.target.cursor
    · rw [if_pos (by rw [Slot.isTail, htail, BEq.rfl])]
      apply (rewriteTail_ends hend hmobile htail hconfines hview hoffset').mono
      · intro _ next hnext
        rw [htail, hend.drop, List.append_nil]
        exact ⟨trivial, hnext⟩
      · exact fun _ _ => False.elim
    · have hlength : region.length = slot.length := hfits.resolve_right htail
      rw [if_neg (by rwa [Slot.isTail, beq_iff_eq])]
      simp only [ends_discard, ends_onHeader, headerPort_withHeaderPort,
        withHeaderPort_withHeaderPort]
      have hmobile' := hconfines.isMobile hmobile
      apply (Port.seek_start_ends hmobile'.seeks hmobile'.reaches).mono
      · rintro - sought ⟨hfollows, hview', hsought⟩
        have hlaid : port.view = outlet.headerPort.view.take slot.offset ++ region ++
            outlet.headerPort.view.drop slot.stop := by
          rw [hview, Bytes.overwrite_of_le _ hinside, hlength, Slot.stop]
        have hkept : port.view.length = outlet.target.cursor := by
          rw [hview, Bytes.length_overwrite, hend.view, hlength]
          exact Nat.max_eq_left hslot
        have hspares := withHeaderPort_sparesData (hconfines.trans (.of_follows hfollows))
        refine ⟨trivial, hspares.setsHeaders ?_ ?_⟩
        · rw [headerPort_withHeaderPort, hview', hlaid]
        · rw [headerPort_withHeaderPort, cursor_withHeaderPort]
          exact ⟨by rw [hview', hkept], hsought⟩
      · exact fun _ _ => False.elim
  · rintro cause port ⟨hstubborn, hconfines, accepted, hless, hview, hoffset'⟩
    refine ⟨hstubborn, ⟨cause, rfl⟩, withHeaderPort_sparesData hconfines,
      cursor_withHeaderPort .., accepted, hless, ?_⟩
    rw [headerPort_withHeaderPort]
    exact ⟨hview, hoffset'⟩

theorem rewriteHeader_resized (hlength : region.length ≠ slot.length)
    (hbefore : slot.stop ≠ outlet.target.cursor) :
    rewriteHeader slot region outlet =
      .error (.format (.regionResized slot.offset slot.length region.length)) outlet := by
  have hrefused : region.length ≠ slot.length ∧ (!slot.isTail outlet.target.cursor) = true := by
    rw [Slot.isTail, Bool.not_eq_true', beq_eq_false_iff_ne]
    exact ⟨hlength, hbefore⟩
  have hends : Ends (rewriteHeader slot region) outlet (fun _ _ => False)
      (fun cause next => cause = .format (.regionResized slot.offset slot.length region.length) ∧
        next = outlet) := by
    simp only [rewriteHeader, ends_bind, ends_get, if_pos hrefused, ends_throw, and_self]
  cases hrun : rewriteHeader slot region outlet with
  | ok rewritten next => exact (hends.of_ok hrun).elim
  | error cause next =>
      obtain ⟨rfl, rfl⟩ := hends.of_error hrun
      rfl

/-! ## Channels that yield -/

/--
A region of the same length takes the place of the old one.  One of another
length is refused, unless its slot is the last: then the channel ends behind it.
-/
theorem rewriteHeader_exact (slot : Slot) (region : Bytes)
    (hend : outlet.headerPort.EndsAt outlet.target.cursor)
    (hmobile : outlet.headerPort.channel.IsMobile outlet.target.cursor)
    (hyields : outlet.headerPort.channel.faults.IsYielding)
    (hslot : slot.stop ≤ outlet.target.cursor) :
    (region.length = slot.length →
      Ends (rewriteHeader slot region) outlet
        (fun rewritten next => rewritten = ⟨slot.offset, region.length⟩ ∧
          next.target.cursor = outlet.target.cursor ∧
          outlet.SetsHeaders next (outlet.headerPort.view.take slot.offset ++ region ++
            outlet.headerPort.view.drop slot.stop))
        (fun _ _ => False)) ∧
    (region.length ≠ slot.length → slot.stop = outlet.target.cursor →
      Ends (rewriteHeader slot region) outlet
        (fun rewritten next => rewritten = ⟨slot.offset, region.length⟩ ∧
          next.target.cursor = slot.offset + region.length ∧
          outlet.SetsHeaders next (outlet.headerPort.view.take slot.offset ++ region))
        (fun _ _ => False)) ∧
    (region.length ≠ slot.length → slot.stop < outlet.target.cursor →
      rewriteHeader slot region outlet =
        .error (.format (.regionResized slot.offset slot.length region.length)) outlet) := by
  have hstop : slot.stop = slot.offset + slot.length := rfl
  have hfront : (outlet.headerPort.view.take slot.offset).length = slot.offset := by
    apply List.length_take_of_le
    rw [hend.view]
    omega
  refine ⟨fun hlength => ?_, fun _ htail => ?_, fun hlength hbefore => ?_⟩
  · apply (rewriteHeader_fits hend hmobile hslot (.inl hlength)).mono
    · rintro rewritten next ⟨hrewritten, hrewrites⟩
      refine ⟨hrewritten, ?_, hrewrites⟩
      rw [← hrewrites.ends.view, hrewrites.view, List.length_append, List.length_append, hfront,
        List.length_drop, hend.view]
      omega
    · exact fun _ _ hfailed => hfailed.1 hyields
  · apply (rewriteHeader_fits hend hmobile hslot (.inr htail)).mono
    · rintro rewritten next ⟨hrewritten, hrewrites⟩
      rw [htail, hend.drop, List.append_nil] at hrewrites
      refine ⟨hrewritten, ?_, hrewrites⟩
      rw [← hrewrites.ends.view, hrewrites.view, List.length_append, hfront]
    · exact fun _ _ hfailed => hfailed.1 hyields
  · exact rewriteHeader_resized hlength (Nat.ne_of_lt hbefore)

/-- Headers that stand apart: one is rewritten in the middle, the last gets shorter. -/
theorem rewriteHeader_exact_apart :
    let header : Channel :=
      { location := .buffer "header", position := 5
        faults := { writes := [(0, .interrupted), (1, .accepts 1)] } }
    let outlet : Outlet :=
      { target :=
          { label := "tape", data := { location := .buffer "data" }, header := some header
            headerEnd := 5 }
        host := { store := { contents := [(.buffer "header", [1, 2, 3, 4, 5])] } } }
    outlet.headerPort.EndsAt 5 ∧ header.faults.IsYielding ∧
      Ends (rewriteHeader ⟨1, 2⟩ [8, 9]) outlet
        (fun rewritten next => rewritten = ⟨1, 2⟩ ∧ next.target.cursor = 5 ∧
          outlet.SetsHeaders next [1, 8, 9, 4, 5])
        (fun _ _ => False) ∧
      Ends (rewriteHeader ⟨3, 2⟩ [7]) outlet
        (fun rewritten next => rewritten = ⟨3, 1⟩ ∧ next.target.cursor = 4 ∧
          outlet.SetsHeaders next [1, 2, 3, 7])
        (fun _ _ => False) ∧
      rewriteHeader ⟨1, 2⟩ [7] outlet = .error (.format (.regionResized 1 2 1)) outlet := by
  intro header outlet
  have hend : outlet.headerPort.EndsAt 5 := ⟨by decide, rfl⟩
  have hmobile : outlet.headerPort.channel.IsMobile 5 := ⟨rfl, rfl, trivial⟩
  have hyields : header.faults.IsYielding := by
    refine ⟨fun call h => ?_, fun call h => ?_, rfl, nofun⟩
    · simpa [header] using Port.mem_of_lookup h
    · simpa [header] using Port.mem_of_lookup h
  obtain ⟨hsame, -, -⟩ := rewriteHeader_exact ⟨1, 2⟩ [8, 9] hend hmobile hyields (by decide)
  obtain ⟨-, htail, -⟩ := rewriteHeader_exact ⟨3, 2⟩ [7] hend hmobile hyields (by decide)
  obtain ⟨-, -, hresized⟩ := rewriteHeader_exact ⟨1, 2⟩ [7] hend hmobile hyields (by decide)
  exact ⟨hend, hyields, hsame rfl, htail (by decide) rfl, hresized (by decide) (by decide)⟩

/-! ## Channels that refuse -/

/--
A channel that refuses the rest of a region stands where it stopped, not at its
end.  Only where these are the same is the next append laid down at the cursor,
though its slot always says so; an append of a header that fails goes back there.
-/
theorem rewriteHeader_strays {next : Outlet} {cause : IoFault}
    (hend : outlet.headerPort.EndsAt outlet.target.cursor)
    (hmobile : outlet.headerPort.channel.IsMobile outlet.target.cursor)
    (hslot : slot.stop ≤ outlet.target.cursor)
    (hfailed : rewriteHeader slot region outlet = .error (.io cause) next) :
    ∃ accepted, accepted < region.length ∧ outlet.SparesData next ∧
      next.target.cursor = outlet.target.cursor ∧
      next.headerPort.view =
        outlet.headerPort.view.overwrite slot.offset (region.take accepted) ∧
      next.headerPort.channel.offset = slot.offset + accepted ∧
      next.headerPort.view.length = max outlet.target.cursor (slot.offset + accepted) ∧
      (next.headerPort.EndsAt next.target.cursor ↔
        slot.offset + accepted = outlet.target.cursor) ∧
      (∀ bytes, Ends (appendHeader bytes) next
        (fun place last => place = ⟨outlet.target.cursor, bytes.length⟩ ∧
          last.headerPort.view = next.headerPort.view.overwrite (slot.offset + accepted) bytes)
        (fun _ last => last.headerPort.EndsAt last.target.cursor)) ∧
      (outlet.target.isSplit = false → ∀ bytes recordLength,
        Ends (writeData bytes recordLength) next
          (fun _ last => last.dataPort.view =
            next.dataPort.view.overwrite (slot.offset + accepted) bytes)
          (fun _ _ => True)) := by
  have hstop : slot.stop = slot.offset + slot.length := rfl
  have hfits : region.length = slot.length ∨ slot.stop = outlet.target.cursor := by
    by_contra hneither
    obtain ⟨hlength, hbefore⟩ := not_or.mp hneither
    rw [rewriteHeader_resized hlength hbefore] at hfailed
    cases hfailed
  obtain ⟨-, -, hspares, hcursor, accepted, hless, hview, hoffset⟩ :=
    (rewriteHeader_fits hend hmobile hslot hfits).of_error hfailed
  have hlength : next.headerPort.view.length =
      max outlet.target.cursor (slot.offset + accepted) := by
    rw [hview, Bytes.length_overwrite, hend.view, List.length_take_of_le (Nat.le_of_lt hless)]
  have hle : next.headerPort.channel.offset ≤ next.headerPort.view.length := by
    rw [hoffset, hlength]
    exact Nat.le_max_right ..
  refine ⟨accepted, hless, hspares, hcursor, hview, hoffset, hlength, ?_, fun bytes => ?_, ?_⟩
  · constructor
    · intro hends
      rw [← hoffset, hends.offset, hcursor]
    · intro hsame
      refine ⟨?_, ?_⟩
      · rw [hlength, hcursor, hsame, Nat.max_self]
      · rw [hoffset, hcursor, hsame]
  · have hmobile' := hspares.confines.isMobile hmobile
    rw [← hcursor] at hmobile'
    apply (appendHeader_lays bytes hmobile' hle (by rw [hlength, hcursor]; omega)).mono
    · rintro place last ⟨hplace, -, hlays, -⟩
      rw [hcursor] at hplace
      refine ⟨hplace, ?_⟩
      rw [hlays.view_of_le hle, hoffset]
    · rintro _ last ⟨-, hends, hcursor', -⟩
      rwa [hcursor']
  · intro hjoined bytes recordLength
    have hport : next.dataPort = next.headerPort :=
      dataPort_eq_headerPort (hspares.split.trans hjoined)
    rw [← hport] at hle hoffset
    apply (writeData_lays bytes recordLength hle).mono
    · rintro _ last ⟨-, hlays, -⟩
      rw [hlays.view_of_le hle, hoffset]
    · exact fun _ _ => id

/-- One byte of a header is rewritten, and the next append starts behind it. -/
theorem rewriteHeader_strays_one_byte :
    let data : Channel :=
      { location := .buffer "data", position := 4
        faults := { writes := [(0, .accepts 1), (1, .failed)] } }
    let outlet : Outlet :=
      { target := { label := "tape", data, dataEnd := 4 }
        host := { store := { contents := [(.buffer "data", [1, 2, 3, 4])] } } }
    ∃ next, rewriteHeader ⟨0, 2⟩ [5, 6] outlet = .error (.io .writeFailed) next ∧
      ¬ next.headerPort.EndsAt next.target.cursor ∧ ∃ accepted, accepted < 2 ∧
        ∀ bytes recordLength, Ends (writeData bytes recordLength) next
          (fun _ last =>
            last.dataPort.view = next.dataPort.view.overwrite (0 + accepted) bytes)
          (fun _ _ => True) := by
  intro data outlet
  have hrun : (match rewriteHeader ⟨0, 2⟩ [5, 6] outlet with
      | .error cause _ => decide (cause = .io .writeFailed)
      | .ok _ _ => false) = true := by decide +kernel
  split at hrun
  · rename_i cause next hfailed
    obtain rfl := of_decide_eq_true hrun
    have hend : outlet.headerPort.EndsAt 4 := ⟨by decide, rfl⟩
    obtain ⟨accepted, hless, -, -, -, -, -, hends, -, hnext⟩ := rewriteHeader_strays hend
      ⟨rfl, rfl, trivial⟩ (by decide) hfailed
    refine ⟨next, hfailed, fun hend => ?_, accepted, hless, hnext rfl⟩
    have hsame : 0 + accepted = 4 := hends.mp hend
    have hless' : accepted < 2 := hless
    omega
  · cases hrun

end Rewrite

end SegmentStream.Outlet
