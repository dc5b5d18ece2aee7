import SegmentStream.Proofs.Target.Contents

/-!
# Calls on a target

Appending leaves the contents as they were or with something whole behind them.
A header can be rewritten from wherever an earlier attempt left the channel: a
success makes the slot whole again, a failure leaves it at its length with other
bytes in it.  Every failure spends a planned fault.
-/

namespace SegmentStream.Outlet

open SegmentStream.Action

/-! ## Moving the cursor -/

def withCursor (outlet : Outlet) (cursor : Nat) : Outlet :=
  { outlet with target := outlet.target.withCursor cursor }

@[simp] theorem headerPort_withCursor (outlet : Outlet) (cursor : Nat) :
    (outlet.withCursor cursor).headerPort = outlet.headerPort := by
  obtain ⟨⟨label, data, _ | header, dataEnd, headerEnd⟩, host⟩ := outlet <;> rfl

@[simp] theorem dataPort_withCursor (outlet : Outlet) (cursor : Nat) :
    (outlet.withCursor cursor).dataPort = outlet.dataPort := by
  obtain ⟨⟨label, data, _ | header, dataEnd, headerEnd⟩, host⟩ := outlet <;> rfl

@[simp] theorem isSplit_withCursor (outlet : Outlet) (cursor : Nat) :
    (outlet.withCursor cursor).target.isSplit = outlet.target.isSplit := by
  obtain ⟨⟨label, data, _ | header, dataEnd, headerEnd⟩, host⟩ := outlet <;> rfl

@[simp] theorem cursor_withCursor (outlet : Outlet) (cursor : Nat) :
    (outlet.withCursor cursor).target.cursor = cursor := by
  obtain ⟨⟨label, data, _ | header, dataEnd, headerEnd⟩, host⟩ := outlet <;> rfl

theorem dataEnd_withCursor {outlet : Outlet} (cursor : Nat) (h : outlet.target.isSplit = true) :
    (outlet.withCursor cursor).target.dataEnd = outlet.target.dataEnd := by
  obtain ⟨⟨label, data, _ | header, dataEnd, headerEnd⟩, host⟩ := outlet
  · simp [Target.isSplit] at h
  · rfl

theorem withCursor_follows (outlet : Outlet) (cursor : Nat) :
    outlet.Follows (outlet.withCursor cursor) := by
  obtain ⟨⟨label, data, _ | header, dataEnd, headerEnd⟩, host⟩ := outlet
  · exact ⟨rfl, rfl, rfl, Nat.le_refl _, id, fun _ _ => rfl⟩
  · exact ⟨rfl, rfl, rfl, Nat.le_refl _, id, fun _ _ => rfl⟩

/-! ## Calls on the header channel -/

section Header

variable {outlet : Outlet} {contents : Contents} {stale : Bytes} {port : Port}

theorem Worn.holdsData_withHeaderPort (h : outlet.Worn contents stale)
    (hfollows : outlet.headerPort.Follows port) (hsplit : outlet.target.isSplit = true) :
    (outlet.withHeaderPort port).HoldsData contents.data := by
  obtain ⟨hview, hoffset, hend⟩ := h.data hsplit
  obtain ⟨hview', hchannel⟩ := dataPort_withHeaderPort h.sound hsplit hfollows
  exact ⟨hview'.trans hview, by rw [hchannel, hoffset], by rw [dataEnd_withHeaderPort, hend]⟩

theorem Worn.withHeaderPort (h : outlet.Worn contents stale)
    (hfollows : outlet.headerPort.Follows port) {bytes stale' : Bytes}
    (hview : port.view = bytes ++ stale') (hlength : bytes.length = contents.headerBytes.length) :
    (outlet.withHeaderPort port).Worn (contents.withHeaderBytes bytes) stale' where
  sound := (withHeaderPort_follows hfollows).isSound h.sound
  split := by rw [isSplit_withHeaderPort, h.split, Contents.withHeaderBytes_isSome]
  view := by rw [headerPort_withHeaderPort, Contents.headerBytes_withHeaderBytes, hview]
  cursor := by
    rw [cursor_withHeaderPort, h.cursor, Contents.headerBytes_withHeaderBytes, hlength]
  data hsplit := by
    rw [isSplit_withHeaderPort] at hsplit
    rw [Contents.withHeaderBytes_data _ (by rwa [← h.split])]
    exact h.holdsData_withHeaderPort hfollows hsplit

theorem Worn.withHeaderPort_withCursor (h : outlet.Worn contents stale)
    (hfollows : outlet.headerPort.Follows port) {bytes stale' : Bytes}
    (hview : port.view = bytes ++ stale') :
    ((outlet.withHeaderPort port).withCursor bytes.length).Worn
      (contents.withHeaderBytes bytes) stale' where
  sound := ((withHeaderPort_follows hfollows).trans (withCursor_follows ..)).isSound h.sound
  split := by
    rw [isSplit_withCursor, isSplit_withHeaderPort, h.split, Contents.withHeaderBytes_isSome]
  view := by
    rw [headerPort_withCursor, headerPort_withHeaderPort, Contents.headerBytes_withHeaderBytes,
      hview]
  cursor := by rw [cursor_withCursor, Contents.headerBytes_withHeaderBytes]
  data hsplit := by
    rw [isSplit_withCursor, isSplit_withHeaderPort] at hsplit
    obtain ⟨hview', hoffset, hend⟩ := h.holdsData_withHeaderPort hfollows hsplit
    rw [Contents.withHeaderBytes_data _ (by rwa [← h.split])]
    exact ⟨by rw [dataPort_withCursor, hview'], by rw [dataPort_withCursor, hoffset],
      by rw [dataEnd_withCursor _ (by rwa [isSplit_withHeaderPort]), hend]⟩

end Header

/-! ## Appending -/

section Append

variable {outlet : Outlet} {contents : Contents}

theorem appendHeader_ends (h : outlet.Keeps contents) (region : Bytes) :
    Ends (appendHeader region) outlet
      (fun slot next => slot = ⟨contents.headerBytes.length, region.length⟩ ∧
        outlet.Follows next ∧ next.Keeps (contents.appendHeader region))
      (fun _ next => outlet.Follows next ∧ next.Keeps contents ∧
        next.target.faultsAhead < outlet.target.faultsAhead) := by
  have hsteady := headerPort_isSteady h.worn.sound
  simp only [appendHeader, ends_bind, ends_get, ends_attempt, ends_onHeader, ends_throw,
    h.worn.cursor]
  refine (Port.writeAll_ends region hsteady h.inside).mono ?_ ?_
  · rintro ⟨⟩ port htook
    have hview : port.view = contents.headerBytes ++ region := by
      rw [htook.view, h.offset, h.view, Bytes.overwrite_length]
    have hfollows := withHeaderPort_follows htook.follows
    refine ⟨rfl, hfollows.trans (withCursor_follows ..), ?_, ?_⟩
    · have hlength : contents.headerBytes.length + region.length =
          (contents.headerBytes ++ region).length := by simp
      change Worn (withCursor _ (contents.headerBytes.length + region.length)) _ _
      rw [hlength]
      exact h.worn.withHeaderPort_withCursor htook.follows (by simpa using hview)
    · change (withCursor _ _).headerPort.channel.offset = _
      rw [headerPort_withCursor, headerPort_withHeaderPort, htook.offset, h.offset]
      simp [Contents.appendHeader]
  · -- the torn region is cut off again
    rintro cause port ⟨count, -, htook, hspent⟩
    have hview : port.view = contents.headerBytes ++ region.take count := by
      rw [htook.view, h.offset, h.view, Bytes.overwrite_length]
    have hreaches : port.channel.location.Reaches contents.headerBytes.length := by
      rw [htook.follows.location]
      exact headerPort_reaches h.worn.sound _
    rw [headerPort_withHeaderPort]
    have hsteady' := htook.follows.isSteady hsteady
    refine (Port.rewind_ends hsteady'.seeks hsteady'.truncates hreaches (by simp [hview])).mono ?_
      fun _ _ h => h.elim
    rintro ⟨⟩ next ⟨hfollows, hcut, hoffset⟩
    have hall := htook.follows.trans hfollows
    have hsame : ((outlet.withHeaderPort port).withHeaderPort next) =
        outlet.withHeaderPort next := by
      obtain ⟨⟨label, data, _ | header, dataEnd, headerEnd⟩, host⟩ := outlet <;> rfl
    rw [hsame]
    have hback : next.view = contents.headerBytes ++ [] := by simp [hcut, hview]
    have hworn := h.worn.withHeaderPort hall hback rfl
    rw [Contents.withHeaderBytes_headerBytes] at hworn
    refine ⟨withHeaderPort_follows hall, ⟨hworn, ?_⟩, ?_⟩
    · rw [headerPort_withHeaderPort, hoffset]
    · exact faultsAhead_withHeaderPort_lt (Nat.lt_of_le_of_lt hfollows.faultsAhead_le hspent)

def withDataEnd (outlet : Outlet) (offset : Nat) : Outlet :=
  { outlet with target := { outlet.target with dataEnd := offset } }

theorem withDataEnd_follows (outlet : Outlet) (offset : Nat) :
    outlet.Follows (outlet.withDataEnd offset) :=
  ⟨rfl, rfl, rfl, Nat.le_refl _, id, fun _ _ => rfl⟩

theorem Keeps.withDataPort (h : outlet.Keeps contents) {port : Port}
    (hfollows : outlet.dataPort.Follows port) {bytes : Bytes}
    (hview : port.view = contents.data ++ bytes)
    (hoffset : port.channel.offset = contents.data.length + bytes.length) :
    ((outlet.withDataPort port).withDataEnd (contents.data.length + bytes.length)).Keeps
      (contents.appendData bytes) := by
  have hall := (withDataPort_follows hfollows).trans
    (withDataEnd_follows _ (contents.data.length + bytes.length))
  have hsound := hall.isSound h.worn.sound
  have hsplit' : outlet.target.header.isSome = contents.header.isSome := h.worn.split
  by_cases hsplit : outlet.target.isSplit = true
  · obtain ⟨hview', hchannel⟩ := headerPort_withDataPort h.worn.sound hsplit hfollows
    have hbytes : (contents.appendData bytes).headerBytes = contents.headerBytes := by
      obtain ⟨data, _ | header⟩ := contents
      · rw [h.worn.split] at hsplit
        simp at hsplit
      · rfl
    have hcursor : outlet.target.cursor = outlet.target.headerEnd := by
      simp [Target.cursor, hsplit]
    refine ⟨⟨hsound, h.worn.split, ?_, ?_, fun _ => ⟨hview, ?_, ?_⟩⟩, ?_⟩
    · rw [hbytes, List.append_nil, ← h.view]
      exact hview'
    · rw [hbytes, ← h.worn.cursor, hcursor]
      exact if_pos hsplit
    · exact hoffset.trans (List.length_append ..).symm
    · exact (List.length_append ..).symm
    · rw [hbytes, ← h.offset]
      exact congrArg Channel.offset hchannel
  · have hsplit := Bool.not_eq_true _ ▸ hsplit
    have hnone : contents.header = none := by
      rw [h.worn.split] at hsplit
      simpa using hsplit
    have hbytes : (contents.appendData bytes).headerBytes = contents.data ++ bytes := by
      simp [Contents.headerBytes, Contents.appendData, hnone]
    have hsplit' : ((outlet.withDataPort port).withDataEnd
        (contents.data.length + bytes.length)).target.isSplit = false := hsplit
    have hport := (dataPort_eq_headerPort hsplit').symm.trans
      (show _ = port from rfl)
    refine ⟨⟨hsound, h.worn.split, ?_, ?_, fun htrue => ?_⟩, ?_⟩
    · rw [hport, hbytes, hview, List.append_nil]
    · rw [hbytes, List.length_append]
      rw [Target.cursor, hsplit']
      rfl
    · simp [hsplit'] at htrue
    · rw [hport, hbytes, List.length_append, hoffset]

theorem writeData_ends (h : outlet.Keeps contents) (bytes : Bytes) (recordLength : Nat) :
    Ends (writeData bytes recordLength) outlet
      (fun _ next => outlet.Follows next ∧ next.Keeps (contents.appendData bytes))
      (fun partly next => outlet.Follows next ∧
        next.Keeps (contents.appendData (bytes.take partly.written)) ∧
        partly.written < bytes.length ∧ max recordLength 1 ∣ partly.written ∧
        next.target.faultsAhead < outlet.target.faultsAhead) := by
  have hsteady := dataPort_isSteady h.worn.sound
  obtain ⟨hview, hoffset, hend⟩ := h.holdsData
  have hdelivered := Port.deliver_delivered .nothingAccepted bytes outlet.dataPort hsteady
    (Nat.le_of_eq (by rw [hview, hoffset]))
  simp only [writeData, ends_bind, ends_get, ends_onData, ends_change, hend]
  generalize Port.deliver .nothingAccepted bytes outlet.dataPort = outcome at hdelivered ⊢
  obtain ⟨⟨stored, fault⟩, port⟩ := outcome
  obtain ⟨htook, hcomplete, hrefused⟩ := hdelivered
  simp only at htook hcomplete hrefused ⊢
  have hafter : port.view = contents.data ++ bytes.take stored := by
    rw [htook.view, hoffset, hview, Bytes.overwrite_length]
  have hplace := htook.offset
  rw [hoffset] at hplace
  have hfollows := withDataPort_follows htook.follows
  cases fault with
  | none =>
      rw [hcomplete rfl, List.take_length] at hafter hplace
      rw [hcomplete rfl]
      exact ⟨hfollows.trans (withDataEnd_follows ..), h.withDataPort htook.follows hafter hplace⟩
  | some cause =>
      obtain ⟨hless, hspent⟩ := hrefused (by simp)
      have hlength : (bytes.take stored).length = stored := by
        rw [List.length_take]
        omega
      have hspent' := faultsAhead_withDataPort_lt hspent
      have hmod := Nat.mod_le stored (max recordLength 1)
      have hdvd : max recordLength 1 ∣ stored - stored % max recordLength 1 :=
        Nat.dvd_sub_mod stored
      rw [hlength] at hplace
      generalize hwhole : stored - stored % max recordLength 1 = whole at hdvd
      by_cases hall : whole = stored
      · simp only [if_pos hall]
        have hkeeps := h.withDataPort htook.follows hafter (by rw [hplace, hlength])
        rw [hlength] at hkeeps
        rw [hall]
        refine ⟨hfollows.trans (withDataEnd_follows ..), hkeeps, hless, by rwa [← hall], hspent'⟩
      · -- a torn record is cut off
        simp only [if_neg hall]
        have hreaches : port.channel.location.Reaches (contents.data.length + whole) := by
          rw [htook.follows.location]
          exact dataPort_reaches h.worn.sound _
        have hinside : contents.data.length + whole ≤ port.view.length := by
          rw [hafter, List.length_append, hlength]
          omega
        simp only [ends_bind, ends_attempt, ends_onData, dataPort_withDataPort]
        have hsteady' := htook.follows.isSteady hsteady
        refine (Port.rewind_ends hsteady'.seeks hsteady'.truncates hreaches hinside).mono ?_
          fun _ _ h => h.elim
        rintro ⟨⟩ next ⟨hfollows', hcut, hoffset'⟩
        have hcut' : next.view = contents.data ++ bytes.take whole := by
          rw [hcut, hafter, List.take_length_add_append, List.take_take, Nat.min_eq_left (by omega)]
        have hlength' : (bytes.take whole).length = whole := by
          rw [List.length_take]
          omega
        have hboth := htook.follows.trans hfollows'
        have hkeeps := h.withDataPort hboth hcut' (by rw [hoffset', hlength'])
        rw [hlength'] at hkeeps
        have hshort : whole < bytes.length := by omega
        refine ⟨(withDataPort_follows hboth).trans (withDataEnd_follows ..), hkeeps, hshort, hdvd,
          faultsAhead_withDataPort_lt (Nat.lt_of_le_of_lt hfollows'.faultsAhead_le hspent)⟩

end Append

/-! ## Rewriting -/

section Rewrite

variable {outlet : Outlet} {contents : Contents} {stale before old after : Bytes}

theorem withHeaderPort_withHeaderPort (outlet : Outlet) (first second : Port) :
    (outlet.withHeaderPort first).withHeaderPort second = outlet.withHeaderPort second := by
  obtain ⟨⟨label, data, _ | header, dataEnd, headerEnd⟩, host⟩ := outlet <;> rfl

theorem rewriteHeader_inside (h : outlet.Worn contents stale)
    (hbytes : contents.headerBytes = before ++ old ++ after) {region : Bytes}
    (hlength : region.length = old.length) :
    Ends (rewriteHeader ⟨before.length, old.length⟩ region) outlet
      (fun slot next => slot = ⟨before.length, region.length⟩ ∧ outlet.Follows next ∧
        next.Worn (contents.withHeaderBytes (before ++ region ++ after)) stale ∧
        next.headerPort.channel.offset = (before ++ region ++ after).length)
      (fun cause next => (∃ fault, cause = .io fault) ∧ outlet.Follows next ∧
        next.target.faultsAhead < outlet.target.faultsAhead ∧
        ∃ old' : Bytes, old'.length = old.length ∧
          next.Worn (contents.withHeaderBytes (before ++ old' ++ after)) stale) := by
  have hsteady := headerPort_isSteady h.sound
  have hview : outlet.headerPort.view = before ++ (old ++ after ++ stale) := by
    rw [h.view, hbytes]
    simp
  have hcursor : outlet.target.cursor = (before ++ region ++ after).length := by
    rw [h.cursor, hbytes]
    simp [hlength]
  have hrewrite := Port.rewrite_ends region hsteady (headerPort_reaches h.sound _) hview
  simp only [rewriteHeader, ends_bind, ends_get, ends_mapFault, hlength, ne_eq, not_true,
    false_and, if_false, ends_onHeader, Nat.lt_irrefl]
  refine (ends_bind _ _).mp (hrewrite.mono ?_ ?_)
  · rintro ⟨⟩ port ⟨hfollows, hview', hoffset⟩
    have hview' : port.view = before ++ region ++ after ++ stale := by
      rw [hview', hlength, List.append_assoc old, List.drop_left]
      simp
    by_cases htail : (Slot.isTail ⟨before.length, old.length⟩ outlet.target.cursor) = true
    · have hafter : after = [] := by
        have : before.length + old.length = outlet.target.cursor := by
          simpa [Slot.isTail, Slot.stop] using htail
        rw [hcursor, List.length_append, List.length_append, hlength] at this
        exact List.eq_nil_of_length_eq_zero (by omega)
      subst hafter
      rw [if_pos htail]
      have hstop : Slot.stop ⟨before.length, old.length⟩ = (before ++ region ++ []).length := by
        simp [Slot.stop, hlength]
      rw [hstop]
      refine ⟨rfl, (withHeaderPort_follows hfollows).trans (withCursor_follows ..),
        h.withHeaderPort_withCursor hfollows hview', ?_⟩
      change (withCursor _ _).headerPort.channel.offset = _
      rw [headerPort_withCursor, headerPort_withHeaderPort, hoffset]
      simp
    · rw [if_neg htail]
      simp only [ends_discard, ends_onHeader, headerPort_withHeaderPort,
        withHeaderPort_withHeaderPort, hcursor]
      have hreaches : port.channel.location.Reaches (before ++ region ++ after).length := by
        rw [hfollows.location]
        exact headerPort_reaches h.sound _
      refine (Port.seek_start_ends (hfollows.isSteady hsteady).seeks hreaches).mono ?_
        fun _ _ h => h.elim
      rintro - next ⟨hfollows', hview'', hoffset'⟩
      have hboth := hfollows.trans hfollows'
      refine ⟨rfl, withHeaderPort_follows hboth, ?_, ?_⟩
      · exact h.withHeaderPort hboth (hview''.trans hview') (by rw [← hcursor, h.cursor])
      · rw [headerPort_withHeaderPort, hoffset']
  · rintro cause port ⟨hfollows, hspent, count, hless, hview'⟩
    refine ⟨⟨cause, rfl⟩, withHeaderPort_follows hfollows, faultsAhead_withHeaderPort_lt hspent,
      region.take count ++ old.drop count, ?_, ?_⟩
    · rw [List.length_append, List.length_take, List.length_drop]
      omega
    · refine h.withHeaderPort hfollows ?_ ?_
      · rw [hview', List.append_assoc old, List.drop_append_of_le_length (by omega)]
        simp
      · rw [hbytes]
        simp only [List.length_append, List.length_take, List.length_drop]
        omega

/-- The last region is put in the place of the old one, at any length. -/
theorem rewriteHeader_tail (h : outlet.Worn contents stale)
    (hbytes : contents.headerBytes = before ++ old) (region : Bytes) :
    Ends (rewriteHeader ⟨before.length, old.length⟩ region) outlet
      (fun slot next => slot = ⟨before.length, region.length⟩ ∧ outlet.Follows next ∧
        ∃ stale' : Bytes, next.Worn (contents.withHeaderBytes (before ++ region)) stale' ∧
          next.headerPort.channel.offset = (before ++ region).length ∧
          stale'.length = if region.length < old.length then 0
            else old.length + stale.length - region.length)
      (fun cause next => (∃ fault, cause = .io fault) ∧ outlet.Follows next ∧
        next.target.faultsAhead < outlet.target.faultsAhead ∧
        ∃ old' stale' : Bytes, old'.length = old.length ∧
          next.Worn (contents.withHeaderBytes (before ++ old')) stale' ∧
          old.length + stale'.length ≤ max (old.length + stale.length) region.length) := by
  have hsteady := headerPort_isSteady h.sound
  have hview : outlet.headerPort.view = before ++ (old ++ stale) := by
    rw [h.view, hbytes]
    simp
  have hcursor : outlet.target.cursor = before.length + old.length := by
    rw [h.cursor, hbytes, List.length_append]
  have hrewrite := Port.rewrite_ends region hsteady (headerPort_reaches h.sound _) hview
  have htail : Slot.isTail ⟨before.length, old.length⟩ (before.length + old.length) = true := by
    simp [Slot.isTail, Slot.stop]
  have hstop : Slot.stop ⟨before.length, region.length⟩ = (before ++ region).length := by
    simp [Slot.stop]
  simp only [rewriteHeader, ends_bind, ends_get, ends_mapFault, hcursor, htail, Bool.not_true,
    Bool.false_eq_true, and_false, if_false, if_true, ends_onHeader, hstop]
  refine (ends_bind _ _).mp (hrewrite.mono ?_ ?_)
  · rintro ⟨⟩ port ⟨hfollows, hview', hoffset⟩
    by_cases hshort : region.length < old.length
    · -- what the old region has beyond the new one is cut off
      have hreaches : port.channel.location.Reaches (before ++ region).length := by
        rw [hfollows.location]
        exact headerPort_reaches h.sound _
      simp only [if_pos hshort, ends_bind, ends_onHeader, headerPort_withHeaderPort,
        withHeaderPort_withHeaderPort]
      refine (Port.truncate_ends (hfollows.isSteady hsteady).truncates hreaches
        (by simp [hview'])).mono ?_
        fun _ _ h => h.elim
      rintro ⟨⟩ next ⟨hfollows', hview'', hoffset'⟩
      have hboth := hfollows.trans hfollows'
      refine ⟨rfl, (withHeaderPort_follows hboth).trans (withCursor_follows ..), [],
        h.withHeaderPort_withCursor hboth ?_, ?_, rfl⟩
      · rw [hview'', hview', List.take_left, List.append_nil]
      · change (withCursor _ _).headerPort.channel.offset = _
        rw [headerPort_withCursor, headerPort_withHeaderPort, hoffset', hoffset,
          List.length_append]
    · rw [if_neg hshort]
      refine ⟨rfl, (withHeaderPort_follows hfollows).trans (withCursor_follows ..),
        (old ++ stale).drop region.length, h.withHeaderPort_withCursor hfollows hview', ?_, ?_⟩
      · change (withCursor _ _).headerPort.channel.offset = _
        rw [headerPort_withCursor, headerPort_withHeaderPort, hoffset, List.length_append]
      · rw [if_neg hshort, List.length_drop, List.length_append]
  · rintro cause port ⟨hfollows, hspent, count, hless, hview'⟩
    let rest := region.take count ++ (old ++ stale).drop count
    have hrest : rest.length = max count (old.length + stale.length) := by
      simp only [rest, List.length_append, List.length_take, List.length_drop]
      omega
    refine ⟨⟨cause, rfl⟩, withHeaderPort_follows hfollows, faultsAhead_withHeaderPort_lt hspent,
      rest.take old.length, rest.drop old.length, ?_, ?_, ?_⟩
    · rw [List.length_take]
      omega
    · refine h.withHeaderPort hfollows ?_ ?_
      · rw [hview', List.append_assoc before (rest.take _), List.take_append_drop]
        simp [rest]
      · rw [hbytes, List.length_append, List.length_append, List.length_take]
        omega
    · rw [List.length_drop]
      omega

end Rewrite

/-! ## Closing -/

section Close

variable {outlet : Outlet} {contents : Contents}

theorem Keeps.withHeaderPort (h : outlet.Keeps contents) {port : Port}
    (hfollows : outlet.headerPort.Follows port) (hview : port.view = outlet.headerPort.view)
    (hoffset : port.channel.offset = outlet.headerPort.channel.offset) :
    (outlet.withHeaderPort port).Keeps contents := by
  have hview' : port.view = contents.headerBytes ++ [] := by rw [hview, h.view, List.append_nil]
  have hworn := h.worn.withHeaderPort hfollows hview' rfl
  rw [Contents.withHeaderBytes_headerBytes] at hworn
  exact ⟨hworn, by rw [headerPort_withHeaderPort, hoffset, h.offset]⟩

theorem flush_ends (h : outlet.Keeps contents) :
    Ends flush outlet (fun _ next => outlet.Follows next ∧ next.Keeps contents)
      (fun _ _ => False) := by
  have hdata : ∀ current : Outlet, current.Keeps contents →
      Ends (onData Port.flush) current
        (fun _ next => current.Follows next ∧ next.Keeps contents) (fun (_ : IoFault) _ => False) := by
    intro current h
    obtain ⟨hview, hoffset, hend⟩ := h.holdsData
    rw [ends_onData]
    refine (Port.flush_ends (dataPort_isSteady h.worn.sound)).mono ?_ fun _ _ h => h
    rintro ⟨⟩ port ⟨hfollows, hview', hoffset', -⟩
    have hview'' : port.view = contents.data ++ [] := by rw [hview', hview, List.append_nil]
    have hkeeps := h.withDataPort hfollows hview'' (hoffset'.trans hoffset)
    rw [Contents.appendData_nil, List.length_nil, Nat.add_zero, ← hend] at hkeeps
    exact ⟨withDataPort_follows hfollows, hkeeps⟩
  simp only [flush, ends_bind, ends_get]
  by_cases hsplit : outlet.target.isSplit = true
  · simp only [if_pos hsplit, ends_bind, ends_onHeader]
    refine (Port.flush_ends (headerPort_isSteady h.worn.sound)).mono ?_ fun _ _ h => h
    rintro ⟨⟩ port ⟨hfollows, hview, hoffset, -⟩
    refine (hdata _ (h.withHeaderPort hfollows hview hoffset)).mono ?_ fun _ _ h => h
    rintro ⟨⟩ next ⟨hfollows', hkeeps⟩
    exact ⟨(withHeaderPort_follows hfollows).trans hfollows', hkeeps⟩
  · rw [if_neg hsplit]
    exact hdata outlet h

end Close

end SegmentStream.Outlet

namespace SegmentStream

/-! ## What is stored -/

/-- What two places hold, one of them for headers that stand apart. -/
def Contents.stored (store : Store) (data : Location) (header : Option Location) : Contents :=
  { data := store.read data, header := header.map store.read }

def Target.stored (target : Target) (store : Store) : Contents :=
  .stored store target.data.location (target.header.map Channel.location)

theorem Target.stored_congr {target next : Target} {store store' : Store}
    (hplaces : next.places = target.places)
    (hread : ∀ place ∈ target.places, store'.read place = store.read place) :
    next.stored store' = target.stored store := by
  obtain ⟨label, data, _ | header, dataEnd, headerEnd⟩ := target <;>
    obtain ⟨label', data', _ | header', dataEnd', headerEnd'⟩ := next <;>
    simp_all [Target.stored, Contents.stored, Target.places, Target.channels]

namespace Outlet

variable {outlet : Outlet} {contents : Contents}

theorem Keeps.views (h : outlet.Keeps contents) :
    contents = { data := outlet.dataPort.view
                 header := outlet.target.header.map fun channel =>
                   Port.view ⟨channel, outlet.host.store⟩ } := by
  have hdata := h.holdsData.view
  have hheader := h.view
  have hsplit : outlet.target.header.isSome = contents.header.isSome := h.worn.split
  obtain ⟨⟨label, data, _ | header, dataEnd, headerEnd⟩, host⟩ := outlet <;>
    obtain ⟨bytes, _ | headers⟩ := contents
  · simpa using hdata.symm
  · simp at hsplit
  · simp at hsplit
  · have hheader' : Port.view ⟨header, host.store⟩ = headers := hheader
    simp [hdata, hheader']

theorem Keeps.stored (h : outlet.Keeps contents) (hdirect : outlet.target.IsDirect) :
    outlet.target.stored outlet.host.store = contents := by
  rw [h.views]
  obtain ⟨⟨label, data, header, dataEnd, headerEnd⟩, host⟩ := outlet
  have hview : ∀ channel ∈ data :: header.toList,
      Port.view ⟨channel, host.store⟩ = host.store.read channel.location :=
    fun channel hchannel => Port.view_of_isDirect (hdirect channel hchannel)
  cases header <;>
    simp_all [Target.stored, Contents.stored, dataPort]

end Outlet

theorem Port.release_read (port : Port) :
    port.release.read port.channel.location = port.view := by
  rw [← settle_location]
  rfl

theorem Outlet.release_elsewhere (outlet : Outlet) {place : Location}
    (hplace : place ∉ outlet.target.places) :
    outlet.release.store.read place = outlet.host.store.read place := by
  obtain ⟨⟨label, data, _ | header, dataEnd, headerEnd⟩, host⟩ := outlet
  · exact (Port.settle_follows ⟨data, host.store⟩).elsewhere place
      (fun heq => hplace (List.mem_cons.mpr (.inl heq)))
  · have hplace' : place ≠ data.location ∧ place ≠ header.location := by
      simpa [Target.places, Target.channels] using hplace
    let first : Port := ⟨data, host.store⟩
    let second : Port := ⟨header, first.release⟩
    exact (second.settle_follows.elsewhere place hplace'.2).trans
      (first.settle_follows.elsewhere place hplace'.1)

theorem Outlet.Keeps.release {outlet : Outlet} {contents : Contents} (h : outlet.Keeps contents) :
    outlet.target.stored outlet.release.store = contents ∧
      ∀ place, place ∉ outlet.target.places →
        outlet.release.store.read place = outlet.host.store.read place := by
  refine ⟨?_, fun place hplace => release_elsewhere outlet hplace⟩
  have hviews := h.views
  have hne := fun hsplit => Target.data_ne_header h.worn.sound.apart hsplit
  obtain ⟨⟨label, data, _ | header, dataEnd, headerEnd⟩, host⟩ := outlet
  · rw [hviews]
    exact congrArg (fun bytes => Contents.mk bytes none) (Port.release_read ⟨data, host.store⟩)
  · rw [hviews]
    let first : Port := ⟨data, host.store⟩
    let second : Port := ⟨header, first.release⟩
    have hdata : second.release.read data.location = first.view := by
      rw [← Port.release_read]
      exact second.settle_follows.elsewhere _ (hne rfl)
    have hheader : second.release.read header.location = Port.view ⟨header, host.store⟩ := by
      refine (Port.release_read second).trans (Port.view_congr rfl ?_)
      exact first.settle_follows.elsewhere _ (hne rfl).symm
    change Contents.mk (second.release.read data.location)
      (some (second.release.read header.location)) = _
    rw [hdata, hheader]
    rfl

theorem Target.close_ends {target : Target} {host : Host} {contents : Contents}
    (h : Outlet.Keeps ⟨target, host⟩ contents) :
    Action.Ends target.close host
      (fun _ next => target.stored next.store = contents ∧
        ∀ place, place ∉ target.places → next.store.read place = host.store.read place)
      (fun _ _ => False) := by
  obtain ⟨value, next, hrun, hfollows, hkeeps⟩ := (Outlet.flush_ends h).exists_ok
  obtain ⟨hstored, helsewhere⟩ := hkeeps.release
  simp only [Action.Ends, Target.close, hrun]
  refine ⟨?_, fun place hplace => ?_⟩
  · rw [← hstored]
    exact Target.stored_congr hfollows.places.symm fun _ _ => rfl
  · have hplace' : place ∉ next.target.places := by rwa [hfollows.places]
    exact (helsewhere place hplace').trans (hfollows.elsewhere place hplace)

end SegmentStream
