import SegmentStream.Proofs.Storage.Confines

/-!
# Laying down and taking back

A channel at the end of what it holds grows by what it takes.  While it can be
moved and cut, everything it took of a write can be taken back, whichever writes
go wrong.  A yielding channel may take its time, but it takes all it is offered.
-/

namespace SegmentStream

open SegmentStream.Action

theorem Location.Reaches.mono {location : Location} {offset reach : Nat}
    (h : location.Reaches reach) (hle : offset ≤ reach) : location.Reaches offset := by
  cases location with
  | buffer name => trivial
  | file path => exact Nat.lt_of_le_of_lt hle h

/-- No move and no cut is planned to fail, and the place has offsets up to `reach`. -/
structure Channel.IsMobile (channel : Channel) (reach : Nat) : Prop where
  seeks : channel.faults.seeks = []
  truncates : channel.faults.truncates = []
  reaches : channel.location.Reaches reach

/-- Writes may be interrupted and may be short, but none fails or takes nothing. -/
structure Faults.IsYielding (faults : Faults) : Prop where
  failed : ∀ call, faults.ofWrite? call ≠ some .failed
  accepts : ∀ call, faults.ofWrite? call ≠ some (.accepts 0)
  limit : faults.limit = none
  chunk : faults.chunk ≠ some 0

theorem Faults.isYielding_of_none : Faults.IsYielding {} :=
  ⟨fun _ => nofun, fun _ => nofun, rfl, nofun⟩

namespace Port

/-- All is stored or held back, and the channel stands behind it. -/
structure EndsAt (port : Port) (length : Nat) : Prop where
  view : port.view.length = length
  offset : port.channel.offset = length

theorem EndsAt.le {port : Port} {length : Nat} (h : port.EndsAt length) :
    port.channel.offset ≤ port.view.length :=
  Nat.le_of_eq (h.offset.trans h.view.symm)

theorem EndsAt.drop {port : Port} {length : Nat} (h : port.EndsAt length) :
    port.view.drop length = [] := by
  rw [← h.view, List.drop_length]

section Confines

variable {port next : Port}

theorem Confines.isMobile {reach : Nat} (h : port.Confines next)
    (hmobile : port.channel.IsMobile reach) : next.channel.IsMobile reach where
  seeks := (congrArg Faults.seeks h.stays.faults).trans hmobile.seeks
  truncates := (congrArg Faults.truncates h.stays.faults).trans hmobile.truncates
  reaches := by
    rw [h.stays.location]
    exact hmobile.reaches

theorem Confines.isYielding (h : port.Confines next) (hyields : port.channel.faults.IsYielding) :
    next.channel.faults.IsYielding := by
  rw [h.stays.faults_eq hyields.limit]
  exact hyields

theorem Confines.view_elsewhere (h : port.Confines next) {channel : Channel}
    (hne : channel.location ≠ port.channel.location) :
    (⟨channel, next.store⟩ : Port).view = (⟨channel, port.store⟩ : Port).view :=
  view_congr rfl (h.elsewhere _ hne)

end Confines

section AtEnd

variable {port next : Port} {length : Nat} {bytes : Bytes}

theorem Lays.view_of_endsAt (h : port.Lays next bytes) (hend : port.EndsAt length) :
    next.view = port.view ++ bytes := by
  rw [h.view_of_le hend.le, hend.offset, ← hend.view, Bytes.overwrite_length]

theorem Lays.endsAt (h : port.Lays next bytes) (hend : port.EndsAt length) :
    next.EndsAt (length + bytes.length) := by
  constructor
  · rw [h.view_of_endsAt hend, List.length_append, hend.view]
  · rw [h.offset, hend.offset]

theorem rewind_views (keep : Nat) {reach : Nat} (hmobile : port.channel.IsMobile reach)
    (hkeep : keep ≤ reach) (hle : keep ≤ port.view.length) :
    Ends (rewind keep) port
      (fun _ next => port.Confines next ∧ next.view = port.view.take keep ∧ next.EndsAt keep)
      (fun _ _ => False) := by
  apply (rewind_ends hmobile.seeks hmobile.truncates (hmobile.reaches.mono hkeep) hle).mono
  · rintro ⟨⟩ next ⟨hfollows, hview, hoffset⟩
    refine ⟨.of_follows hfollows, hview, ?_, hoffset⟩
    rw [hview, List.length_take_of_le hle]
  · exact fun _ _ => id

end AtEnd

section Yielding

variable {port : Port}

theorem write_pos {bytes : Bytes} (hyields : port.channel.faults.IsYielding) (hbytes : bytes ≠ []) :
    Ends (write bytes) port (fun count _ => 0 < count) (fun cause _ => cause = .interrupted) :=
  (write_advances hyields.limit hyields.chunk hbytes).mono
    (fun _ _ htaken => htaken.resolve_right (hyields.accepts _))
    fun _ _ hrefused => (hrefused.resolve_left (hyields.failed _)).1

/-- However often a yielding channel is interrupted, all is taken in the end. -/
theorem deliver_yields (refusal : IoFault) (bytes : Bytes)
    (hyields : port.channel.faults.IsYielding) : (deliver refusal bytes port).1.fault = none := by
  fun_induction deliver refusal bytes port with
  | case1 port => rfl
  | case2 bytes port hne next h =>
      exact absurd ((write_pos hyields hne).of_ok h) (Nat.lt_irrefl 0)
  | case3 bytes port hne count next h rest last hrest ih =>
      obtain ⟨-, hconfines, -⟩ := (write_views port bytes).of_ok h
      rw [hrest] at ih
      exact ih (hconfines.isYielding hyields)
  | case4 bytes port hne next h ih =>
      exact ih (((write_views port bytes).of_error h).confines.isYielding hyields)
  | case5 bytes port hne fault next hnot h =>
      exact absurd ((write_pos hyields hne).of_error h) hnot

theorem writeAll_lays (bytes : Bytes) (hle : port.channel.offset ≤ port.view.length) :
    Ends (writeAll bytes) port (fun _ next => port.Lays next bytes)
      (fun _ next => ¬ port.channel.faults.IsYielding ∧
        ∃ count, count < bytes.length ∧ port.Lays next (bytes.take count)) := by
  have hviews := writeAll_views port bytes hle
  have hyields : port.channel.faults.IsYielding → (deliver .incomplete bytes port).1.fault = none :=
    deliver_yields .incomplete bytes
  simp only [Ends, writeAll] at hviews ⊢
  cases hfault : (deliver .incomplete bytes port).1.fault with
  | none =>
      rw [hfault] at hviews
      exact hviews
  | some fault =>
      rw [hfault] at hviews hyields
      exact ⟨fun hyielding => Option.some_ne_none _ (hyields hyielding), hviews⟩

end Yielding

/-! ## Writing over what is there -/

section Over

variable {port : Port} {offset reach : Nat}

/-- The bytes are laid over what is there from an offset on, or a front part of them is. -/
theorem layOver_views (hmobile : port.channel.IsMobile reach) (hoffset : offset ≤ reach)
    (hle : offset ≤ port.view.length) (bytes : Bytes) :
    Ends (do discard (seek (.start offset)); writeAll bytes) port
      (fun _ next => port.Confines next ∧ next.view = port.view.overwrite offset bytes ∧
        next.channel.offset = offset + bytes.length)
      (fun _ next => ¬ port.channel.faults.IsYielding ∧ port.Confines next ∧
        ∃ count, count < bytes.length ∧ next.view = port.view.overwrite offset (bytes.take count) ∧
          next.channel.offset = offset + count) := by
  simp only [ends_bind, ends_discard]
  apply (seek_start_ends hmobile.seeks (hmobile.reaches.mono hoffset)).mono
  · rintro _ sought ⟨hfollows, hview, hsought⟩
    have hconfines : port.Confines sought := .of_follows hfollows
    have hinside : sought.channel.offset ≤ sought.view.length := by rwa [hsought, hview]
    have hlaid : ∀ {next : Port} {piece : Bytes}, sought.Lays next piece →
        next.view = port.view.overwrite offset piece ∧
          next.channel.offset = offset + piece.length := by
      intro next piece hlays
      constructor
      · rw [hlays.view_of_le hinside, hview, hsought]
      · rw [hlays.offset, hsought]
    apply (writeAll_lays bytes hinside).mono
    · intro _ next hlays
      exact ⟨hconfines.trans hlays.confines, hlaid hlays⟩
    · rintro cause next ⟨hstubborn, count, hless, hlays⟩
      have hpiece := hlaid hlays
      rw [List.length_take_of_le (Nat.le_of_lt hless)] at hpiece
      refine ⟨?_, hconfines.trans hlays.confines, count, hless, hpiece⟩
      exact fun hyields => hstubborn (hconfines.isYielding hyields)
  · exact fun _ _ => False.elim

end Over

end Port

end SegmentStream
