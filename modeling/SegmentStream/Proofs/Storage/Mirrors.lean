import SegmentStream.Proofs.Beside
import SegmentStream.Proofs.Storage.Calls
import SegmentStream.Proofs.Storage.Failing

/-!
# Mirrored channels

The image of a channel is a buffer of its own that nothing is held back from and
that never fails.  Whatever a call on the channel comes to, as long as it does
not fail, the same call on the image leaves both with the same view and offset.
So bytes held back, short writes and interruptions never show.
-/

namespace SegmentStream

open SegmentStream.Action

/-- What a call on the channel may be refused with; a channel without a plan has limits only. -/
def Channel.Raises (channel : Channel) (cause : IoFault) : Prop :=
  channel.faults = {} → cause = .invalidArgument ∨ cause = .lengthOutOfRange

/-- Everything that a call on the channel may be refused with is excused. -/
def Channel.IsExcused (excused : IoFault → Prop) (channel : Channel) : Prop :=
  ∀ cause, channel.Raises cause → excused cause

/-- A buffer that takes everything at once. -/
structure Channel.IsPlain (channel : Channel) : Prop where
  buffer : ∃ name, channel.location = .buffer name
  faults : channel.faults = {}
  pending : channel.pending = []

section Plain

variable {channel : Channel}

theorem Channel.IsPlain.isDirect (h : channel.IsPlain) : channel.IsDirect := by
  obtain ⟨name, hbuffer⟩ := h.buffer
  constructor
  · rw [Channel.capacity, hbuffer]
  · exact h.pending

theorem Channel.IsPlain.isSteady (h : channel.IsPlain) : channel.IsSteady := by
  unfold Channel.IsSteady
  rw [h.faults]
  constructor <;> simp

theorem Channel.IsPlain.reaches (h : channel.IsPlain) (offset : Nat) :
    channel.location.Reaches offset := by
  obtain ⟨name, hbuffer⟩ := h.buffer
  rw [hbuffer]
  trivial

end Plain

namespace Port

/-! ## Images -/

/-- The same view and offset, whatever the channel holds back and wherever it may fail. -/
structure Mirrors (excused : IoFault → Prop) (port image : Port) : Prop where
  view : port.view = image.view
  offset : port.channel.offset = image.channel.offset
  plain : image.channel.IsPlain
  excused : port.channel.IsExcused excused

/-- Where a call leads from a channel and from its image. -/
structure Reflects (excused : IoFault → Prop) (port image next next' : Port) : Prop where
  mirrors : next.Mirrors excused next'
  confines : port.Confines next
  confines' : image.Confines next'

section Calls

variable {excused : IoFault → Prop} {port image : Port}

theorem Confines.isExcused {next : Port} (h : port.Confines next)
    (hexcused : port.channel.IsExcused excused) : next.channel.IsExcused excused := by
  intro cause hraises
  apply hexcused
  intro hnone
  exact hraises (h.faults_eq hnone)

theorem Confines.isPlain {next : Port} (h : image.Confines next)
    (hplain : image.channel.IsPlain) : next.channel.IsPlain := by
  obtain ⟨name, hbuffer⟩ := hplain.buffer
  constructor
  · exact ⟨name, h.stays.location.trans hbuffer⟩
  · exact h.faults_eq hplain.faults
  · exact (h.direct hplain.isDirect).2

/-- A channel keeps its image where only other places have changed. -/
theorem Mirrors.elsewhere {store store' : Store} (h : port.Mirrors excused image)
    (hread : store.read port.channel.location = port.store.read port.channel.location)
    (hread' : store'.read image.channel.location = image.store.read image.channel.location) :
    Mirrors excused ⟨port.channel, store⟩ ⟨image.channel, store'⟩ := by
  constructor
  · have hview : Port.view ⟨port.channel, store⟩ = port.view := view_congr rfl hread
    have hview' : Port.view ⟨image.channel, store'⟩ = image.view := view_congr rfl hread'
    rw [hview, hview', h.view]
  · exact h.offset
  · exact h.plain
  · exact h.excused

/-- A channel keeps its image where another goes on at one place, and both hold nothing back. -/
theorem Mirrors.together {next next' : Port} (h : port.Mirrors excused image)
    (hnext : next.Mirrors excused next')
    (hplace : port.channel.location = next.channel.location)
    (hplace' : image.channel.location = next'.channel.location)
    (hdirect : port.channel.IsDirect) (hdirect' : next.channel.IsDirect) :
    Mirrors excused ⟨port.channel, next.store⟩ ⟨image.channel, next'.store⟩ := by
  have hview : Port.view ⟨port.channel, next.store⟩ = next.store.read port.channel.location :=
    view_of_pending_nil hdirect.2
  have hview' : Port.view ⟨image.channel, next'.store⟩ =
      next'.store.read image.channel.location := view_of_pending_nil h.plain.pending
  constructor
  · calc Port.view ⟨port.channel, next.store⟩
        = next.view := by rw [hview, hplace, view_of_isDirect hdirect', contents]
      _ = next'.view := hnext.view
      _ = Port.view ⟨image.channel, next'.store⟩ := by
          rw [hview', hplace', view_of_isDirect hnext.plain.isDirect, contents]
  · exact h.offset
  · exact h.plain
  · exact h.excused

theorem Mirrors.reflects {next next' : Port} (h : port.Mirrors excused image)
    (hconfines : port.Confines next) (hconfines' : image.Confines next')
    (hview : next.view = next'.view) (hoffset : next.channel.offset = next'.channel.offset) :
    port.Reflects excused image next next' :=
  ⟨⟨hview, hoffset, hconfines'.isPlain h.plain, hconfines.isExcused h.excused⟩, hconfines,
    hconfines'⟩

theorem Reflects.trans {next next' last last' : Port} (h : port.Reflects excused image next next')
    (h' : next.Reflects excused next' last last') : port.Reflects excused image last last' :=
  ⟨h'.mirrors, h.confines.trans h'.confines, h.confines'.trans h'.confines'⟩

/-- A channel that does not take all it is offered has a plan, and that excuses everything. -/
theorem deliver_excused (h : port.Mirrors excused image) {refusal : IoFault} {bytes : Bytes}
    (hfault : (deliver refusal bytes port).1.fault ≠ none) (cause : IoFault) : excused cause := by
  apply h.excused
  intro hnone
  exact absurd (deliver_whole refusal bytes hnone) hfault

/-- Bytes are delivered whole to both, unless the channel refuses some. -/
theorem deliver_mirrors (h : port.Mirrors excused image) (refusal : IoFault) (bytes : Bytes) :
    (deliver refusal bytes image).1 = ⟨bytes.length, none⟩ ∧
      ((deliver refusal bytes port).1.fault = none →
        (deliver refusal bytes port).1.stored = bytes.length ∧
        port.Reflects excused image (deliver refusal bytes port).2
          (deliver refusal bytes image).2) := by
  obtain ⟨hconfines, hcomplete, -, hlays⟩ := deliver_views port refusal bytes
  obtain ⟨hconfines', hcomplete', -, hlays'⟩ := deliver_views image refusal bytes
  have hwhole' := deliver_whole refusal bytes h.plain.faults
  have hstored' := hcomplete' hwhole'
  have hlaid' := hlays' (.inl hwhole')
  constructor
  · revert hstored' hwhole'
    cases (deliver refusal bytes image).1
    rintro rfl rfl
    rfl
  · intro hnone
    have hstored := hcomplete hnone
    have hlaid := hlays (.inl hnone)
    rw [hstored, List.take_length] at hlaid
    rw [hstored', List.take_length] at hlaid'
    constructor
    · exact hstored
    · apply h.reflects hconfines hconfines'
      · rw [hlaid.view, hlaid'.view, h.view, h.offset]
      · rw [hlaid.offset, hlaid'.offset, h.offset]

theorem writeAll_mirrors (h : port.Mirrors excused image) (bytes : Bytes) :
    Beside (fun _ => ∀ cause, excused cause) (writeAll bytes) (writeAll bytes) port image
      (fun _ _ next next' => port.Reflects excused image next next' ∧
        (bytes ≠ [] → port.channel.offset + bytes.length ≤ next.view.length))
      fun _ _ _ => False := by
  obtain ⟨hwhole', hdelivered⟩ := deliver_mirrors h .incomplete bytes
  apply beside_of_ends
  simp only [Ends, writeAll, hwhole']
  cases hfault : (deliver .incomplete bytes port).1.fault with
  | some fault =>
      apply deliver_excused h
      rw [hfault]
      exact Option.some_ne_none fault
  | none =>
      obtain ⟨hstored, hreflects⟩ := hdelivered hfault
      refine ⟨hreflects, fun hbytes => ?_⟩
      obtain ⟨-, -, -, hlays⟩ := deliver_views port .incomplete bytes
      have hlaid := hlays (.inl hfault)
      rw [hstored, List.take_length] at hlaid
      rw [← hlaid.offset]
      exact hlaid.offset_le (.inl hbytes)

theorem seek_mirrors (h : port.Mirrors excused image) (offset : Nat) :
    Beside excused (seek (.start offset)) (seek (.start offset)) port image
      (fun _ _ next next' => port.Reflects excused image next next' ∧
        next.channel.offset = offset)
      fun _ _ _ => False := by
  apply beside_of_ends
  apply (seek_views port offset).mono
  · rintro _ next ⟨hfollows, hview, hoffset⟩
    apply (seek_start_ends h.plain.isSteady.seeks (h.plain.reaches offset)).mono
    · rintro _ next' ⟨hfollows', hview', hoffset'⟩
      refine ⟨h.reflects (.of_follows hfollows) (.of_follows hfollows') ?_ ?_, hoffset⟩
      · rw [hview, hview', h.view]
      · rw [hoffset, hoffset']
    · exact fun _ _ => id
  · rintro cause next ⟨-, hrefused⟩
    apply h.excused
    intro hnone
    exact .inl (hrefused (by rw [hnone])).1

theorem truncate_mirrors (h : port.Mirrors excused image) {length : Nat}
    (hle : length ≤ port.view.length) :
    Beside excused (truncate length) (truncate length) port image
      (fun _ _ next next' => port.Reflects excused image next next') fun _ _ _ => False := by
  apply beside_of_ends
  apply (truncate_views port length).mono
  · rintro _ next ⟨hfollows, hview, hoffset⟩
    have hle' : length ≤ image.view.length := by rwa [← h.view]
    apply (truncate_ends h.plain.isSteady.truncates (h.plain.reaches length) hle').mono
    · rintro _ next' ⟨hfollows', hview', hoffset'⟩
      apply h.reflects (.of_follows hfollows) (.of_follows hfollows')
      · rw [hview hle, hview', h.view]
      · rw [hoffset, hoffset', h.offset]
    · exact fun _ _ => id
  · rintro cause next ⟨-, hrefused⟩
    apply h.excused
    intro hnone
    exact .inr (hrefused (by rw [hnone])).1

/-- Bytes are written over those from an offset on, wherever the channel stands before. -/
theorem rewrite_mirrors (h : port.Mirrors excused image) (offset : Nat) {bytes : Bytes}
    (hbytes : bytes ≠ []) :
    let rewrite : Action IoFault Port Unit := do
      discard (seek (.start offset))
      writeAll bytes
    Beside excused rewrite rewrite port image
      (fun _ _ next next' => port.Reflects excused image next next' ∧
        offset + bytes.length ≤ next.view.length)
      fun _ _ _ => False := by
  intro rewrite
  apply Beside.bind
  apply Beside.discard
  apply (seek_mirrors h offset).mono
  · rintro _ _ sought sought' ⟨hreflects, hoffset⟩
    apply ((writeAll_mirrors hreflects.mirrors bytes).excuse fun cause hall => hall cause).mono
    · rintro _ _ next next' ⟨hwritten, hlength⟩
      rw [← hoffset]
      exact ⟨hreflects.trans hwritten, hlength hbytes⟩
    · exact fun _ _ _ => id
  · exact fun _ _ _ => id

theorem flush_mirrors (h : port.Mirrors excused image) :
    Beside excused flush flush port image
      (fun _ _ next next' => port.Reflects excused image next next') fun _ _ _ => False := by
  apply beside_of_ends
  apply (flush_views port).mono
  · rintro _ next ⟨hfollows, hview, hoffset, -⟩
    apply (flush_ends h.plain.isSteady).mono
    · rintro _ next' ⟨hfollows', hview', hoffset', -⟩
      apply h.reflects (.of_follows hfollows) (.of_follows hfollows')
      · rw [hview, hview', h.view]
      · rw [hoffset, hoffset', h.offset]
    · exact fun _ _ => id
  · rintro cause next ⟨-, -, hplanned⟩
    apply h.excused
    intro hnone
    rw [hnone] at hplanned
    exact absurd rfl hplanned

end Calls

end Port

end SegmentStream
