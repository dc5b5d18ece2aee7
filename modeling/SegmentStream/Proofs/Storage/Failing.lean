import SegmentStream.Proofs.Storage.Laying

/-!
# Channels that fail

Any call on a channel may be planned to fail.  Whatever it comes to, the channel
stays in its place, and the rest of its plan stays as it was.
-/

namespace SegmentStream

open SegmentStream.Action

/-- What was taken in part can be taken back: moving and cutting work, or every write does. -/
structure Channel.CutsBack (channel : Channel) : Prop where
  seeks : channel.faults.seeks = []
  truncates : channel.faults.truncates = []
  place : (∃ name, channel.location = .buffer name) ∨ channel.faults = {}

namespace Port

theorem Stays.cutsBack {port next : Port} (h : port.Stays next) (hcuts : port.channel.CutsBack) :
    next.channel.CutsBack := by
  obtain ⟨hseeks, htruncates, hplace⟩ := hcuts
  refine ⟨(congrArg Faults.seeks h.faults).trans hseeks,
    (congrArg Faults.truncates h.faults).trans htruncates, ?_⟩
  rcases hplace with ⟨name, hname⟩ | hnone
  · exact .inl ⟨name, h.location.trans hname⟩
  · exact .inr ((h.faults_eq (by rw [hnone])).trans hnone)

section Calls

variable (port : Port)

theorem seek_stays (offset : Nat) :
    Ends (seek (.start offset)) port (fun _ next => port.Stays next)
      (fun _ next => port.Stays next) :=
  (seek_views port offset).mono (fun _ _ h => .of_follows h.1) fun _ _ h => .of_follows h.1

theorem truncate_stays (length : Nat) :
    Ends (truncate length) port (fun _ next => port.Stays next)
      (fun _ next => port.Stays next) :=
  (truncate_views port length).mono (fun _ _ h => .of_follows h.1) fun _ _ h => .of_follows h.1

theorem flush_stays :
    Ends flush port (fun _ next => port.Stays next) (fun _ next => port.Stays next) :=
  (flush_views port).mono (fun _ _ h => .of_follows h.1) fun _ _ h => .of_follows h.1

theorem deliver_stays (refusal : IoFault) (bytes : Bytes) :
    port.Stays (deliver refusal bytes port).2 :=
  (deliver_views port refusal bytes).1.stays

theorem writeAll_stays (bytes : Bytes) :
    Ends (writeAll bytes) port (fun _ next => port.Stays next)
      (fun _ next => port.Stays next) := by
  have hstays := port.deliver_stays .incomplete bytes
  simp only [Ends, writeAll]
  cases (deliver .incomplete bytes port).1.fault <;> exact hstays

theorem rewind_stays (length : Nat) :
    Ends (rewind length) port (fun _ next => port.Stays next)
      (fun _ next => port.Stays next) := by
  rw [rewind, ends_bind]
  refine (truncate_stays port length).mono ?_ fun _ _ h => h
  rintro ⟨⟩ cut hcut
  rw [ends_discard]
  exact (seek_stays cut _).mono (fun _ _ h => hcut.trans h) fun _ _ h => hcut.trans h

end Calls

/-! ## Taking back -/

section CutsBack

variable {port : Port}

theorem rewind_ok (hcuts : port.channel.CutsBack) {name : String}
    (hbuffer : port.channel.location = .buffer name) (length : Nat) :
    Ends (rewind length) port (fun _ next => port.Stays next) (fun _ _ => False) := by
  have hreaches : port.channel.location.Reaches length := by
    rw [hbuffer]
    trivial
  rw [rewind, ends_bind]
  apply (truncate_views port length).mono
  · rintro ⟨⟩ cut ⟨hfollows, -⟩
    have hseeks : cut.channel.faults.seeks = [] := by
      rw [hfollows.faults, hcuts.seeks]
    rw [← hfollows.location] at hreaches
    rw [ends_discard]
    apply (seek_start_ends hseeks hreaches).mono
    · exact fun _ next hsought => .of_follows (hfollows.trans hsought.1)
    · exact fun _ _ => id
  · exact fun _ _ hfailed => (hfailed.2 hcuts.truncates).2 hreaches

/-- A channel without planned faults takes all it is offered. -/
theorem deliver_whole (refusal : IoFault) (bytes : Bytes) (hnone : port.channel.faults = {}) :
    (deliver refusal bytes port).1.fault = none := by
  apply deliver_yields
  rw [hnone]
  exact Faults.isYielding_of_none

end CutsBack

end Port

end SegmentStream
