import SegmentStream.Proofs.Storage.Confines

/-!
# Calls on a steady channel

A write takes a front part of what it is offered; a call that refuses or is
interrupted was planned to, so that fewer planned faults are left.
-/

namespace SegmentStream.Port

open SegmentStream.Action

/-- The view after `bytes` were taken at the offset, which moved behind them. -/
structure Took (port next : Port) (bytes : Bytes) : Prop where
  follows : port.Follows next
  view : next.view = port.view.overwrite port.channel.offset bytes
  offset : next.channel.offset = port.channel.offset + bytes.length

theorem Took.offset_le {port next : Port} {bytes : Bytes} (h : port.Took next bytes) :
    next.channel.offset ≤ next.view.length := by
  rw [h.offset, h.view, Bytes.length_overwrite]
  omega

theorem Lays.took {port next : Port} {bytes : Bytes} (h : port.Lays next bytes)
    (hlimit : port.channel.faults.limit = none) (hle : port.channel.offset ≤ port.view.length) :
    port.Took next bytes where
  follows := ⟨h.confines.stays.location, h.confines.stays.faults_eq hlimit, h.writes,
    h.confines.direct, h.confines.elsewhere⟩
  view := h.view_of_le hle
  offset := h.offset

/-! ## Writing -/

section Write

variable {port : Port}

theorem faultsAhead_lt {bytes : Bytes} {fault : WriteFault}
    (hplanned : port.channel.faults.ofWrite? port.channel.calls.writes = some fault) :
    ((write bytes).stateAfter port).channel.faultsAhead < port.channel.faultsAhead := by
  obtain ⟨hwrites, hcalls⟩ := write_channel bytes port
  rw [Channel.faultsAhead, Channel.faultsAhead, hwrites, hcalls]
  apply countP_lt_of_mem (x := (port.channel.calls.writes, fault))
  · intro other _ hle
    simp only [decide_eq_true_eq] at hle ⊢
    omega
  · exact mem_of_lookup hplanned
  · simp
  · simp

/-- A write that does not get on was planned not to. -/
theorem write_spends {bytes : Bytes} (hsteady : port.channel.IsSteady) (hbytes : bytes ≠ []) :
    Ends (write bytes) port
      (fun count next => count = 0 → next.channel.faultsAhead < port.channel.faultsAhead)
      (fun _ next => next.channel.faultsAhead < port.channel.faultsAhead) := by
  have hadvances := write_advances hsteady.limit hsteady.chunk hbytes
  have hspent : ∀ fault, port.channel.faults.ofWrite? port.channel.calls.writes = some fault →
      ((write bytes).stateAfter port).channel.faultsAhead < port.channel.faultsAhead :=
    fun _ => faultsAhead_lt
  rw [stateAfter] at hspent
  unfold Ends at hadvances ⊢
  cases hrun : write bytes port with
  | ok count next =>
      simp only [hrun] at hadvances hspent ⊢
      rintro rfl
      exact hspent _ (hadvances.resolve_left (Nat.lt_irrefl 0))
  | error cause next =>
      simp only [hrun] at hadvances hspent ⊢
      rcases hadvances with hfailed | ⟨-, hinterrupted⟩
      · exact hspent _ hfailed
      · exact hspent _ hinterrupted

theorem write_ends {bytes : Bytes} (hsteady : port.channel.IsSteady)
    (hinside : port.channel.offset ≤ port.view.length) (hbytes : bytes ≠ []) :
    Ends (write bytes) port
      (fun count next => port.Took next (bytes.take count) ∧
        (count = 0 → next.channel.faultsAhead < port.channel.faultsAhead))
      (fun _ next => port.Took next [] ∧
        next.channel.faultsAhead < port.channel.faultsAhead) := by
  apply ((write_views port bytes).and (write_spends hsteady hbytes)).mono
  · rintro count next ⟨⟨-, -, hlays⟩, hspent⟩
    exact ⟨(hlays (.inr hinside)).took hsteady.limit hinside, hspent⟩
  · rintro cause next ⟨hlays, hspent⟩
    exact ⟨hlays.took hsteady.limit hinside, hspent⟩

end Write

/-! ## Delivering -/

/-- What comes of offering `bytes` until they are taken or refused. -/
structure Delivered (port next : Port) (bytes : Bytes) (delivery : Delivery) : Prop where
  took : port.Took next (bytes.take delivery.stored)
  complete : delivery.fault = none → delivery.stored = bytes.length
  refused : delivery.fault ≠ none → delivery.stored < bytes.length ∧
    next.channel.faultsAhead < port.channel.faultsAhead

theorem deliver_spends (refusal : IoFault) (bytes : Bytes) (port : Port)
    (hsteady : port.channel.IsSteady) (hinside : port.channel.offset ≤ port.view.length)
    (hfault : (deliver refusal bytes port).1.fault ≠ none) :
    (deliver refusal bytes port).2.channel.faultsAhead < port.channel.faultsAhead := by
  fun_induction deliver refusal bytes port with
  | case1 port => exact absurd rfl hfault
  | case2 bytes port hne next h =>
      obtain ⟨-, hspent⟩ := (write_ends hsteady hinside hne).of_ok h
      exact hspent rfl
  | case3 bytes port hne count next h rest last hrest ih =>
      obtain ⟨htook, -⟩ := (write_ends hsteady hinside hne).of_ok h
      rw [hrest] at ih
      have hspent := ih (htook.follows.isSteady hsteady) htook.offset_le hfault
      exact Nat.lt_of_lt_of_le hspent htook.follows.faultsAhead_le
  | case4 bytes port hne next h ih =>
      obtain ⟨htook, hspent⟩ := (write_ends hsteady hinside hne).of_error h
      exact Nat.lt_trans (ih (htook.follows.isSteady hsteady) htook.offset_le hfault) hspent
  | case5 bytes port hne fault next hnot h =>
      obtain ⟨-, hspent⟩ := (write_ends hsteady hinside hne).of_error h
      exact hspent

theorem deliver_delivered (refusal : IoFault) (bytes : Bytes) (port : Port)
    (hsteady : port.channel.IsSteady) (hinside : port.channel.offset ≤ port.view.length) :
    port.Delivered (deliver refusal bytes port).2 bytes (deliver refusal bytes port).1 := by
  obtain ⟨-, hcomplete, hrefused, hlays⟩ := deliver_views port refusal bytes
  refine ⟨(hlays (.inr hinside)).took hsteady.limit hinside, hcomplete, fun hfault => ?_⟩
  exact ⟨hrefused hfault, deliver_spends refusal bytes port hsteady hinside hfault⟩

theorem writeAll_ends (bytes : Bytes) {port : Port} (hsteady : port.channel.IsSteady)
    (hinside : port.channel.offset ≤ port.view.length) :
    Ends (writeAll bytes) port (fun _ next => port.Took next bytes)
      (fun _ next => ∃ count, count < bytes.length ∧ port.Took next (bytes.take count) ∧
        next.channel.faultsAhead < port.channel.faultsAhead) := by
  obtain ⟨htook, hcomplete, hrefused⟩ := deliver_delivered .incomplete bytes port hsteady hinside
  simp only [Ends, writeAll]
  cases hfault : (deliver .incomplete bytes port).1.fault with
  | none =>
      rw [hcomplete hfault, List.take_length] at htook
      exact htook
  | some fault =>
      obtain ⟨hless, hspent⟩ := hrefused (by simp [hfault])
      exact ⟨_, hless, htook, hspent⟩

/-! ## Writing over and flushing -/

section Over

variable {port : Port}

/-- Bytes are written over those from an offset on, wherever the channel stands before. -/
theorem rewrite_ends {before rest : Bytes} (bytes : Bytes) (hsteady : port.channel.IsSteady)
    (hreaches : port.channel.location.Reaches before.length) (hview : port.view = before ++ rest) :
    Ends (do discard (seek (.start before.length)); writeAll bytes) port
      (fun _ next => port.Follows next ∧
        next.view = before ++ bytes ++ rest.drop bytes.length ∧
        next.channel.offset = before.length + bytes.length)
      (fun _ next => port.Follows next ∧
        next.channel.faultsAhead < port.channel.faultsAhead ∧
        ∃ count, count < bytes.length ∧
          next.view = before ++ bytes.take count ++ rest.drop count) := by
  have hlaid : ∀ piece : Bytes, (before ++ rest).overwrite before.length piece =
      before ++ piece ++ rest.drop piece.length := by
    intro piece
    rw [Bytes.overwrite_of_le _ (by simp), List.take_left, List.drop_length_add_append]
  simp only [ends_bind, ends_discard]
  refine (seek_start_ends hsteady.seeks hreaches).mono (fun _ sought hsought => ?_)
    fun _ _ h => h.elim
  obtain ⟨hfollows, hview', hoffset⟩ := hsought
  have hinside : sought.channel.offset ≤ sought.view.length := by
    rw [hoffset, hview', hview]
    simp
  refine (writeAll_ends bytes (hfollows.isSteady hsteady) hinside).mono ?_ ?_
  · rintro ⟨⟩ next htook
    refine ⟨hfollows.trans htook.follows, ?_, by rw [htook.offset, hoffset]⟩
    rw [htook.view, hoffset, hview', hview, hlaid]
  · rintro cause next ⟨count, hless, htook, hspent⟩
    have hahead := hfollows.faultsAhead_le
    refine ⟨hfollows.trans htook.follows, by omega, count, hless, ?_⟩
    rw [htook.view, hoffset, hview', hview, hlaid, List.length_take, Nat.min_eq_left (by omega)]

theorem flush_ends (hsteady : port.channel.IsSteady) :
    Ends flush port
      (fun _ next => port.Follows next ∧ next.view = port.view ∧
        next.channel.offset = port.channel.offset ∧ next.contents = port.view)
      (fun _ _ => False) := by
  apply (flush_views port).mono
  · rintro ⟨⟩ next ⟨hfollows, hview, hoffset, hpending⟩
    exact ⟨hfollows, hview, hoffset, (view_of_pending_nil hpending).symm.trans hview⟩
  · exact fun _ _ hfailed => hfailed.2.2 hsteady.flushes

end Over

end SegmentStream.Port
