import SegmentStream.Proofs.Storage.View

/-!
# Calls on any channel

What a call does to the view and the offset of a channel, whatever is planned to
go wrong with it, and wherever the channel stands.  A call that fails still
leaves the channel in its place and every other place alone.
-/

namespace SegmentStream.Port

open SegmentStream.Action

/-- The same place and the same plan; a limit may have been lifted. -/
structure Stays (port next : Port) : Prop where
  location : next.channel.location = port.channel.location
  faults : { next.channel.faults with limit := none } = { port.channel.faults with limit := none }
  limit : port.channel.faults.limit = none → next.channel.faults.limit = none

namespace Stays

variable {port next last : Port}

theorem refl (port : Port) : port.Stays port := ⟨rfl, rfl, id⟩

theorem trans (h : port.Stays next) (h' : next.Stays last) : port.Stays last :=
  ⟨h'.location.trans h.location, h'.faults.trans h.faults, fun hnone => h'.limit (h.limit hnone)⟩

theorem of_follows (h : port.Follows next) : port.Stays next :=
  ⟨h.location, by rw [h.faults], fun hnone => by rw [h.faults, hnone]⟩

/-- Without a limit there is none to be lifted. -/
theorem faults_eq (h : port.Stays next) (hnone : port.channel.faults.limit = none) :
    next.channel.faults = port.channel.faults :=
  calc next.channel.faults
      = { next.channel.faults with limit := none } := by rw [← h.limit hnone]
    _ = { port.channel.faults with limit := none } := h.faults
    _ = port.channel.faults := by rw [← hnone]

end Stays

/-- The place and the plan of the channel remain, and other places keep what they held. -/
structure Confines (port next : Port) : Prop where
  stays : port.Stays next
  direct : port.channel.IsDirect → next.channel.IsDirect
  elsewhere : ∀ other, other ≠ port.channel.location →
    next.store.read other = port.store.read other

namespace Confines

variable {port next last : Port}

theorem refl (port : Port) : port.Confines port := ⟨.refl port, id, fun _ _ => rfl⟩

theorem trans (h : port.Confines next) (h' : next.Confines last) : port.Confines last := by
  constructor
  · exact h.stays.trans h'.stays
  · exact fun hdirect => h'.direct (h.direct hdirect)
  · intro other hother
    have hother' : other ≠ next.channel.location := by rwa [h.stays.location]
    rw [h'.elsewhere other hother', h.elsewhere other hother]

theorem of_follows (h : port.Follows next) : port.Confines next :=
  ⟨.of_follows h, h.direct, h.elsewhere⟩

theorem faults_eq (h : port.Confines next) (hnone : port.channel.faults = {}) :
    next.channel.faults = {} :=
  (h.stays.faults_eq (by rw [hnone])).trans hnone

end Confines

/-- Bytes are laid down at the offset, which moves behind them.  Nothing at all fills no gap. -/
structure Lays (port next : Port) (bytes : Bytes) : Prop where
  confines : port.Confines next
  writes : port.channel.calls.writes ≤ next.channel.calls.writes
  view : next.view = if bytes = [] then port.view
    else port.view.overwrite port.channel.offset bytes
  offset : next.channel.offset = port.channel.offset + bytes.length

namespace Lays

variable {port next last : Port} {bytes bytes' : Bytes}

theorem nothing (hconfines : port.Confines next)
    (hwrites : port.channel.calls.writes ≤ next.channel.calls.writes)
    (hview : next.view = port.view) (hoffset : next.channel.offset = port.channel.offset) :
    port.Lays next [] :=
  ⟨hconfines, hwrites, by rw [if_pos rfl, hview], hoffset⟩

theorem view_of_le (h : port.Lays next bytes) (hle : port.channel.offset ≤ port.view.length) :
    next.view = port.view.overwrite port.channel.offset bytes := by
  rw [h.view]
  split
  · rename_i hnil
    rw [hnil, Bytes.overwrite_nil hle]
  · rfl

theorem offset_le (h : port.Lays next bytes)
    (hle : bytes ≠ [] ∨ port.channel.offset ≤ port.view.length) :
    next.channel.offset ≤ next.view.length := by
  rw [h.offset, h.view]
  split
  · rename_i hnil
    simpa [hnil] using hle
  · rw [Bytes.length_overwrite]
    omega

theorem trans (h : port.Lays next bytes) (h' : next.Lays last bytes') :
    port.Lays last (bytes ++ bytes') := by
  refine ⟨h.confines.trans h'.confines, Nat.le_trans h.writes h'.writes, ?_, ?_⟩
  · rw [h'.view, h.view, h.offset]
    by_cases hbytes : bytes = []
    · simp [hbytes]
    · by_cases hbytes' : bytes' = []
      · simp [hbytes, hbytes']
      · simp [hbytes, hbytes', Bytes.overwrite_append]
  · rw [h'.offset, h.offset, List.length_append, Nat.add_assoc]

end Lays

/-! ## Writing -/

section Write

variable (port : Port)

theorem admitted_le (offered : Nat) : port.channel.admitted offered ≤ offered := by
  simp only [Channel.admitted]
  split <;> omega

/-- Beyond the end even a write that takes nothing may fill the gap; elsewhere it does nothing. -/
theorem write_views (bytes : Bytes) :
    Ends (write bytes) port
      (fun count next => count ≤ bytes.length ∧ port.Confines next ∧
        (0 < count ∨ port.channel.offset ≤ port.view.length → port.Lays next (bytes.take count)))
      (fun _ next => port.Lays next []) := by
  let counted := port.countCalls fun calls => { calls with writes := calls.writes + 1 }
  have hcounted : port.Follows counted := port.countCalls_follows fun _ => Nat.le_succ _
  have hview : counted.view = port.view := port.countCalls_view _
  have hnothing : port.Lays counted [] :=
    .nothing (.of_follows hcounted) hcounted.writes hview rfl
  have hlifted : port.Lays { counted with channel :=
      { counted.channel with faults := { port.channel.faults with limit := none } } } [] :=
    .nothing ⟨⟨rfl, rfl, fun _ => rfl⟩, id, fun _ _ => rfl⟩ hcounted.writes
      (view_eq_of_same rfl rfl rfl) rfl
  have htakes : ∀ count, count ≤ bytes.length →
      port.Confines (counted.accept (bytes.take count)) ∧
      (0 < count ∨ port.channel.offset ≤ port.view.length →
        port.Lays (counted.accept (bytes.take count)) (bytes.take count)) := by
    intro count hcount
    have hfollows := hcounted.trans (accept_follows counted (bytes.take count))
    refine ⟨.of_follows hfollows, fun hinside => ?_⟩
    have htaken : bytes.take count ≠ [] ∨ counted.channel.offset ≤ counted.view.length := by
      rw [hview]
      refine hinside.imp_left fun hpos hnil => ?_
      have hlength := congrArg List.length hnil
      rw [List.length_take_of_le hcount] at hlength
      exact Nat.ne_of_gt hpos hlength
    obtain ⟨hview', hoffset'⟩ := counted.accept_view _ htaken
    refine ⟨.of_follows hfollows, hfollows.writes, ?_, hoffset'⟩
    rw [hview', hview]
    split
    · rename_i hnil
      have hle := htaken.resolve_left (absurd hnil)
      rw [hview] at hle
      rw [hnil]
      exact Bytes.overwrite_nil hle
    · rfl
  rcases hplanned : port.channel.faults.ofWrite? port.channel.calls.writes with
    _ | (_ | _ | most)
  case some.interrupted | some.failed =>
    simp only [Ends, write, hplanned]
    exact hnothing
  -- the plan lets this write through, and only a limit can refuse it
  all_goals
    cases hfull : port.channel.isFull with
    | false =>
        simp only [Ends, write, hplanned, hfull]
        exact ⟨admitted_le port _, htakes _ (admitted_le port _)⟩
    | true =>
        cases hwhen : port.channel.faults.whenFull with
        | fail =>
            simp only [Ends, write, hplanned, hfull, hwhen]
            exact hnothing
        | acceptNothing =>
            simp only [Ends, write, hplanned, hfull, hwhen]
            exact ⟨Nat.zero_le _, .of_follows hcounted, fun _ => hnothing⟩
        | failOnce =>
            simp only [Ends, write, hplanned, hfull, hwhen, if_true]
            rw [← hwhen]
            exact hlifted

/-- Without a limit a write gets on, unless it was planned that it does not. -/
theorem write_advances {port : Port} {bytes : Bytes} (hlimit : port.channel.faults.limit = none)
    (hchunk : port.channel.faults.chunk ≠ some 0) (hbytes : bytes ≠ []) :
    Ends (write bytes) port
      (fun count _ => 0 < count ∨
        port.channel.faults.ofWrite? port.channel.calls.writes = some (.accepts 0))
      (fun cause _ => port.channel.faults.ofWrite? port.channel.calls.writes = some .failed ∨
        cause = .interrupted ∧
          port.channel.faults.ofWrite? port.channel.calls.writes = some .interrupted) := by
  have hfull : port.channel.isFull = false := by
    rw [Channel.isFull, hlimit]
  have hlength := List.length_pos_iff.mpr hbytes
  have hroom : 0 < port.channel.faults.chunk.getD bytes.length := by
    cases hchunk' : port.channel.faults.chunk with
    | none => exact hlength
    | some chunk =>
        rw [hchunk'] at hchunk
        exact Nat.pos_of_ne_zero fun hzero => hchunk (congrArg some hzero)
  rcases hplanned : port.channel.faults.ofWrite? port.channel.calls.writes with
    _ | (_ | _ | most)
  · simp only [Ends, write, hplanned, hfull, Bool.false_eq_true, if_false, Channel.admitted,
      hlimit, Option.map_none, Option.getD_none]
    left
    omega
  · simp only [Ends, write, hplanned]
    exact .inr ⟨trivial, trivial⟩
  · simp only [Ends, write, hplanned]
    exact .inl trivial
  · simp only [Ends, write, hplanned, hfull, Bool.false_eq_true, if_false, Channel.admitted,
      hlimit, Option.map_none, Option.getD_none]
    rcases Nat.eq_zero_or_pos most with rfl | hmost
    · exact .inr rfl
    · left
      omega

/-- What is delivered is laid down at the offset, and it is less than all only after a fault. -/
theorem deliver_views (refusal : IoFault) (bytes : Bytes) :
    let delivery := (deliver refusal bytes port).1
    let next := (deliver refusal bytes port).2
    port.Confines next ∧ (delivery.fault = none → delivery.stored = bytes.length) ∧
      (delivery.fault ≠ none → delivery.stored < bytes.length) ∧
      (delivery.fault = none ∨ port.channel.offset ≤ port.view.length →
        port.Lays next (bytes.take delivery.stored)) := by
  -- a write that takes something leaves no gap, so only before the first may there be one
  fun_induction deliver refusal bytes port with
  | case1 port =>
      refine ⟨.refl port, fun _ => rfl, fun h => absurd rfl h, fun _ => ?_⟩
      exact .nothing (.refl port) (Nat.le_refl _) rfl rfl
  | case2 bytes port hne next h =>
      obtain ⟨-, hconfines, hlays⟩ := (write_views port bytes).of_ok h
      refine ⟨hconfines, nofun, fun _ => List.length_pos_iff.mpr hne, ?_⟩
      rintro (hnone | hle)
      · cases hnone
      · exact hlays (.inr hle)
  | case3 bytes port hne count next h rest last hrest ih =>
      obtain ⟨hle, hconfines, hlays⟩ := (write_views port bytes).of_ok h
      have htook := hlays (.inl (Nat.succ_pos count))
      have hinside : next.channel.offset ≤ next.view.length := by
        apply htook.offset_le
        left
        intro hnil
        have hlength := congrArg List.length hnil
        rw [List.length_take_of_le hle] at hlength
        exact Nat.succ_ne_zero count hlength
      rw [hrest] at ih
      obtain ⟨hconfines', hcomplete, hrefused, hlays'⟩ := ih
      rw [List.length_drop] at hcomplete hrefused
      refine ⟨hconfines.trans hconfines', ?_, ?_, fun _ => ?_⟩
      · intro hnone
        have := hcomplete hnone
        dsimp only at this ⊢
        omega
      · intro hsome
        have := hrefused hsome
        dsimp only at this ⊢
        omega
      · have hboth := htook.trans (hlays' (.inr hinside))
        rwa [← List.take_add] at hboth
  | case4 bytes port hne next h ih =>
      have hnothing := (write_views port bytes).of_error h
      have hview : next.view = port.view := hnothing.view
      have hoffset : next.channel.offset = port.channel.offset := hnothing.offset
      obtain ⟨hconfines, hcomplete, hrefused, hlays⟩ := ih
      refine ⟨hnothing.confines.trans hconfines, hcomplete, hrefused, fun hinside => ?_⟩
      rw [← hview, ← hoffset] at hinside
      exact hnothing.trans (hlays hinside)
  | case5 bytes port hne fault next hnot h =>
      have hnothing := (write_views port bytes).of_error h
      exact ⟨hnothing.confines, nofun, fun _ => List.length_pos_iff.mpr hne, fun _ => hnothing⟩

theorem writeAll_views (bytes : Bytes) (hle : port.channel.offset ≤ port.view.length) :
    Ends (writeAll bytes) port (fun _ next => port.Lays next bytes)
      (fun _ next => ∃ count, count < bytes.length ∧ port.Lays next (bytes.take count)) := by
  obtain ⟨-, hcomplete, hrefused, hlays⟩ := deliver_views port .incomplete bytes
  have hlaid := hlays (.inr hle)
  simp only [Ends, writeAll]
  cases hfault : (deliver .incomplete bytes port).1.fault with
  | none =>
      rw [hcomplete hfault, List.take_length] at hlaid
      exact hlaid
  | some fault =>
      have hless := hrefused (by rw [hfault]; exact Option.some_ne_none fault)
      exact ⟨_, hless, hlaid⟩

end Write

/-! ## Moving, cutting and flushing -/

section Move

variable (port : Port)

/-- Where no seek is planned to fail, only a goal out of reach is refused. -/
theorem seek_views (offset : Nat) :
    Ends (seek (.start offset)) port
      (fun _ next => port.Follows next ∧ next.view = port.view ∧ next.channel.offset = offset)
      (fun cause next => port.Follows next ∧ (port.channel.faults.seeks = [] →
        cause = .invalidArgument ∧ ¬ port.channel.location.Reaches offset)) := by
  let counted := port.countCalls fun calls => { calls with seeks := calls.seeks + 1 }
  have hcounted : port.Follows counted := port.countCalls_follows fun _ => Nat.le_refl _
  have hready : port.Follows counted.settle := hcounted.trans (settle_follows _)
  have hview : counted.settle.contents = port.view := by simp [counted]
  cases hplanned : port.channel.faults.seeks.contains port.channel.calls.seeks with
  | true =>
      simp only [Ends, seek, countCalls, hplanned, if_true]
      refine ⟨hcounted, fun hnone => ?_⟩
      rw [hnone] at hplanned
      cases hplanned
  | false =>
      simp only [Ends, seek, countCalls, hplanned, Bool.false_eq_true, if_false]
      have hgoal : counted.settle.channel.location.offsetOf (offset : Int) = .ok offset ∨
          counted.settle.channel.location.offsetOf (offset : Int) = .error .invalidArgument ∧
            ¬ port.channel.location.Reaches offset := by
        rw [hready.location]
        cases port.channel.location with
        | buffer name => simp [Location.offsetOf]
        | file path =>
            simp only [Location.offsetOf, Location.Reaches]
            by_cases hfar : 2 ^ 63 ≤ offset
            · exact .inr ⟨by rw [if_pos (by omega)], by omega⟩
            · exact .inl (by rw [if_neg (by omega)]; rfl)
      rcases hgoal with hok | ⟨herror, hfar⟩
      · simp only [counted, countCalls] at hok
        simp only [hok]
        refine ⟨⟨hready.location, hready.faults, hready.writes, hready.direct,
          hready.elsewhere⟩, ?_, ?_⟩
        · rw [← hview]
          exact view_of_pending_nil (settle_pending _)
        · simp [Channel.offset]
      · simp only [counted, countCalls] at herror
        simp only [herror]
        exact ⟨hready, fun _ => ⟨trivial, hfar⟩⟩

/-- Where no cut is planned to fail, only a length out of reach is refused. -/
theorem truncate_views (length : Nat) :
    Ends (truncate length) port
      (fun _ next => port.Follows next ∧
        (length ≤ port.view.length → next.view = port.view.take length) ∧
        next.channel.offset = port.channel.offset)
      (fun cause next => port.Follows next ∧ (port.channel.faults.truncates = [] →
        cause = .lengthOutOfRange ∧ ¬ port.channel.location.Reaches length)) := by
  let counted := port.countCalls fun calls => { calls with truncates := calls.truncates + 1 }
  have hcounted : port.Follows counted := port.countCalls_follows fun _ => Nat.le_refl _
  have hready : port.Follows counted.settle := hcounted.trans (settle_follows _)
  have hview : counted.settle.contents = port.view := by simp [counted]
  have hcut : ∀ contents : Bytes, (length ≤ port.view.length → contents = port.view.take length) →
      let next : Port := { counted.settle with
        store := counted.settle.store.put counted.settle.channel.location contents }
      port.Follows next ∧ (length ≤ port.view.length → next.view = port.view.take length) ∧
        next.channel.offset = port.channel.offset := by
    intro contents hcontents next
    refine ⟨⟨hready.location, hready.faults, hready.writes, hready.direct, ?_⟩, fun hle => ?_, ?_⟩
    · intro other hother
      rw [Store.read_put_of_ne _ _ (by rwa [hready.location])]
      exact hready.elsewhere other hother
    · have hpending : next.channel.pending = [] := settle_pending _
      rw [view_of_pending_nil hpending]
      simp [next, Port.contents, hcontents hle]
    · simp [next, counted]
  cases hplanned : port.channel.faults.truncates.contains port.channel.calls.truncates with
  | true =>
      simp only [Ends, truncate, countCalls, hplanned, if_true]
      refine ⟨hcounted, fun hnone => ?_⟩
      rw [hnone] at hplanned
      cases hplanned
  | false =>
      cases hlocation : counted.settle.channel.location with
      | buffer name =>
          have hbuffer := hcut (counted.settle.contents.take length) fun _ => by rw [hview]
          rw [hlocation] at hbuffer
          simp only [counted, countCalls] at hlocation hbuffer
          simp only [Ends, truncate, countCalls, hplanned, Bool.false_eq_true, if_false, hlocation]
          exact hbuffer
      | file path =>
          have hfile := hcut (counted.settle.contents.resize length) fun hle => by
            rw [hview, Bytes.resize, Nat.sub_eq_zero_of_le hle]
            simp
          rw [hlocation] at hfile
          have hplace : port.channel.location = .file path := hready.location.symm.trans hlocation
          simp only [counted, countCalls] at hlocation hfile
          simp only [Ends, truncate, countCalls, hplanned, Bool.false_eq_true, if_false, hlocation]
          by_cases hfar : 2 ^ 63 ≤ length
          · simp only [if_pos hfar]
            refine ⟨hready, fun _ => ⟨trivial, ?_⟩⟩
            rw [hplace]
            exact Nat.not_lt.mpr hfar
          · simp only [if_neg hfar]
            exact hfile

theorem flush_views :
    Ends flush port
      (fun _ next => port.Follows next ∧ next.view = port.view ∧
        next.channel.offset = port.channel.offset ∧ next.channel.pending = [])
      (fun _ next => port.Follows next ∧ next.view = port.view ∧
        port.channel.faults.flushes ≠ []) := by
  let counted := port.countCalls fun calls => { calls with flushes := calls.flushes + 1 }
  have hcounted : port.Follows counted := port.countCalls_follows fun _ => Nat.le_refl _
  have hview : counted.view = port.view := port.countCalls_view _
  cases hplanned : port.channel.faults.flushes.contains port.channel.calls.flushes with
  | true =>
      simp only [Ends, flush, countCalls, hplanned, if_true]
      refine ⟨hcounted, hview, fun hnone => ?_⟩
      rw [hnone] at hplanned
      cases hplanned
  | false =>
      simp only [Ends, flush, countCalls, hplanned, Bool.false_eq_true, if_false]
      refine ⟨hcounted.trans (settle_follows _), ?_, ?_, settle_pending _⟩
      · rw [settle_view]
        exact hview
      · rw [settle_offset]
        rfl

end Move

section Reach

variable {port : Port} {offset length : Nat}

theorem seek_start_ends (hseeks : port.channel.faults.seeks = [])
    (hreaches : port.channel.location.Reaches offset) :
    Ends (seek (.start offset)) port
      (fun _ next => port.Follows next ∧ next.view = port.view ∧ next.channel.offset = offset)
      (fun _ _ => False) :=
  (seek_views port offset).mono (fun _ _ => id)
    fun _ _ hfailed => (hfailed.2 hseeks).2 hreaches

theorem truncate_ends (htruncates : port.channel.faults.truncates = [])
    (hreaches : port.channel.location.Reaches length) (hle : length ≤ port.view.length) :
    Ends (truncate length) port
      (fun _ next => port.Follows next ∧ next.view = port.view.take length ∧
        next.channel.offset = port.channel.offset)
      (fun _ _ => False) :=
  (truncate_views port length).mono (fun _ _ hcut => ⟨hcut.1, hcut.2.1 hle, hcut.2.2⟩)
    fun _ _ hfailed => (hfailed.2 htruncates).2 hreaches

theorem rewind_ends (hseeks : port.channel.faults.seeks = [])
    (htruncates : port.channel.faults.truncates = [])
    (hreaches : port.channel.location.Reaches length) (hle : length ≤ port.view.length) :
    Ends (rewind length) port
      (fun _ next => port.Follows next ∧ next.view = port.view.take length ∧
        next.channel.offset = length)
      (fun _ _ => False) := by
  simp only [rewind, ends_bind, ends_discard]
  refine (truncate_ends htruncates hreaches hle).mono (fun _ cut hcut => ?_) fun _ _ h => h
  obtain ⟨hfollows, hview, -⟩ := hcut
  have hreaches' : cut.channel.location.Reaches length := by rwa [hfollows.location]
  have hseeks' : cut.channel.faults.seeks = [] := by rwa [hfollows.faults]
  refine (seek_start_ends hseeks' hreaches').mono (fun _ next hnext => ?_) fun _ _ h => h
  obtain ⟨hfollows', hview', hoffset⟩ := hnext
  exact ⟨hfollows.trans hfollows', hview'.trans hview, hoffset⟩

end Reach

end SegmentStream.Port
