import SegmentStream.Proofs.Recorder.Chronicle

/-!
# Routes

Where the input of a recorder goes.  Requests for a target pile up until the
next batch is taken; the last of them decides where that batch and those behind
it go, and the others come to nothing.  Nothing of the input is lost or told
twice on the way.
-/

namespace SegmentStream

open SegmentStream.Action

/-! ## Stretches of the input -/

/-- Batches in a row that go to one target, or to none. -/
structure Stretch where
  destination : Option Destination
  items : Bytes
  deriving DecidableEq

namespace Stretch

def isKept (stretch : Stretch) : Bool := stretch.destination.isSome

def append (stretch : Stretch) (items : Bytes) : Stretch :=
  { stretch with items := stretch.items ++ items }

@[simp] theorem isKept_append (stretch : Stretch) (items : Bytes) :
    (stretch.append items).isKept = stretch.isKept := rfl

@[simp] theorem items_append (stretch : Stretch) (items : Bytes) :
    (stretch.append items).items = stretch.items ++ items := rfl

end Stretch

structure Route where
  past : List Stretch := []
  current : Stretch
  /-- The last request since the last batch; `some none` asks for no target. -/
  next : Option (Option Destination) := none
  closed : Bool := false

/-- The input that calls pass before the end, without batches that are no whole records. -/
def acceptedItems (itemSize : Nat) : List Call → Bytes
  | [] => []
  | .shutdown :: _ => []
  | .work items _ :: rest =>
      if items.length % itemSize = 0 then items ++ acceptedItems itemSize rest
      else acceptedItems itemSize rest
  | _ :: rest => acceptedItems itemSize rest

namespace Route

def start (destination : Destination) : Route := { current := ⟨some destination, []⟩ }

section Steps

variable (config : Config) (route : Route)

/-- The last request takes effect. -/
def turn : Route :=
  match route.next with
  | none => route
  | some destination =>
      { route with
        past := route.past ++ [route.current]
        current := ⟨destination, []⟩
        next := none }

def take (items : Bytes) : Route := { route with current := route.current.append items }

def step : Call → Route
  | .work items _ =>
      if route.closed = true ∨ items.length % config.itemSize.toNat ≠ 0 then route
      else route.turn.take items
  | .rotate destination =>
      if destination.fits config.splitHeader then { route with next := some (some destination) }
      else route
  | .close => { route with next := some none }
  | .shutdown => { route with closed := true }
  | .update .. | .setUnbuffered _ => route

def run (calls : List Call) : Route := calls.foldl (step config) route

end Steps

def stretches (route : Route) : List Stretch := route.past ++ [route.current]

/-- The stretches whose targets are let go of. -/
def ended (route : Route) : List Stretch :=
  if route.closed then route.stretches else route.past

def target (route : Route) : Option Destination :=
  if route.closed then none else route.current.destination

def items (route : Route) : Bytes := route.stretches.flatMap Stretch.items

/-- The input that goes to targets, or the input that goes nowhere. -/
def share (route : Route) (kept : Bool) : Bytes :=
  (route.stretches.filter fun stretch => stretch.isKept == kept).flatMap Stretch.items

/-- How many targets there were. -/
def installs (route : Route) : Nat := route.stretches.countP Stretch.isKept

section Lemmas

variable {config : Config} {route : Route}

theorem stretches_turn {destination : Option Destination} (h : route.next = some destination) :
    route.turn.stretches = route.stretches ++ [⟨destination, []⟩] := by
  rw [turn, h]
  rfl

theorem turn_of_none (h : route.next = none) : route.turn = route := by
  rw [turn, h]

theorem take_nil : route.take [] = route := by
  rw [take, Stretch.append, List.append_nil]

theorem stretches_take (items : Bytes) :
    (route.take items).stretches = route.past ++ [route.current.append items] := rfl

theorem items_turn : route.turn.items = route.items := by
  cases hnext : route.next with
  | none => rw [turn_of_none hnext]
  | some destination =>
      rw [Route.items, stretches_turn hnext, List.flatMap_append]
      exact List.append_nil _

theorem items_take (items : Bytes) : (route.take items).items = route.items ++ items := by
  rw [Route.items, stretches_take, List.flatMap_append, Route.items, stretches,
    List.flatMap_append, List.append_assoc]
  simp

theorem share_turn (kept : Bool) : route.turn.share kept = route.share kept := by
  cases hnext : route.next with
  | none => rw [turn_of_none hnext]
  | some destination =>
      rw [share, stretches_turn hnext, List.filter_append, List.flatMap_append, share]
      cases destination <;> cases kept <;> exact List.append_nil _

theorem share_take (kept : Bool) (items : Bytes) : (route.take items).share kept =
    route.share kept ++ if route.current.isKept = kept then items else [] := by
  rw [share, stretches_take, List.filter_append, List.flatMap_append, share, stretches,
    List.filter_append, List.flatMap_append, List.append_assoc]
  congr 1
  by_cases hkept : route.current.isKept = kept <;> simp [hkept]

theorem closed_turn : route.turn.closed = route.closed := by
  rw [turn]
  split <;> rfl

/-- Only the end closes a route. -/
theorem closed_step (call : Call) (h : call ≠ .shutdown) :
    (route.step config call).closed = route.closed := by
  cases call with
  | work items tags =>
      rw [step]
      split
      · rfl
      · exact closed_turn
  | rotate destination =>
      rw [step]
      split <;> rfl
  | shutdown => exact absurd rfl h
  | _ => rfl

theorem installs_take (items : Bytes) : (route.take items).installs = route.installs := by
  rw [installs, stretches_take, List.countP_append, installs, stretches, List.countP_append]
  rfl

theorem installs_turn {destination : Option Destination} (h : route.next = some destination) :
    route.turn.installs = route.installs + if destination.isSome then 1 else 0 := by
  rw [installs, stretches_turn h, List.countP_append, installs]
  cases destination <;> rfl

theorem run_append (route : Route) (first later : List Call) :
    route.run config (first ++ later) = (route.run config first).run config later :=
  List.foldl_append

theorem closed_run {calls : List Call} (hopen : route.closed = false)
    (hcalls : .shutdown ∉ calls) : (route.run config calls).closed = false := by
  induction calls generalizing route with
  | nil => exact hopen
  | cons call rest ih =>
      rw [List.mem_cons, not_or] at hcalls
      exact ih ((closed_step call (Ne.symm hcalls.1)).trans hopen) hcalls.2

/-- Nothing is added behind the end. -/
theorem items_run_of_closed (h : route.closed = true) (calls : List Call) :
    (route.run config calls).items = route.items := by
  induction calls generalizing route with
  | nil => rfl
  | cons call rest ih =>
      have hstep : (route.step config call).items = route.items ∧
          (route.step config call).closed = true := by
        cases call with
        | work items tags => rw [step, if_pos (.inl h)]; exact ⟨rfl, h⟩
        | rotate destination =>
            rw [step]
            split <;> exact ⟨rfl, h⟩
        | shutdown => exact ⟨rfl, rfl⟩
        | _ => exact ⟨rfl, h⟩
      exact (ih hstep.2).trans hstep.1

/-- The stretches are the accepted input, cut into pieces. -/
theorem items_run (h : route.closed = false) (calls : List Call) :
    (route.run config calls).items =
      route.items ++ acceptedItems config.itemSize.toNat calls := by
  induction calls generalizing route with
  | nil => exact (List.append_nil _).symm
  | cons call rest ih =>
      change ((route.step config call).run config rest).items = _
      cases call with
      | work items tags =>
          by_cases hwhole : items.length % config.itemSize.toNat = 0
          · have hstep : route.step config (.work items tags) = route.turn.take items := by
              rw [step, if_neg]
              simp [h, hwhole]
            have hopen : (route.turn.take items).closed = false := closed_turn.trans h
            rw [hstep, ih hopen, items_take, items_turn, acceptedItems,
              if_pos hwhole, List.append_assoc]
          · rw [step, if_pos (.inr hwhole), ih h, acceptedItems, if_neg hwhole]
      | rotate destination =>
          have haccepted : acceptedItems config.itemSize.toNat (.rotate destination :: rest) =
              acceptedItems config.itemSize.toNat rest := rfl
          rw [haccepted, step]
          split <;> exact ih h
      | shutdown =>
          rw [acceptedItems, List.append_nil]
          exact items_run_of_closed rfl rest
      | update key value => exact ih h
      | setUnbuffered unbuffered => exact ih h
      | close => exact ih h

end Lemmas

/-- What has gone somewhere stays there. -/
theorem share_run (config : Config) (route : Route) (kept : Bool) (calls : List Call) :
    route.share kept <+: (route.run config calls).share kept := by
  induction calls generalizing route with
  | nil => exact List.prefix_rfl
  | cons call rest ih =>
      refine List.IsPrefix.trans ?_ (ih (route.step config call))
      cases call with
      | work items tags =>
          rw [step]
          split
          · exact List.prefix_rfl
          · rw [share_take, share_turn]
            exact List.prefix_append _ _
      | rotate destination =>
          rw [step]
          split <;> exact List.prefix_rfl
      | _ => exact List.prefix_rfl

section Whole

variable {config : Config} {route : Route}

/-- Nothing of the route goes nowhere, and no request would change that. -/
def IsWhole (route : Route) : Prop :=
  (∀ stretch ∈ route.stretches, stretch.isKept = true) ∧ route.next ≠ some none

theorem IsWhole.share_eq (h : route.IsWhole) : route.share false = [] := by
  have hnone : route.stretches.filter (fun stretch => stretch.isKept == false) = [] := by
    rw [List.filter_eq_nil_iff]
    intro stretch hstretch
    rw [h.1 stretch hstretch]
    exact Bool.false_ne_true
  rw [share, hnone]
  rfl

theorem IsWhole.turn (h : route.IsWhole) : route.turn.IsWhole := by
  cases hnext : route.next with
  | none => rwa [turn_of_none hnext]
  | some request =>
      obtain ⟨hkept, hnone⟩ := h
      have hsome : request.isSome = true := by
        cases request with
        | none => exact absurd hnext hnone
        | some destination => rfl
      constructor
      · rw [stretches_turn hnext, List.forall_mem_append]
        exact ⟨hkept, List.forall_mem_singleton.mpr hsome⟩
      · rw [Route.turn, hnext]
        simp

theorem IsWhole.step {call : Call} (h : route.IsWhole) (hcall : call ≠ .close) :
    (route.step config call).IsWhole := by
  cases call with
  | work items tags =>
      rw [Route.step]
      split
      · exact h
      · obtain ⟨hkept, hnone⟩ := h.turn
        rw [stretches, List.forall_mem_append, List.forall_mem_singleton] at hkept
        constructor
        · rw [stretches_take, List.forall_mem_append, List.forall_mem_singleton]
          exact hkept
        · exact hnone
  | rotate destination =>
      rw [Route.step]
      split
      · exact ⟨h.1, by simp⟩
      · exact h
  | close => exact absurd rfl hcall
  | _ => exact h

/-- Where no call asks for the end of the active target, nothing goes nowhere. -/
theorem IsWhole.run {calls : List Call} (h : route.IsWhole) (hcalls : .close ∉ calls) :
    (route.run config calls).IsWhole := by
  induction calls generalizing route with
  | nil => exact h
  | cons call rest ih =>
      rw [List.mem_cons, not_or] at hcalls
      exact ih (h.step (Ne.symm hcalls.1)) hcalls.2

theorem isWhole_start (destination : Destination) : (start destination).IsWhole :=
  ⟨List.forall_mem_singleton.mpr rfl, by simp [start]⟩

end Whole

/-- Something goes to the destination, or the next batch will. -/
def Names (route : Route) (destination : Destination) : Prop :=
  (∃ stretch ∈ route.stretches, stretch.destination = some destination) ∨
    route.next = some (some destination)

section Names

variable {config : Config} {route : Route} {destination : Destination}

theorem Names.of_turn (h : route.turn.Names destination) : route.Names destination := by
  cases hnext : route.next with
  | none => rwa [turn_of_none hnext] at h
  | some request =>
      rcases h with ⟨stretch, hstretch, hdestination⟩ | hlast
      · rw [stretches_turn hnext] at hstretch
        rcases List.mem_append.mp hstretch with hstretch | hstretch
        · exact .inl ⟨stretch, hstretch, hdestination⟩
        · obtain rfl := List.mem_singleton.mp hstretch
          exact .inr (hnext.trans (congrArg some hdestination))
      · rw [turn, hnext] at hlast
        cases hlast

theorem Names.of_take {items : Bytes} (h : (route.take items).Names destination) :
    route.Names destination := by
  refine h.imp_left fun ⟨stretch, hstretch, hdestination⟩ => ?_
  rw [stretches_take] at hstretch
  rcases List.mem_append.mp hstretch with hstretch | hstretch
  · exact ⟨stretch, List.mem_append_left _ hstretch, hdestination⟩
  · obtain rfl := List.mem_singleton.mp hstretch
    exact ⟨route.current, List.mem_append_right _ List.mem_cons_self, hdestination⟩

theorem Names.of_step {call : Call} (h : (route.step config call).Names destination) :
    route.Names destination ∨ destination ∈ destinationsOf config.splitHeader [call] := by
  cases call with
  | work items tags =>
      rw [step] at h
      split at h
      · exact .inl h
      · exact .inl h.of_take.of_turn
  | update key value => exact .inl h
  | setUnbuffered unbuffered => exact .inl h
  | rotate other =>
      rw [step] at h
      split at h
      · next hfits =>
          rcases h with hstretch | hlast
          · exact .inl (.inl hstretch)
          · obtain rfl : other = destination := by simpa using hlast
            rw [destinationsOf_rotate, if_pos hfits]
            exact .inr List.mem_cons_self
      · exact .inl h
  | close =>
      rcases h with hstretch | hlast
      · exact .inl (.inl hstretch)
      · cases hlast
  | shutdown => exact .inl h

/-- Only what calls ask for is named. -/
theorem Names.of_run {calls : List Call} (h : (route.run config calls).Names destination) :
    route.Names destination ∨ destination ∈ destinationsOf config.splitHeader calls := by
  induction calls generalizing route with
  | nil => exact .inl h
  | cons call rest ih =>
      rw [destinationsOf_cons, List.mem_append, ← or_assoc]
      exact (ih h).imp_left Names.of_step

theorem mem_of_run_start {first : Destination} {calls : List Call} {stretch : Stretch}
    (h : stretch ∈ ((start first).run config calls).stretches)
    (hdestination : stretch.destination = some destination) :
    destination ∈ first :: destinationsOf config.splitHeader calls := by
  have hnames : ((start first).run config calls).Names destination :=
    .inl ⟨stretch, h, hdestination⟩
  rcases hnames.of_run with (⟨other, hother, hfirst⟩ | hlast) | hcalls
  · obtain rfl : other = ⟨some first, []⟩ := List.mem_singleton.mp hother
    cases hfirst
    exact List.mem_cons_self
  · cases hlast
  · exact List.mem_cons_of_mem _ hcalls

end Names

end Route

end SegmentStream
