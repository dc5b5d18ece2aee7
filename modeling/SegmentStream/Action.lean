/-!
# Actions

An action changes a state and gives a result or a fault.  What it had changed
before a fault stays changed.
-/

namespace SegmentStream

abbrev Action (fault state result : Type) := EStateM fault state result

namespace Action

variable {fault fault' state part result : Type}

def run (action : Action fault state result) (current : state) : Except fault result × state :=
  match action current with
  | .ok value next => (.ok value, next)
  | .error cause next => (.error cause, next)

/-- The state an action ends in, failing or not. -/
def stateAfter (action : Action fault state result) (current : state) : state :=
  match action current with
  | .ok _ next => next
  | .error _ next => next

def change (update : state → result × state) : Action fault state result := fun current =>
  let (value, next) := update current
  .ok value next

def attempt (action : Action fault state result) :
    Action fault' state (Except fault result) := fun current =>
  match action current with
  | .ok value next => .ok (.ok value) next
  | .error cause next => .ok (.error cause) next

/-- Names the cause of a fault anew. -/
def mapFault (rename : fault → fault') (action : Action fault state result) :
    Action fault' state result := fun current =>
  match action current with
  | .ok value next => .ok value next
  | .error cause next => .error (rename cause) next

def within (get : state → part) (put : state → part → state)
    (action : Action fault part result) : Action fault state result := fun current =>
  match action (get current) with
  | .ok value next => .ok value (put current next)
  | .error cause next => .error cause (put current next)

end Action

end SegmentStream
