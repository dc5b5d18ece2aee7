import SegmentStream.Target.Basic

/-!
# Rotations

Anyone may stage a new target for a recorder, or the end of the current one.
A staged target is opened at once; the recorder turns to what was staged when it
next can, and only the last command counts.
-/

namespace SegmentStream

inductive RotationCommand where
  | install (target : Target)
  | detach
  deriving DecidableEq, Repr

/-- The commands staged for a recorder, oldest first. -/
structure Rotation where
  split : Bool
  staged : List RotationCommand := []
  /-- The recorder is gone and takes no more commands. -/
  abandoned : Bool := false
  deriving DecidableEq, Repr

/-- Staged commands and the host that new targets are opened on. -/
structure RotationDesk where
  rotation : Rotation
  host : Host
  deriving DecidableEq, Repr

namespace RotationDesk

def onHost {fault result : Type} (action : Action fault Host result) :
    Action fault RotationDesk result :=
  action.within RotationDesk.host fun desk host => { desk with host }

def report {fault : Type} (event : Event) : Action fault RotationDesk Unit :=
  modify fun desk => { desk with host := desk.host.report event }

def stage (command : RotationCommand) : Action StreamError RotationDesk Unit :=
  modify fun desk =>
    { desk with rotation := { desk.rotation with staged := desk.rotation.staged ++ [command] } }

/-! ## Requests -/

def requestRotation (destination : Destination) : Action StreamError RotationDesk Unit := do
  let target ← onHost (Target.openAt destination (← get).rotation.split)
  report (.rotationRequested target.label)
  if (← get).rotation.abandoned then
    modify fun desk => { desk with host := Outlet.release ⟨target, desk.host⟩ }
    throw (.misuse .recorderGone)
  else stage (.install target)

def requestClose : Action StreamError RotationDesk Unit := do
  report .closeRequested
  if (← get).rotation.abandoned then throw (.misuse .recorderGone)
  else stage .detach

/-! ## Answers -/

def closeStaged (commands : List RotationCommand) (host : Host) : Host :=
  commands.foldl (fun host command =>
    match command with
    | .install target => target.closeQuietly host
    | .detach => host) host

/-- The last staged command.  Targets staged before it are closed unused. -/
def takePending (desk : RotationDesk) : Option RotationCommand × RotationDesk :=
  let staged := desk.rotation.staged
  (staged.getLast?,
    { rotation := { desk.rotation with staged := [] }
      host := closeStaged staged.dropLast desk.host })

def closePending (desk : RotationDesk) : RotationDesk :=
  { rotation := { desk.rotation with staged := [] }
    host := closeStaged desk.rotation.staged desk.host }

/-- The recorder goes away: staged targets are let go of and no command is taken any more. -/
def abandon (desk : RotationDesk) : RotationDesk :=
  { rotation := { desk.rotation with staged := [], abandoned := true }
    host := desk.rotation.staged.foldl (fun host command =>
      match command with
      | .install target => Outlet.release ⟨target, host⟩
      | .detach => host) desk.host }

end RotationDesk

end SegmentStream
