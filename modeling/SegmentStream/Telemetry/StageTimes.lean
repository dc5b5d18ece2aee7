import SegmentStream.Binary64

/-!
# Stage times

How long a recorder spent in each stage of its work.  A duration is a whole
number of nanoseconds.
-/

namespace SegmentStream

inductive Stage where
  | write
  | emit
  | finalize
  | rotate
  deriving DecidableEq, Repr

namespace Stage

def all : List Stage := [write, emit, finalize, rotate]

def display : Stage → String
  | write => "write"
  | emit => "emit"
  | finalize => "finalize"
  | rotate => "rotate"

def name : Stage → String
  | write => "Write"
  | emit => "Emit"
  | finalize => "Finalize"
  | rotate => "Rotate"

def ofName? (name : String) : Option Stage := all.find? fun stage => stage.name == name

@[simp] theorem ofName?_name (stage : Stage) : ofName? stage.name = some stage := by
  cases stage <;> rfl

end Stage

structure Duration where
  nanoseconds : Nat
  deriving DecidableEq, Repr

namespace Duration

instance : Inhabited Duration := ⟨⟨0⟩⟩

def perSecond : Nat := 10 ^ 9

def seconds (duration : Duration) : Nat := duration.nanoseconds / perSecond

def subsecond (duration : Duration) : Nat := duration.nanoseconds % perSecond

def ofParts (seconds nanoseconds : Nat) : Duration := ⟨seconds * perSecond + nanoseconds⟩

def add (first second : Duration) : Duration := ⟨first.nanoseconds + second.nanoseconds⟩

instance : Add Duration := ⟨add⟩

def toSeconds (duration : Duration) : Binary64 :=
  Binary64.ofCount duration.seconds +
    Binary64.ofCount duration.subsecond / Binary64.tenTo 9

end Duration

/-- The stages that have been timed, each once. -/
structure StageTimes where
  times : List (Stage × Duration) := []
  deriving DecidableEq, Repr

namespace StageTimes

def get? (stages : StageTimes) (stage : Stage) : Option Duration :=
  (stages.times.find? fun entry => entry.1 == stage).map Prod.snd

def get (stages : StageTimes) (stage : Stage) : Duration := (stages.get? stage).getD ⟨0⟩

def set (stages : StageTimes) (stage : Stage) (duration : Duration) : StageTimes :=
  ⟨(stage, duration) :: stages.times.filter fun entry => entry.1 != stage⟩

def add (stages : StageTimes) (stage : Stage) (duration : Duration) : StageTimes :=
  stages.set stage (stages.get stage + duration)

def microseconds (stages : StageTimes) (stage : Stage) : Binary64 :=
  (stages.get stage).toSeconds * Binary64.tenTo 6

def total (stages : StageTimes) : Duration :=
  ⟨(stages.times.map fun entry => entry.2.nanoseconds).sum⟩

def hasAll (stages : StageTimes) (expected : List Stage) : Bool :=
  expected.all fun stage => 0 < (stages.get stage).nanoseconds

end StageTimes

end SegmentStream
