import SegmentStream.Text.Display

/-!
# Sample types

The kind of scalar that a record consists of, and its code in a header.
-/

namespace SegmentStream

inductive SampleType where
  | byte
  | short
  | int
  | long
  | longLong
  | float
  | double
  deriving DecidableEq, Repr

namespace SampleType

instance : Inhabited SampleType := ⟨.byte⟩

def all : List SampleType := [byte, short, int, long, longLong, float, double]

def code : SampleType → Nat
  | byte => 0
  | short => 1
  | int => 2
  | long => 3
  | longLong => 4
  | float => 5
  | double => 6

def name : SampleType → String
  | byte => "Byte"
  | short => "Short"
  | int => "Int"
  | long => "Long"
  | longLong => "LongLong"
  | float => "Float"
  | double => "Double"

def ofCode? (code : Nat) : Option SampleType := all.find? fun type => type.code == code

def ofName? (name : String) : Option SampleType := all.find? fun type => type.name == name

@[simp] theorem ofCode?_code (type : SampleType) : ofCode? type.code = some type := by
  cases type <;> rfl

theorem code_of_ofCode? {code : Nat} {type : SampleType} (h : ofCode? code = some type) :
    type.code = code := by
  simpa using List.find?_some h

/-- The name a code stands for, or the code itself where it stands for none. -/
def describeCode (code : Nat) : String :=
  match ofCode? code with
  | some type => type.name
  | none => Text.hexPadded 0 code

end SampleType

end SegmentStream
