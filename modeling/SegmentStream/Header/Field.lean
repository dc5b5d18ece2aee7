/-!
# Named header fields

The fields of a header that an attribute update can name by key.  Any other key
names an extra attribute.
-/

namespace SegmentStream

inductive HeaderField where
  | version
  | sampleRate
  | time
  | itemSize
  | sampleType
  | isComplex
  | dataOffset
  | dataLength
  deriving DecidableEq, Repr

namespace HeaderField

def all : List HeaderField :=
  [version, sampleRate, time, itemSize, sampleType, isComplex, dataOffset, dataLength]

def key : HeaderField → String
  | version => "version"
  | sampleRate => "rx_rate"
  | time => "rx_time"
  | itemSize => "size"
  | sampleType => "type"
  | isComplex => "cplx"
  | dataOffset => "strt"
  | dataLength => "bytes"

def ofKey? (key : String) : Option HeaderField := all.find? fun field => field.key == key

/-- Fields that the writer maintains and nobody else may set. -/
def isReserved : HeaderField → Bool
  | dataOffset | dataLength => true
  | _ => false

@[simp] theorem ofKey?_key (field : HeaderField) : ofKey? field.key = some field := by
  cases field <;> rfl

theorem key_of_ofKey? {key : String} {field : HeaderField} (h : ofKey? key = some field) :
    field.key = key := by
  simpa using List.find?_some h

end HeaderField

end SegmentStream
