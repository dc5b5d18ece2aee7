import SegmentStream.Attribute.Basic
import SegmentStream.Json.Parser
import SegmentStream.Json.Printer
import SegmentStream.Json.Reading

/-!
# Attributes as JSON

An attribute is an object whose only key names the kind of the value.
-/

namespace SegmentStream.Attribute

def toJson : Attribute → Json
  | bool value => .ofMembers [("Bool", .bool value)]
  | int value => .ofMembers [("Int", .ofInt value.toInt)]
  | uint value => .ofMembers [("UInt", .ofNat value.toNat)]
  | double value => .ofMembers [("Double", .ofBinary64 value)]
  | text value => .ofMembers [("Str", .ofString value)]
  | bytes value => .ofMembers [("Bytes", .array (value.map fun byte => .ofNat byte.toNat))]
  | time seconds fraction =>
      .ofMembers [("Time", .array [.ofNat seconds.toNat, .ofBinary64 fraction])]

/-- The value of the kind that `key` names. -/
def ofPayload? (key : String) (payload : Json) : Option Attribute :=
  match key with
  | "Bool" => payload.toBool?.map bool
  | "Int" => payload.toInt64?.map int
  | "UInt" => payload.toUInt64?.map uint
  | "Double" => payload.toBinary64?.map double
  | "Str" => payload.toString?.map text
  | "Bytes" => payload.toBytes?.map bytes
  | "Time" =>
      match payload with
      | .array [seconds, fraction] => do
          return time (← seconds.toUInt64?) (← fraction.toBinary64?)
      | _ => none
  | _ => none

def ofJson? : Json → Option Attribute
  | .object [(some key, payload)] => ofPayload? key payload
  | _ => none

end SegmentStream.Attribute
