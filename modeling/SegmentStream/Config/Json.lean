import SegmentStream.Config.Basic
import SegmentStream.Json.Parser
import SegmentStream.Json.Printer
import SegmentStream.Json.Reading

/-!
# Configurations as JSON

A configuration is an object with one member for each field.  A reader takes
the default for a missing field and ignores other members.
-/

namespace SegmentStream

namespace SampleType

def toJson (type : SampleType) : Json := .ofString type.name

def ofJson? (value : Json) : Option SampleType := value.variantName?.bind ofName?

end SampleType

namespace Timestamp

def jsonKeys : List String := ["secs", "frac"]

def toJson (time : Timestamp) : Json :=
  .ofMembers [("secs", .ofNat time.seconds.toNat), ("frac", .ofBinary64 time.fraction)]

def ofJson? (value : Json) : Option Timestamp :=
  match value.fields? jsonKeys with
  | some [some seconds, some fraction] => do
      return ⟨← seconds.toUInt64?, ← fraction.toBinary64?⟩
  | _ => none

end Timestamp

namespace Config

def jsonKeys : List String :=
  ["item_size", "sample_rate", "relative_rate", "sample_type", "is_complex",
    "max_segment_size", "extra_dict", "split_header", "unbuffered", "start_time"]

def toJson (config : Config) : Json :=
  .ofMembers
    [("item_size", .ofNat config.itemSize.toNat),
      ("sample_rate", .ofBinary64 config.sampleRate),
      ("relative_rate", .ofBinary64 config.relativeRate),
      ("sample_type", config.sampleType.toJson),
      ("is_complex", .bool config.isComplex),
      ("max_segment_size", .ofNat config.maxSegmentSize.toNat),
      ("extra_dict", .array (config.extras.map fun byte => .ofNat byte.toNat)),
      ("split_header", .bool config.splitHeader),
      ("unbuffered", .bool config.unbuffered),
      ("start_time", config.startTime.toJson)]

def readField (read : Json → Option α) (default : α) : Option Json → Option α
  | none => some default
  | some value => read value

def ofJson? (value : Json) : Option Config :=
  let base : Config := {}
  match value.fields? jsonKeys with
  | some [itemSize, sampleRate, relativeRate, sampleType, isComplex, maxSegmentSize, extras,
      splitHeader, unbuffered, startTime] => do
      return {
        itemSize := ← readField Json.toUInt64? base.itemSize itemSize
        sampleRate := ← readField Json.toBinary64? base.sampleRate sampleRate
        relativeRate := ← readField Json.toBinary64? base.relativeRate relativeRate
        sampleType := ← readField SampleType.ofJson? base.sampleType sampleType
        isComplex := ← readField Json.toBool? base.isComplex isComplex
        maxSegmentSize := ← readField Json.toUInt64? base.maxSegmentSize maxSegmentSize
        extras := ← readField Json.toBytes? base.extras extras
        splitHeader := ← readField Json.toBool? base.splitHeader splitHeader
        unbuffered := ← readField Json.toBool? base.unbuffered unbuffered
        startTime := ← readField Timestamp.ofJson? base.startTime startTime }
  | _ => none

def render (config : Config) : String := config.toJson.pretty

def parse (text : String) : Except ConfigFault Config := do
  let some config := (Json.parse? text).bind ofJson? | throw .unreadable
  config.validate
  return config

end Config

end SegmentStream
