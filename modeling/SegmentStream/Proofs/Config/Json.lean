import SegmentStream.Config.Json
import SegmentStream.Proofs.Json.Acceptance
import SegmentStream.Proofs.Json.Numerals

/-!
# Configurations survive their JSON form

A configuration is read back from its object however the object is written:
members in any order, members of other keys among them, and members left out
where the field holds its default.
-/

namespace SegmentStream

/-! ## Fields of records -/

namespace Json

variable {fields others members : List (String × Json)} {keys : List String}

theorem members?_ofMembers (members : List (String × Json)) :
    (ofMembers members).members? = some members := by
  rw [ofMembers, members?]
  induction members with
  | nil => rfl
  | cons member rest ih =>
      rw [List.map_cons, List.mapM_cons, ih]
      rfl

theorem filter_key (hnodup : (fields.map Prod.fst).Nodup) {field : String × Json}
    (hfield : field ∈ fields) : fields.filter (fun member => member.1 == field.1) = [field] := by
  induction fields with
  | nil => cases hfield
  | cons head rest ih =>
      obtain ⟨hfresh, hnodup⟩ := List.nodup_cons.mp hnodup
      rcases List.mem_cons.mp hfield with rfl | hrest
      · rw [List.filter_cons_of_pos (p := fun member : String × Json => member.1 == field.1)
          (beq_self_eq_true _), List.filter_eq_nil_iff.mpr]
        intro member hmember hsame
        exact hfresh (eq_of_beq hsame ▸ List.mem_map_of_mem hmember)
      · have hother : ¬ (head.1 == field.1) = true := fun hsame =>
          hfresh (eq_of_beq hsame ▸ List.mem_map_of_mem hrest)
        rw [List.filter_cons_of_neg (p := fun member : String × Json => member.1 == field.1) hother]
        exact ih hnodup hrest

/-- Of the fields that are written, each is found once among the members. -/
theorem uniqueMember?_of_perm (hnodup : (fields.map Prod.fst).Nodup)
    (hothers : ∀ other ∈ others, other.1 ∉ fields.map Prod.fst)
    (hmembers : members.Perm (fields.filter (fun field => decide (field.1 ∈ keys)) ++ others))
    {field : String × Json} (hfield : field ∈ fields) :
    uniqueMember? members field.1 =
      some (if field.1 ∈ keys then some field.2 else none) := by
  have hnone : others.filter (fun member => member.1 == field.1) = [] := by
    rw [List.filter_eq_nil_iff]
    intro other hother hsame
    exact hothers other hother (eq_of_beq hsame ▸ List.mem_map_of_mem hfield)
  have hfound := hmembers.filter fun member => member.1 == field.1
  have hswap : (fields.filter fun field => decide (field.1 ∈ keys)).filter
        (fun member => member.1 == field.1) =
      (fields.filter fun member => member.1 == field.1).filter
        (fun field => decide (field.1 ∈ keys)) := by
    simp only [List.filter_filter, Bool.and_comm]
  rw [List.filter_append, hnone, List.append_nil, hswap, filter_key hnodup hfield,
    List.filter_cons, List.filter_nil] at hfound
  by_cases hkept : field.1 ∈ keys
  · rw [if_pos (decide_eq_true hkept)] at hfound
    rw [if_pos hkept, uniqueMember?, List.perm_singleton.mp hfound]
  · rw [if_neg (by simpa using hkept)] at hfound
    rw [if_neg hkept, uniqueMember?, List.perm_nil.mp hfound]

theorem fields?_of_perm (hnodup : (fields.map Prod.fst).Nodup)
    (hothers : ∀ other ∈ others, other.1 ∉ fields.map Prod.fst)
    (hmembers : members.Perm (fields.filter (fun field => decide (field.1 ∈ keys)) ++ others)) :
    (ofMembers members).fields? (fields.map Prod.fst) =
      some (fields.map fun field => if field.1 ∈ keys then some field.2 else none) := by
  have hfound : ∀ part : List (String × Json), (∀ field ∈ part, field ∈ fields) →
      (part.map Prod.fst).mapM (uniqueMember? members) =
        some (part.map fun field => if field.1 ∈ keys then some field.2 else none) := by
    intro part hpart
    induction part with
    | nil => rfl
    | cons field rest ih =>
        have hfield := hpart field List.mem_cons_self
        have hrest := ih fun field hfield => hpart field (List.mem_cons_of_mem _ hfield)
        rw [List.map_cons, List.mapM_cons, uniqueMember?_of_perm hnodup hothers hmembers hfield,
          hrest]
        rfl
  have hmembers? := members?_ofMembers members
  rw [ofMembers] at hmembers? ⊢
  rw [fields?, hmembers?, Option.bind_eq_bind, Option.bind_some, hfound fields fun _ h => h]
  rintro items ⟨⟩

end Json

namespace Binary64

/-- A number is the same after it has been printed and read. -/
def ReadsBack (x : Binary64) : Prop :=
  (Json.parse? (Json.ofBinary64 x).pretty).bind Json.toBinary64? = some x

instance (x : Binary64) : Decidable x.ReadsBack :=
  inferInstanceAs (Decidable (_ = some x))

theorem ReadsBack.toBinary64? {x : Binary64} (h : x.ReadsBack) :
    (Json.ofBinary64 x).toBinary64? = some x := by
  have htext := Json.pretty_isTextOf (Json.ofBinary64_isProper x)
  rwa [ReadsBack, Json.parse?_eq_some_iff.mpr htext, Option.bind_some] at h

end Binary64

/-! ## Parts of a configuration -/

theorem SampleType.ofJson?_toJson (type : SampleType) : ofJson? type.toJson = some type := by
  cases type <;> rfl

theorem Timestamp.ofJson?_toJson {time : Timestamp} (h : time.fraction.ReadsBack) :
    ofJson? time.toJson = some time := by
  have hfields : time.toJson.fields? jsonKeys =
      some [some (.ofNat time.seconds.toNat), some (.ofBinary64 time.fraction)] := by
    rfl
  rw [ofJson?, hfields]
  simp only [Json.toUInt64?_ofNat, h.toBinary64?, Option.bind_eq_bind, Option.bind_some,
    Option.pure_def]

namespace Config

variable {config : Config} {keys : List String}

/-- The members of the object, by fields. -/
def members (config : Config) : List (String × Json) :=
  [("item_size", .ofNat config.itemSize.toNat),
    ("sample_rate", .ofBinary64 config.sampleRate),
    ("relative_rate", .ofBinary64 config.relativeRate),
    ("sample_type", config.sampleType.toJson),
    ("is_complex", .bool config.isComplex),
    ("max_segment_size", .ofNat config.maxSegmentSize.toNat),
    ("extra_dict", .array (config.extras.map fun byte => .ofNat byte.toNat)),
    ("split_header", .bool config.splitHeader),
    ("unbuffered", .bool config.unbuffered),
    ("start_time", config.startTime.toJson)]

/-- The configuration with the default in every field but those of the keys. -/
def restrict (config : Config) (keys : List String) : Config :=
  let base : Config := {}
  { itemSize := if "item_size" ∈ keys then config.itemSize else base.itemSize
    sampleRate := if "sample_rate" ∈ keys then config.sampleRate else base.sampleRate
    relativeRate := if "relative_rate" ∈ keys then config.relativeRate else base.relativeRate
    sampleType := if "sample_type" ∈ keys then config.sampleType else base.sampleType
    isComplex := if "is_complex" ∈ keys then config.isComplex else base.isComplex
    maxSegmentSize :=
      if "max_segment_size" ∈ keys then config.maxSegmentSize else base.maxSegmentSize
    extras := if "extra_dict" ∈ keys then config.extras else base.extras
    splitHeader := if "split_header" ∈ keys then config.splitHeader else base.splitHeader
    unbuffered := if "unbuffered" ∈ keys then config.unbuffered else base.unbuffered
    startTime := if "start_time" ∈ keys then config.startTime else base.startTime }

structure FloatsReadBack (config : Config) : Prop where
  sampleRate : config.sampleRate.ReadsBack
  relativeRate : config.relativeRate.ReadsBack
  startFraction : config.startTime.fraction.ReadsBack

theorem restrict_jsonKeys (config : Config) : config.restrict jsonKeys = config := by
  rfl

theorem validate_iff : config.validate = .ok () ↔
    config.itemSize ≠ 0 ∧ config.itemSize.toNat ≤ itemSizeLimit ∧ config.maxSegmentSize ≠ 0 ∧
      config.sampleRate.isPositiveFinite = true ∧ config.relativeRate.isPositiveFinite = true ∧
        config.startTime.fraction.isFraction = true := by
  unfold validate
  constructor
  · intro h
    repeat' split at h
    all_goals simp_all
  · rintro ⟨hitem, hlimit, hsegment, hrate, hrelative, hfraction⟩
    simp [hitem, Nat.not_lt.mpr hlimit, hsegment, hrate, hrelative, hfraction]

/-- Defaults pass every check, so a part of a usable configuration is usable. -/
theorem validate_restrict (h : config.validate = .ok ()) (keys : List String) :
    (config.restrict keys).validate = .ok () := by
  rw [validate_iff] at h ⊢
  obtain ⟨hitem, hlimit, hsegment, hrate, hrelative, hfraction⟩ := h
  unfold restrict
  dsimp only
  refine ⟨?_, ?_, ?_, ?_, ?_, ?_⟩
  · split
    · exact hitem
    · decide
  · split
    · exact hlimit
    · decide
  · split
    · exact hsegment
    · decide
  · split
    · exact hrate
    · decide
  · split
    · exact hrelative
    · decide
  · split
    · exact hfraction
    · decide

theorem readField_ite {α : Type} {read : Json → Option α} {value : Json} {field default : α}
    (h : read value = some field) (kept : Prop) [Decidable kept] :
    readField read default (if kept then some value else none) =
      some (if kept then field else default) := by
  by_cases hkept : kept
  · rw [if_pos hkept, if_pos hkept]
    exact h
  · rw [if_neg hkept, if_neg hkept]
    rfl

theorem ofJson?_of_perm (hfloats : config.FloatsReadBack) {others members : List (String × Json)}
    (hothers : ∀ other ∈ others, other.1 ∉ jsonKeys)
    (hmembers : members.Perm
      (config.members.filter (fun member => decide (member.1 ∈ keys)) ++ others)) :
    ofJson? (.ofMembers members) = some (config.restrict keys) := by
  have hkeys : config.members.map Prod.fst = jsonKeys := rfl
  have hnodup : jsonKeys.Nodup := by decide
  have hfields := Json.fields?_of_perm (hkeys ▸ hnodup) (hkeys ▸ hothers) hmembers
  rw [hkeys] at hfields
  simp only [Config.members, List.map_cons, List.map_nil] at hfields
  have hbytes := Json.toBytes?_array config.extras
  have hbool : ∀ value : Bool, (Json.bool value).toBool? = some value := fun _ => rfl
  rw [ofJson?, hfields]
  simp only [readField_ite (Json.toUInt64?_ofNat _), readField_ite hfloats.sampleRate.toBinary64?,
    readField_ite hfloats.relativeRate.toBinary64?, readField_ite (SampleType.ofJson?_toJson _),
    readField_ite (hbool _), readField_ite hbytes,
    readField_ite (Timestamp.ofJson?_toJson hfloats.startFraction), Option.bind_eq_bind,
    Option.bind_some, Option.pure_def]
  rfl

/-! ## Texts of a configuration -/

theorem itemsProper_bytes (bytes : Bytes) :
    Json.ItemsProper (bytes.map fun byte => .ofNat byte.toNat) := by
  induction bytes with
  | nil => trivial
  | cons byte rest ih => exact ⟨Numeral.ofNat_isProper _, ih⟩

theorem toJson_isProper (config : Config) : config.toJson.IsProper := by
  have hnat : ∀ n, (Json.ofNat n).IsProper := Numeral.ofNat_isProper
  have htime : config.startTime.toJson.IsProper :=
    ⟨rfl, hnat _, rfl, Json.ofBinary64_isProper _, trivial⟩
  exact ⟨rfl, hnat _, rfl, Json.ofBinary64_isProper _, rfl, Json.ofBinary64_isProper _, rfl, rfl,
    rfl, trivial, rfl, hnat _, rfl, itemsProper_bytes _, rfl, trivial, rfl, trivial, rfl, htime,
    trivial⟩

/--
The text is that of the configuration's object, with its members in any order, members of other
keys among them, and none for some of the fields that hold their default.
-/
def IsWrittenAs (config : Config) (text : String) : Prop :=
  ∃ (keys : List String) (others members : List (String × Json)),
    config.restrict keys = config ∧ (∀ other ∈ others, other.1 ∉ jsonKeys) ∧
      members.Perm (config.members.filter (fun member => decide (member.1 ∈ keys)) ++ others) ∧
        Json.IsTextOf text (.ofMembers members)

theorem render_isWritten (config : Config) : config.IsWrittenAs config.render := by
  refine ⟨jsonKeys, [], config.members, restrict_jsonKeys config, List.forall_mem_nil _, ?_,
    Json.pretty_isTextOf (toJson_isProper config)⟩
  rw [List.append_nil]
  exact List.Perm.refl _

/-- Members may also be left out where a field is not at its default: it is when it is read. -/
theorem parse_of_perm (hvalid : config.validate = .ok ()) (hfloats : config.FloatsReadBack)
    {others members : List (String × Json)} (hothers : ∀ other ∈ others, other.1 ∉ jsonKeys)
    (hmembers : members.Perm
      (config.members.filter (fun member => decide (member.1 ∈ keys)) ++ others))
    {text : String} (htext : Json.IsTextOf text (.ofMembers members)) :
    Config.parse text = .ok (config.restrict keys) := by
  have hread : (Json.parse? text).bind ofJson? = some (config.restrict keys) := by
    rw [Json.parse?_eq_some_iff.mpr htext, Option.bind_some]
    exact ofJson?_of_perm hfloats hothers hmembers
  simp only [Config.parse, hread, validate_restrict hvalid keys]
  rfl

/--
A usable configuration whose floats survive being printed is read back from its JSON form, and
from every text that differs from it in the order of members, in members of other keys, and in
fields left out at their default.
-/
theorem survives_json (hvalid : config.validate = .ok ()) (hfloats : config.FloatsReadBack) :
    Config.parse config.render = .ok config ∧
      ∀ text, config.IsWrittenAs text → Config.parse text = .ok config := by
  have hread : ∀ text, config.IsWrittenAs text → Config.parse text = .ok config := by
    rintro text ⟨keys, others, members, hdefault, hothers, hmembers, htext⟩
    rw [parse_of_perm hvalid hfloats hothers hmembers htext, hdefault]
  exact ⟨hread _ (render_isWritten config), hread⟩

/-- Fields in reverse, four of them left out, behind two members that nobody asked for. -/
theorem survives_json_reversed :
    let config : Config :=
      { itemSize := 4294967295
        sampleRate := ⟨0x40f86a0000000000⟩
        maxSegmentSize := 18446744073709551615
        extras := [0, 255, 7]
        splitHeader := true
        startTime := ⟨18446744073709551615, ⟨0x3fb999999999999a⟩⟩ }
    let note : Json := .object [(some "a", .null), (some "a", .array [.string (some "\n")])]
    let members : List (String × Json) :=
      [("note", note), ("note", .bool false), ("start_time", config.startTime.toJson),
        ("split_header", .bool true), ("extra_dict", .array [.ofNat 0, .ofNat 255, .ofNat 7]),
        ("max_segment_size", .ofNat 18446744073709551615),
        ("sample_rate", .ofBinary64 config.sampleRate), ("item_size", .ofNat 4294967295)]
    Config.parse config.render = .ok config ∧
      Config.parse (Json.ofMembers members).pretty = .ok config := by
  intro config note members
  have hvalid : config.validate = .ok () := rfl
  have hfloats : config.FloatsReadBack :=
    ⟨by decide +kernel, by decide +kernel, by decide +kernel⟩
  obtain ⟨hrender, hwritten⟩ := survives_json hvalid hfloats
  refine ⟨hrender, hwritten _ ⟨["item_size", "sample_rate", "max_segment_size", "extra_dict",
    "split_header", "start_time"], [("note", .bool false), ("note", note)], members, rfl, ?_, ?_,
      Json.pretty_isTextOf ?_⟩⟩
  · simp [jsonKeys]
  · exact List.reverse_perm members.reverse
  · have hnat : ∀ n, (Json.ofNat n).IsProper := Numeral.ofNat_isProper
    have htime : config.startTime.toJson.IsProper :=
      ⟨rfl, hnat _, rfl, Json.ofBinary64_isProper _, trivial⟩
    have hnote : note.IsProper := ⟨rfl, trivial, rfl, ⟨rfl, trivial⟩, trivial⟩
    exact ⟨rfl, hnote, rfl, trivial, rfl, htime, rfl, trivial, rfl,
      ⟨hnat _, hnat _, hnat _, trivial⟩, rfl, hnat _, rfl, Json.ofBinary64_isProper _, rfl, hnat _,
      trivial⟩

end Config

end SegmentStream
