import SegmentStream.Header.Region
import SegmentStream.Proofs.Attribute.Reading
import SegmentStream.Proofs.Header.Reading
import SegmentStream.Proofs.Outcome

/-!
# What a listing of attributes says

Entries are listed in any order and keys may come again: the last value of a key
is in force.  Every blob that is read, unless it is empty, is the listing of some
entries and nothing else, so whatever is cut short, goes on or holds a flawed entry
is refused.  Attributes are written by one listing of their own, in the order of
keys.
-/

namespace SegmentStream

/-! ## What was read -/

section Parts

variable {bytes rest : Bytes}

theorem of_readBlock {length : Nat} {block : Bytes}
    (h : readBlock length bytes = .ok (block, rest)) :
    block.length = length ∧ bytes = block ++ rest := by
  unfold readBlock at h
  split at h
  · cases h
    exact ⟨List.length_take_of_le ‹_›, (List.take_append_drop length bytes).symm⟩
  · cases h

theorem of_readWord {width value : Nat} (h : readWord width bytes = .ok (value, rest)) :
    value < 256 ^ width ∧ bytes = encodeLE width value ++ rest := by
  obtain ⟨⟨block, behind⟩, hblock, hvalue⟩ := bind_ok h
  cases hvalue
  obtain ⟨rfl, rfl⟩ := of_readBlock hblock
  rw [encodeLE_decodeLE]
  exact ⟨decodeLE_lt block, rfl⟩

theorem of_decodeBlock {block : Bytes} (h : decodeBlock bytes = .ok (block, rest)) :
    block.length < 2 ^ 64 ∧ bytes = encodeBlock block ++ rest := by
  obtain ⟨⟨length, behind⟩, hlength, hblock⟩ := bind_ok h
  obtain ⟨hlt, hbytes⟩ := of_readWord hlength
  obtain ⟨rfl, rfl⟩ := of_readBlock hblock
  exact ⟨hlt, by rw [hbytes, encodeBlock, List.append_assoc]⟩

theorem of_decodeText {text : String} (h : decodeText bytes = .ok (text, rest)) :
    (textBytes text).length < 2 ^ 64 ∧ bytes = encodeText text ++ rest := by
  obtain ⟨⟨block, behind⟩, hblock, htext⟩ := bind_ok h
  obtain ⟨hlt, hbytes⟩ := of_decodeBlock hblock
  dsimp only at htext
  split at htext
  · rename_i found hfound
    cases htext
    rw [encodeText, textBytes_of_textOfBytes hfound]
    exact ⟨hlt, hbytes⟩
  · cases htext

theorem decodeText_bad {block : Bytes} {fault : Utf8Fault} (h : block.length < 2 ^ 64)
    (htext : textOfBytes block = .error fault) (rest : Bytes) :
    decodeText (encodeBlock block ++ rest) = .error (.badText fault) := by
  rw [decodeText, decodeBlock_encodeBlock h]
  simp only [bind, Except.bind, htext]
  rfl

end Parts

namespace Attribute

variable {value : Attribute} {bytes rest : Bytes}

theorem decodePayload_unknown {code : Nat} (h : 7 ≤ code) (bytes : Bytes) :
    decodePayload code bytes = .error (.unknownKind code) := by
  obtain ⟨more, rfl⟩ := Nat.exists_eq_add_of_le' h
  rfl

theorem decodePayload_badBool {byte : UInt8} (h : 1 < byte) (rest : Bytes) :
    decodePayload 0 (byte :: rest) = .error (.badBool byte) := by
  have hlarge : 1 < byte.toNat := h
  rw [decodePayload, readWord_byte]
  simp only [bind, Except.bind]
  split
  · omega
  · omega
  · rw [UInt8.ofNat_toNat]
    rfl

theorem decodePayload_badText {block : Bytes} {fault : Utf8Fault} (h : block.length < 2 ^ 64)
    (htext : textOfBytes block = .error fault) (rest : Bytes) :
    decodePayload 4 (encodeBlock block ++ rest) = .error (.badText fault) := by
  rw [decodePayload, decodeText_bad h htext]
  rfl

theorem of_readWord_ofNat {word : Nat} (h : readWord 8 bytes = .ok (word, rest)) :
    bytes = encodeLE 8 (UInt64.ofNat word).toNat ++ rest := by
  obtain ⟨hlt, hbytes⟩ := of_readWord h
  rwa [UInt64.toNat_ofNat_of_lt' hlt]

theorem of_decodePayload {code : Nat} (h : decodePayload code bytes = .ok (value, rest)) :
    value.Fits ∧ value.code = code ∧ bytes = value.encodePayload ++ rest := by
  unfold decodePayload at h
  split at h
  · obtain ⟨⟨byte, behind⟩, hbyte, hvalue⟩ := bind_ok h
    obtain ⟨-, hbytes⟩ := of_readWord hbyte
    dsimp only at hvalue
    split at hvalue <;> cases hvalue <;> exact ⟨trivial, rfl, hbytes⟩
  · obtain ⟨⟨word, behind⟩, hword, hvalue⟩ := bind_ok h
    cases hvalue
    exact ⟨trivial, rfl, of_readWord_ofNat hword⟩
  · obtain ⟨⟨word, behind⟩, hword, hvalue⟩ := bind_ok h
    cases hvalue
    exact ⟨trivial, rfl, of_readWord_ofNat hword⟩
  · obtain ⟨⟨word, behind⟩, hword, hvalue⟩ := bind_ok h
    cases hvalue
    exact ⟨trivial, rfl, of_readWord_ofNat hword⟩
  · obtain ⟨⟨text, behind⟩, htext, hvalue⟩ := bind_ok h
    obtain ⟨hfits, hbytes⟩ := of_decodeText htext
    cases hvalue
    exact ⟨hfits, rfl, hbytes⟩
  · obtain ⟨⟨block, behind⟩, hblock, hvalue⟩ := bind_ok h
    obtain ⟨hfits, hbytes⟩ := of_decodeBlock hblock
    cases hvalue
    exact ⟨hfits, rfl, hbytes⟩
  · obtain ⟨⟨seconds, behind⟩, hseconds, hrest⟩ := bind_ok h
    obtain ⟨⟨fraction, behind'⟩, hfraction, hvalue⟩ := bind_ok hrest
    cases hvalue
    refine ⟨trivial, rfl, ?_⟩
    rw [of_readWord_ofNat hseconds, of_readWord_ofNat hfraction, encodePayload, List.append_assoc]
  · cases h

theorem of_decode (h : decode bytes = .ok (value, rest)) :
    value.Fits ∧ bytes = value.encode ++ rest := by
  obtain ⟨⟨code, behind⟩, hcode, hpayload⟩ := bind_ok h
  obtain ⟨-, hbytes⟩ := of_readWord hcode
  obtain ⟨hfits, rfl, rfl⟩ := of_decodePayload hpayload
  exact ⟨hfits, by rw [hbytes, encode, List.append_assoc]⟩

end Attribute

namespace Extras

variable {bytes rest : Bytes}

theorem of_decodeEntry {entry : Entry} (h : decodeEntry bytes = .ok (entry, rest)) :
    EntryFits entry ∧ bytes = encodeEntry entry ++ rest := by
  obtain ⟨⟨key, behind⟩, hkey, hrest⟩ := bind_ok h
  obtain ⟨⟨value, behind'⟩, hvalue, hentry⟩ := bind_ok hrest
  obtain ⟨hfits, hbytes⟩ := of_decodeText hkey
  obtain ⟨hfits', rfl⟩ := Attribute.of_decode hvalue
  cases hentry
  exact ⟨⟨hfits, hfits'⟩, by rw [hbytes, encodeEntry, List.append_assoc]⟩

theorem of_decodeEntries {count : Nat} {entries : List Entry}
    (h : decodeEntries count bytes = .ok (entries, rest)) :
    entries.length = count ∧ (∀ entry ∈ entries, EntryFits entry) ∧
      bytes = entries.flatMap encodeEntry ++ rest := by
  induction count generalizing bytes entries with
  | zero =>
      cases h
      exact ⟨rfl, nofun, rfl⟩
  | succ count ih =>
      obtain ⟨⟨entry, behind⟩, hentry, hrest⟩ := bind_ok h
      obtain ⟨⟨more, behind'⟩, hmore, hentries⟩ := bind_ok hrest
      obtain ⟨hfits, hbytes⟩ := of_decodeEntry hentry
      cases hentries
      obtain ⟨rfl, hall, rfl⟩ := ih hmore
      refine ⟨rfl, List.forall_mem_cons.mpr ⟨hfits, hall⟩, ?_⟩
      rw [hbytes, List.flatMap_cons, List.append_assoc]

/-- A listing is read as these entries exactly if it is theirs. -/
theorem decodeListing_eq_ok_iff {entries : List Entry} :
    decodeListing bytes = .ok (entries, rest) ↔
      Listable entries ∧ bytes = encodeEntries entries ++ rest := by
  constructor
  · intro h
    obtain ⟨⟨count, behind⟩, hcount, hentries⟩ := bind_ok h
    obtain ⟨hlt, hbytes⟩ := of_readWord hcount
    obtain ⟨rfl, hall, rfl⟩ := of_decodeEntries hentries
    exact ⟨⟨hlt, hall⟩, by rw [hbytes, encodeEntries, List.append_assoc]⟩
  · rintro ⟨hlistable, rfl⟩
    exact decodeListing_encodeEntries hlistable rest

/-- What starts with a listing starts with no other. -/
theorem encodeEntries_append_inj {first second : List Entry} {rest' : Bytes}
    (h : Listable first) (h' : Listable second)
    (heq : encodeEntries first ++ rest = encodeEntries second ++ rest') :
    first = second ∧ rest = rest' := by
  have hread := decodeListing_encodeEntries h rest
  rw [heq, decodeListing_encodeEntries h' rest'] at hread
  cases hread
  exact ⟨rfl, rfl⟩

theorem of_decode {extras : Extras} (hne : bytes ≠ []) (h : decode bytes = .ok extras) :
    ∃ entries, Listable entries ∧ bytes = encodeEntries entries ∧ extras = ofList entries := by
  rw [decode_of_ne_nil hne] at h
  split at h
  · cases h
  · rename_i entries hlisting
    cases h
    obtain ⟨hlistable, rfl⟩ := decodeListing_eq_ok_iff.mp hlisting
    exact ⟨entries, hlistable, List.append_nil _, rfl⟩
  · cases h

/-! ## The value in force -/

theorem find?_insertEntry (key other : String) (value : Attribute) (entries : List Entry) :
    (insertEntry key value entries).find? (fun entry => entry.1 == other) =
      if key = other then some (key, value) else entries.find? fun entry => entry.1 == other := by
  induction entries with
  | nil => by_cases hother : key = other <;> simp [insertEntry, hother]
  | cons head behind ih =>
      obtain ⟨first, held⟩ := head
      rw [insertEntry]
      split
      · rename_i heq
        subst heq
        by_cases hother : key = other <;> simp [hother]
      · rename_i hne
        split
        · by_cases hother : key = other <;> simp [hother]
        · by_cases hfirst : first = other
          · subst hfirst
            simp [hne]
          · simp [hfirst, ih]

theorem get?_insert (extras : Extras) (key other : String) (value : Attribute) :
    (extras.insert key value).get? other =
      if key = other then some value else extras.get? other := by
  rw [get?, insert_entries, find?_insertEntry]
  split <;> rfl

/-- What is put in last is in force, and behind it what was held before. -/
theorem get?_insertAll (extras : Extras) (entries : List Entry) (key : String) :
    (extras.insertAll entries).get? key = (entries.reverse.lookup key).or (extras.get? key) := by
  induction entries generalizing extras with
  | nil =>
      rw [insertAll_nil]
      rfl
  | cons entry behind ih =>
      obtain ⟨first, value⟩ := entry
      have hhead : ((extras.insert first value).get? key) =
          ([(first, value)].lookup key).or (extras.get? key) := by
        rw [get?_insert, List.lookup_cons]
        by_cases hkey : first = key
        · simp [hkey]
        · simp [hkey, beq_false_of_ne (Ne.symm hkey)]
      rw [insertAll_cons]
      refine (ih (extras.insert first value)).trans ?_
      rw [hhead, List.reverse_cons, List.lookup_append, Option.or_assoc]

theorem get?_ofList (entries : List Entry) (key : String) :
    (ofList entries).get? key = entries.reverse.lookup key := by
  rw [ofList, get?_insertAll]
  exact Option.or_none

theorem mem_entries_iff (extras : Extras) (key : String) (value : Attribute) :
    (key, value) ∈ extras.entries ↔ extras.get? key = some value := by
  rw [get?, Option.map_eq_some_iff]
  constructor
  · intro hmem
    obtain ⟨before, behind, hsplit⟩ := List.append_of_mem hmem
    have horder := hsplit ▸ extras.inKeyOrder
    refine ⟨(key, value), ?_, rfl⟩
    refine List.find?_eq_some_iff_append.mpr ⟨by simp, before, behind, hsplit, ?_⟩
    -- whatever is listed before it has a smaller key
    intro entry hentry
    have hbefore : keyBefore entry.1 key :=
      (List.pairwise_append.mp horder).2.2 entry hentry (key, value) List.mem_cons_self
    have hne : entry.1 ≠ key := by
      intro heq
      rw [heq] at hbefore
      exact List.lt_irrefl _ hbefore
    simpa using hne
  · rintro ⟨⟨found, _⟩, hfind, rfl⟩
    have hkey : found = key := by simpa using List.find?_some hfind
    rw [← hkey]
    exact List.mem_of_find?_eq_some hfind

/-! ## Refusals -/

theorem decode_trailing {entries : List Entry} (h : Listable entries) {extra : Bytes}
    (hextra : extra ≠ []) :
    decode (encodeEntries entries ++ extra) = .error (.trailing extra.length) := by
  have hne : encodeEntries entries ++ extra ≠ [] := by simp [hextra]
  rw [decode_of_ne_nil hne, decodeListing_encodeEntries h]
  cases extra with
  | nil => exact absurd rfl hextra
  | cons byte more => rfl

theorem decode_truncated {entries : List Entry} (h : Listable entries) {missing : Bytes}
    (hne : bytes ≠ []) (hmissing : missing ≠ [])
    (hwhole : bytes ++ missing = encodeEntries entries) :
    ∃ fault, decode bytes = .error (.malformed fault) := by
  rw [decode_of_ne_nil hne]
  cases hlisting : decodeListing bytes with
  | error fault => exact ⟨fault, rfl⟩
  | ok read =>
      obtain ⟨found, left⟩ := read
      obtain ⟨hfound, rfl⟩ := decodeListing_eq_ok_iff.mp hlisting
      have heq : encodeEntries found ++ (left ++ missing) = encodeEntries entries ++ [] := by
        rw [← List.append_assoc, hwhole, List.append_nil]
      obtain ⟨-, hnil⟩ := encodeEntries_append_inj hfound h heq
      exact absurd (List.append_eq_nil_iff.mp hnil).2 hmissing

/-- Bytes that start with a flawed entry, and what is wrong with it. -/
inductive Flawed : Bytes → DecodeFault → Prop
  | key {block : Bytes} {fault : Utf8Fault} (rest : Bytes) :
      block.length < 2 ^ 64 → textOfBytes block = .error fault →
      Flawed (encodeBlock block ++ rest) (.badText fault)
  | kind {key : String} {code : Nat} (rest : Bytes) :
      (textBytes key).length < 2 ^ 64 → 7 ≤ code → code < 2 ^ 32 →
      Flawed (encodeText key ++ (encodeLE 4 code ++ rest)) (.unknownKind code)
  | bool {key : String} {byte : UInt8} (rest : Bytes) :
      (textBytes key).length < 2 ^ 64 → 1 < byte →
      Flawed (encodeText key ++ (encodeLE 4 0 ++ byte :: rest)) (.badBool byte)
  | text {key : String} {block : Bytes} {fault : Utf8Fault} (rest : Bytes) :
      (textBytes key).length < 2 ^ 64 → block.length < 2 ^ 64 → textOfBytes block = .error fault →
      Flawed (encodeText key ++ (encodeLE 4 4 ++ (encodeBlock block ++ rest))) (.badText fault)

theorem Flawed.decodeEntry {fault : DecodeFault} (h : Flawed bytes fault) :
    decodeEntry bytes = .error fault := by
  cases h with
  | key rest hlength htext =>
      rw [Extras.decodeEntry, decodeText_bad hlength htext]
      rfl
  | kind rest hkey hlow hhigh =>
      rw [decodeEntry_encodeText hkey, Attribute.decode_code hhigh,
        Attribute.decodePayload_unknown hlow]
      rfl
  | bool rest hkey hbyte =>
      rw [decodeEntry_encodeText hkey, Attribute.decode_code (by decide),
        Attribute.decodePayload_badBool hbyte]
      rfl
  | text rest hkey hlength htext =>
      rw [decodeEntry_encodeText hkey, Attribute.decode_code (by decide),
        Attribute.decodePayload_badText hlength htext]
      rfl

theorem decode_flawed {entries : List Entry} {count : Nat} {fault : DecodeFault}
    (hentries : ∀ entry ∈ entries, EntryFits entry) (hmore : entries.length < count)
    (hcount : count < 2 ^ 64) (h : Flawed bytes fault) :
    decode (encodeLE 8 count ++ (entries.flatMap encodeEntry ++ bytes)) =
      .error (.malformed fault) := by
  obtain ⟨more, rfl⟩ := Nat.exists_eq_add_of_lt hmore
  have hflaw : decodeEntries (more + 1) bytes = .error fault := by
    rw [decodeEntries, h.decodeEntry]
    rfl
  have hne : encodeLE 8 (entries.length + more + 1) ++ (entries.flatMap encodeEntry ++ bytes)
      ≠ [] := by
    simp [encodeLE]
  rw [decode_of_ne_nil hne, decodeListing_count hcount, Nat.add_assoc,
    decodeEntries_append hentries, hflaw]
  rfl

/-! ## Listings and attributes -/

/--
A listing is read as the attributes that its last value for each key puts in
force, and only listings are read.  The listing that attributes are written by
holds them in the order of keys and is read as these attributes, also in front of
data.
-/
theorem decode_exactly :
    (∀ entries, Listable entries →
      ∃ extras, decode (encodeEntries entries) = .ok extras ∧
        ∀ key, extras.get? key = entries.reverse.lookup key) ∧
    (∀ blob extras, blob ≠ [] → decode blob = .ok extras →
      ∃! entries, Listable entries ∧ blob = encodeEntries entries) ∧
    (∀ entries, Listable entries →
      (∀ extra, extra ≠ [] →
        decode (encodeEntries entries ++ extra) = .error (.trailing extra.length)) ∧
      ∀ blob missing, blob ≠ [] → missing ≠ [] → blob ++ missing = encodeEntries entries →
        ∃ fault, decode blob = .error (.malformed fault)) ∧
    (∀ (entries : List Entry) count flawed fault, (∀ entry ∈ entries, EntryFits entry) →
      entries.length < count → count < 2 ^ 64 → Flawed flawed fault →
      decode (encodeLE 8 count ++ (entries.flatMap encodeEntry ++ flawed)) =
        .error (.malformed fault)) ∧
    ∀ extras, Listable extras.entries →
      (∃ entries, extras.encode = encodeEntries entries ∧
        entries.Pairwise (fun first second => textBytes first.1 < textBytes second.1) ∧
        ∀ key value, (key, value) ∈ entries ↔ extras.get? key = some value) ∧
      decode extras.encode = .ok extras ∧
      ∀ (header : Header) (data : Bytes),
        decodeFront extras.encodedSize ((encodeRegion header extras ++ data).drop headerSize) =
          .ok extras := by
  refine ⟨?_, ?_, ?_, ?_, ?_⟩
  · intro entries h
    exact ⟨ofList entries, decode_encodeEntries h, get?_ofList entries⟩
  · intro blob extras hne h
    obtain ⟨entries, hlistable, heq, -⟩ := of_decode hne h
    refine ⟨entries, ⟨hlistable, heq⟩, ?_⟩
    rintro other ⟨hother, heq'⟩
    have hsame : encodeEntries other ++ [] = encodeEntries entries ++ [] := by rw [← heq', heq]
    exact (encodeEntries_append_inj hother hlistable hsame).1
  · intro entries h
    exact ⟨fun extra => decode_trailing h, fun blob missing => decode_truncated h⟩
  · intro entries count flawed fault hentries hmore hcount h
    exact decode_flawed hentries hmore hcount h
  · intro extras h
    refine ⟨⟨extras.entries, rfl, extras.inKeyOrder, extras.mem_entries_iff⟩, decode_encode h, ?_⟩
    intro header data
    rw [Header.drop_encodeRegion, decodeFront_append h]

/-- Keys out of order and one of them twice, attributes of one key, and three refusals. -/
theorem decode_exactly_repeated :
    (∃ extras, decode (encodeEntries [("b", .uint 1), ("a", .bool true), ("b", .uint 2)]) =
      .ok extras ∧ extras.get? "b" = some (.uint 2)) ∧
    (∃! entries, Listable entries ∧ (empty.insert "a" (.int 1)).encode = encodeEntries entries) ∧
    decode (encodeEntries [] ++ [0]) = .error (.trailing 1) ∧
    (∃ fault, decode [0, 0, 0, 0] = .error (.malformed fault)) ∧
    decode (encodeLE 8 1 ++ (encodeText "a" ++ (encodeLE 4 0 ++ [2]))) =
      .error (.malformed (.badBool 2)) := by
  obtain ⟨hread, hlisted, hrefused, hflawed, hwritten⟩ := decode_exactly
  refine ⟨?_, ?_, ?_, ?_, ?_⟩
  · obtain ⟨extras, hextras, hget⟩ :=
      hread [("b", .uint 1), ("a", .bool true), ("b", .uint 2)] (by decide)
    exact ⟨extras, hextras, hget "b"⟩
  · have hreturn := (hwritten (empty.insert "a" (.int 1)) (by decide)).2.1
    exact hlisted _ _ (encodeEntries_ne_nil _) hreturn
  · exact (hrefused [] (by decide)).1 [0] (by decide)
  · exact (hrefused [] (by decide)).2 [0, 0, 0, 0] [0, 0, 0, 0] (by decide) (by decide) (by decide)
  · exact hflawed [] 1 _ _ nofun (by decide) (by decide) (.bool [] (by decide) (by decide))

end Extras

end SegmentStream
