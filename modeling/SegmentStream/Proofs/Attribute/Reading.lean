import Mathlib.Algebra.Order.BigOperators.Group.List
import Mathlib.Algebra.Order.Group.Nat
import SegmentStream.Attribute.Extras

/-!
# Reading written attributes

Attributes are read back as they were written as long as every length fits its
eight bytes.  Extra attributes that are written in the order of their keys are
read back in that order.
-/

namespace SegmentStream

/-! ## Parts -/

section Parts

variable {bytes : Bytes} {text : String}

theorem readWord_of_lt {width value : Nat} (h : value < 256 ^ width) (rest : Bytes) :
    readWord width (encodeLE width value ++ rest) = .ok (value, rest) := by
  rw [readWord_encodeLE, Nat.mod_eq_of_lt h]

theorem readWord_toNat (word : UInt64) (rest : Bytes) :
    readWord 8 (encodeLE 8 word.toNat ++ rest) = .ok (word.toNat, rest) :=
  readWord_of_lt word.toNat_lt rest

theorem decodeBlock_encodeBlock (h : bytes.length < 2 ^ 64) (rest : Bytes) :
    decodeBlock (encodeBlock bytes ++ rest) = .ok (bytes, rest) := by
  have hlength : bytes.length < 256 ^ 8 := h
  rw [encodeBlock, List.append_assoc, decodeBlock, readWord_of_lt hlength]
  exact readBlock_append bytes rest

theorem decodeText_encodeText (h : (textBytes text).length < 2 ^ 64) (rest : Bytes) :
    decodeText (encodeText text ++ rest) = .ok (text, rest) := by
  rw [encodeText, decodeText, decodeBlock_encodeBlock h]
  simp [bind, Except.bind, pure, Except.pure]

end Parts

namespace Attribute

/-- A length that the payload states fits its eight bytes. -/
def Fits : Attribute → Prop
  | text value => (textBytes value).length < 2 ^ 64
  | bytes value => value.length < 2 ^ 64
  | _ => True

instance : (value : Attribute) → Decidable value.Fits
  | text value => inferInstanceAs (Decidable ((textBytes value).length < 2 ^ 64))
  | bytes value => inferInstanceAs (Decidable (value.length < 2 ^ 64))
  | bool _ | int _ | uint _ | double _ | time .. => .isTrue trivial

theorem fits_of_payloadSize {value : Attribute} (h : value.payloadSize < 2 ^ 64) : value.Fits := by
  cases value with
  | text value =>
      simp only [payloadSize] at h
      exact Nat.lt_of_le_of_lt (Nat.le_add_left ..) h
  | bytes value =>
      simp only [payloadSize] at h
      exact Nat.lt_of_le_of_lt (Nat.le_add_left ..) h
  | _ => trivial

theorem decodePayload_encodePayload {value : Attribute} (h : value.Fits) (rest : Bytes) :
    decodePayload value.code (value.encodePayload ++ rest) = .ok (value, rest) := by
  cases value with
  | bool value => cases value <;> rfl
  | int value =>
      simp only [decodePayload, code, encodePayload, readWord_toNat]
      simp [bind, Except.bind, pure, Except.pure]
  | uint value =>
      simp only [decodePayload, code, encodePayload, readWord_toNat]
      simp [bind, Except.bind, pure, Except.pure]
  | double value =>
      simp only [decodePayload, code, encodePayload, readWord_toNat]
      simp [bind, Except.bind, pure, Except.pure]
  | text value =>
      simp only [decodePayload, code, encodePayload, decodeText_encodeText h]
      rfl
  | bytes value =>
      simp only [decodePayload, code, encodePayload, decodeBlock_encodeBlock h]
      rfl
  | time seconds fraction =>
      simp only [decodePayload, code, encodePayload, List.append_assoc, readWord_toNat]
      simp [bind, Except.bind, pure, Except.pure]

theorem decode_code {code : Nat} (h : code < 2 ^ 32) (rest : Bytes) :
    decode (encodeLE 4 code ++ rest) = decodePayload code rest := by
  have hcode : code < 256 ^ 4 := h
  rw [decode, readWord_of_lt hcode]
  rfl

theorem decode_encode {value : Attribute} (h : value.Fits) (rest : Bytes) :
    decode (value.encode ++ rest) = .ok (value, rest) := by
  have hcode : value.code < 2 ^ 32 := by cases value <;> simp [code]
  rw [encode, List.append_assoc, decode_code hcode]
  exact decodePayload_encodePayload h rest

end Attribute

/-! ## Extra attributes -/

/-- An entry behind all others in the order of keys is put last. -/
theorem insertEntry_last {key : String} (value : Attribute) {entries : List Entry}
    (h : ∀ entry ∈ entries, keyBefore entry.1 key) :
    insertEntry key value entries = entries ++ [(key, value)] := by
  induction entries with
  | nil => rfl
  | cons head rest ih =>
      obtain ⟨other, held⟩ := head
      obtain ⟨hhead, hrest⟩ := List.forall_mem_cons.mp h
      have hne : key ≠ other := by
        rintro rfl
        exact List.lt_irrefl _ hhead
      have hnot : ¬ keyBefore key other := fun h' => List.lt_irrefl _ (keyBefore_trans hhead h')
      rw [insertEntry, if_neg hne, if_neg hnot, ih hrest, List.cons_append]

namespace Extras

/-- The lengths of key and value fit their eight bytes. -/
def EntryFits (entry : Entry) : Prop := (textBytes entry.1).length < 2 ^ 64 ∧ entry.2.Fits

instance (entry : Entry) : Decidable (EntryFits entry) := inferInstanceAs (Decidable (_ ∧ _))

/-- Entries that can be listed: their number fits its eight bytes too. -/
structure Listable (entries : List Entry) : Prop where
  count : entries.length < 2 ^ 64
  entries : ∀ entry ∈ entries, EntryFits entry

instance (entries : List Entry) : Decidable (Listable entries) :=
  decidable_of_iff (entries.length < 2 ^ 64 ∧ ∀ entry ∈ entries, EntryFits entry)
    ⟨fun h => ⟨h.1, h.2⟩, fun h => ⟨h.count, h.entries⟩⟩

theorem listable_of_encodedSize {extras : Extras} (h : extras.encodedSize < 2 ^ 64) :
    Listable extras.entries := by
  rw [extras.built.encodedSize_eq, measure_eq] at h
  have hcount : extras.entries.length ≤ (extras.entries.map entrySize).sum := by
    have := List.length_le_sum_of_one_le (extras.entries.map entrySize) (by simp [entrySize]; omega)
    simpa using this
  refine ⟨by omega, fun entry hentry => ?_⟩
  have hsize : entrySize entry ≤ (extras.entries.map entrySize).sum :=
    List.le_sum_of_mem (List.mem_map_of_mem hentry)
  rw [entrySize] at hsize
  exact ⟨by omega, Attribute.fits_of_payloadSize (by omega)⟩

theorem decodeEntry_encodeText {key : String} (h : (textBytes key).length < 2 ^ 64)
    (rest : Bytes) :
    decodeEntry (encodeText key ++ rest) =
      (Attribute.decode rest).map fun (value, rest) => ((key, value), rest) := by
  rw [decodeEntry, decodeText_encodeText h]
  simp only [bind, Except.bind, pure, Except.pure]
  cases Attribute.decode rest <;> rfl

theorem decodeEntry_encodeEntry {entry : Entry} (h : EntryFits entry) (rest : Bytes) :
    decodeEntry (encodeEntry entry ++ rest) = .ok (entry, rest) := by
  rw [encodeEntry, List.append_assoc, decodeEntry_encodeText h.1, Attribute.decode_encode h.2]
  rfl

/-- Entries in front of others are read first, whatever comes of the others. -/
theorem decodeEntries_append {entries : List Entry} (h : ∀ entry ∈ entries, EntryFits entry)
    (more : Nat) (bytes : Bytes) :
    decodeEntries (entries.length + more) (entries.flatMap encodeEntry ++ bytes) =
      (decodeEntries more bytes).map fun (found, rest) => (entries ++ found, rest) := by
  induction entries with
  | nil =>
      rw [List.length_nil, Nat.zero_add, List.flatMap_nil, List.nil_append]
      cases decodeEntries more bytes <;> rfl
  | cons entry entries ih =>
      obtain ⟨hentry, hentries⟩ := List.forall_mem_cons.mp h
      rw [List.length_cons, Nat.succ_add, decodeEntries, List.flatMap_cons, List.append_assoc,
        decodeEntry_encodeEntry hentry]
      simp only [bind, Except.bind]
      rw [ih hentries]
      cases decodeEntries more bytes <;> rfl

theorem decodeEntries_flatMap {entries : List Entry}
    (h : ∀ entry ∈ entries, EntryFits entry) (rest : Bytes) :
    decodeEntries entries.length (entries.flatMap encodeEntry ++ rest) = .ok (entries, rest) := by
  have happend := decodeEntries_append h 0 rest
  simpa [decodeEntries, Except.map] using happend

theorem insertAll_entries (extras : Extras) (entries : List Entry)
    (h : InKeyOrder (extras.entries ++ entries)) :
    (extras.insertAll entries).entries = extras.entries ++ entries := by
  induction entries generalizing extras with
  | nil => rw [insertAll_nil, List.append_nil]
  | cons entry rest ih =>
      obtain ⟨key, value⟩ := entry
      have hlast : (extras.insert key value).entries = extras.entries ++ [(key, value)] := by
        refine insertEntry_last value fun entry hentry => ?_
        exact (List.pairwise_append.mp h).2.2 entry hentry (key, value) List.mem_cons_self
      have hnext := ih (extras.insert key value) (by rw [hlast, List.append_assoc]; exact h)
      rw [insertAll_cons]
      exact hnext.trans (by rw [hlast, List.append_assoc]; rfl)

theorem ofList_entries (extras : Extras) : ofList extras.entries = extras :=
  eq_of_entries (insertAll_entries empty extras.entries extras.inKeyOrder)

/-- A listing: the number of entries, and the entries. -/
def decodeListing (bytes : Bytes) : Except DecodeFault (List Entry × Bytes) := do
  let (count, rest) ← readWord 8 bytes
  decodeEntries count rest

theorem decodeListing_count {count : Nat} (h : count < 2 ^ 64) (bytes : Bytes) :
    decodeListing (encodeLE 8 count ++ bytes) = decodeEntries count bytes := by
  have hcount : count < 256 ^ 8 := h
  rw [decodeListing, readWord_of_lt hcount]
  rfl

theorem decodeListing_encodeEntries {entries : List Entry} (h : Listable entries) (rest : Bytes) :
    decodeListing (encodeEntries entries ++ rest) = .ok (entries, rest) := by
  rw [encodeEntries, List.append_assoc, decodeListing_count h.count]
  exact decodeEntries_flatMap h.entries rest

theorem decode_of_ne_nil {bytes : Bytes} (h : bytes ≠ []) :
    decode bytes = match decodeListing bytes with
      | .error fault => .error (.malformed fault)
      | .ok (entries, []) => .ok (ofList entries)
      | .ok (_, rest) => .error (.trailing rest.length) := by
  rw [decode, if_neg (by rwa [List.isEmpty_iff])]
  rfl

theorem encodeEntries_ne_nil (entries : List Entry) : encodeEntries entries ≠ [] := by
  rw [encodeEntries, encodeLE]
  simp

theorem decode_encodeEntries {entries : List Entry} (h : Listable entries) :
    decode (encodeEntries entries) = .ok (ofList entries) := by
  have hlisting := decodeListing_encodeEntries h []
  rw [List.append_nil] at hlisting
  rw [decode_of_ne_nil (encodeEntries_ne_nil entries), hlisting]

theorem decode_encode {extras : Extras} (h : Listable extras.entries) :
    decode extras.encode = .ok extras := by
  rw [encode, decode_encodeEntries h, ofList_entries]

theorem decodeFront_append {extras : Extras} (h : Listable extras.entries) (rest : Bytes) :
    decodeFront extras.encodedSize (extras.encode ++ rest) = .ok extras := by
  have hfits : ¬ (extras.encode ++ rest).length < extras.encode.length := by
    rw [List.length_append]
    omega
  rw [← extras.encode_length, decodeFront, if_neg hfits, List.take_left, decode_encode h]

end Extras

end SegmentStream
