import SegmentStream.Attribute.Codec

/-!
# Extra attributes

Attributes that no header field holds are kept by key, in the byte order of the
keys, and written behind the header: their number, then each key with its
value.  How long the written form is stands beside them and is measured anew
whenever they change; replacing a value by one of the same payload size keeps
it.
-/

namespace SegmentStream

abbrev Entry := String × Attribute

/-- The order of keys: that of their bytes. -/
def keyBefore (first second : String) : Prop := textBytes first < textBytes second

instance (first second : String) : Decidable (keyBefore first second) :=
  inferInstanceAs (Decidable (textBytes first < textBytes second))

theorem textBytes_injective {first second : String} (h : textBytes first = textBytes second) :
    first = second := by
  have := congrArg textOfBytes h
  simpa using this

theorem keyBefore_of_not {first second : String} (hne : first ≠ second)
    (h : ¬ keyBefore first second) : keyBefore second first := by
  unfold keyBefore at *
  have hle := List.not_lt.mp h
  exact Decidable.byContradiction fun hnot =>
    hne (textBytes_injective (List.le_antisymm (List.not_lt.mp hnot) hle))

theorem keyBefore_trans {first second third : String} (h : keyBefore first second)
    (h' : keyBefore second third) : keyBefore first third :=
  List.lt_trans h h'

def insertEntry (key : String) (value : Attribute) : List Entry → List Entry
  | [] => [(key, value)]
  | (other, held) :: rest =>
      if key = other then (key, value) :: rest
      else if keyBefore key other then (key, value) :: (other, held) :: rest
      else (other, held) :: insertEntry key value rest

def InKeyOrder (entries : List Entry) : Prop :=
  entries.Pairwise fun first second => keyBefore first.1 second.1

theorem mem_insertEntry {key : String} {value : Attribute} {entries : List Entry} {entry : Entry}
    (h : entry ∈ insertEntry key value entries) : entry = (key, value) ∨ entry ∈ entries := by
  induction entries with
  | nil => simpa [insertEntry] using h
  | cons head rest ih =>
      obtain ⟨other, held⟩ := head
      simp only [insertEntry] at h
      split at h
      · simp only [List.mem_cons] at h ⊢
        rcases h with h | h
        · exact .inl h
        · exact .inr (.inr h)
      · split at h
        · simpa using h
        · simp only [List.mem_cons] at h ⊢
          rcases h with h | h
          · exact .inr (.inl h)
          · rcases ih h with h | h
            · exact .inl h
            · exact .inr (.inr h)

theorem insertEntry_inKeyOrder {entries : List Entry} (key : String) (value : Attribute)
    (h : InKeyOrder entries) : InKeyOrder (insertEntry key value entries) := by
  induction entries with
  | nil => simp [insertEntry, InKeyOrder]
  | cons head rest ih =>
      obtain ⟨other, held⟩ := head
      obtain ⟨hhead, hrest⟩ := List.pairwise_cons.mp h
      simp only [insertEntry]
      split
      · rename_i heq
        subst heq
        exact List.pairwise_cons.mpr ⟨hhead, hrest⟩
      · rename_i hne
        split
        · rename_i hbefore
          refine List.pairwise_cons.mpr ⟨?_, h⟩
          intro entry hentry
          rcases List.mem_cons.mp hentry with rfl | hentry
          · exact hbefore
          · exact keyBefore_trans hbefore (hhead entry hentry)
        · rename_i hnot
          refine List.pairwise_cons.mpr ⟨?_, ih hrest⟩
          intro entry hentry
          rcases mem_insertEntry hentry with rfl | hentry
          · exact keyBefore_of_not hne hnot
          · exact hhead entry hentry

theorem foldl_insertEntry_inKeyOrder {entries : List Entry} (more : List Entry)
    (h : InKeyOrder entries) :
    InKeyOrder (more.foldl (fun held entry => insertEntry entry.1 entry.2 held) entries) := by
  induction more generalizing entries with
  | nil => exact h
  | cons entry more ih => exact ih (insertEntry_inKeyOrder entry.1 entry.2 h)

/-! ## Written form -/

namespace Extras

def encodeEntry (entry : Entry) : Bytes := encodeText entry.1 ++ entry.2.encode

def encodeEntries (entries : List Entry) : Bytes :=
  encodeLE 8 entries.length ++ entries.flatMap encodeEntry

def measure (entries : List Entry) : Nat := (encodeEntries entries).length

def entrySize (entry : Entry) : Nat := 12 + (textBytes entry.1).length + entry.2.payloadSize

theorem encodeEntry_length (entry : Entry) : (encodeEntry entry).length = entrySize entry := by
  simp [encodeEntry, encodeText, encodeBlock, entrySize, Attribute.encode]
  omega

/-- What is written is as long as its parts. -/
theorem measure_eq (entries : List Entry) :
    measure entries = 8 + (entries.map entrySize).sum := by
  simp [measure, encodeEntries, List.length_flatMap, encodeEntry_length]

end Extras

/-! ## Tables -/

/-- Entries, and how long their written form was when they last changed. -/
structure AttributeTable where
  entries : List Entry
  encodedSize : Nat
  deriving DecidableEq

namespace AttributeTable

def ofEntries (entries : List Entry) : AttributeTable := ⟨entries, Extras.measure entries⟩

def empty : AttributeTable := ofEntries []

/-- A key that is present gets the new value. -/
def insert (table : AttributeTable) (key : String) (value : Attribute) : AttributeTable :=
  ofEntries (insertEntry key value table.entries)

/-- Of several entries with one key the last stays. -/
def insertAll (table : AttributeTable) (entries : List Entry) : AttributeTable :=
  ofEntries (entries.foldl (fun held entry => insertEntry entry.1 entry.2 held) table.entries)

/-- Tables come about from nothing, by one entry and by several at once. -/
inductive Built : AttributeTable → Prop
  | empty : Built empty
  | insert {table : AttributeTable} (key : String) (value : Attribute) :
      Built table → Built (table.insert key value)
  | insertAll {table : AttributeTable} (entries : List Entry) :
      Built table → Built (table.insertAll entries)

namespace Built

variable {table : AttributeTable}

theorem inKeyOrder (h : table.Built) : InKeyOrder table.entries := by
  induction h with
  | empty => exact .nil
  | insert key value _ ih => exact insertEntry_inKeyOrder key value ih
  | insertAll entries _ ih => exact foldl_insertEntry_inKeyOrder entries ih

theorem encodedSize_eq (h : table.Built) : table.encodedSize = Extras.measure table.entries := by
  cases h <;> rfl

end Built

end AttributeTable

/-- The tables that come about. -/
structure Extras extends AttributeTable where
  built : toAttributeTable.Built
  deriving DecidableEq

inductive ExtrasFault where
  | tooShort (length need : Nat)
  | malformed (fault : DecodeFault)
  | trailing (extra : Nat)
  deriving DecidableEq, Repr

namespace ExtrasFault

def message : ExtrasFault → String
  | tooShort length need => s!"header buffer too short: {length} < {need}"
  | malformed fault => s!"extra attributes decode failed: {fault.message}"
  | trailing extra => s!"extra attributes blob has {extra} trailing bytes"

end ExtrasFault

namespace Extras

def empty : Extras := ⟨.empty, .empty⟩

instance : Inhabited Extras := ⟨empty⟩

def insert (extras : Extras) (key : String) (value : Attribute) : Extras :=
  ⟨extras.toAttributeTable.insert key value, extras.built.insert key value⟩

def insertAll (extras : Extras) (entries : List Entry) : Extras :=
  ⟨extras.toAttributeTable.insertAll entries, extras.built.insertAll entries⟩

def ofList (entries : List Entry) : Extras := empty.insertAll entries

/-- The entries of both; where keys agree, that of `other`. -/
def merge (extras other : Extras) : Extras := extras.insertAll other.entries

def get? (extras : Extras) (key : String) : Option Attribute :=
  (extras.entries.find? fun entry => entry.1 == key).map Prod.snd

def contains (extras : Extras) (key : String) : Bool := (extras.get? key).isSome

def size (extras : Extras) : Nat := extras.entries.length

def isEmpty (extras : Extras) : Bool := extras.entries.isEmpty

/-- The same keys with values equal as numbers. -/
def sameValues (first second : Extras) : Bool :=
  first.entries.length == second.entries.length &&
    (first.entries.zip second.entries).all fun (x, y) => x.1 == y.1 && x.2.sameValue y.2

/-! ## Writing and reading -/

def encode (extras : Extras) : Bytes := encodeEntries extras.entries

/-- How long the written form would be with one more entry. -/
def encodedSizeWith (extras : Extras) (key : String) (value : Attribute) : Nat :=
  measure (insertEntry key value extras.entries)

def decodeEntry (bytes : Bytes) : Except DecodeFault (Entry × Bytes) := do
  let (key, rest) ← decodeText bytes
  let (value, rest) ← Attribute.decode rest
  return ((key, value), rest)

def decodeEntries : Nat → Bytes → Except DecodeFault (List Entry × Bytes)
  | 0, bytes => .ok ([], bytes)
  | count + 1, bytes => do
      let (entry, rest) ← decodeEntry bytes
      let (entries, rest) ← decodeEntries count rest
      return (entry :: entries, rest)

/-- The attributes a blob lists, in any order of keys.  The empty blob lists none. -/
def decode (bytes : Bytes) : Except ExtrasFault Extras :=
  if bytes.isEmpty then .ok empty
  else
    let listed := do
      let (count, rest) ← readWord 8 bytes
      decodeEntries count rest
    match listed with
    | .error fault => .error (.malformed fault)
    | .ok (entries, []) => .ok (ofList entries)
    | .ok (_, rest) => .error (.trailing rest.length)

def decodeFront (size : Nat) (bytes : Bytes) : Except ExtrasFault Extras :=
  if bytes.length < size then .error (.tooShort bytes.length size)
  else decode (bytes.take size)

/-! ## What every table keeps -/

@[simp] theorem insert_entries (extras : Extras) (key : String) (value : Attribute) :
    (extras.insert key value).entries = insertEntry key value extras.entries := rfl

theorem inKeyOrder (extras : Extras) : InKeyOrder extras.entries := extras.built.inKeyOrder

theorem encode_length (extras : Extras) : extras.encode.length = extras.encodedSize :=
  extras.built.encodedSize_eq.symm

/-- The length follows from the entries. -/
theorem eq_of_entries {first second : Extras} (h : first.entries = second.entries) :
    first = second := by
  have hsize : first.encodedSize = second.encodedSize := by
    rw [first.built.encodedSize_eq, second.built.encodedSize_eq, h]
  obtain ⟨⟨entries, size⟩, _⟩ := first
  cases h
  cases hsize
  rfl

theorem insertAll_nil (extras : Extras) : extras.insertAll [] = extras := eq_of_entries rfl

theorem insertAll_cons (extras : Extras) (entry : Entry) (rest : List Entry) :
    extras.insertAll (entry :: rest) = (extras.insert entry.1 entry.2).insertAll rest := rfl

end Extras

end SegmentStream
