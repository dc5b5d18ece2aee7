import SegmentStream.Proofs.Attribute.Listing

/-!
# How long attributes are written

The length that stands beside attributes is that of their written form: eight
bytes for the number of entries, and for every entry twelve bytes, its key and
its payload.  Putting in a value changes it by what the value takes up more than
the one it replaces, so a value of the same width keeps it.
-/

namespace SegmentStream

namespace Attribute

/-- The bytes that a payload holds behind their number. -/
def block? : Attribute → Option Bytes
  | text value => some (textBytes value)
  | bytes value => some value
  | _ => none

/-- Values whose payloads take up the same room: of texts and bytes only those of one length. -/
inductive SameWidth : Attribute → Attribute → Prop
  | bool (first second : Bool) : SameWidth (.bool first) (.bool second)
  | number {first second : Attribute} : first.toNumber?.isSome → second.toNumber?.isSome →
      SameWidth first second
  | time (seconds seconds' : UInt64) (fraction fraction' : Binary64) :
      SameWidth (.time seconds fraction) (.time seconds' fraction')
  | block {first second : Attribute} {bytes bytes' : Bytes} : first.block? = some bytes →
      second.block? = some bytes' → bytes.length = bytes'.length → SameWidth first second

theorem payloadSize_of_number {value : Attribute} (h : value.toNumber?.isSome) :
    value.payloadSize = 8 := by
  cases value <;> simp_all [toNumber?, payloadSize]

theorem payloadSize_of_block {value : Attribute} {bytes : Bytes} (h : value.block? = some bytes) :
    value.payloadSize = 8 + bytes.length := by
  cases value <;> simp_all [block?, payloadSize]

theorem SameWidth.payloadSize_eq {first second : Attribute} (h : first.SameWidth second) :
    first.payloadSize = second.payloadSize := by
  cases h with
  | bool => rfl
  | number h h' => rw [payloadSize_of_number h, payloadSize_of_number h']
  | time => rfl
  | block h h' hlength => rw [payloadSize_of_block h, payloadSize_of_block h', hlength]

end Attribute

namespace Extras

/-- What the entries take up with a new one, and what its key took up before. -/
theorem sum_insertEntry (key : String) (value : Attribute) {entries : List Entry}
    (h : InKeyOrder entries) :
    ((insertEntry key value entries).map entrySize).sum +
        ((entries.find? fun entry => entry.1 == key).map entrySize).getD 0 =
      (entries.map entrySize).sum + entrySize (key, value) := by
  induction entries with
  | nil => simp [insertEntry]
  | cons head rest ih =>
      obtain ⟨other, held⟩ := head
      obtain ⟨hhead, hrest⟩ := List.pairwise_cons.mp h
      by_cases heq : key = other
      · subst heq
        simp [insertEntry]
        omega
      · have hne : ¬ other = key := Ne.symm heq
        by_cases hbefore : keyBefore key other
        · -- all that follow come after the key too, so none of them has it
          have hnone : rest.find? (fun entry => entry.1 == key) = none := by
            rw [List.find?_eq_none]
            intro entry hentry hkey
            have hafter := keyBefore_trans hbefore (hhead entry hentry)
            rw [beq_iff_eq] at hkey
            rw [hkey] at hafter
            exact List.lt_irrefl _ hafter
          simp [insertEntry, heq, hne, hbefore, hnone]
          omega
        · have := ih hrest
          simp [insertEntry, heq, hne, hbefore]
          omega

theorem encodedSize_eq (extras : Extras) :
    extras.encodedSize = 8 + (extras.entries.map entrySize).sum := by
  rw [extras.built.encodedSize_eq, measure_eq]

theorem encodedSize_insert (extras : Extras) (key : String) (value : Attribute) :
    (extras.insert key value).encodedSize +
        ((extras.get? key).map fun held => entrySize (key, held)).getD 0 =
      extras.encodedSize + entrySize (key, value) := by
  have hheld : (extras.get? key).map (fun held => entrySize (key, held)) =
      (extras.entries.find? fun entry => entry.1 == key).map entrySize := by
    rw [get?]
    cases hfind : extras.entries.find? (fun entry => entry.1 == key) with
    | none => rfl
    | some found =>
        have hkey : found.1 = key := by simpa using List.find?_some hfind
        simp [← hkey]
  have := sum_insertEntry key value extras.inKeyOrder
  rw [hheld, encodedSize_eq, encodedSize_eq, insert_entries]
  omega

/--
However attributes came about, the length beside them is that of their written
form, and it is known beforehand what it will be with one more entry.  A key
that is new adds its entry; one that is present changes the length by what its
values differ in width.
-/
theorem encodedSize_exact (extras : Extras) :
    (extras.encodedSize = extras.encode.length ∧
      extras.encodedSize = 8 + (extras.entries.map fun entry =>
        12 + (textBytes entry.1).length + entry.2.payloadSize).sum) ∧
    (∀ key value, extras.encodedSizeWith key value = (extras.insert key value).encodedSize) ∧
    (∀ key value, extras.get? key = none →
      (extras.insert key value).encodedSize =
        extras.encodedSize + (12 + (textBytes key).length + value.payloadSize)) ∧
    ∀ key held value, extras.get? key = some held →
      (extras.insert key value).encodedSize + held.payloadSize =
        extras.encodedSize + value.payloadSize ∧
      (held.SameWidth value → (extras.insert key value).encodedSize = extras.encodedSize) := by
  refine ⟨⟨extras.encode_length.symm, extras.encodedSize_eq⟩, fun _ _ => rfl, ?_, ?_⟩
  · intro key value hnone
    have hgrown := extras.encodedSize_insert key value
    rw [hnone] at hgrown
    exact hgrown
  · intro key held value hheld
    have hchanged : (extras.insert key value).encodedSize + held.payloadSize =
        extras.encodedSize + value.payloadSize := by
      have hgrown := extras.encodedSize_insert key value
      rw [hheld] at hgrown
      simp only [Option.map_some, Option.getD_some, entrySize] at hgrown
      omega
    refine ⟨hchanged, fun hwidth => ?_⟩
    rw [hwidth.payloadSize_eq] at hchanged
    omega

/-- A number gives way to another one, a text to as many bytes, and a third key comes in. -/
theorem encodedSize_exact_replaced :
    let extras := (ofList [("s", .text "ab"), ("n", .int 1)]).merge (empty.insert "n" (.uint 2))
    (extras.get? "n" = some (.uint 2) ∧ extras.get? "s" = some (.text "ab") ∧
      extras.get? "t" = none) ∧
    extras.encodedSize = 52 ∧
    (extras.insert "n" (.double .one)).encodedSize = extras.encodedSize ∧
    (extras.insert "s" (.bytes [1, 2])).encodedSize = extras.encodedSize ∧
    (extras.insert "t" (.bool true)).encodedSize = extras.encodedSize + 14 := by
  intro extras
  have hnumber : extras.get? "n" = some (.uint 2) := by decide
  have htext : extras.get? "s" = some (.text "ab") := by decide
  have hnone : extras.get? "t" = none := by decide
  obtain ⟨⟨-, hsize⟩, -, hnew, hpresent⟩ := encodedSize_exact extras
  refine ⟨⟨hnumber, htext, hnone⟩, by rw [hsize]; decide, ?_, ?_, ?_⟩
  · exact (hpresent "n" _ (.double .one) hnumber).2 (.number (by decide) (by decide))
  · exact (hpresent "s" _ (.bytes [1, 2]) htext).2 (.block rfl rfl (by decide))
  · exact hnew "t" (.bool true) hnone

end Extras

end SegmentStream
