import SegmentStream.Proofs.Attribute.Listing
import SegmentStream.Telemetry.Varint

/-!
# Reading counters in variable-length form

A count is read back from its written form whatever follows, and so are eleven
of them one behind the other.  Longer forms of a count are read as well, but the
written one is the shortest.
-/

namespace SegmentStream

/-! ## One count -/

theorem encodeVarint_length (n : Nat) :
    (encodeVarint n).length =
      if n < 251 then 1 else if n < 2 ^ 16 then 3 else if n < 2 ^ 32 then 5 else 9 := by
  unfold encodeVarint
  split
  · rfl
  · split
    · simp
    · split <;> simp

/-- The mark is the count itself or says how wide the count behind it is. -/
theorem decodeVarint_cons (mark : UInt8) (bytes : Bytes) :
    decodeVarint (mark :: bytes) =
      if mark.toNat < 251 then .ok (mark.toNat, bytes)
      else if mark.toNat = 251 then readWord 2 bytes
      else if mark.toNat = 252 then readWord 4 bytes
      else if mark.toNat = 253 then readWord 8 bytes
      else .error (.badIntegerMark mark (bytes.length + 1)) := by
  rw [decodeVarint, readWord_byte]
  simp only [bind, Except.bind, UInt8.ofNat_toNat]
  rfl

theorem decodeVarint_encodeVarint {n : Nat} (h : n < 2 ^ 64) (rest : Bytes) :
    decodeVarint (encodeVarint n ++ rest) = .ok (n, rest) := by
  unfold encodeVarint
  split
  · rename_i hbyte
    have hmark : (UInt8.ofNat n).toNat = n := by
      rw [UInt8.toNat_ofNat']
      omega
    rw [List.singleton_append, decodeVarint_cons, hmark, if_pos hbyte]
  · split
    · rename_i hshort
      have hfits : n < 256 ^ 2 := hshort
      simp [decodeVarint_cons, readWord_of_lt hfits]
    · split
      · rename_i hhalf
        have hfits : n < 256 ^ 4 := hhalf
        simp [decodeVarint_cons, readWord_of_lt hfits]
      · have hfits : n < 256 ^ 8 := h
        simp [decodeVarint_cons, readWord_of_lt hfits]

/-- What is read is a word, and it is read from no fewer bytes than it is written in. -/
theorem of_decodeVarint {bytes rest : Bytes} {n : Nat} (h : decodeVarint bytes = .ok (n, rest)) :
    n < 2 ^ 64 ∧ ∃ read, bytes = read ++ rest ∧ (encodeVarint n).length ≤ read.length := by
  have hlength := encodeVarint_length n
  cases bytes with
  | nil => cases h
  | cons mark bytes =>
      have hword : ∀ width, readWord width bytes = .ok (n, rest) →
          n < 256 ^ width ∧ ∃ read, mark :: bytes = read ++ rest ∧ read.length = width + 1 := by
        intro width hread
        obtain ⟨hfits, rfl⟩ := of_readWord hread
        exact ⟨hfits, mark :: encodeLE width n, rfl, by simp⟩
      rw [decodeVarint_cons] at h
      split at h
      · rename_i hbyte
        cases h
        refine ⟨by omega, [mark], rfl, ?_⟩
        rw [hlength, if_pos hbyte]
        rfl
      split at h
      · obtain ⟨hfits, read, hread, hwidth⟩ := hword 2 h
        refine ⟨by omega, read, hread, ?_⟩
        grind
      split at h
      · obtain ⟨hfits, read, hread, hwidth⟩ := hword 4 h
        refine ⟨by omega, read, hread, ?_⟩
        grind
      split at h
      · obtain ⟨hfits, read, hread, hwidth⟩ := hword 8 h
        refine ⟨hfits, read, hread, ?_⟩
        grind
      · cases h

/-! ## Several counts -/

theorem decodeVarints_flatMap {counts : List Nat} (h : ∀ count ∈ counts, count < 2 ^ 64)
    (rest : Bytes) :
    decodeVarints counts.length (counts.flatMap encodeVarint ++ rest) = .ok (counts, rest) := by
  induction counts with
  | nil => rfl
  | cons count counts ih =>
      obtain ⟨hcount, hcounts⟩ := List.forall_mem_cons.mp h
      simp [decodeVarints, decodeVarint_encodeVarint hcount, ih hcounts, bind, Except.bind, pure,
        Except.pure]

theorem of_decodeVarints {number : Nat} {bytes rest : Bytes} {counts : List Nat}
    (h : decodeVarints number bytes = .ok (counts, rest)) :
    counts.length = number ∧ (∀ count ∈ counts, count < 2 ^ 64) ∧
      ∃ read, bytes = read ++ rest ∧ (counts.flatMap encodeVarint).length ≤ read.length := by
  induction number generalizing bytes counts with
  | zero =>
      cases h
      exact ⟨rfl, nofun, [], rfl, Nat.le_refl _⟩
  | succ number ih =>
      obtain ⟨⟨count, behind⟩, hcount, hrest⟩ := bind_ok h
      obtain ⟨⟨more, behind'⟩, hmore, hcounts⟩ := bind_ok hrest
      cases hcounts
      obtain ⟨hfits, read, rfl, hlength⟩ := of_decodeVarint hcount
      obtain ⟨rfl, hall, read', rfl, hlength'⟩ := ih hmore
      refine ⟨rfl, List.forall_mem_cons.mpr ⟨hfits, hall⟩, read ++ read', by simp, ?_⟩
      simp only [List.flatMap_cons, List.length_append]
      omega

namespace Counters

/-! ## Counters -/

/-- Every count is a word. -/
def Fits (counters : Counters) : Prop := ∀ count ∈ counters.toList, count < 2 ^ 64

instance (counters : Counters) : Decidable counters.Fits :=
  inferInstanceAs (Decidable (∀ count ∈ counters.toList, count < 2 ^ 64))

theorem exists_ofList? {counts : List Nat} (h : counts.length = fieldCount) :
    ∃ counters, ofList? counts = some counters ∧ counters.toList = counts := by
  match counts, h with
  | [_, _, _, _, _, _, _, _, _, _, _], _ => exact ⟨_, rfl, rfl⟩

theorem decodeVarint_encodeVarint {counters : Counters} (h : counters.Fits) (rest : Bytes) :
    decodeVarint (counters.encodeVarint ++ rest) = .ok (counters, rest) := by
  have hcounts : decodeVarints fieldCount (counters.encodeVarint ++ rest) =
      .ok (counters.toList, rest) := decodeVarints_flatMap h rest
  rw [decodeVarint, hcounts]
  rfl

theorem of_decodeVarint {bytes rest : Bytes} {counters : Counters}
    (h : decodeVarint bytes = .ok (counters, rest)) :
    counters.Fits ∧ ∃ read, bytes = read ++ rest ∧ counters.encodeVarint.length ≤ read.length := by
  obtain ⟨⟨counts, behind⟩, hcounts, hfields⟩ := bind_ok h
  obtain ⟨hnumber, hfits, hread⟩ := of_decodeVarints hcounts
  obtain ⟨found, hfound, rfl⟩ := exists_ofList? hnumber
  simp only [hfound] at hfields
  cases hfields
  exact ⟨hfits, hread⟩

/--
Counters are read back from their written form whatever follows it, so the forms
of different counters do not start with each other.  What is read as counters is
at least as long as their written form.
-/
theorem decodeVarint_exact :
    (∀ counters : Counters, counters.Fits → ∀ rest,
      decodeVarint (counters.encodeVarint ++ rest) = .ok (counters, rest)) ∧
    (∀ first second : Counters, first.Fits → second.Fits →
      first.encodeVarint <+: second.encodeVarint → first = second) ∧
    ∀ bytes (counters : Counters) rest, decodeVarint bytes = .ok (counters, rest) →
      counters.Fits ∧
        ∃ read, bytes = read ++ rest ∧ counters.encodeVarint.length ≤ read.length := by
  refine ⟨fun _ h => decodeVarint_encodeVarint h, ?_, fun _ _ _ => of_decodeVarint⟩
  rintro first second hfirst hsecond ⟨rest, hrest⟩
  have hread := decodeVarint_encodeVarint hfirst rest
  rw [hrest, ← List.append_nil second.encodeVarint, decodeVarint_encodeVarint hsecond []] at hread
  cases hread
  rfl

/-- Counts on both sides of every change of width, and a count in a longer form than its own. -/
theorem decodeVarint_exact_widths :
    let counters := (⟨0, 250, 251, 2 ^ 16 - 1, 2 ^ 16, 2 ^ 32 - 1, 2 ^ 32, 2 ^ 64 - 1, 1, 2, 3⟩ :
      Counters)
    let longer : Bytes := [251, 1, 0] ++ List.replicate 10 0
    counters.Fits ∧
    decodeVarint (counters.encodeVarint ++ [255]) = .ok (counters, [255]) ∧
    (∀ second, second.Fits → counters.encodeVarint <+: second.encodeVarint → counters = second) ∧
    decodeVarint (longer ++ [9]) = .ok (⟨1, 0, 0, 0, 0, 0, 0, 0, 0, 0, 0⟩, [9]) ∧
    ∃ read, longer ++ [9] = read ++ [9] ∧
      (⟨1, 0, 0, 0, 0, 0, 0, 0, 0, 0, 0⟩ : Counters).encodeVarint.length ≤ read.length := by
  intro counters longer
  obtain ⟨hreturn, hdistinct, hshortest⟩ := decodeVarint_exact
  have hfits : counters.Fits := by decide
  have hlonger : decodeVarint (longer ++ [9]) =
      .ok (⟨1, 0, 0, 0, 0, 0, 0, 0, 0, 0, 0⟩, [9]) := by rfl
  exact ⟨hfits, hreturn counters hfits [255], fun second => hdistinct counters second hfits, hlonger,
    (hshortest _ _ _ hlonger).2⟩

end Counters

end SegmentStream
