import SegmentStream.Proofs.Header.Reading
import SegmentStream.Proofs.Outcome

/-!
# What a reader of headers accepts

A header is read back exactly if its version is given, its flags are known and it
keeps its limits.  What is accepted shows a header in all of its bytes but one:
any byte that is not zero stands for complex samples.  Written headers that are
changed in up to four consecutive places are refused, wherever those are.
-/

namespace SegmentStream.Header

/-! ## Bytes from fields -/

section Fields

variable (bytes : Bytes) (offset : Nat)

theorem slice_length {width : Nat} (h : offset + width ≤ bytes.length) :
    (slice bytes offset width).length = width := by
  rw [slice, List.length_take_of_le]
  rw [List.length_drop]
  omega

theorem slice_add (width more : Nat) :
    slice bytes offset (width + more) =
      slice bytes offset width ++ slice bytes (offset + width) more := by
  rw [slice, slice, slice, List.take_add, List.drop_drop]

theorem wordAt_lt (width : Nat) : wordAt bytes offset width < 256 ^ width := by
  refine Nat.lt_of_lt_of_le (decodeLE_lt _) (Nat.pow_le_pow_right (by decide) ?_)
  exact List.length_take_le ..

theorem encodeLE_wordAt {width : Nat} (h : offset + width ≤ bytes.length) :
    encodeLE width (wordAt bytes offset width) = slice bytes offset width := by
  have hback := encodeLE_decodeLE (slice bytes offset width)
  rwa [slice_length bytes offset h] at hback

end Fields

theorem eq_zeros {bytes : Bytes} (h : bytes.any (· != 0) = false) :
    bytes = List.replicate bytes.length 0 := by
  rw [List.eq_replicate_iff]
  refine ⟨rfl, fun byte hbyte => ?_⟩
  simpa using List.any_eq_false.mp h byte hbyte

theorem of_decode {bytes : Bytes} {header : Header} (h : decode bytes = .ok header) :
    header.Shows bytes ∧ header.IsKnown ∧ header.validate = .ok () := by
  unfold decode at h
  obtain ⟨hlength, h⟩ := guard_ok h
  obtain ⟨hmagic, h⟩ := guard_ok h
  obtain ⟨hchecksum, h⟩ := guard_ok h
  obtain ⟨hreserved, h⟩ := guard_ok h
  obtain ⟨hversion, h⟩ := guard_ok h
  dsimp only at h
  split at h
  case h_2 => cases h
  rename_i sampleType htype
  obtain ⟨hflags, h⟩ := guard_ok h
  obtain ⟨_, hvalid, h⟩ := bind_ok h
  cases h
  rw [Nat.not_lt] at hlength
  rw [Decidable.not_not] at hmagic hchecksum hflags
  have hreserved' := eq_zeros (Bool.eq_false_iff.mpr hreserved)
  rw [List.length_append, slice_length _ _ (Nat.le_trans (by decide) hlength),
    slice_length _ _ hlength] at hreserved'
  have hword (offset : Nat) :
      (UInt64.ofNat (wordAt bytes offset 8)).toNat = wordAt bytes offset 8 :=
    UInt64.toNat_ofNat_of_lt' (wordAt_lt bytes offset 8)
  have hversion' : (UInt16.ofNat (wordAt bytes 4 2)).toNat = wordAt bytes 4 2 :=
    UInt16.toNat_ofNat_of_lt' (wordAt_lt bytes 4 2)
  refine ⟨⟨hlength, hmagic, hversion'.symm, (SampleType.code_of_ofCode? htype).symm, rfl, ?_,
    hreserved', ?_, (hword 16).symm, (hword 24).symm, (hword 32).symm, (hword 40).symm,
    (hword 48).symm, hchecksum⟩, ⟨?_, hflags⟩, hvalid⟩
  · exact (UInt8.toNat_ofNat_of_lt' (wordAt_lt bytes 9 1)).symm
  · exact (UInt32.toNat_ofNat_of_lt' (wordAt_lt bytes 12 4)).symm
  · intro hnone
    rw [← UInt16.toNat_inj, hversion'] at hnone
    exact hversion hnone

/-- Bytes are accepted as the header that they show, if it is known and valid. -/
theorem decode_eq_ok_iff {bytes : Bytes} {header : Header} :
    decode bytes = .ok header ↔
      header.Shows bytes ∧ header.IsKnown ∧ header.validate = .ok () := by
  refine ⟨of_decode, ?_⟩
  rintro ⟨hshows, hknown, hvalid⟩
  rw [hshows.decode, if_neg hknown.version, if_neg (Decidable.not_not.mpr hknown.flags), hvalid]
  rfl

theorem Shows.take_body {header : Header} {bytes : Bytes} (h : header.Shows bytes) :
    bytes.take checkedSize = header.bodyMarked (UInt8.ofNat (wordAt bytes 8 1)) := by
  have hlength := h.length
  have hfield {offset width : Nat} (hwithin : offset + width ≤ headerSize) :
      slice bytes offset width = encodeLE width (wordAt bytes offset width) :=
    (encodeLE_wordAt bytes offset (Nat.le_trans hwithin hlength)).symm
  have hreserved : slice bytes 10 2 = encodeLE 2 0 := by
    refine (List.append_inj h.reserved ?_).1
    rw [slice_length _ _ (Nat.le_trans (by decide) hlength), encodeLE_length]
  have hcut : bytes.take checkedSize = slice bytes 0 4 ++ (slice bytes 4 2 ++ (slice bytes 6 2 ++
      (slice bytes 8 1 ++ (slice bytes 9 1 ++ (slice bytes 10 2 ++ (slice bytes 12 4 ++
      (slice bytes 16 8 ++ (slice bytes 24 8 ++ (slice bytes 32 8 ++ (slice bytes 40 8 ++
      slice bytes 48 8)))))))))) := by
    rw [← slice_add bytes 40, ← slice_add bytes 32, ← slice_add bytes 24, ← slice_add bytes 16,
      ← slice_add bytes 12, ← slice_add bytes 10, ← slice_add bytes 9, ← slice_add bytes 8,
      ← slice_add bytes 6, ← slice_add bytes 4, ← slice_add bytes 0]
    rfl
  have hmark : slice bytes 8 1 = [UInt8.ofNat (wordAt bytes 8 1)] := hfield (by decide)
  have hflags : slice bytes 9 1 = [header.flags] := by
    rw [hfield (by decide), h.flags]
    simp [encodeLE]
  rw [hcut, h.magic, hmark, hflags, hreserved]
  simp (disch := decide) only [hfield, h.version, h.sampleType, h.itemSize, h.sampleRate, h.seconds,
    h.fraction, h.dataOffset, h.dataLength, bodyMarked, List.append_assoc]

theorem Shows.take {header : Header} {bytes : Bytes} (h : header.Shows bytes) :
    bytes.take headerSize = header.encodeMarked (UInt8.ofNat (wordAt bytes 8 1)) := by
  have hlength := h.length
  have htail : bytes.take headerSize =
      bytes.take checkedSize ++ (slice bytes 56 4 ++ slice bytes 60 4) := by
    rw [← slice_add bytes 56]
    exact slice_add bytes 0 56 8
  have hchecksum : slice bytes 56 4 = encodeLE 4 (wordAt bytes 56 4) :=
    (encodeLE_wordAt bytes 56 (Nat.le_trans (by decide) hlength)).symm
  have hreserved : slice bytes 60 4 = encodeLE 4 0 := by
    refine (List.append_inj' h.reserved ?_).2
    rw [slice_length bytes 60 hlength, encodeLE_length]
  rw [htail, hchecksum, h.checksum, hreserved, h.take_body, encodeMarked, Crc32.sealed,
    List.append_assoc]

theorem Shows.mark {header : Header} {bytes : Bytes} (h : header.Shows bytes) :
    (UInt8.ofNat (wordAt bytes 8 1) != 0) = header.isComplex := by
  rw [← toNat_bne_zero, ← h.isComplex]
  exact congrArg (· != 0) (UInt8.toNat_ofNat_of_lt' (wordAt_lt bytes 8 1))

theorem shows_iff {header : Header} {bytes : Bytes} :
    header.Shows bytes ↔ ∃ mark : UInt8, (mark != 0) = header.isComplex ∧
      bytes.take headerSize = header.encodeMarked mark := by
  constructor
  · intro h
    exact ⟨_, h.mark, h.take⟩
  · rintro ⟨mark, hmark, htake⟩
    rw [← List.take_append_drop headerSize bytes, htake]
    exact encodeMarked_shows hmark _

/-! ## Reading what was written -/

/--
A written header is read back, with every field as it was, exactly if its version
is given, its flags are known and it is valid.
-/
theorem decode_encode_eq_ok_iff (header found : Header) (rest : Bytes) :
    decode (header.encode ++ rest) = .ok found ↔
      found = header ∧ header.IsKnown ∧ header.validate = .ok () := by
  have hshows := header.encode_shows rest
  constructor
  · intro h
    rw [hshows.decode] at h
    split at h
    · cases h
    rename_i hversion
    split at h
    · cases h
    rename_i hflags
    cases hvalid : header.validate with
    | error fault =>
        rw [hvalid] at h
        cases h
    | ok =>
        rw [hvalid] at h
        cases h
        exact ⟨rfl, ⟨hversion, Decidable.not_not.mp hflags⟩, rfl⟩
  · rintro ⟨rfl, haccepted⟩
    exact decode_eq_ok_iff.mpr ⟨hshows, haccepted⟩

/-! ## Writing what was read -/

theorem encodeMarked_injective {header : Header} {mark mark' : UInt8}
    (h : header.encodeMarked mark = header.encodeMarked mark') : mark = mark' := by
  rw [← UInt8.toNat_inj, ← header.wordAt_mark mark [], ← header.wordAt_mark mark' [], h]

theorem le_one_iff_ownMark {header : Header} {mark : UInt8}
    (h : (mark != 0) = header.isComplex) : mark ≤ 1 ↔ mark = header.ownMark := by
  rw [UInt8.le_iff_toNat_le, ← UInt8.toNat_inj, ownMark]
  rw [← toNat_bne_zero] at h
  cases hcomplex : header.isComplex with
  | false =>
      have hzero : mark.toNat = 0 := by simpa [hcomplex] using h
      simp [hzero]
  | true =>
      have hpos : mark.toNat ≠ 0 := by simpa [hcomplex] using h
      change mark.toNat ≤ 1 ↔ mark.toNat = 1
      omega

/--
What is accepted is a header as it is written, but for the byte that says whether
samples are complex: any byte with the same meaning is accepted, and the checksum
that goes with it.  It is written back as it was exactly if that byte is 0 or 1.
-/
theorem decode_pins_all_but_mark {bytes : Bytes} {header : Header} (h : decode bytes = .ok header) :
    ∃ mark : UInt8, (mark != 0) = header.isComplex ∧
      bytes.take headerSize = header.encodeMarked mark ∧
      (header.encode = bytes.take headerSize ↔ mark ≤ 1) ∧
      ∀ other, decode other = .ok header ↔ ∃ mark' : UInt8, (mark' != 0) = header.isComplex ∧
        other.take headerSize = header.encodeMarked mark' := by
  obtain ⟨hshows, haccepted⟩ := of_decode h
  obtain ⟨mark, hmark, htake⟩ := shows_iff.mp hshows
  refine ⟨mark, hmark, htake, ?_, fun other => ?_⟩
  · rw [htake, encode_eq, le_one_iff_ownMark hmark]
    exact ⟨fun heq => (encodeMarked_injective heq).symm, fun heq => heq ▸ rfl⟩
  · rw [decode_eq_ok_iff, ← shows_iff]
    exact and_iff_left haccepted

/-- A header of complex samples with 2 for 1: it is read, and is not what is written. -/
theorem decode_pins_all_but_mark_second :
    let header : Header := { isComplex := true }
    let bytes := header.encodeMarked 2
    decode bytes = .ok header ∧ header.encode ≠ bytes.take headerSize := by
  intro header bytes
  have htwo : bytes.take headerSize = header.encodeMarked 2 :=
    List.take_of_length_le (Nat.le_of_eq (header.encodeMarked_length 2))
  have hread : decode bytes = .ok header :=
    decode_eq_ok_iff.mpr ⟨shows_iff.mpr ⟨2, rfl, htwo⟩, ⟨by decide, by decide⟩, rfl⟩
  obtain ⟨mark, -, htake, hwritten, -⟩ := decode_pins_all_but_mark hread
  obtain rfl := encodeMarked_injective (htake.symm.trans htwo)
  exact ⟨hread, fun heq => absurd (hwritten.mp heq) (by decide)⟩

/-! ## Changed bytes -/

theorem sealed_getElem? (header : Header) (mark : UInt8) (place : Nat) :
    (Crc32.sealed (header.bodyMarked mark))[place]? =
      if place < 60 then (header.encodeMarked mark)[place]? else none := by
  have hlength : (Crc32.sealed (header.bodyMarked mark)).length = 60 := by simp [checkedSize]
  split
  · rw [encodeMarked, List.getElem?_append_left (by omega)]
  · rw [List.getElem?_eq_none (by omega)]

/-- No change of a written header in up to four consecutive places is taken for a header. -/
theorem decode_refuses_change {header : Header} {bytes : Bytes} (offset : Nat)
    (hlength : bytes.length = headerSize) (hchanged : bytes ≠ header.encode)
    (hagree : ∀ place, place < offset ∨ offset + 4 ≤ place →
      bytes[place]? = header.encode[place]?) :
    ∃ fault, decode bytes = .error fault := by
  cases hread : decode bytes with
  | error fault => exact ⟨fault, rfl⟩
  | ok other =>
      obtain ⟨mark, -, htake⟩ := shows_iff.mp (of_decode hread).1
      rw [List.take_of_length_le (Nat.le_of_eq hlength)] at htake
      have hbody : other.bodyMarked mark = header.bodyMarked header.ownMark := by
        apply Crc32.eq_of_sealed offset (by simp)
        intro place hplace
        rw [sealed_getElem?, sealed_getElem?, ← htake, hagree place hplace, encode_eq]
      refine absurd ?_ hchanged
      rw [htake, encode_eq, encodeMarked, encodeMarked, hbody]

/-- The last bytes that the checksum covers and the first of the checksum itself. -/
theorem decode_refuses_change_at_checksum :
    let header : Header := {}
    let bytes := (header.encode.set 54 7).set 57 9
    bytes ≠ header.encode ∧ ∃ fault, decode bytes = .error fault := by
  intro header bytes
  have hchanged : bytes ≠ header.encode := by decide +kernel
  refine ⟨hchanged, decode_refuses_change 54 (by simp [bytes]) hchanged ?_⟩
  intro place hplace
  rw [List.getElem?_set_ne (by omega), List.getElem?_set_ne (by omega)]

end SegmentStream.Header
