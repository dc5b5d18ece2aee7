import SegmentStream.Header.Region
import SegmentStream.Proofs.Crc32

/-!
# Reading written headers

A written header is read back as it was, provided it keeps the limits that a
reader checks.  Of these only the rate and the fraction of the time are not
settled by how headers are made.
-/

namespace SegmentStream

/-! ## Fields -/

namespace Header

theorem slice_append (field rest : Bytes) : slice (field ++ rest) 0 field.length = field := by
  simp [slice]

theorem slice_skip {front : Bytes} {offset : Nat} (h : front.length ≤ offset) (rest : Bytes)
    (width : Nat) :
    slice (front ++ rest) offset width = slice rest (offset - front.length) width := by
  rw [slice, slice, List.drop_append, List.drop_eq_nil_of_le h, List.nil_append]

theorem slice_encodeLE (width value : Nat) (rest : Bytes) :
    slice (encodeLE width value ++ rest) 0 width = encodeLE width value := by
  have h := slice_append (encodeLE width value) rest
  rwa [encodeLE_length] at h

theorem slice_encodeLE_skip {width offset : Nat} (h : width ≤ offset) (value : Nat) (rest : Bytes)
    (width' : Nat) :
    slice (encodeLE width value ++ rest) offset width' = slice rest (offset - width) width' := by
  have hfront : (encodeLE width value).length ≤ offset := by rwa [encodeLE_length]
  have hskip := slice_skip hfront rest width'
  rwa [encodeLE_length] at hskip

/-- The body of a header with any byte for whether its samples are complex. -/
def bodyMarked (header : Header) (mark : UInt8) : Bytes :=
  headerMagic ++ encodeLE 2 header.version.toNat ++ encodeLE 2 header.sampleType.code ++
    [mark] ++ [header.flags] ++ encodeLE 2 0 ++
    encodeLE 4 header.itemSize.toNat ++ encodeLE 8 header.sampleRate.bits.toNat ++
    encodeLE 8 header.time.seconds.toNat ++ encodeLE 8 header.time.fraction.bits.toNat ++
    encodeLE 8 header.dataOffset.toNat ++ encodeLE 8 header.dataLength.toNat

/-- A header with this byte, under a checksum that covers it. -/
def encodeMarked (header : Header) (mark : UInt8) : Bytes :=
  Crc32.sealed (header.bodyMarked mark) ++ encodeLE 4 0

/-- The byte that a header is written with. -/
def ownMark (header : Header) : UInt8 := if header.isComplex then 1 else 0

theorem encode_eq (header : Header) : header.encode = header.encodeMarked header.ownMark := rfl

theorem ownMark_ne_zero (header : Header) : (header.ownMark != 0) = header.isComplex := by
  unfold ownMark
  cases header.isComplex <;> rfl

@[simp] theorem bodyMarked_length (header : Header) (mark : UInt8) :
    (header.bodyMarked mark).length = checkedSize := by
  simp [bodyMarked, headerMagic, checkedSize]

@[simp] theorem encodeMarked_length (header : Header) (mark : UInt8) :
    (header.encodeMarked mark).length = headerSize := by
  simp [encodeMarked, checkedSize, headerSize]

theorem encodeMarked_append (header : Header) (mark : UInt8) (rest : Bytes) :
    header.encodeMarked mark ++ rest = encodeLE 4 0x484D4753 ++ (encodeLE 2 header.version.toNat ++
      (encodeLE 2 header.sampleType.code ++ (encodeLE 1 mark.toNat ++
      (encodeLE 1 header.flags.toNat ++ (encodeLE 2 0 ++ (encodeLE 4 header.itemSize.toNat ++
      (encodeLE 8 header.sampleRate.bits.toNat ++ (encodeLE 8 header.time.seconds.toNat ++
      (encodeLE 8 header.time.fraction.bits.toNat ++ (encodeLE 8 header.dataOffset.toNat ++
      (encodeLE 8 header.dataLength.toNat ++
      (encodeLE 4 (Crc32.checksum (header.bodyMarked mark)).toNat ++
      (encodeLE 4 0 ++ rest))))))))))))) := by
  have hmagic : encodeLE 4 0x484D4753 = headerMagic := by decide
  have hbyte (byte : UInt8) : encodeLE 1 byte.toNat = [byte] := by simp [encodeLE]
  rw [hmagic, hbyte, hbyte, encodeMarked, Crc32.sealed]
  simp only [bodyMarked, List.append_assoc]

theorem take_encodeMarked (header : Header) (mark : UInt8) (rest : Bytes) :
    (header.encodeMarked mark ++ rest).take checkedSize = header.bodyMarked mark := by
  rw [encodeMarked, Crc32.sealed]
  simp only [List.append_assoc]
  exact List.take_left' (header.bodyMarked_length mark)

/-- A field is found at the sum of the widths before it. -/
theorem wordAt_encodeLE (width value : Nat) (rest : Bytes) :
    wordAt (encodeLE width value ++ rest) 0 width = value % 256 ^ width := by
  rw [wordAt, slice_encodeLE, decodeLE_encodeLE]

theorem wordAt_skip {width offset : Nat} (h : width ≤ offset) (value : Nat) (rest : Bytes)
    (width' : Nat) :
    wordAt (encodeLE width value ++ rest) offset width' = wordAt rest (offset - width) width' := by
  rw [wordAt, wordAt, slice_encodeLE_skip h]

/-- What a reader finds in bytes that show a header: the limits of its fields are not looked at. -/
structure Shows (header : Header) (bytes : Bytes) : Prop where
  length : headerSize ≤ bytes.length
  magic : slice bytes 0 4 = headerMagic
  version : wordAt bytes 4 2 = header.version.toNat
  sampleType : wordAt bytes 6 2 = header.sampleType.code
  isComplex : (wordAt bytes 8 1 != 0) = header.isComplex
  flags : wordAt bytes 9 1 = header.flags.toNat
  reserved : slice bytes 10 2 ++ slice bytes 60 4 = encodeLE 2 0 ++ encodeLE 4 0
  itemSize : wordAt bytes 12 4 = header.itemSize.toNat
  sampleRate : wordAt bytes 16 8 = header.sampleRate.bits.toNat
  seconds : wordAt bytes 24 8 = header.time.seconds.toNat
  fraction : wordAt bytes 32 8 = header.time.fraction.bits.toNat
  dataOffset : wordAt bytes 40 8 = header.dataOffset.toNat
  dataLength : wordAt bytes 48 8 = header.dataLength.toNat
  checksum : wordAt bytes 56 4 = (Crc32.checksum (bytes.take checkedSize)).toNat

theorem toNat_bne_zero (byte : UInt8) : (byte.toNat != 0) = (byte != 0) := by
  rw [Bool.eq_iff_iff, bne_iff_ne, bne_iff_ne, ne_eq, ne_eq, ← UInt8.toNat_inj]
  rfl

theorem wordAt_mark (header : Header) (mark : UInt8) (rest : Bytes) :
    wordAt (header.encodeMarked mark ++ rest) 8 1 = mark.toNat := by
  rw [encodeMarked_append]
  simp (disch := decide) only [wordAt_skip, wordAt_encodeLE, Nat.reduceSub]
  exact Nat.mod_eq_of_lt mark.toNat_lt

theorem encodeMarked_shows {header : Header} {mark : UInt8}
    (hmark : (mark != 0) = header.isComplex) (rest : Bytes) :
    header.Shows (header.encodeMarked mark ++ rest) := by
  have hword : ∀ word : UInt64, word.toNat % 256 ^ 8 = word.toNat :=
    fun word => Nat.mod_eq_of_lt word.toNat_lt
  have htake := header.take_encodeMarked mark rest
  have hlength : headerSize ≤ (header.encodeMarked mark ++ rest).length := by simp
  have hcomplex := header.wordAt_mark mark rest
  rw [encodeMarked_append] at htake hlength hcomplex ⊢
  constructor
  case length => exact hlength
  case isComplex => rw [hcomplex, toNat_bne_zero, hmark]
  all_goals simp (disch := decide) only [wordAt_skip, wordAt_encodeLE, slice_encodeLE_skip,
    slice_encodeLE, Nat.reduceSub, hword, htake]
  case magic => decide
  case version => exact Nat.mod_eq_of_lt header.version.toNat_lt
  case sampleType => cases header.sampleType <;> rfl
  case flags => exact Nat.mod_eq_of_lt header.flags.toNat_lt
  case itemSize => exact Nat.mod_eq_of_lt header.itemSize.toNat_lt
  case checksum => exact Nat.mod_eq_of_lt (UInt32.toNat_lt _)

theorem encode_shows (header : Header) (rest : Bytes) : header.Shows (header.encode ++ rest) :=
  encodeMarked_shows header.ownMark_ne_zero rest

/-! ## Readers -/

/-- What every header says whose version and flags are known. -/
structure IsKnown (header : Header) : Prop where
  version : header.version ≠ 0
  flags : header.flags &&& detachedFlag = header.flags

/-- Bytes that show a header are refused for its version, its flags or its limits only. -/
theorem Shows.decode {header : Header} {bytes : Bytes} (h : header.Shows bytes) :
    Header.decode bytes =
      if header.version = 0 then .error (.badVersion 0)
      else if header.flags &&& detachedFlag ≠ header.flags then .error (.unknownFlags header.flags)
      else header.validate.map fun _ => header := by
  obtain ⟨hlength, hmagic, hversion, htype, hcomplex, hflags, hreserved, hsize, hrate, hseconds,
    hfraction, hoffset, hdata, hchecksum⟩ := h
  have hlength' : ¬ bytes.length < headerSize := Nat.not_lt.mpr hlength
  have hzeros : (encodeLE 2 0 ++ encodeLE 4 0).any (· != 0) = false := by decide
  have hzero : header.version.toNat = 0 ↔ header.version = 0 := UInt16.toNat_inj (b := 0)
  have hchecksum' := hchecksum
  simp only [checkedSize] at hchecksum'
  simp only [Header.decode, hlength', hmagic, checkedSize, hchecksum', hreserved, hversion, htype,
    hcomplex, hflags, hsize, hrate, hseconds, hfraction, hoffset, hdata, hzero, hzeros,
    ne_eq, not_true_eq_false, if_false, Bool.false_eq_true, SampleType.ofCode?_code,
    UInt8.ofNat_toNat, UInt16.ofNat_toNat, UInt32.ofNat_toNat, UInt64.ofNat_toNat]
  by_cases hnone : header.version = 0
  · simp only [hnone]
    rfl
  simp only [if_neg hnone]
  by_cases hknown : header.flags &&& detachedFlag = header.flags
  · simp only [hknown, not_true_eq_false, if_false]
    cases header.validate <;> rfl
  · simp only [hknown, not_false_eq_true, if_true]
    rfl

theorem decode_encode {header : Header} (h : header.IsKnown) (rest : Bytes) :
    decode (header.encode ++ rest) = header.validate.map fun _ => header := by
  rw [(header.encode_shows rest).decode, if_neg h.version, if_neg (Decidable.not_not.mpr h.flags)]

theorem drop_encodeRegion (header : Header) (extras : Extras) (rest : Bytes) :
    (encodeRegion header extras ++ rest).drop headerSize = extras.encode ++ rest := by
  rw [encodeRegion, List.append_assoc]
  exact List.drop_left' header.encode_length

end Header

end SegmentStream
