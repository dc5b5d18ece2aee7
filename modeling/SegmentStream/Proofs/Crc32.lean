import SegmentStream.Crc32
import SegmentStream.LittleEndian

/-!
# What checksums detect

The step of a bit is linear in exclusive or, and nothing but zero is taken to
zero, so no step forgets anything.  Four bytes enter a remainder as one word:
two byte strings that differ in four consecutive places at most leave different
remainders.  Behind its own checksum every byte string leaves the same one, so
bytes and checksum are protected together.
-/

namespace SegmentStream.Crc32

/-! ## One bit -/

theorem low_bit (remainder : UInt32) : remainder &&& 1 = 1 ↔ remainder.toNat % 2 = 1 := by
  rw [← UInt32.toNat_inj, UInt32.toNat_and, ← Nat.and_one_is_mod]
  rfl

theorem bitStep_of_odd {remainder : UInt32} (h : remainder.toNat % 2 = 1) :
    bitStep remainder = (remainder >>> 1) ^^^ generator :=
  if_pos ((low_bit remainder).mpr h)

theorem bitStep_of_even {remainder : UInt32} (h : remainder.toNat % 2 = 0) :
    bitStep remainder = remainder >>> 1 := by
  refine if_neg fun hodd => ?_
  rw [low_bit] at hodd
  omega

theorem toNat_shift (remainder : UInt32) : (remainder >>> 1).toNat = remainder.toNat / 2 := by
  rw [UInt32.toNat_shiftRight]
  exact Nat.shiftRight_eq_div_pow _ 1

theorem bitStep_xor (first second : UInt32) :
    bitStep (first ^^^ second) = bitStep first ^^^ bitStep second := by
  have hparity : (first ^^^ second).toNat % 2 = first.toNat % 2 ^^^ second.toNat % 2 := by
    rw [UInt32.toNat_xor]
    exact Nat.xor_mod_two_pow (n := 1)
  have hcancel (word other : UInt32) :
      (word ^^^ generator) ^^^ (other ^^^ generator) = word ^^^ other := by
    rw [UInt32.xor_comm other, ← UInt32.xor_assoc, UInt32.xor_assoc word, UInt32.xor_self,
      UInt32.xor_zero]
  rcases Nat.mod_two_eq_zero_or_one first.toNat with hfirst | hfirst <;>
    rcases Nat.mod_two_eq_zero_or_one second.toNat with hsecond | hsecond <;>
    rw [hfirst, hsecond] at hparity
  · rw [bitStep_of_even hparity, bitStep_of_even hfirst, bitStep_of_even hsecond,
      UInt32.shiftRight_xor]
  · rw [bitStep_of_odd hparity, bitStep_of_even hfirst, bitStep_of_odd hsecond,
      UInt32.shiftRight_xor, UInt32.xor_assoc]
  · rw [bitStep_of_odd hparity, bitStep_of_odd hfirst, bitStep_of_even hsecond,
      UInt32.shiftRight_xor, UInt32.xor_assoc, UInt32.xor_assoc, UInt32.xor_comm generator]
  · rw [bitStep_of_even hparity, bitStep_of_odd hfirst, bitStep_of_odd hsecond,
      UInt32.shiftRight_xor, hcancel]

theorem eq_zero_of_bitStep {remainder : UInt32} (h : bitStep remainder = 0) : remainder = 0 := by
  have hlt := remainder.toNat_lt
  have hshift := toNat_shift remainder
  rcases Nat.mod_two_eq_zero_or_one remainder.toNat with heven | hodd
  · rw [bitStep_of_even heven] at h
    rw [h] at hshift
    apply UInt32.toNat_inj.mp
    change 0 = _ at hshift
    change remainder.toNat = 0
    omega
  · -- the generator has the highest bit, which is never left after a shift
    rw [bitStep_of_odd hodd, UInt32.xor_eq_zero_iff] at h
    rw [h] at hshift
    change 0xEDB88320 = _ at hshift
    omega

theorem bitStep_injective {first second : UInt32} (h : bitStep first = bitStep second) :
    first = second := by
  rw [← UInt32.xor_eq_zero_iff] at h ⊢
  exact eq_zero_of_bitStep ((bitStep_xor first second).trans h)

theorem bitStep_double {value : Nat} (h : 2 * value < 2 ^ 32) :
    bitStep (UInt32.ofNat (2 * value)) = UInt32.ofNat value := by
  have hdouble : (UInt32.ofNat (2 * value)).toNat = 2 * value := UInt32.toNat_ofNat_of_lt' h
  have hvalue : (UInt32.ofNat value).toNat = value :=
    UInt32.toNat_ofNat_of_lt' (Nat.lt_of_le_of_lt (by omega) h)
  apply UInt32.toNat_inj.mp
  rw [bitStep_of_even (by omega), toNat_shift, hdouble, hvalue]
  omega

/-! ## Several bits -/

theorem bitSteps_xor (count : Nat) (first second : UInt32) :
    bitSteps count (first ^^^ second) = bitSteps count first ^^^ bitSteps count second := by
  induction count generalizing first second with
  | zero => rfl
  | succ count ih => rw [bitSteps, bitStep_xor, ih, bitSteps, bitSteps]

theorem bitSteps_injective {count : Nat} {first second : UInt32}
    (h : bitSteps count first = bitSteps count second) : first = second := by
  induction count generalizing first second with
  | zero => exact h
  | succ count ih => exact bitStep_injective (ih h)

theorem bitSteps_add (count more : Nat) (remainder : UInt32) :
    bitSteps (count + more) remainder = bitSteps more (bitSteps count remainder) := by
  induction count generalizing remainder with
  | zero => rw [Nat.zero_add, bitSteps]
  | succ count ih => rw [Nat.succ_add, bitSteps, ih, bitSteps]

/-- Bits above those that are taken only move down. -/
theorem bitSteps_shifted (count : Nat) {value : Nat} (h : 2 ^ count * value < 2 ^ 32) :
    bitSteps count (UInt32.ofNat (2 ^ count * value)) = UInt32.ofNat value := by
  induction count with
  | zero => rw [Nat.pow_zero, Nat.one_mul, bitSteps]
  | succ count ih =>
      have hdouble : 2 ^ (count + 1) * value = 2 * (2 ^ count * value) := by
        rw [Nat.pow_succ', Nat.mul_assoc]
      rw [hdouble] at h ⊢
      rw [bitSteps, bitStep_double h, ih (by omega)]

/-! ## Bytes -/

theorem byteStep_injective {byte : UInt8} {first second : UInt32}
    (h : byteStep first byte = byteStep second byte) : first = second :=
  (UInt32.xor_left_inj byte.toUInt32).mp (bitSteps_injective h)

theorem run_injective {bytes : Bytes} {first second : UInt32}
    (h : run first bytes = run second bytes) : first = second := by
  induction bytes generalizing first second with
  | nil => exact h
  | cons byte rest ih => exact byteStep_injective (ih h)

theorem ofNat_byte_add (byte : UInt8) (value : Nat) :
    UInt32.ofNat (byte.toNat + 256 * value) = byte.toUInt32 ^^^ UInt32.ofNat (2 ^ 8 * value) := by
  have hlt : byte.toNat < 2 ^ 8 := byte.toNat_lt
  have hapart : byte.toNat + 256 * value = byte.toNat ^^^ 2 ^ 8 * value := by
    apply Nat.eq_of_testBit_eq
    intro place
    rw [Nat.add_comm, Nat.testBit_two_pow_mul_add value hlt, Nat.testBit_xor,
      Nat.testBit_two_pow_mul]
    by_cases hplace : place < 8
    · simp [hplace, Nat.not_le.mpr hplace]
    · have hhigh : byte.toNat.testBit place = false := Nat.testBit_lt_two_pow
        (Nat.lt_of_lt_of_le hlt (Nat.pow_le_pow_right (by decide) (by omega)))
      simp [hplace, hhigh, Nat.not_lt.mp hplace]
  rw [hapart, UInt32.ofNat_xor, UInt32.ofNat_uInt8ToNat]

/-- Up to four bytes enter a remainder as one word. -/
theorem run_eq_bitSteps (remainder : UInt32) {bytes : Bytes} (h : bytes.length ≤ 4) :
    run remainder bytes =
      bitSteps (8 * bytes.length) (remainder ^^^ UInt32.ofNat (decodeLE bytes)) := by
  induction bytes generalizing remainder with
  | nil => simp [run, bitSteps, decodeLE]
  | cons byte rest ih =>
      have hlength : rest.length + 1 ≤ 4 := h
      have hfits : 2 ^ 8 * decodeLE rest < 2 ^ 32 := by
        have hpow : 256 ^ rest.length ≤ 256 ^ 3 := Nat.pow_le_pow_right (by decide) (by omega)
        have := decodeLE_lt rest
        omega
      have hbits : 8 * (byte :: rest).length = 8 + 8 * rest.length := by
        rw [List.length_cons]
        omega
      calc run remainder (byte :: rest)
          = run (byteStep remainder byte) rest := rfl
        _ = bitSteps (8 * rest.length)
              (byteStep remainder byte ^^^ UInt32.ofNat (decodeLE rest)) := ih _ (by omega)
        _ = bitSteps (8 * rest.length) (bitSteps 8
              ((remainder ^^^ byte.toUInt32) ^^^ UInt32.ofNat (2 ^ 8 * decodeLE rest))) := by
            rw [bitSteps_xor 8, bitSteps_shifted 8 hfits, byteStep]
        _ = bitSteps (8 * (byte :: rest).length)
              (remainder ^^^ UInt32.ofNat (decodeLE (byte :: rest))) := by
            rw [hbits, bitSteps_add, decodeLE, ofNat_byte_add, UInt32.xor_assoc]

/-- So no two of them have the same effect. -/
theorem eq_of_run_window {remainder : UInt32} {first second : Bytes}
    (hlength : first.length = second.length) (hshort : first.length ≤ 4)
    (h : run remainder first = run remainder second) : first = second := by
  have hword (bytes : Bytes) (hbytes : bytes.length ≤ 4) :
      (UInt32.ofNat (decodeLE bytes)).toNat = decodeLE bytes := by
    apply UInt32.toNat_ofNat_of_lt'
    exact Nat.lt_of_lt_of_le (decodeLE_lt bytes) (Nat.pow_le_pow_right (by decide) hbytes)
  rw [run_eq_bitSteps remainder hshort, run_eq_bitSteps remainder (hlength ▸ hshort), hlength] at h
  have hsame := congrArg UInt32.toNat ((UInt32.xor_right_inj remainder).mp (bitSteps_injective h))
  rw [hword first hshort, hword second (hlength ▸ hshort)] at hsame
  rw [← encodeLE_decodeLE first, ← encodeLE_decodeLE second, hsame, hlength]

/-- Nor have longer byte strings that differ in four consecutive places at most. -/
theorem eq_of_run {remainder : UInt32} {first second : Bytes} (offset : Nat)
    (hlength : first.length = second.length)
    (hagree : ∀ place, place < offset ∨ offset + 4 ≤ place → first[place]? = second[place]?)
    (h : run remainder first = run remainder second) : first = second := by
  have hsplit (bytes : Bytes) : bytes =
      bytes.take offset ++ ((bytes.drop offset).take 4 ++ bytes.drop (offset + 4)) := by
    rw [← List.drop_drop, List.take_append_drop, List.take_append_drop]
  have hfront : first.take offset = second.take offset := by
    apply List.ext_getElem?
    intro place
    rw [List.getElem?_take, List.getElem?_take]
    split
    · rename_i hplace
      exact hagree place (.inl hplace)
    · rfl
  have hback : first.drop (offset + 4) = second.drop (offset + 4) := by
    apply List.ext_getElem?
    intro place
    rw [List.getElem?_drop, List.getElem?_drop]
    exact hagree _ (.inr (Nat.le_add_right ..))
  have hwindow : (first.drop offset).take 4 = (second.drop offset).take 4 := by
    rw [hsplit first, hsplit second, hfront, hback] at h
    simp only [run_append] at h
    apply eq_of_run_window _ _ (run_injective h)
    · rw [List.length_take, List.length_take, List.length_drop, List.length_drop, hlength]
    · exact List.length_take_le ..
  rw [hsplit first, hsplit second, hfront, hwindow, hback]

/-! ## Checksums behind their bytes -/

/-- Bytes with their own checksum behind them. -/
def sealed (bytes : Bytes) : Bytes := bytes ++ encodeLE 4 (checksum bytes).toNat

/-- What every byte string leaves that ends in its own checksum. -/
def residue : UInt32 := 0xDEBB20E3

@[simp] theorem sealed_length (bytes : Bytes) : (sealed bytes).length = bytes.length + 4 := by
  simp [sealed]

theorem run_sealed (bytes : Bytes) : run 0xFFFFFFFF (sealed bytes) = residue := by
  have hword : UInt32.ofNat (decodeLE (encodeLE 4 (checksum bytes).toNat)) = checksum bytes := by
    have hlt : (checksum bytes).toNat < 256 ^ 4 := (checksum bytes).toNat_lt
    rw [decodeLE_encodeLE, Nat.mod_eq_of_lt hlt, UInt32.ofNat_toNat]
  rw [sealed, run_append, run_eq_bitSteps _ (by simp), hword, encodeLE_length, checksum,
    ← UInt32.xor_assoc, UInt32.xor_self, UInt32.zero_xor]
  decide +kernel

theorem eq_of_sealed {first second : Bytes} (offset : Nat) (hlength : first.length = second.length)
    (hagree : ∀ place, place < offset ∨ offset + 4 ≤ place →
      (sealed first)[place]? = (sealed second)[place]?) : first = second := by
  have hsealed : sealed first = sealed second :=
    eq_of_run offset (by simp [hlength]) hagree ((run_sealed first).trans (run_sealed second).symm)
  exact (List.append_inj hsealed hlength).1

/-- The nine digits on which implementations of the code are compared. -/
example : sealed [0x31, 0x32, 0x33, 0x34, 0x35, 0x36, 0x37, 0x38, 0x39] =
    [0x31, 0x32, 0x33, 0x34, 0x35, 0x36, 0x37, 0x38, 0x39, 0x26, 0x39, 0xF4, 0xCB] := by
  decide +kernel

end SegmentStream.Crc32
