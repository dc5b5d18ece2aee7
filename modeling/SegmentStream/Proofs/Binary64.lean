import Mathlib
import SegmentStream.Binary64

/-!
# How large results of arithmetic are

The exponent field of a number bounds it by a power of two, and the fields of two
numbers bound that of their sum and that of their quotient.  A sum of a fraction
and a count over a rate that is not too small therefore stays finite.
-/

namespace SegmentStream

open Float.Model Float.Model.UnpackedFloat

/-! ## Unpacked numbers -/

/-- Zero, or a significand of the format with at most this exponent behind it. -/
def IsWithin (exponent : Int) : UnpackedFloat → Prop
  | .zero _ => True
  | .finite _ mantissa exponent' _ => mantissa < 2 ^ 53 ∧ exponent' ≤ exponent
  | _ => False

theorem IsWithin.mono {exponent exponent' : Int} {number : UnpackedFloat}
    (h : IsWithin exponent number) (hle : exponent ≤ exponent') : IsWithin exponent' number := by
  cases number with
  | finite sign mantissa power hpos => exact ⟨h.1, h.2.trans hle⟩
  | zero sign => trivial
  | infinity _ | notANumber => exact h

/-- The exponent of a rounded number whose leading digit stands here. -/
def roundedExponent (total : Int) : Int := Format.binary64.targetExponent total

theorem roundedExponent_eq (total : Int) : roundedExponent total = max (total - 53) (-1074) := by
  simp [roundedExponent, Format.targetExponent, Format.mantissaBits, Format.minExponent]

theorem mantissa_shift (mantissa : ExtendedMantissa) (places : Nat) :
    (mantissa >>> places).mantissa = mantissa.mantissa / 2 ^ places := by
  induction places with
  | zero => simp [HShiftRight.hShiftRight, Nat.repeat]
  | succ places ih =>
      change (mantissa >>> places).mantissa / 2 = _
      rw [ih, Nat.div_div_eq_div_mul, Nat.pow_succ]

theorem roundedMantissa_le (mantissa : ExtendedMantissa) :
    mantissa.roundedMantissa ≤ mantissa.mantissa + 1 := by
  cases mantissa with
  | mk digits roundBit stickyBit =>
      cases roundBit <;> cases stickyBit <;>
        simp [ExtendedMantissa.roundedMantissa, ExtendedMantissa.accuracy,
          Accuracy.roundToNearestEven]
      omega

theorem mantissa_ofMantissaAndAccuracy (mantissa : Nat) (accuracy : Accuracy) :
    (ExtendedMantissa.ofMantissaAndAccuracy mantissa accuracy).mantissa = mantissa := by
  cases accuracy with
  | exact => rfl
  | inexact order => cases order <;> rfl

theorem log2_lt_of_lt_two_pow {number places : Nat} (h : number < 2 ^ (places + 1)) :
    number.log2 < places + 1 := by
  by_cases hzero : number = 0
  · simp [hzero]
  · exact (Nat.log2_lt hzero).mpr h

theorem log2_shift {number : Nat} (hpos : 0 < number) (places : Nat) :
    (number <<< places).log2 = number.log2 + places := by
  induction places with
  | zero => simp
  | succ places ih =>
      have hne : number <<< places ≠ 0 := by
        rw [Nat.shiftLeft_eq]
        exact (Nat.mul_pos hpos (Nat.two_pow_pos _)).ne'
      rw [Nat.shiftLeft_succ, Nat.log2_two_mul hne, ih]
      omega

/-- Shifting leaves a significand of the format, and moves the exponent where it belongs. -/
theorem shiftToTargetExponent_bounds (mantissa : Nat) (exponent : Int) (accuracy : Accuracy) :
    let shifted := shiftToTargetExponent Format.binary64 mantissa exponent accuracy
    shifted.1.mantissa < 2 ^ 53 ∧
      shifted.2 = max exponent (roundedExponent (totalExponent mantissa exponent)) := by
  have htarget := roundedExponent_eq (totalExponent mantissa exponent)
  unfold shiftToTargetExponent shiftToExponent
  change (ExtendedMantissa.ofMantissaAndAccuracy mantissa accuracy >>>
      (roundedExponent (totalExponent mantissa exponent) - exponent).toNat).mantissa < 2 ^ 53 ∧
    exponent + (roundedExponent (totalExponent mantissa exponent) - exponent).toNat = _
  generalize hplaces : (roundedExponent (totalExponent mantissa exponent) - exponent).toNat = places
  constructor
  · rw [mantissa_shift, mantissa_ofMantissaAndAccuracy, Nat.div_lt_iff_lt_mul (Nat.two_pow_pos _)]
    have hlog : mantissa.log2 + 1 ≤ 53 + places := by
      simp only [totalExponent] at htarget hplaces
      omega
    calc mantissa < 2 ^ (mantissa.log2 + 1) := Nat.lt_log2_self
      _ ≤ 2 ^ (53 + places) := Nat.pow_le_pow_right (by decide) hlog
      _ = 2 ^ 53 * 2 ^ places := Nat.pow_add ..
  · omega

/-- Rounding may carry once. -/
theorem isWithin_roundWithAccuracy (sign : Sign) {mantissa : Nat} {exponent bound : Int}
    (accuracy : Accuracy) (hexponent : exponent < bound)
    (htotal : roundedExponent (totalExponent mantissa exponent) < bound) :
    IsWithin bound (roundWithAccuracy Format.binary64 sign mantissa exponent accuracy) := by
  unfold roundWithAccuracy
  obtain ⟨hmantissa, hshifted⟩ := shiftToTargetExponent_bounds mantissa exponent accuracy
  generalize shiftToTargetExponent Format.binary64 mantissa exponent accuracy = first at *
  cases first with
  | mk digits power =>
      dsimp only at hmantissa hshifted ⊢
      have hrounded : digits.roundedMantissa < 2 ^ 53 + 1 := by
        have := roundedMantissa_le digits
        omega
      have hlog : digits.roundedMantissa.log2 < 54 :=
        log2_lt_of_lt_two_pow (by omega)
      obtain ⟨hfinal, hpower⟩ :=
        shiftToTargetExponent_bounds digits.roundedMantissa power .exact
      have hnext := roundedExponent_eq (totalExponent digits.roundedMantissa power)
      have hfirst := roundedExponent_eq (totalExponent mantissa exponent)
      simp only [totalExponent] at hnext hfirst hpower htotal hshifted
      split
      · trivial
      · constructor
        · exact hfinal
        · omega

theorem isWithin_round (sign : Sign) {mantissa : Nat} {exponent bound : Int}
    (hpos : 0 < mantissa)
    (htotal : roundedExponent (totalExponent mantissa exponent) < bound) :
    IsWithin bound (UnpackedFloat.round Format.binary64 sign mantissa exponent) := by
  unfold UnpackedFloat.round decreaseExponent
  change IsWithin bound (roundWithAccuracy Format.binary64 sign
    (mantissa <<< (exponent - roundedExponent (totalExponent mantissa exponent)).toNat)
    (exponent - (exponent - roundedExponent (totalExponent mantissa exponent)).toNat) .exact)
  generalize hplaces : (exponent - roundedExponent (totalExponent mantissa exponent)).toNat = places
  have hsame : totalExponent (mantissa <<< places) (exponent - places) =
      totalExponent mantissa exponent := by
    unfold totalExponent
    rw [log2_shift hpos]
    omega
  apply isWithin_roundWithAccuracy
  · omega
  · rw [hsame]
    exact htotal

theorem isWithin_normalize (places : Nat) {mantissa exponent bound : Int} {zeroSign : Sign}
    (hmantissa : mantissa.natAbs < 2 ^ (places + 1))
    (htotal : roundedExponent (places + 1 + exponent) < bound) :
    IsWithin bound (UnpackedFloat.normalize Format.binary64 mantissa exponent zeroSign) := by
  have hround (sign : Sign) {digits : Nat} (hpos : 0 < digits)
      (hdigits : digits < 2 ^ (places + 1)) :
      IsWithin bound (UnpackedFloat.round Format.binary64 sign digits exponent) := by
    apply isWithin_round sign hpos
    have hlog := log2_lt_of_lt_two_pow hdigits
    rw [roundedExponent_eq] at htotal ⊢
    unfold totalExponent
    omega
  unfold UnpackedFloat.normalize
  split
  · rename_i hlt
    rw [Int.compare_eq_lt] at hlt
    exact hround .negative (by omega) (by omega)
  · trivial
  · rename_i hgt
    rw [Int.compare_eq_gt] at hgt
    exact hround .positive (by omega) (by omega)

/-! ## Operations on unpacked numbers -/

theorem natAbs_apply (sign : Sign) (mantissa : Nat) :
    (sign.apply (mantissa : Int)).natAbs = mantissa := by
  cases sign <;> simp [Sign.apply]

theorem isWithin_add {first second : UnpackedFloat} {bound : Int} (hbound : -1074 ≤ bound)
    (hfirst : IsWithin bound first) (hsecond : IsWithin bound second) :
    IsWithin (bound + 2) (UnpackedFloat.add Format.binary64 first second) := by
  cases first with
  | infinity _ | notANumber => exact hfirst.elim
  | zero sign =>
      cases second with
      | infinity _ | notANumber => exact hsecond.elim
      | zero sign' => cases sign <;> cases sign' <;> trivial
      | finite sign' mantissa' exponent' hpos' => exact hsecond.mono (by omega)
  | finite sign mantissa exponent hpos =>
      cases second with
      | infinity _ | notANumber => exact hsecond.elim
      | zero sign' => exact hfirst.mono (by omega)
      | finite sign' mantissa' exponent' hpos' =>
          obtain ⟨hdigits, hexponent⟩ := hfirst
          obtain ⟨hdigits', hexponent'⟩ := hsecond
          -- both are brought to the smaller exponent, where their digits reach up to the bound
          let least := min exponent exponent'
          let places := (bound - least).toNat
          have hshift {digits : Nat} {power : Int} (hlt : digits < 2 ^ 53) (hle : power ≤ bound) :
              digits <<< (power - least).toNat < 2 ^ (53 + places) := by
            rw [Nat.shiftLeft_eq, Nat.pow_add]
            calc digits * 2 ^ (power - least).toNat < 2 ^ 53 * 2 ^ (power - least).toNat :=
                  Nat.mul_lt_mul_of_pos_right hlt (Nat.two_pow_pos _)
              _ ≤ 2 ^ 53 * 2 ^ places :=
                  Nat.mul_le_mul_left _ (Nat.pow_le_pow_right (by decide) (by omega))
          have hsum := Int.natAbs_add_le
            (sign.apply ((mantissa <<< (exponent - least).toNat : Nat) : Int))
            (sign'.apply ((mantissa' <<< (exponent' - least).toNat : Nat) : Int))
          rw [natAbs_apply, natAbs_apply] at hsum
          have hleft := hshift hdigits hexponent
          have hright := hshift hdigits' hexponent'
          have hdouble : 2 ^ (53 + places + 1) = 2 ^ (53 + places) * 2 := Nat.pow_succ ..
          change IsWithin _ (UnpackedFloat.normalize Format.binary64
            (sign.apply ((mantissa <<< (exponent - least).toNat : Nat) : Int) +
              sign'.apply ((mantissa' <<< (exponent' - least).toNat : Nat) : Int)) least .positive)
          apply isWithin_normalize (53 + places)
          · omega
          · rw [roundedExponent_eq]
            omega

theorem isWithin_ofUInt64 (word : UInt64) :
    IsWithin 12 (UnpackedFloat.ofUInt64 Format.binary64 word) := by
  apply isWithin_normalize 63
  · exact word.toNat_lt
  · decide

/-- A divisor that has all its digits takes at least as many off as its exponent says. -/
theorem isWithin_div {first : UnpackedFloat} {bound least : Int} (hfirst : IsWithin bound first)
    (sign' : Sign) {mantissa' : Nat} {exponent' : Int} (hpos' : 0 < mantissa')
    (hdigits' : 2 ^ 52 ≤ mantissa') (hexponent' : least ≤ exponent') :
    IsWithin (max (bound - least) (-1074) + 1) (UnpackedFloat.div Format.binary64 first
      (.finite sign' mantissa' exponent' hpos')) := by
  cases first with
  | infinity _ | notANumber => exact hfirst.elim
  | zero sign => trivial
  | finite sign mantissa exponent hpos =>
      obtain ⟨hdigits, hexponent⟩ := hfirst
      let target := min (exponent - exponent')
        (roundedExponent (totalExponent mantissa exponent - totalExponent mantissa' exponent'))
      let places := (exponent - exponent' - target).toNat
      have hquotient : mantissa <<< places / mantissa' < 2 ^ (places + 1) := by
        rw [Nat.div_lt_iff_lt_mul hpos', Nat.shiftLeft_eq]
        calc mantissa * 2 ^ places < 2 ^ 53 * 2 ^ places :=
              Nat.mul_lt_mul_of_pos_right hdigits (Nat.two_pow_pos _)
          _ = 2 ^ (places + 1) * 2 ^ 52 := by
              rw [← Nat.pow_add, ← Nat.pow_add]
              congr 1
              omega
          _ ≤ 2 ^ (places + 1) * mantissa' := Nat.mul_le_mul_left _ hdigits'
      have hlog := log2_lt_of_lt_two_pow hquotient
      change IsWithin _ (roundWithAccuracy Format.binary64 (sign / sign')
        (mantissa <<< places / mantissa') target _)
      apply isWithin_roundWithAccuracy
      · omega
      · rw [roundedExponent_eq]
        unfold totalExponent
        omega

/-! ## Packed numbers -/

abbrev Word64 := BitVec Format.binary64.numBits

/-- The finite numbers whose words have this exponent field. -/
inductive HasField (field : Nat) : UnpackedFloat → Prop
  | zero (sign : Sign) (hfield : field = 0) : HasField field (.zero sign)
  | subnormal (sign : Sign) {mantissa : Nat} {exponent : Int} (hpos : 0 < mantissa)
      (hfield : field = 0) (hexponent : exponent = -1074) (hlt : mantissa < 2 ^ 52) :
      HasField field (.finite sign mantissa exponent hpos)
  | normal (sign : Sign) {mantissa : Nat} {exponent : Int} (hpos : 0 < mantissa)
      (hfield : 0 < field) (hexponent : exponent = field - 1075)
      (hle : 2 ^ 52 ≤ mantissa) (hlt : mantissa < 2 ^ 53) :
      HasField field (.finite sign mantissa exponent hpos)

theorem toNat_one_append (digits : BitVec 52) : (1#1 ++ digits).toNat = 2 ^ 52 + digits.toNat := by
  rw [BitVec.toNat_append, ← Nat.shiftLeft_add_eq_or_of_lt digits.isLt]
  rfl

theorem hasField_unpack {word : Word64} (h : (unpackExponent word).toNat < 2047) :
    HasField (unpackExponent word).toNat (UnpackedFloat.unpack Format.binary64 word) := by
  have hfinite : unpackExponent word ≠ -1#11 := by
    intro heq
    rw [heq] at h
    exact absurd h (by decide)
  have hdigits : (unpackMantissa word).toNat < 2 ^ 52 := (unpackMantissa word).isLt
  have hbias : (Format.binary64.exponentBias : Int) +
      Format.binary64.mantissaBitsWithoutImplicit = 1075 := by decide
  fun_cases UnpackedFloat.unpack Format.binary64 word with
  | case1 | case2 => contradiction
  | case3 digits field _ _ _ hzero => exact .zero _ (congrArg BitVec.toNat hzero)
  | case4 digits field exponent _ _ _ hzero hne =>
      have hfield : (unpackExponent word).toNat = 0 := congrArg BitVec.toNat hzero
      have hexponent : exponent = (unpackExponent word).toNat - 1075 := by rw [← hbias]
      exact .subnormal _ _ hfield (by omega) hdigits
  | case5 digits field exponent _ _ _ hne =>
      have hfield : 0 < (unpackExponent word).toNat :=
        Nat.pos_of_ne_zero fun hzero => hne (BitVec.eq_of_toNat_eq hzero)
      have hexponent : exponent = (unpackExponent word).toNat - 1075 := by rw [← hbias]
      have hvalue : (1#1 ++ digits).toNat = 2 ^ 52 + digits.toNat := toNat_one_append digits
      have hle : 2 ^ 52 ≤ (1#1 ++ digits).toNat := by
        rw [hvalue]
        exact Nat.le_add_right ..
      exact .normal _ _ hfield hexponent hle (1#1 ++ digits).isLt

theorem HasField.isWithin {field bound : Nat} {number : UnpackedFloat} (h : HasField field number)
    (hle : field ≤ bound) (hpos : 0 < bound) : IsWithin (bound - 1075) number := by
  cases h with
  | zero sign hfield => trivial
  | subnormal sign hpos hfield hexponent hlt => constructor <;> omega
  | normal sign hpos hfield hexponent hle hlt => constructor <;> omega

/-- Only a number with all its digits is written with a field of its own. -/
theorem unpackExponent_pack_finite (sign : Sign) {mantissa : Nat} {exponent : Int}
    (hpos : 0 < mantissa) (hexponent : exponent ≤ 971) :
    unpackExponent (UnpackedFloat.pack Format.binary64 (.finite sign mantissa exponent hpos)) =
      if mantissa.log2 = 52 then BitVec.ofNat 11 (exponent + 1075).toNat else 0#11 := by
  have hbias : exponent + (Format.binary64.exponentBias : Int) +
      Format.binary64.mantissaBitsWithoutImplicit = exponent + 1075 := by
    simp [Format.exponentBias, Int.add_assoc]
  have hsmall : ¬ 2 ^ Format.binary64.exponentBits ≤ (exponent + 1075).toNat + 1 := by
    change ¬ 2048 ≤ (exponent + 1075).toNat + 1
    omega
  have hlog : mantissa.log2 + 1 = Format.binary64.mantissaBits ↔ mantissa.log2 = 52 := by
    simp only [Format.mantissaBits]
    omega
  simp only [UnpackedFloat.pack, hbias, if_neg hsmall, hlog]
  split <;> exact unpackExponent_packComponents

theorem unpackExponent_pack_le {bound : Int} {number : UnpackedFloat} (h : IsWithin bound number)
    (hbound : bound ≤ 971) :
    (unpackExponent (UnpackedFloat.pack Format.binary64 number)).toNat ≤
      (bound + 1075).toNat := by
  cases number with
  | infinity _ | notANumber => exact h.elim
  | zero sign => simp [UnpackedFloat.pack, packedZero]
  | finite sign mantissa exponent hpos =>
      have hexponent := h.2
      rw [unpackExponent_pack_finite sign hpos (hexponent.trans hbound)]
      split
      · rw [BitVec.toNat_ofNat]
        exact (Nat.mod_le ..).trans (by omega)
      · exact Nat.zero_le _

/-- What is written for a number has its field. -/
theorem HasField.pack {field : Nat} {number : UnpackedFloat} (h : HasField field number)
    (hfield : field < 2047) :
    (unpackExponent (UnpackedFloat.pack Format.binary64 number)).toNat = field := by
  cases h with
  | zero sign hzero => simp [UnpackedFloat.pack, packedZero, hzero]
  | subnormal sign hpos hzero hexponent hlt =>
      have hlog := log2_lt_of_lt_two_pow hlt
      rw [unpackExponent_pack_finite sign hpos (by omega), if_neg (by omega), hzero]
      rfl
  | @normal sign mantissa exponent hpos hpos' hexponent hle hlt =>
      have hlog := (Nat.log2_eq_iff hpos.ne').mpr ⟨hle, hlt⟩
      rw [unpackExponent_pack_finite sign hpos (by omega), if_pos hlog]
      change (exponent + 1075).toNat % 2 ^ 11 = field
      omega

namespace Binary64

/-! ## Exponent fields of sums and quotients -/

theorem magnitude_toNat (x : Binary64) : x.magnitude.toNat = x.bits.toNat % 2 ^ 63 :=
  Nat.and_two_pow_sub_one_eq_mod x.bits.toNat 63

theorem unpackExponent_toNat (word : UInt64) :
    (unpackExponent (show Word64 from word.toBitVec)).toNat = (Binary64.mk word).exponentField := by
  unfold exponentField
  rw [magnitude_toNat]
  simp [unpackExponent, Nat.shiftRight_eq_div_pow]
  omega

theorem hasField_toFloat {x : Binary64} (h : x.exponentField < 2047) :
    HasField x.exponentField x.toFloat.toModel.unpack := by
  rw [← unpackExponent_toNat] at h ⊢
  rw [← (hasField_unpack h).pack h]
  apply hasField_unpack
  rw [(hasField_unpack h).pack h]
  exact h

theorem exponentField_ofFloat {number : UnpackedFloat} {bound : Int} (h : IsWithin bound number)
    (hbound : bound ≤ 971) :
    (ofFloat (.ofModel (.pack number))).exponentField ≤ (bound + 1075).toNat := by
  have hle := unpackExponent_pack_le h hbound
  have hfield := unpackExponent_toNat (ofFloat (.ofModel (.pack number))).bits
  rw [← hfield]
  exact hle

section Fields

variable {x y : Binary64} {bound least : Nat}

theorem exponentField_add (hpos : 0 < bound) (hbound : bound < 2045)
    (hx : x.exponentField ≤ bound) (hy : y.exponentField ≤ bound) :
    (x + y).exponentField ≤ bound + 2 := by
  have hfirst := (hasField_toFloat (hx.trans_lt (by omega))).isWithin hx hpos
  have hsecond := (hasField_toFloat (hy.trans_lt (by omega))).isWithin hy hpos
  have hsum := exponentField_ofFloat (isWithin_add (by omega) hfirst hsecond) (by omega)
  change (x + y).exponentField ≤ _ at hsum
  omega

theorem exponentField_ofUInt64 (word : UInt64) : (ofUInt64 word).exponentField ≤ 1087 :=
  exponentField_ofFloat (isWithin_ofUInt64 word) (by decide)

theorem exponentField_div (hpos : 0 < least) (hle : least ≤ bound) (hlt : bound < least + 970)
    (hbound : bound < 2047) (hx : x.exponentField ≤ bound) (hy : least ≤ y.exponentField)
    (hfinite : y.exponentField < 2047) : (x / y).exponentField ≤ bound + 1076 - least := by
  have hfirst := (hasField_toFloat (hx.trans_lt hbound)).isWithin hx (by omega)
  have hsecond := hasField_toFloat hfinite
  suffices h : IsWithin (max ((bound - 1075 : Int) - (least - 1075)) (-1074) + 1)
      (UnpackedFloat.div Format.binary64 x.toFloat.toModel.unpack y.toFloat.toModel.unpack) by
    have hquotient := exponentField_ofFloat h (by omega)
    change (x / y).exponentField ≤ _ at hquotient
    omega
  generalize y.toFloat.toModel.unpack = divisor at hsecond ⊢
  cases hsecond with
  | zero sign hzero => omega
  | subnormal sign hpos hzero hexponent hlt => omega
  | normal sign hpos hfield hexponent hle hlt => exact isWithin_div hfirst sign hpos hle (by omega)

end Fields

/-! ## Rates and the time of records -/

/-- Finite and not below `2 ^ (-900)`: no count of records takes infinitely long at this rate. -/
def IsModerate (rate : Binary64) : Prop :=
  0x07b0000000000000 ≤ rate.bits ∧ rate.bits < infinity.bits

instance (rate : Binary64) : Decidable rate.IsModerate := inferInstanceAs (Decidable (_ ∧ _))

theorem IsModerate.isPositiveFinite {rate : Binary64} (h : rate.IsModerate) :
    rate.isPositiveFinite = true := by
  have hpos : 0 < rate.bits := UInt64.lt_of_lt_of_le (by decide) h.1
  simp [Binary64.isPositiveFinite, hpos, h.2]

theorem IsModerate.exponentField {rate : Binary64} (h : rate.IsModerate) :
    123 ≤ rate.exponentField ∧ rate.exponentField < 2047 := by
  have hleast : 123 * 2 ^ 52 ≤ rate.bits.toNat := h.1
  have hfinite : rate.bits.toNat < 2047 * 2 ^ 52 := h.2
  unfold Binary64.exponentField
  rw [magnitude_toNat]
  omega

theorem exponentField_of_isFraction {fraction : Binary64} (h : fraction.isFraction = true) :
    fraction.exponentField ≤ 1022 := by
  unfold exponentField
  rw [magnitude_toNat]
  simp only [isFraction, Bool.or_eq_true, decide_eq_true_eq, beq_iff_eq] at h
  cases h with
  | inl hlt =>
      have hbits : fraction.bits.toNat < 1023 * 2 ^ 52 := hlt
      omega
  | inr hzero =>
      rw [hzero]
      decide

/-- At a moderate rate no count of records takes infinitely long. -/
theorem add_count_ne_infinity {rate fraction : Binary64} (hrate : rate.IsModerate)
    (hfraction : fraction.isFraction = true) (count : Nat) :
    fraction + ofCount count / rate ≠ infinity := by
  obtain ⟨hleast, hfinite⟩ := hrate.exponentField
  have hcount : (ofCount count).exponentField ≤ 1087 := exponentField_ofUInt64 _
  have htime : (ofCount count / rate).exponentField ≤ 2040 :=
    exponentField_div (by decide) (by decide) (by decide) (by decide) hcount hleast hfinite
  have hsum : (fraction + ofCount count / rate).exponentField ≤ 2042 :=
    exponentField_add (by decide) (by decide)
      ((exponentField_of_isFraction hfraction).trans (by decide)) htime
  intro heq
  rw [heq] at hsum
  exact absurd hsum (by decide)

end Binary64

end SegmentStream
