import SegmentStream.Proofs.Binary64
import SegmentStream.Proofs.Header.Updates

/-!
# Limits of rates and times

A reader asks for a positive, finite rate and for a time whose fraction is below
one.  Only an infinite number of seconds leaves no fraction, and no update asks
for such a time.  Rates, however, are checked before they are scaled.
-/

namespace SegmentStream

/-! ## Fractions of a second -/

namespace Binary64

theorem significand_lt (x : Binary64) : x.significand < 2 ^ 53 := by
  unfold significand
  have hmod : x.magnitude.toNat % 2 ^ 52 < 2 ^ 52 := Nat.mod_lt _ (by decide)
  split <;> omega

theorem exponent_le (x : Binary64) : -1074 ≤ x.exponent := by
  unfold exponent
  omega

theorem isFraction_of_lt {word : Nat} (h : word < 1023 * 2 ^ 52) :
    (Binary64.mk (.ofNat word)).isFraction = true := by
  have hbits : UInt64.ofNat word < one.bits := by
    rw [UInt64.lt_iff_toNat_lt, UInt64.toNat_ofNat_of_lt' (by unfold UInt64.size; omega)]
    exact h
  simp [isFraction, hbits]

theorem mul_two_pow_lt (digits places : Nat) :
    digits * 2 ^ places < 2 ^ (digits.log2 + 1 + places) := by
  rw [Nat.pow_add]
  exact Nat.mul_lt_mul_of_pos_right Nat.lt_log2_self (Nat.two_pow_pos _)

/-- A number whose digits all stand behind the point is a fraction. -/
theorem isFraction_ofScaled {digits : Nat} {exponent : Int} (hdigits : digits < 2 ^ 53)
    (hbelow : digits < 2 ^ (-exponent).toNat) (hexponent : -1074 ≤ exponent) :
    (ofScaled digits exponent).isFraction = true := by
  unfold ofScaled
  split
  · decide
  · rename_i hne
    have hlog : digits.log2 < 53 := log2_lt_of_lt_two_pow hdigits
    have hplace : digits.log2 < (-exponent).toNat := (Nat.log2_lt hne).mpr hbelow
    dsimp only
    split
    · apply isFraction_of_lt
      have hshifted : digits * 2 ^ (52 - digits.log2) < 2 ^ 53 := by
        have hlt := mul_two_pow_lt digits (52 - digits.log2)
        rwa [show digits.log2 + 1 + (52 - digits.log2) = 53 by omega] at hlt
      omega
    · apply isFraction_of_lt
      calc digits * 2 ^ (exponent + 1074).toNat
          < 2 ^ (digits.log2 + 1 + (exponent + 1074).toNat) := mul_two_pow_lt ..
        _ ≤ 2 ^ 52 := Nat.pow_le_pow_right (by decide) (by omega)
        _ < 1023 * 2 ^ 52 := by decide

/-- Neither a not-a-number nor below zero, a number that is not finite is infinite. -/
theorem eq_infinity {x : Binary64} (hnumber : ¬ (x.isNaN || x.isNegative) = true)
    (hlarge : (!x.isFinite) = true) : x = infinity := by
  simp only [isNaN, isNegative, isFinite, Bool.or_eq_true, decide_eq_true_eq, not_or,
    Bool.not_eq_true', decide_eq_false_iff_not, UInt64.lt_iff_toNat_lt, UInt64.le_iff_toNat_le,
    magnitude_toNat] at hnumber hlarge
  obtain ⟨hle, hpositive⟩ := hnumber
  have hbits : x.bits = infinity.bits := by
    apply UInt64.toNat_inj.mp
    change ¬ 2 ^ 63 ≤ x.bits.toNat at hpositive
    omega
  cases x
  cases hbits
  rfl

end Binary64

/-- Only infinitely many seconds leave no fraction. -/
theorem splitSeconds_isFraction_iff (total : Binary64) :
    (splitSeconds total).2.isFraction = true ↔ total ≠ .infinity := by
  unfold splitSeconds
  split
  · rename_i hnone
    constructor
    · rintro - rfl
      exact absurd hnone (by decide)
    · intro
      decide
  · rename_i hsome
    split
    · rename_i hlarge
      rw [Binary64.eq_infinity hsome hlarge]
      decide
    · rename_i hfinite
      have hne : total ≠ .infinity := by
        rintro rfl
        exact hfinite (by decide)
      split
      · simp [hne]
        decide
      · rename_i hexponent
        have hfraction := Binary64.isFraction_ofScaled
          (Nat.lt_of_le_of_lt (Nat.mod_le ..) total.significand_lt)
          (Nat.mod_lt total.significand (Nat.two_pow_pos (-total.exponent).toNat)) total.exponent_le
        simp [hne, hfraction]

theorem Attribute.toTime?_isFraction {value : Attribute} {time : Timestamp}
    (h : value.toTime? = some time) : time.fraction.isFraction = true := by
  have hsplit {total : Binary64} (hfinite : total.isNonnegativeFinite = true) :
      (splitSeconds total).2.isFraction = true := by
    rw [splitSeconds_isFraction_iff]
    rintro rfl
    exact absurd hfinite (by decide)
  cases value with
  | time seconds fraction =>
      simp only [toTime?] at h
      split at h
      · cases h
        assumption
      · split at h
        · cases h
          exact hsplit (by assumption)
        · cases h
  | double value =>
      simp only [toTime?] at h
      split at h
      · cases h
        exact hsplit (by assumption)
      · cases h
  | uint value =>
      cases h
      rfl
  | _ => cases h

/-! ## Updates that keep the limits -/

namespace HeaderUpdate

/-- A rate that is asked for is moderate once it is scaled. -/
def IsModerate (relativeRate : Binary64) : HeaderUpdate → Prop
  | .sampleRate rate => (rate * relativeRate).IsModerate
  | _ => True

instance (relativeRate : Binary64) : DecidablePred (IsModerate relativeRate)
  | .sampleRate rate => inferInstanceAs (Decidable (rate * relativeRate).IsModerate)
  | .version _ | .time _ | .itemSize _ | .sampleType _ | .isComplex _ | .extra _ _ => .isTrue trivial

/-- Besides, a time that is asked for has a fraction. -/
def IsTempered (relativeRate : Binary64) : HeaderUpdate → Prop
  | .sampleRate rate => (rate * relativeRate).IsModerate
  | .time moment => moment.fraction.isFraction = true
  | _ => True

theorem demand_ok {α : Type} {key expected : String} {value : Attribute} {reading : Option α}
    {result : α} (h : demand key value expected reading = .ok result) : reading = some result := by
  cases reading with
  | none => cases h
  | some found =>
      cases h
      rfl

theorem prepare_time {size : UInt32} {key : String} {value : Attribute}
    {moment : Timestamp} (h : prepare size key value = .ok (.time moment)) :
    value.toTime? = some moment := by
  unfold prepare at h
  cases hfield : HeaderField.ofKey? key with
  | none =>
      rw [hfield] at h
      cases h
  | some field =>
      rw [hfield] at h
      cases field with
      | time =>
          obtain ⟨found, hfound, h⟩ := bind_ok h
          cases h
          exact demand_ok hfound
      | dataOffset | dataLength => cases h
      | isComplex =>
          obtain ⟨flag, -, h⟩ := bind_ok h
          cases h
      | version | sampleRate | itemSize | sampleType =>
          obtain ⟨reading, -, h⟩ := bind_ok h
          split at h <;> cases h

/-- Whatever time is accepted has a fraction. -/
theorem IsModerate.isTempered {size : UInt32} {key : String} {value : Attribute}
    {update : HeaderUpdate} {relativeRate : Binary64} (h : update.IsModerate relativeRate)
    (hprepare : prepare size key value = .ok update) : update.IsTempered relativeRate := by
  cases update with
  | sampleRate rate => exact h
  | time moment => exact Attribute.toTime?_isFraction (prepare_time hprepare)
  | _ => trivial

end HeaderUpdate

end SegmentStream
