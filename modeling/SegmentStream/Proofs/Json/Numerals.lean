import SegmentStream.Json.Reading
import SegmentStream.Proofs.Json.Printer

/-!
# Numerals of integers and doubles

The numeral of a natural number up to the largest word is read as that number.
The numeral of a double has digits wherever it needs some; whether it is read as
the same double is a matter of rounding and nothing that is said here.
-/

namespace SegmentStream

open Json (IsDigits IsWhole)

/-! ## Decimal digits -/

namespace Decimal

theorem digitChars_isDigits (n : Nat) : IsDigits (digitChars n) :=
  ⟨Nat.toDigits_ne_nil, fun _ hc => Nat.isDigit_of_mem_toDigits (by decide) (by decide) hc⟩

theorem digitChars_of_lt {n : Nat} (h : n < 10) : digitChars n = [n.digitChar] :=
  Nat.toDigits_of_lt_base h

theorem digitChars_of_le {n : Nat} (h : 10 ≤ n) :
    digitChars n = digitChars (n / 10) ++ [(n % 10).digitChar] :=
  Nat.toDigits_of_base_le (by decide) h

theorem digitChars_head {n : Nat} (h : 0 < n) : (digitChars n).head? ≠ some '0' := by
  induction n using Nat.strongRecOn with
  | ind n ih =>
      by_cases hlow : n < 10
      · rw [digitChars_of_lt hlow]
        simp [Nat.digitChar_eq_zero]
        omega
      · have hfront := ih (n / 10) (by omega) (by omega)
        obtain ⟨c, digits, hcons⟩ :=
          List.exists_cons_of_ne_nil (digitChars_isDigits (n / 10)).filled
        rw [hcons] at hfront
        rw [digitChars_of_le (by omega), hcons]
        exact hfront

theorem digitChars_isWhole (n : Nat) : IsWhole (digitChars n) := by
  refine ⟨digitChars_isDigits n, fun hzero => ?_⟩
  by_cases hpos : 0 < n
  · exact absurd hzero (digitChars_head hpos)
  · rw [Nat.eq_zero_of_not_pos hpos]
    rfl

end Decimal

/-! ## Integers -/

namespace Numeral

theorem digitValue_digitChar {n : Nat} (h : n < 10) : digitValue n.digitChar = n := by
  rw [digitValue, Nat.toNat_digitChar_of_lt_ten h, Nat.add_sub_cancel_left]

theorem gather_append {word next : Nat} {digits : List Char} (h : gather word digits = (next, []))
    (more : List Char) : gather word (digits ++ more) = gather next more := by
  induction digits generalizing word with
  | nil => cases h; rfl
  | cons c digits ih =>
      rw [gather] at h
      rw [List.cons_append, gather]
      split at h
      · rename_i hfits
        rw [if_pos hfits]
        exact ih h
      · cases h

theorem gather_digitChars {n : Nat} (h : n ≤ largestWord) :
    gather 0 (Decimal.digitChars n) = (n, []) := by
  induction n using Nat.strongRecOn with
  | ind n ih =>
      by_cases hlow : n < 10
      · rw [Decimal.digitChars_of_lt hlow]
        simp [gather, digitValue_digitChar hlow, h]
      · have hfront := ih (n / 10) (by omega) (by omega)
        have hlast : digitValue (n % 10).digitChar = n % 10 := digitValue_digitChar (by omega)
        have hsum : 10 * (n / 10) + n % 10 = n := Nat.div_add_mod n 10
        rw [Decimal.digitChars_of_le (by omega), gather_append hfront]
        simp [gather, hlast, hsum, h]

theorem ofNat_isProper (n : Nat) : (ofNat n).IsProper :=
  ⟨Decimal.digitChars_isWhole n, fun _ hnone => (by cases hnone), fun _ _ hnone => (by cases hnone)⟩

theorem toInt?_ofNat {n : Nat} (h : n ≤ largestWord) : (ofNat n).toInt? = some (n : Int) := by
  simp [toInt?, ofNat, gather_digitChars h]

end Numeral

namespace Json

theorem toNat?_ofNat {n limit : Nat} (h : n ≤ limit) (hword : n ≤ Numeral.largestWord) :
    (ofNat n).toNat? limit = some n := by
  simp [ofNat, toNat?, Numeral.toInt?_ofNat hword, h]

theorem toUInt64?_ofNat (n : UInt64) : (ofNat n.toNat).toUInt64? = some n := by
  have hword : n.toNat ≤ 2 ^ 64 - 1 := Nat.le_sub_one_of_lt n.toNat_lt
  rw [toUInt64?, toNat?_ofNat hword hword, Option.map_some, UInt64.ofNat_toNat]

theorem toBytes?_array (bytes : List UInt8) :
    (array (bytes.map fun byte => ofNat byte.toNat)).toBytes? = some bytes := by
  rw [toBytes?]
  induction bytes with
  | nil => rfl
  | cons byte rest ih =>
      have hbyte : byte.toNat ≤ 255 := Nat.le_of_lt_succ byte.toNat_lt
      have hread : (ofNat byte.toNat).toNat? 255 = some byte.toNat :=
        toNat?_ofNat hbyte (Nat.le_trans hbyte (by decide))
      rw [List.map_cons, List.mapM_cons, ih, hread]
      simp

end Json

/-! ## Doubles -/

theorem le_roundDiv (numerator denominator : Nat) (tie : Tie) :
    numerator / denominator ≤ roundDiv numerator denominator tie := by
  have hup : ∀ (quotient : Nat) (up : Bool),
      quotient ≤ if up = true then quotient + 1 else quotient := by
    intro quotient up
    cases up with
    | true => exact Nat.le_succ quotient
    | false => exact Nat.le_refl quotient
  exact hup _ _

namespace RoundingInterval

variable {interval : RoundingInterval} {n : Nat} {tie : Tie}

theorem pos_of_contains (hlow : 0 < interval.low) (h : interval.contains n = true) : 0 < n := by
  obtain rfl | hpos := Nat.eq_zero_or_pos n
  · unfold contains at h
    split at h <;> simp at h
    omega
  · exact hpos

theorem pos_of_nearest? (hlow : 0 < interval.low) (h : interval.nearest? tie = some n) : 0 < n := by
  unfold nearest? at h
  dsimp only at h
  split at h
  · rename_i hbelow _
    cases h
    exact Nat.lt_of_lt_of_le (pos_of_contains hlow hbelow) (le_roundDiv _ _ _)
  · rename_i hbelow _
    cases h
    exact pos_of_contains hlow hbelow
  · cases h
    exact Nat.succ_pos _
  · cases h

theorem ofNumber_low_pos {x : Binary64} (h : x.isZero = false) : 0 < (ofNumber x).low := by
  have hsignificand : 0 < x.significand := by
    have hmagnitude : x.magnitude.toNat ≠ 0 := by
      intro hzero
      have hsame : x.magnitude = 0 := UInt64.toNat_inj.mp hzero
      simp [Binary64.isZero, hsame] at h
    unfold Binary64.significand Binary64.exponentField
    split
    · rename_i hfield
      rw [Nat.div_eq_zero_iff] at hfield
      omega
    · omega
  unfold ofNumber
  dsimp only
  refine Nat.mul_pos ?_ (Nat.pow_pos (by decide))
  split <;> omega

end RoundingInterval

theorem Decimal.trim_digits_pos {value : Decimal} (h : 0 < value.digits) :
    0 < value.trim.digits := by
  have hgo : ∀ (fuel : Nat) (value : Decimal), 0 < value.digits →
      0 < (Decimal.trim.go fuel value).digits := by
    intro fuel
    induction fuel with
    | zero => exact fun _ h => h
    | succ fuel ih =>
        intro value h
        rw [Decimal.trim.go]
        split
        · exact ih _ (Nat.div_pos (by omega) (by decide))
        · exact h
  exact hgo _ _ h

theorem Binary64.shortest_digits {x : Binary64} (h : x.isZero = false) (tie : Tie) :
    0 < (x.shortest tie).digits ∨ x.shortest tie = ⟨0, 0⟩ := by
  unfold shortest
  dsimp only
  cases hfound : (List.range 17).findSome? _ with
  | none => exact .inr rfl
  | some decimal =>
      obtain ⟨count, -, hcount⟩ := List.exists_of_findSome?_eq_some hfound
      obtain ⟨digits, hnearest, rfl⟩ := Option.map_eq_some_iff.mp hcount
      refine .inl (Decimal.trim_digits_pos ?_)
      refine RoundingInterval.pos_of_nearest? ?_ hnearest
      exact Nat.mul_pos (RoundingInterval.ofNumber_low_pos h) (Nat.pow_pos (by decide))

/-! ### How a double is laid out -/

theorem isDigits_zeros_append {digits : List Char} (h : IsDigits digits) (count : Nat) :
    IsDigits (Decimal.zeros count ++ digits) := by
  refine ⟨List.append_ne_nil_of_right_ne_nil _ h.filled, ?_⟩
  intro c hc
  rcases List.mem_append.mp hc with hzero | hdigit
  · rw [List.eq_of_mem_replicate hzero]
    rfl
  · exact h.digits c hdigit

theorem IsWhole.append_zeros {digits : List Char} (h : IsDigits digits)
    (hhead : digits.head? ≠ some '0') (count : Nat) : IsWhole (digits ++ Decimal.zeros count) := by
  obtain ⟨c, rest, rfl⟩ := List.exists_cons_of_ne_nil h.filled
  refine ⟨⟨List.cons_ne_nil _ _, ?_⟩, fun hzero => absurd hzero hhead⟩
  intro c hc
  rcases List.mem_append.mp hc with hdigit | hzero
  · exact h.digits c hdigit
  · rw [List.eq_of_mem_replicate hzero]
    rfl

theorem IsWhole.take {digits : List Char} (h : IsDigits digits) (hhead : digits.head? ≠ some '0')
    {place : Nat} (hplace : 0 < place) : IsWhole (digits.take place) := by
  obtain ⟨c, rest, rfl⟩ := List.exists_cons_of_ne_nil h.filled
  obtain ⟨place, rfl⟩ := Nat.exists_eq_add_one.mpr hplace
  refine ⟨⟨List.cons_ne_nil _ _, ?_⟩, fun hzero => absurd hzero hhead⟩
  exact fun c hc => h.digits c (List.mem_of_mem_take hc)

theorem isDigits_drop {digits : List Char} (h : IsDigits digits) {place : Nat}
    (hplace : place < digits.length) : IsDigits (digits.drop place) := by
  refine ⟨fun hnil => ?_, fun c hc => h.digits c (List.mem_of_mem_drop hc)⟩
  rw [List.drop_eq_nil_iff] at hnil
  omega

/-- A number laid out plainly has digits on both sides of its point. -/
theorem Decimal.positional_parts {value : Decimal} (h : 0 < value.digits ∨ value = ⟨0, 0⟩) :
    ∃ whole fraction, value.positional ['.', '0'] = whole ++ '.' :: fraction ∧
      IsWhole whole ∧ IsDigits fraction := by
  have hzero : IsWhole ['0'] := digitChars_isWhole 0
  obtain hpos | rfl := h
  · have hdigits := digitChars_isDigits value.digits
    have hhead := digitChars_head hpos
    unfold positional
    dsimp only
    split
    · exact ⟨['0'], _, rfl, hzero, isDigits_zeros_append hdigits _⟩
    · rename_i hplace
      split
      · exact ⟨_, ['0'], rfl, IsWhole.append_zeros hdigits hhead _, hzero.toIsDigits⟩
      · rename_i hlength
        exact ⟨_, _, rfl, IsWhole.take hdigits hhead (by omega), isDigits_drop hdigits (by omega)⟩
  · exact ⟨['0'], ['0'], rfl, hzero, hzero.toIsDigits⟩

namespace Numeral

theorem splitPoint_append {whole : List Char} (h : IsDigits whole) (fraction : List Char) :
    splitPoint (whole ++ '.' :: fraction) = (whole, some fraction) := by
  have hpoint : ∀ c ∈ whole, (c != '.') = true := by
    intro c hc
    rw [bne_iff_ne]
    rintro rfl
    cases h.digits '.' hc
  have hstop : Json.StopsAt (· != '.') ('.' :: fraction) := Json.stopsAt_cons rfl fraction
  have hwhole := Json.takeWhile_append_stop hpoint hstop
  rw [splitPoint]
  simp only [hwhole, List.drop_left]

theorem ofBinary64_isProper (x : Binary64) : (ofBinary64 x).IsProper := by
  have hzero : IsWhole ['0'] := Decimal.digitChars_isWhole 0
  unfold ofBinary64
  split
  · refine ⟨hzero, ?_, fun _ _ hnone => (by cases hnone)⟩
    rintro _ ⟨⟩
    exact hzero.toIsDigits
  · rename_i hnonzero
    rw [Bool.not_eq_true] at hnonzero
    dsimp only
    split
    · obtain ⟨whole, fraction, hparts, hwhole, hfraction⟩ :=
        Decimal.positional_parts (Binary64.shortest_digits hnonzero .toEven)
      rw [hparts, splitPoint_append hwhole.toIsDigits]
      refine ⟨hwhole, ?_, fun _ _ hnone => (by cases hnone)⟩
      rintro _ ⟨⟩
      exact hfraction
    · split
      · exact ⟨hzero, fun _ hnone => (by cases hnone), fun _ _ hnone => (by cases hnone)⟩
      · rename_i first rest hcons
        have hdigits := Decimal.digitChars_isDigits (x.shortest .toEven).digits
        rw [hcons] at hdigits
        refine ⟨⟨⟨List.cons_ne_nil _ _, ?_⟩, ?_⟩, ?_, ?_⟩
        · exact List.forall_mem_singleton.mpr (hdigits.digits first List.mem_cons_self)
        · rintro ⟨⟩
          rfl
        · intro digits hsome
          dsimp only at hsome
          split at hsome
          · cases hsome
          · rename_i hempty
            cases hsome
            rw [List.isEmpty_iff] at hempty
            exact ⟨hempty, fun c hc => hdigits.digits c (List.mem_cons_of_mem _ hc)⟩
        · rintro _ _ ⟨⟩
          exact Decimal.digitChars_isDigits _

end Numeral

theorem Json.ofBinary64_isProper (x : Binary64) : (Json.ofBinary64 x).IsProper := by
  unfold Json.ofBinary64
  split
  · exact Numeral.ofBinary64_isProper x
  · trivial

end SegmentStream
