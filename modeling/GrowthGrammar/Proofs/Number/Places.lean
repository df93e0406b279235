import GrowthGrammar.Proofs.Number.Format

/-!
# Numbers with a fixed number of decimal places

A double has an exact value. Its text with some decimal places has the digits of an integer, the
nearest number of units of the last place.
-/

namespace GrowthGrammar

open Text (decimalDigits padZeros)

namespace Number

/-! ## Exact values -/

/-- The rational number that a finite double is. -/
def value (x : Float) : ℚ :=
  match Binary64.ofFloat x with
  | .finite negative mantissa exponent => withSign negative mantissa * (2 : ℚ) ^ exponent
  | _ => 0

section

variable {x : Float} {negative : Bool} {mantissa : ℕ} {exponent : ℤ}
  (finite : Binary64.ofFloat x = .finite negative mantissa exponent)

include finite

theorem value_eq : value x = withSign negative mantissa * (2 : ℚ) ^ exponent := by
  rw [value, finite]

theorem value_neg_iff : value x < 0 ↔ negative = true ∧ mantissa ≠ 0 := by
  rw [← withSign_neg_iff, value_eq finite, ← not_le, ← not_le, ← Int.cast_nonneg_iff (R := ℚ),
    mul_nonneg_iff_of_pos_right (zpow_pos two_pos exponent)]

theorem value_eq_zero_iff : value x = 0 ↔ mantissa = 0 := by
  rw [value_eq finite, mul_eq_zero_iff_right (zpow_ne_zero exponent two_ne_zero), Int.cast_eq_zero,
    ← Int.natAbs_eq_zero, natAbs_withSign]

theorem beq_zero_iff : (x == 0) = true ↔ value x = 0 := by
  rw [value_eq_zero_iff finite]
  constructor
  · intro equal
    rw [Float.beq_iff_ne_nan_and_eq] at equal
    have unsigned : Binary64.ofFloat 0 = .finite false 0 (-1074) := by decide +kernel
    have signed : Binary64.ofFloat (-0) = .finite true 0 (-1074) := by decide +kernel
    rcases equal with ⟨_, _, rfl | ⟨rfl, _⟩ | ⟨rfl, _⟩⟩
    · cases unsigned.symm.trans finite
      rfl
    · cases unsigned.symm.trans finite
      rfl
    · cases signed.symm.trans finite
      rfl
  · rintro rfl
    have nearest := Binary64.isNearest_of_ofBits finite
    rw [Nat.cast_zero, zero_mul] at nearest
    have signed := eq_of_magnitude finite
    rw [magnitude, nearest.unique .zero] at signed
    rw [← signed]
    cases negative <;> decide +kernel

end

/-- Zero without its sign, and every other double as it is. -/
theorem exists_normalised {x : Float} (finite : isFinite x = true) :
    ∃ mantissa exponent,
      Binary64.ofFloat (if x == 0 then 0 else x) = .finite (value x < 0) mantissa exponent ∧
        value (if x == 0 then 0 else x) = value x := by
  cases unpacked : Binary64.ofFloat x with
  | nan | infinite _ => simp [isFinite, unpacked] at finite
  | finite negative mantissa exponent =>
      by_cases zero : value x = 0
      · have unsigned : Binary64.ofFloat 0 = .finite false 0 (-1074) := by decide +kernel
        rw [if_pos ((beq_zero_iff unpacked).mpr zero), zero]
        exact ⟨0, -1074, unsigned, (value_eq_zero_iff unsigned).mpr rfl⟩
      · rw [if_neg (mt (beq_zero_iff unpacked).mp zero)]
        have nonzero : mantissa ≠ 0 := mt (value_eq_zero_iff unpacked).mpr zero
        have sign_eq : decide (value x < 0) = negative := by
          rw [Bool.eq_iff_iff, decide_eq_true_iff, value_neg_iff unpacked, and_iff_left nonzero]
        exact ⟨mantissa, exponent, by rw [sign_eq, unpacked], rfl⟩

/-! ## Units of the last place -/

theorem IsRounded.withSign {value : ℚ} {rounded : ℕ} (isRounded : IsRounded value rounded)
    (negative : Bool) : RoundsTo (if negative then -value else value)
      (Number.withSign negative rounded) := by
  cases negative with
  | false => exact isRounded.roundsTo
  | true => exact isRounded.roundsTo.neg

/-- What is rounded to units of the last place is moved by half a unit at most. -/
theorem RoundsTo.near_units {number : ℚ} {places : ℕ} {units : ℤ}
    (rounds : RoundsTo (number * 10 ^ places) units) :
    |units * (10 : ℚ) ^ (-(places : ℤ)) - number| ≤ 1 / 2 * (10 : ℚ) ^ (-(places : ℤ)) := by
  have positive : (0 : ℚ) < 10 ^ (-(places : ℤ)) := zpow_pos (by norm_num) _
  have number_eq : number = number * 10 ^ places * (10 : ℚ) ^ (-(places : ℤ)) := by
    rw [mul_assoc, zpow_neg, zpow_natCast, mul_inv_cancel₀ (by positivity), mul_one]
  calc |units * (10 : ℚ) ^ (-(places : ℤ)) - number|
    _ = |units - number * 10 ^ places| * (10 : ℚ) ^ (-(places : ℤ)) := by
      conv_lhs => rw [number_eq]
      rw [← sub_mul, abs_mul, abs_of_pos positive]
    _ ≤ 1 / 2 * (10 : ℚ) ^ (-(places : ℤ)) := by
      rw [abs_sub_comm]
      exact mul_le_mul_of_nonneg_right rounds.near positive.le

/-- The number of units of the last place nearest to a magnitude. -/
def nearestUnits (places mantissa : ℕ) (exponent : ℤ) : ℕ :=
  roundHalfEven ((scale 2 mantissa 1 exponent).1 * 10 ^ places) (scale 2 mantissa 1 exponent).2

section

variable {x : Float} {negative : Bool} {mantissa : ℕ} {exponent : ℤ}
  (finite : Binary64.ofFloat x = .finite negative mantissa exponent)

include finite

theorem roundsTo_iff {places : ℕ} {units : ℤ} :
    RoundsTo (value x * 10 ^ places) units ↔
      withSign negative (nearestUnits places mantissa exponent) = units := by
  have rounds : RoundsTo (value x * 10 ^ places)
      (withSign negative (nearestUnits places mantissa exponent)) := by
    have rounded := isRounded_roundHalfEven ((scale 2 mantissa 1 exponent).1 * 10 ^ places)
      (scale_pos two_pos mantissa one_pos exponent)
    have value_eq : value x * 10 ^ places =
        if negative then -(mantissa * 2 ^ exponent * 10 ^ places : ℚ)
        else mantissa * 2 ^ exponent * 10 ^ places := by
      rw [value_eq finite]
      cases negative <;> simp [withSign]
    rw [Nat.cast_mul, mul_div_right_comm, scale_eq, Nat.cast_one, div_one, Nat.cast_pow] at rounded
    rw [value_eq]
    exact rounded.withSign negative
  constructor
  · exact rounds.unique
  · rintro rfl
    exact rounds

theorem fixedChars_eq (places : ℕ) :
    fixedChars places x =
      signed negative (insertPoint places (decimalDigits (nearestUnits places mantissa exponent))) := by
  rw [fixedChars, finite]
  rfl

end

/-- The point has the given number of digits behind it, and some in front. -/
theorem exists_insertPoint (places units : ℕ) :
    ∃ whole fraction, padZeros (places + 1) (decimalDigits units) = whole ++ fraction ∧
      whole ≠ [] ∧ fraction.length = places ∧
      insertPoint places (decimalDigits units) =
        if places = 0 then whole else whole ++ '.' :: fraction := by
  obtain ⟨padded, padded_eq⟩ : ∃ text, text = padZeros (places + 1) (decimalDigits units) := ⟨_, rfl⟩
  have longer : places < padded.length := by
    rw [padded_eq, padZeros, List.length_append, List.length_replicate]
    omega
  refine ⟨padded.take (padded.length - places), padded.drop (padded.length - places), ?_, ?_, ?_, ?_⟩
  · rw [← padded_eq, List.take_append_drop]
  · apply List.ne_nil_of_length_pos
    rw [List.length_take]
    omega
  · rw [List.length_drop]
    omega
  · simp only [insertPoint, ← padded_eq]

end Number

end GrowthGrammar
