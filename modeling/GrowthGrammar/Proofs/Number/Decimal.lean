import GrowthGrammar.Number.Decimal
import GrowthGrammar.Proofs.Number.Rounding

/-!
# Decimals and the nearest doubles

A decimal is read as the double nearest to its value, however large or small its exponent is, and
the shortest decimal of a double reads back as that double.
-/

namespace GrowthGrammar

namespace Number

/-! ## Values out of range -/

theorem exists_isRounded {value : ℚ} (nonneg : 0 ≤ value) : ∃ rounded, IsRounded value rounded := by
  have rounded := isRounded_roundHalfEven value.num.toNat value.den_pos
  have num_eq : (value.num.toNat : ℚ) = value.num := by
    exact_mod_cast Int.toNat_of_nonneg (Rat.num_nonneg.mpr nonneg)
  rw [num_eq, Rat.num_div_den] at rounded
  exact ⟨_, rounded⟩

theorem isNearest_infinityBits {value : ℚ} (large : (2 : ℚ) ^ (1024 : ℤ) ≤ value) :
    IsNearest value infinityBits := by
  have positive : 0 < value := lt_of_lt_of_le (zpow_pos two_pos 1024) large
  have log_ge : 1024 ≤ Int.log 2 value :=
    (Int.zpow_le_iff_le_log one_lt_two positive).mp (by rwa [Nat.cast_two])
  have place_eq : lastPlace value = Int.log 2 value - 52 := by
    rw [lastPlace]
    omega
  have powerPos : (0 : ℚ) < 2 ^ lastPlace value := zpow_pos two_pos _
  rcases exists_isRounded (div_pos positive powerPos).le with ⟨mantissa, rounded⟩
  have atLeast : (2 : ℚ) ^ 52 ≤ value / 2 ^ lastPlace value := by
    rw [le_div_iff₀ powerPos, place_eq, ← zpow_natCast, ← zpow_add₀ two_ne_zero]
    have lower := (Int.zpow_le_iff_le_log one_lt_two positive).mpr (le_refl (Int.log 2 value))
    simpa using lower
  have full : 2 ^ 52 ≤ mantissa := by
    rcases abs_le.mp rounded.near with ⟨_, near⟩
    have above : ((2 ^ 52 : ℕ) : ℚ) < mantissa + 1 := by
      push_cast
      linarith
    exact Nat.lt_succ_iff.mp (by exact_mod_cast above)
  have nearest := IsNearest.positive positive rounded
  convert nearest using 1
  simp only [infinityBits]
  omega

theorem isNearest_zero {value : ℚ} (nonneg : 0 ≤ value) (small : value < (2 : ℚ) ^ (-1080 : ℤ)) :
    IsNearest value 0 := by
  rcases nonneg.eq_or_lt with rfl | positive
  · exact .zero
  · have log_lt : Int.log 2 value < -1080 :=
      (Int.lt_zpow_iff_log_lt one_lt_two positive).mp (by rwa [Nat.cast_two])
    have place_eq : lastPlace value = -1074 := by
      rw [lastPlace]
      omega
    have below : value / 2 ^ lastPlace value < 1 / 2 := by
      rw [place_eq, div_lt_iff₀ (zpow_pos two_pos (-1074))]
      calc value < 2 ^ (-1080 : ℤ) := small
        _ = 2 ^ (-6 : ℤ) * 2 ^ (-1074 : ℤ) := zpow_add₀ two_ne_zero (-6) (-1074)
        _ < 1 / 2 * 2 ^ (-1074 : ℤ) :=
          mul_lt_mul_of_pos_right (by norm_num) (zpow_pos two_pos (-1074))
    have rounded : IsRounded (value / 2 ^ lastPlace value) 0 := by
      have isRounded := @isRounded_below 0 _ (div_pos positive (zpow_pos two_pos _)).le below
      rwa [Nat.cast_zero, zero_add] at isRounded
    have nearest := IsNearest.positive positive rounded
    rw [place_eq] at nearest
    exact nearest

/-- What is not rounded up beyond the largest double is not infinite. -/
theorem IsNearest.lt_infinityBits {value : ℚ} {bits : ℕ} (nearest : IsNearest value bits)
    (inRange : value < (2 : ℚ) ^ (1024 : ℤ) - (2 : ℚ) ^ (970 : ℤ)) : bits < infinityBits := by
  cases nearest with
  | zero => exact Nat.zero_lt_succ _
  | @positive _ mantissa positive rounded =>
      have powerPos : (0 : ℚ) < 2 ^ lastPlace value := zpow_pos two_pos _
      have log_lt : Int.log 2 value < 1024 := by
        apply (Int.lt_zpow_iff_log_lt one_lt_two positive).mp
        rw [Nat.cast_two]
        exact inRange.trans (sub_lt_self _ (zpow_pos two_pos 970))
      have place_eq : lastPlace value = max (Int.log 2 value - 52) (-1074) := rfl
      by_cases highest : lastPlace value = 971
      · have less : value / 2 ^ lastPlace value < ((2 ^ 53 : ℕ) : ℚ) - 1 / 2 := by
          rw [highest, div_lt_iff₀ (zpow_pos two_pos _)]
          refine inRange.trans_eq ?_
          have upper : (2 : ℚ) ^ (1024 : ℤ) = 2 ^ (54 : ℤ) * 2 ^ (970 : ℤ) :=
            zpow_add₀ two_ne_zero 54 970
          have last : (2 : ℚ) ^ (971 : ℤ) = 2 ^ (1 : ℤ) * 2 ^ (970 : ℤ) :=
            zpow_add₀ two_ne_zero 1 970
          rw [upper, last]
          generalize (2 : ℚ) ^ (970 : ℤ) = power
          norm_num
          ring
        have mantissaLt := rounded.lt_of_lt less
        rw [highest]
        simp only [infinityBits]
        omega
      · have atMost : value / 2 ^ lastPlace value ≤ ((2 ^ 53 : ℕ) : ℚ) := by
          rw [div_le_iff₀ powerPos]
          have upper := (Int.lt_zpow_iff_log_lt one_lt_two positive).mpr
            (by omega : Int.log 2 value < 53 + lastPlace value)
          rw [Nat.cast_two, zpow_add₀ two_ne_zero] at upper
          exact_mod_cast upper.le
        have mantissaLe := rounded.le_of_le atMost
        simp only [infinityBits]
        omega

theorem cast_two_pow_sub {high low : ℕ} (le : low ≤ high) :
    ((2 ^ high - 2 ^ low : ℕ) : ℚ) = 2 ^ (high : ℤ) - 2 ^ (low : ℤ) := by
  have powers : (2 : ℕ) ^ low ≤ 2 ^ high := Nat.pow_le_pow_right two_pos le
  rw [Nat.cast_sub powers, zpow_natCast, zpow_natCast]
  push_cast
  rfl

/-- The integer is closer to the largest double than to what would be the next one. -/
def InDoubleRange (n : ℤ) : Prop :=
  n.natAbs < 2 ^ 1024 - 2 ^ 970

instance (n : ℤ) : Decidable (InDoubleRange n) :=
  inferInstanceAs (Decidable (_ < _))

theorem ofInt?_eq_some {n : ℤ} (inRange : InDoubleRange n) : ofInt? n = some (ofInt n) := by
  have nearest := isNearest_nearestBits n.natAbs one_pos
  rw [Nat.cast_one, div_one] at nearest
  have less := Nat.cast_lt (α := ℚ).mpr inRange
  rw [cast_two_pow_sub (by decide)] at less
  rw [ofInt?, if_pos (nearest.lt_infinityBits less)]

namespace Decimal

/-! ## Reading decimals -/

def value (decimal : Decimal) : ℚ :=
  decimal.digits * (10 : ℚ) ^ decimal.exponent

theorem value_nonneg (decimal : Decimal) : 0 ≤ decimal.value := by
  exact mul_nonneg (Nat.cast_nonneg _) (zpow_pos (by norm_num) _).le

theorem large_of_exponent {decimal : Decimal} (nonzero : decimal.digits ≠ 0)
    (large : 310 ≤ decimal.exponent) : (2 : ℚ) ^ (1024 : ℤ) ≤ decimal.value := by
  have digits_ge : (1 : ℚ) ≤ decimal.digits := by exact_mod_cast Nat.pos_of_ne_zero nonzero
  have power_le : (2 : ℚ) ^ 1024 ≤ 10 ^ 310 := by
    exact_mod_cast (by decide +kernel : 2 ^ 1024 ≤ 10 ^ 310)
  calc (2 : ℚ) ^ (1024 : ℤ) ≤ 10 ^ (310 : ℤ) := power_le
    _ ≤ 10 ^ decimal.exponent := zpow_le_zpow_right₀ (by norm_num) large
    _ ≤ decimal.digits * 10 ^ decimal.exponent :=
      le_mul_of_one_le_left (zpow_nonneg (by norm_num) _) digits_ge

theorem small_of_exponent {decimal : Decimal}
    (small : (decimal.digits.log2 : ℤ) + 1081 ≤ -3 * decimal.exponent) :
    decimal.value < (2 : ℚ) ^ (-1080 : ℤ) := by
  have digits_lt : (decimal.digits : ℚ) < 2 ^ ((decimal.digits.log2 : ℤ) + 1) := by
    exact_mod_cast @Nat.lt_log2_self decimal.digits
  have power_le : (10 : ℚ) ^ decimal.exponent ≤ 2 ^ (3 * decimal.exponent) := by
    obtain ⟨power, power_eq⟩ := Int.eq_ofNat_of_zero_le (by omega : 0 ≤ -decimal.exponent)
    obtain exponent_eq : decimal.exponent = -power := by omega
    rw [zpow_mul, exponent_eq, zpow_neg, zpow_neg, zpow_natCast, zpow_natCast]
    gcongr
    norm_num
  calc decimal.value ≤ decimal.digits * 2 ^ (3 * decimal.exponent) := by
        unfold value
        gcongr
    _ < 2 ^ ((decimal.digits.log2 : ℤ) + 1) * 2 ^ (3 * decimal.exponent) :=
        mul_lt_mul_of_pos_right digits_lt (zpow_pos two_pos _)
    _ = 2 ^ ((decimal.digits.log2 : ℤ) + 1 + 3 * decimal.exponent) :=
        (zpow_add₀ two_ne_zero _ _).symm
    _ ≤ 2 ^ (-1080 : ℤ) := by
        gcongr
        · norm_num
        · omega

theorem isNearest_nearestBits (decimal : Decimal) :
    IsNearest decimal.value decimal.nearestBits := by
  unfold nearestBits
  split
  · next digits_eq =>
      rw [value, digits_eq, Nat.cast_zero, zero_mul]
      exact .zero
  · next nonzero =>
      split
      · next large => exact isNearest_infinityBits (large_of_exponent nonzero large)
      · split
        · next small => exact isNearest_zero decimal.value_nonneg (small_of_exponent small)
        · have nearest := Number.isNearest_nearestBits
            (scale 10 decimal.digits 1 decimal.exponent).1
            (scale_pos (by decide : 0 < 10) decimal.digits one_pos decimal.exponent)
          rw [scale_eq, Nat.cast_one, div_one] at nearest
          exact_mod_cast nearest

theorem nearestBits_eq_of_isNearest {decimal : Decimal} {bits : ℕ}
    (nearest : IsNearest decimal.value bits) : decimal.nearestBits = bits :=
  decimal.isNearest_nearestBits.unique nearest

/-! ## The shortest decimal -/

theorem value_exact (mantissa : ℕ) (exponent : ℤ) :
    (exact mantissa exponent).value = mantissa * (2 : ℚ) ^ exponent := by
  unfold exact value
  split
  · next nonneg =>
      obtain ⟨power, rfl⟩ := Int.eq_ofNat_of_zero_le nonneg
      simp
  · next negative =>
      obtain ⟨power, power_eq⟩ := Int.eq_ofNat_of_zero_le (by omega : 0 ≤ -exponent)
      obtain rfl : exponent = -power := by omega
      have ten_eq : (10 : ℚ) = 5 * 2 := by norm_num
      rw [zpow_neg, zpow_neg, zpow_natCast, zpow_natCast, ten_eq, mul_pow]
      simp
      field_simp

theorem roundHalfEven_eq_or (numerator denominator : ℕ) :
    roundHalfEven numerator denominator = numerator / denominator ∨
      roundHalfEven numerator denominator = numerator / denominator + 1 := by
  unfold roundHalfEven
  dsimp only
  split
  · exact .inl rfl
  · split
    · exact .inr rfl
    · omega

/-- A neighbour that is chosen was tried. -/
theorem nearestBits_of_neighbour? {bits numerator denominator : ℕ} {exponent : ℤ}
    {decimal : Decimal} (chosen : neighbour? bits numerator denominator exponent = some decimal) :
    decimal.nearestBits = bits := by
  simp only [neighbour?] at chosen
  split at chosen
  · next below above =>
      cases chosen
      rcases roundHalfEven_eq_or (scale 10 numerator denominator (-exponent)).1
        (scale 10 numerator denominator (-exponent)).2 with rounded | rounded <;> rw [rounded]
      · exact of_decide_eq_true below
      · exact of_decide_eq_true above
  · next below _ =>
      cases chosen
      exact of_decide_eq_true below
  · next _ above =>
      cases chosen
      exact of_decide_eq_true above
  · cases chosen

/-- When no neighbour reads back, the decimal with all digits does. -/
theorem nearestBits_shortest {bits mantissa : ℕ} {exponent : ℤ}
    (nearest : IsNearest (mantissa * (2 : ℚ) ^ exponent) bits) :
    (shortest bits mantissa exponent).nearestBits = bits := by
  simp only [shortest]
  cases found : (List.range 17).findSome? _ with
  | none =>
      apply nearestBits_eq_of_isNearest
      rwa [Option.getD_none, value_exact]
  | some decimal =>
      rcases List.exists_of_findSome?_eq_some found with ⟨count, _, chosen⟩
      exact nearestBits_of_neighbour? chosen

end Decimal

end Number

end GrowthGrammar
