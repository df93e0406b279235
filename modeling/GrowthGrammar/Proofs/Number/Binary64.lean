import GrowthGrammar.Number.Binary64
import GrowthGrammar.Proofs.Number.Rounding
import Mathlib

/-!
# Doubles and their bits

A finite double is the nearest one to its own value, and its sign is one of its bits.
-/

namespace GrowthGrammar

namespace Number

/-! ## Exact values -/

section

variable {mantissa : ℕ} {exponent : ℤ}

theorem log_mul_zpow_lt {bound : ℕ} (positive : 0 < mantissa) (less : mantissa < 2 ^ bound) :
    Int.log 2 (mantissa * (2 : ℚ) ^ exponent) < bound + exponent := by
  have mantissaPos : (0 : ℚ) < mantissa := by exact_mod_cast positive
  apply (Int.lt_zpow_iff_log_lt one_lt_two (by positivity)).mp
  rw [Nat.cast_two, zpow_add₀ two_ne_zero, zpow_natCast]
  gcongr
  exact_mod_cast less

theorem le_log_mul_zpow {bound : ℕ} (atLeast : 2 ^ bound ≤ mantissa) :
    bound + exponent ≤ Int.log 2 (mantissa * (2 : ℚ) ^ exponent) := by
  have mantissaPos : (0 : ℚ) < mantissa := by
    exact_mod_cast (Nat.two_pow_pos bound).trans_le atLeast
  apply (Int.zpow_le_iff_le_log one_lt_two (by positivity)).mp
  rw [Nat.cast_two, zpow_add₀ two_ne_zero, zpow_natCast]
  gcongr
  exact_mod_cast atLeast

/-- The mantissa of a double has 53 bits, or fewer in the last place that there is. -/
theorem lastPlace_mul_zpow (positive : 0 < mantissa) (less : mantissa < 2 ^ 53)
    (normal : exponent = -1074 ∨ -1074 ≤ exponent ∧ 2 ^ 52 ≤ mantissa) :
    lastPlace (mantissa * (2 : ℚ) ^ exponent) = exponent := by
  have upper := @log_mul_zpow_lt _ exponent _ positive less
  rw [lastPlace]
  rcases normal with rfl | ⟨lowest, atLeast⟩
  · omega
  · have lower := @le_log_mul_zpow _ exponent _ atLeast
    omega

theorem isNearest_mul_zpow (positive : 0 < mantissa) (less : mantissa < 2 ^ 53)
    (normal : exponent = -1074 ∨ -1074 ≤ exponent ∧ 2 ^ 52 ≤ mantissa) :
    IsNearest (mantissa * (2 : ℚ) ^ exponent)
      (min ((exponent + 1074).toNat * 2 ^ 52 + mantissa) infinityBits) := by
  have place := lastPlace_mul_zpow positive less normal
  have valuePos : (0 : ℚ) < mantissa * (2 : ℚ) ^ exponent := by
    have mantissaPos : (0 : ℚ) < mantissa := by exact_mod_cast positive
    positivity
  have rounded := @IsNearest.positive _ mantissa valuePos ?_
  · rwa [place] at rounded
  · rw [place, mul_div_cancel_right₀ _ (zpow_ne_zero exponent two_ne_zero)]
    exact isRounded_natCast mantissa

end

namespace Binary64

variable {bits mantissa : ℕ} {exponent : ℤ} {negative : Bool}

/-- The exponent field is the eleven bits above the fraction, and the sign is the bit above both. -/
theorem ofBits_eq (bits : ℕ) : ofBits bits =
    if bits / 2 ^ 52 % 2 ^ 11 = 2047 then
      if bits % 2 ^ 52 = 0 then .infinite (decide (2 ^ 63 ≤ bits)) else .nan
    else if bits / 2 ^ 52 % 2 ^ 11 = 0 then
      .finite (decide (2 ^ 63 ≤ bits)) (bits % 2 ^ 52) (-1074)
    else
      .finite (decide (2 ^ 63 ≤ bits)) (2 ^ 52 + bits % 2 ^ 52)
        (((bits / 2 ^ 52 % 2 ^ 11 : ℕ) : ℤ) - 1075) :=
  rfl

theorem fields_of_ofBits (finite : ofBits bits = .finite negative mantissa exponent) :
    negative = decide (2 ^ 63 ≤ bits) ∧ bits / 2 ^ 52 % 2 ^ 11 ≠ 2047 := by
  rw [ofBits_eq] at finite
  split at finite
  · split at finite <;> cases finite
  · next notLast =>
      refine ⟨?_, notLast⟩
      split at finite <;> cases finite <;> rfl

theorem mantissa_eq_zero (finite : ofBits bits = .finite negative mantissa exponent)
    (zero : bits % 2 ^ 63 = 0) : mantissa = 0 := by
  have field_eq : bits / 2 ^ 52 % 2 ^ 11 = 0 := by omega
  have fraction_eq : bits % 2 ^ 52 = 0 := by omega
  rw [ofBits_eq, field_eq, fraction_eq] at finite
  cases finite
  rfl

theorem isNearest_of_ofBits (finite : ofBits bits = .finite negative mantissa exponent) :
    IsNearest (mantissa * (2 : ℚ) ^ exponent) (bits % 2 ^ 63) := by
  obtain ⟨field, field_eq⟩ : ∃ n, n = bits / 2 ^ 52 % 2 ^ 11 := ⟨_, rfl⟩
  obtain ⟨fraction, fraction_eq⟩ : ∃ n, n = bits % 2 ^ 52 := ⟨_, rfl⟩
  have magnitude_eq : bits % 2 ^ 63 = field * 2 ^ 52 + fraction := by omega
  have fieldLt : field < 2 ^ 11 := by omega
  have fractionLt : fraction < 2 ^ 52 := by omega
  rw [ofBits_eq, ← field_eq, ← fraction_eq] at finite
  rw [magnitude_eq]
  split at finite
  · split at finite <;> cases finite
  · next notLast =>
      split at finite
      · next subnormal =>
          cases finite
          rcases Nat.eq_zero_or_pos mantissa with rfl | positive
          · rw [subnormal, Nat.cast_zero, zero_mul]
            exact .zero
          · have nearest := @isNearest_mul_zpow _ (-1074) positive (by omega) (.inl rfl)
            convert nearest using 1
            simp only [infinityBits]
            omega
      · next normal =>
          cases finite
          have nearest := @isNearest_mul_zpow (2 ^ 52 + fraction) (field - 1075) (by omega)
            (by omega) (.inr (by omega))
          convert nearest using 1
          simp only [infinityBits]
          omega

end Binary64

/-! ## Signs -/

section

open Float.Model Float.Model.UnpackedFloat

theorem toNat_unpackMantissa (bits : BitVec 64) :
    (@unpackMantissa .binary64 bits).toNat = bits.toNat % 2 ^ 52 := by
  rw [unpackMantissa_def]
  simp

theorem toNat_unpackExponent (bits : BitVec 64) :
    (@unpackExponent .binary64 bits).toNat = bits.toNat / 2 ^ 52 % 2 ^ 11 := by
  rw [unpackExponent_def]
  simp [Nat.shiftRight_eq_div_pow]

theorem toNat_unpackSign (bits : BitVec 64) :
    (@unpackSign .binary64 bits).toNat = bits.toNat / 2 ^ 63 % 2 := by
  rw [unpackSign_def]
  simp [Nat.shiftRight_eq_div_pow]

variable {positive negative : BitVec 64} (bound : positive.toNat < 2 ^ 63)
  (flipped : negative.toNat = positive.toNat + 2 ^ 63)

include bound flipped

/-- The highest bit is the sign and nothing else. -/
theorem unpack_flipped :
    UnpackedFloat.unpack .binary64 negative = (UnpackedFloat.unpack .binary64 positive).neg := by
  have mantissa_eq : @unpackMantissa .binary64 negative = @unpackMantissa .binary64 positive := by
    apply BitVec.eq_of_toNat_eq
    rw [toNat_unpackMantissa, toNat_unpackMantissa]
    omega
  have exponent_eq : @unpackExponent .binary64 negative = @unpackExponent .binary64 positive := by
    apply BitVec.eq_of_toNat_eq
    rw [toNat_unpackExponent, toNat_unpackExponent]
    omega
  have plus : @unpackSign .binary64 positive = 0#1 := by
    apply BitVec.eq_of_toNat_eq
    rw [toNat_unpackSign, BitVec.toNat_ofNat]
    omega
  have minus : @unpackSign .binary64 negative = 1#1 := by
    apply BitVec.eq_of_toNat_eq
    rw [toNat_unpackSign, BitVec.toNat_ofNat]
    omega
  unfold UnpackedFloat.unpack
  simp only [mantissa_eq, exponent_eq, plus, minus]
  split
  · split <;> rfl
  · split
    · split <;> rfl
    · rfl

theorem neg_ofBits (finite : positive.toNat / 2 ^ 52 % 2 ^ 11 ≠ 2047) :
    -Float.ofBits ⟨positive⟩ = Float.ofBits ⟨negative⟩ := by
  have exponent_ne : @unpackExponent .binary64 positive ≠ 2047#11 := by
    intro ones
    apply finite
    rw [← toNat_unpackExponent, ones]
    rfl
  have number : @isNaNBits .binary64 positive = false := by simp [isNaNBits, exponent_ne]
  have packed :
      UnpackedFloat.pack .binary64 (UnpackedFloat.unpack .binary64 positive) = positive := by
    rw [pack_unpack, number]
    rfl
  show Float.ofModel (Float.Model.pack (UnpackedFloat.unpack .binary64
      (UnpackedFloat.pack .binary64 (UnpackedFloat.unpack .binary64 positive))).neg) =
    Float.ofModel (Float.Model.pack (UnpackedFloat.unpack .binary64 negative))
  rw [packed, unpack_flipped bound flipped]

end

/-- The double without its sign. -/
def magnitude (x : Float) : Float :=
  .ofBits (.ofNat (x.toBits.toNat % 2 ^ 63))

variable {x : Float} {negative : Bool} {mantissa : ℕ} {exponent : ℤ}

theorem eq_of_magnitude (finite : Binary64.ofFloat x = .finite negative mantissa exponent) :
    (if negative then -magnitude x else magnitude x) = x := by
  rcases Binary64.fields_of_ofBits finite with ⟨rfl, notLast⟩
  have bound : x.toBits.toNat < 2 ^ 64 := x.toBits.toNat_lt
  have rest_eq : (BitVec.ofNat 64 (x.toBits.toNat % 2 ^ 63)).toNat = x.toBits.toNat % 2 ^ 63 := by
    rw [BitVec.toNat_ofNat]
    omega
  split
  · next isNegative =>
      have least : 2 ^ 63 ≤ x.toBits.toNat := of_decide_eq_true isNegative
      have flipped : x.toBits.toBitVec.toNat =
          (BitVec.ofNat 64 (x.toBits.toNat % 2 ^ 63)).toNat + 2 ^ 63 := by
        rw [rest_eq]
        show x.toBits.toNat = _
        omega
      exact (neg_ofBits (by omega) flipped (by omega)).trans (Float.ofBits_toBits x)
  · next notNegative =>
      have less : x.toBits.toNat < 2 ^ 63 := by simpa using notNegative
      rw [magnitude, Nat.mod_eq_of_lt less, UInt64.ofNat_toNat, Float.ofBits_toBits]

theorem beq_self (finite : Binary64.ofFloat x = .finite negative mantissa exponent) :
    (x == x) = true := by
  rw [Float.beq_self_iff]
  rintro rfl
  cases (by decide +kernel : Binary64.ofFloat Float.nan = .nan).symm.trans finite

end Number

end GrowthGrammar
