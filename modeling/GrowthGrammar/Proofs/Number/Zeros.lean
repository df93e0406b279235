import GrowthGrammar.Number.Rounding
import Mathlib

/-!
# The two zeros

Doubles have a zero of either sign, and the two are equal. All other doubles are equal only to
themselves. A sum is the zero below zero only if both of its numbers are: no other sum is rounded to
it.
-/

namespace GrowthGrammar

namespace Number

section

open Float.Model Float.Model.UnpackedFloat

/-- An unpacked double other than the zero below zero. A mantissa has 53 digits at most, and none of
them is in a lower place than doubles have. -/
inductive NotNegativeZero : UnpackedFloat → Prop
  | notANumber : NotNegativeZero .notANumber
  | infinity {sign : UnpackedFloat.Sign} : NotNegativeZero (.infinity sign)
  | zero : NotNegativeZero (.zero .positive)
  | finite {sign : UnpackedFloat.Sign} {mantissa : ℕ} {exponent : ℤ} {positive : 0 < mantissa} :
      mantissa < 2 ^ 53 → -1074 ≤ exponent →
      NotNegativeZero (.finite sign mantissa exponent positive)

/-! ## Bits -/

theorem bias_binary64 : Format.binary64.exponentBias = 1023 := rfl

theorem unpack_cases (bits : BitVec 64) :
    NotNegativeZero (UnpackedFloat.unpack .binary64 bits) ∨
      UnpackedFloat.unpack .binary64 bits = .zero .negative := by
  have bias := bias_binary64
  rw [UnpackedFloat.unpack]
  dsimp only
  split
  · split
    · exact .inl .infinity
    · exact .inl .notANumber
  · split
    · split
      · generalize UnpackedFloat.Sign.ofBitVec _ = sign
        cases sign with
        | negative => exact .inr rfl
        | positive => exact .inl .zero
      · exact .inl (.finite ((BitVec.isLt _).trans (by decide)) (by omega))
    · next normal =>
        have nonzero : (@unpackExponent .binary64 bits).toNat ≠ 0 :=
          fun zero => normal (BitVec.eq_of_toNat_eq zero)
        exact .inl (.finite (BitVec.isLt _) (by omega))

theorem packComponents_ne {sign : UnpackedFloat.Sign} {exponent : BitVec 11}
    {mantissa : BitVec 52} (nonzero : exponent.toNat ≠ 0 ∨ mantissa.toNat ≠ 0) :
    packComponents .binary64 sign exponent mantissa ≠ packedZero .binary64 .negative := by
  intro equal
  have exponent_eq := congrArg (BitVec.toNat ∘ unpackExponent) equal
  have mantissa_eq := congrArg (BitVec.toNat ∘ unpackMantissa) equal
  simp only [Function.comp_apply, packedZero, unpackExponent_packComponents,
    unpackMantissa_packComponents] at exponent_eq mantissa_eq
  exact nonzero.elim (absurd exponent_eq) (absurd mantissa_eq)

theorem pack_finite_ne {sign : UnpackedFloat.Sign} {mantissa : ℕ} {exponent : ℤ}
    (positive : 0 < mantissa) (less : mantissa < 2 ^ 53) (least : -1074 ≤ exponent) :
    UnpackedFloat.pack .binary64 (.finite sign mantissa exponent positive) ≠
      packedZero .binary64 .negative := by
  have bias := bias_binary64
  rw [UnpackedFloat.pack]
  dsimp only
  split
  · exact packComponents_ne (.inl (by decide))
  · split
    · -- The leading digit is not among the bits, but the exponent shows that there is one.
      refine packComponents_ne (.inl ?_)
      rw [BitVec.toNat_ofNat]
      omega
    · next short =>
        refine packComponents_ne (.inr ?_)
        change mantissa.log2 + 1 ≠ 53 at short
        have log_lt : mantissa.log2 < 53 := (Nat.log2_lt positive.ne').mpr less
        have shorter : mantissa < 2 ^ 52 := (Nat.log2_lt positive.ne').mp (by omega)
        rw [BitVec.toNat_ofNat, Nat.mod_eq_of_lt shorter]
        exact positive.ne'

theorem NotNegativeZero.pack_ne {unpacked : UnpackedFloat} (other : NotNegativeZero unpacked) :
    UnpackedFloat.pack .binary64 unpacked ≠ packedZero .binary64 .negative := by
  cases other with
  | notANumber => decide
  | @infinity sign => cases sign <;> decide
  | zero => decide
  | finite less least => exact pack_finite_ne _ less least

/-! ## Rounding -/

theorem mantissa_shiftRight (extended : ExtendedMantissa) (count : ℕ) :
    (extended >>> count).mantissa = extended.mantissa / 2 ^ count := by
  induction count with
  | zero => exact (Nat.div_one _).symm
  | succ count induction =>
      show (extended >>> count).mantissa / 2 = _
      rw [induction, Nat.div_div_eq_div_mul, pow_succ]

theorem mantissa_ofMantissaAndAccuracy (mantissa : ℕ) (accuracy : Accuracy) :
    (ExtendedMantissa.ofMantissaAndAccuracy mantissa accuracy).mantissa = mantissa := by
  fun_cases ExtendedMantissa.ofMantissaAndAccuracy <;> rfl

theorem le_roundToNearestEven (mantissa : ℕ) (accuracy : Accuracy) :
    mantissa ≤ accuracy.roundToNearestEven mantissa := by
  fun_cases Accuracy.roundToNearestEven <;> omega

theorem mantissa_le_roundedMantissa (extended : ExtendedMantissa) :
    extended.mantissa ≤ extended.roundedMantissa :=
  le_roundToNearestEven _ _

theorem targetExponent_binary64 (total : ℤ) :
    Format.binary64.targetExponent total = max (total - 53) (-1074) := rfl

section

variable {mantissa : ℕ} {exponent : ℤ} (positive : 0 < mantissa) (least : -1074 ≤ exponent)
  (accuracy : Accuracy) (sign : UnpackedFloat.Sign)

include positive least

/-- At the exponent that a double has for the number there is a digit left, and 53 at most. -/
theorem shiftToTargetExponent_bounds :
    let shifted := shiftToTargetExponent .binary64 mantissa exponent accuracy
    0 < shifted.1.mantissa ∧ shifted.1.mantissa < 2 ^ 53 ∧ -1074 ≤ shifted.2 := by
  have lower : 2 ^ mantissa.log2 ≤ mantissa := Nat.log2_self_le positive.ne'
  have upper : mantissa < 2 ^ (mantissa.log2 + 1) := Nat.lt_log2_self
  simp only [shiftToTargetExponent, shiftToExponent, mantissa_shiftRight,
    mantissa_ofMantissaAndAccuracy, targetExponent_binary64, totalExponent]
  obtain ⟨count, count_eq⟩ : ∃ count : ℕ, count =
    (max ((mantissa.log2 : ℤ) + 1 + exponent - 53) (-1074) - exponent).toNat := ⟨_, rfl⟩
  rw [← count_eq]
  have within : (2 : ℕ) ^ count ≤ 2 ^ mantissa.log2 := Nat.pow_le_pow_right two_pos (by omega)
  have beyond : (2 : ℕ) ^ (mantissa.log2 + 1) ≤ 2 ^ (53 + count) :=
    Nat.pow_le_pow_right two_pos (by omega)
  refine ⟨Nat.div_pos (within.trans lower) (Nat.two_pow_pos _), ?_, by omega⟩
  rw [Nat.div_lt_iff_lt_mul (Nat.two_pow_pos _), ← pow_add]
  exact upper.trans_le beyond

theorem notNegativeZero_roundWithAccuracy :
    NotNegativeZero (roundWithAccuracy .binary64 sign mantissa exponent accuracy) := by
  have first := shiftToTargetExponent_bounds positive least accuracy
  dsimp only at first
  have rounded := first.1.trans_le (mantissa_le_roundedMantissa _)
  -- A carry can make one digit too many, so the mantissa is shifted once again.
  have second := shiftToTargetExponent_bounds rounded first.2.2 .exact
  dsimp only at second
  rw [roundWithAccuracy]
  dsimp only
  rw [dif_neg second.1.ne']
  exact .finite second.2.1 second.2.2

theorem notNegativeZero_round :
    NotNegativeZero (UnpackedFloat.round .binary64 sign mantissa exponent) := by
  rw [UnpackedFloat.round, decreaseExponent, targetExponent_binary64]
  apply notNegativeZero_roundWithAccuracy
  · rw [Nat.shiftLeft_eq]
    exact Nat.mul_pos positive (Nat.two_pow_pos _)
  · omega

end

theorem notNegativeZero_normalize (total : ℤ) {exponent : ℤ} (least : -1074 ≤ exponent) :
    NotNegativeZero (UnpackedFloat.normalize .binary64 total exponent .positive) := by
  rw [UnpackedFloat.normalize]
  split
  · next below =>
      have negative : total < 0 := compare_lt_iff_lt.mp below
      exact notNegativeZero_round (by omega) least _
  · exact .zero
  · next above =>
      have positive : 0 < total := compare_gt_iff_gt.mp above
      exact notNegativeZero_round (by omega) least _

/-! ## Sums -/

theorem NotNegativeZero.add {x y : UnpackedFloat} (other : NotNegativeZero x)
    (double : NotNegativeZero y ∨ y = .zero .negative) :
    NotNegativeZero (UnpackedFloat.add .binary64 x y) := by
  rcases double with second | rfl
  · cases other with
    | notANumber => exact .notANumber
    | infinity =>
        cases second with
        | notANumber => exact .notANumber
        | infinity =>
            rw [UnpackedFloat.add]
            split
            · exact .infinity
            · exact .notANumber
        | zero | finite => exact .infinity
    | zero =>
        cases second with
        | notANumber => exact .notANumber
        | infinity => exact .infinity
        | zero => exact .zero
        | finite less least => exact .finite less least
    | finite less least =>
        cases second with
        | notANumber => exact .notANumber
        | infinity => exact .infinity
        | zero => exact .finite less least
        | finite _ otherLeast => exact notNegativeZero_normalize _ (le_min least otherLeast)
  · cases other with
    | notANumber => exact .notANumber
    | infinity => exact .infinity
    | zero => exact .zero
    | finite less least => exact .finite less least

variable {x : Float}

theorem toBits_negativeZero : (-0 : Float).toBits.toBitVec = packedZero .binary64 .negative := by
  decide

theorem unpack_eq_negativeZero_iff :
    UnpackedFloat.unpack .binary64 x.toBits.toBitVec = .zero .negative ↔ x = -0 := by
  have valid : Format.binary64.Valid x.toBits.toBitVec := x.toModel.valid
  rw [unpack_eq_zero_iff_of_valid valid, ← toBits_negativeZero, UInt64.toBitVec_inj,
    Float.toBits_inj]

theorem add_ne_negativeZero (other : x ≠ -0) (y : Float) : x + y ≠ -0 := by
  have first := (unpack_cases x.toBits.toBitVec).resolve_right
    (mt unpack_eq_negativeZero_iff.mp other)
  have sum := (first.add (unpack_cases y.toBits.toBitVec)).pack_ne
  intro equal
  apply sum
  rw [← toBits_negativeZero, ← equal]
  rfl

end

/-! ## Equality -/

/-- One of two doubles is zero, and the other is the zero below zero. -/
def ZerosDiffer (x y : Float) : Prop :=
  x = 0 ∧ y = -0 ∨ x = -0 ∧ y = 0

section

variable {x y : Float} {xs ys : List Float}

theorem ne_of_zerosDiffer (differ : ZerosDiffer x y) : x ≠ y := by
  have zeros_ne : (0 : Float) ≠ -0 := by decide
  rcases differ with ⟨rfl, rfl⟩ | ⟨rfl, rfl⟩
  · exact zeros_ne
  · exact zeros_ne.symm

theorem eq_iff_of_beq (equal : (x == y) = true) : x = y ↔ ¬ZerosDiffer x y := by
  refine ⟨fun same differ => ne_of_zerosDiffer differ same, fun alike => ?_⟩
  rcases Float.beq_iff_ne_nan_and_eq.mp equal with ⟨_, _, same | differ⟩
  · exact same
  · exact absurd differ alike

theorem eq_iff_of_list_beq (equal : (xs == ys) = true) :
    xs = ys ↔ ∀ pair ∈ xs.zip ys, ¬ZerosDiffer pair.1 pair.2 := by
  induction xs generalizing ys with
  | nil =>
      cases ys with
      | nil => simp
      | cons => cases equal
  | cons x xs induction =>
      cases ys with
      | nil => cases equal
      | cons y ys =>
          rw [List.cons_beq_cons, Bool.and_eq_true] at equal
          rw [List.cons.injEq, List.zip_cons_cons, List.forall_mem_cons, eq_iff_of_beq equal.1,
            induction equal.2]

end

end Number

end GrowthGrammar
