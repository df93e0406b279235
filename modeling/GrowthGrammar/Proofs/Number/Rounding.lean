import GrowthGrammar.Number.Rounding
import Mathlib.Data.Int.Log
import Mathlib.Data.Rat.Floor
import Mathlib.Tactic.FieldSimp
import Mathlib.Tactic.Linarith
import Mathlib.Tactic.NormNum
import Mathlib.Tactic.Positivity
import Mathlib.Tactic.Ring

/-!
# Correct rounding

The bits of the nearest double as a relation between rational numbers and bits. It does not depend
on how a rational number is written as a quotient.
-/

namespace GrowthGrammar

namespace Number

/-! ## Rounding to integers -/

/-- The integer nearest to a value; of two equally near the even one. -/
structure RoundsTo (value : ℚ) (rounded : ℤ) : Prop where
  near : |value - rounded| ≤ 1 / 2
  tie : |value - rounded| = 1 / 2 → rounded % 2 = 0

namespace RoundsTo

variable {value : ℚ} {rounded : ℤ}

theorem unique {first second : ℤ} (isFirst : RoundsTo value first)
    (isSecond : RoundsTo value second) : first = second := by
  by_contra different
  wlog less : first < second generalizing first second
  · exact this isSecond isFirst (Ne.symm different) (by omega)
  have apart : (first : ℚ) + 1 ≤ second := by exact_mod_cast less
  rcases abs_le.mp isFirst.near with ⟨_, above⟩
  rcases abs_le.mp isSecond.near with ⟨below, _⟩
  -- Both are at the distance of a tie, and two even numbers are not next to each other.
  have next : second = first + 1 := by
    have : (second : ℚ) = first + 1 := by linarith
    exact_mod_cast this
  have firstTie : |value - first| = 1 / 2 := by
    rw [abs_of_nonneg] <;> linarith
  have secondTie : |value - second| = 1 / 2 := by
    rw [abs_of_nonpos] <;> linarith
  have firstEven := isFirst.tie firstTie
  have secondEven := isSecond.tie secondTie
  omega

theorem neg (rounds : RoundsTo value rounded) : RoundsTo (-value) (-rounded) := by
  have distance : |-value - (-rounded : ℤ)| = |value - rounded| := by
    rw [Int.cast_neg, ← abs_neg]
    congr 1
    ring
  constructor <;> rw [distance]
  · exact rounds.near
  · intro tie
    have even := rounds.tie tie
    omega

theorem nonneg (rounds : RoundsTo value rounded) (valueNonneg : 0 ≤ value) : 0 ≤ rounded := by
  rcases abs_le.mp rounds.near with ⟨_, above⟩
  have below : (-1 : ℚ) < rounded := by linarith
  have below : -1 < rounded := by exact_mod_cast below
  omega

theorem nonpos (rounds : RoundsTo value rounded) (valueNonpos : value ≤ 0) : rounded ≤ 0 := by
  have negated := rounds.neg.nonneg (neg_nonneg.mpr valueNonpos)
  omega

end RoundsTo

/-! ## Rounding to natural numbers -/

structure IsRounded (value : ℚ) (rounded : ℕ) : Prop where
  near : |value - rounded| ≤ 1 / 2
  tie : |value - rounded| = 1 / 2 → rounded % 2 = 0

theorem isRounded_natCast (n : ℕ) : IsRounded n n := by
  constructor <;> norm_num

theorem IsRounded.roundsTo {value : ℚ} {rounded : ℕ} (isRounded : IsRounded value rounded) :
    RoundsTo value rounded := by
  constructor <;> rw [Int.cast_natCast]
  · exact isRounded.near
  · intro tie
    have even := isRounded.tie tie
    omega

theorem IsRounded.unique {value : ℚ} {first second : ℕ} (isFirst : IsRounded value first)
    (isSecond : IsRounded value second) : first = second := by
  exact_mod_cast isFirst.roundsTo.unique isSecond.roundsTo

theorem IsRounded.le_of_le {value : ℚ} {rounded bound : ℕ} (isRounded : IsRounded value rounded)
    (atMost : value ≤ bound) : rounded ≤ bound := by
  rcases abs_le.mp isRounded.near with ⟨near, _⟩
  have below : (rounded : ℚ) < (bound + 1 : ℕ) := by
    push_cast
    linarith
  exact Nat.lt_succ_iff.mp (by exact_mod_cast below)

theorem IsRounded.lt_of_lt {value : ℚ} {rounded bound : ℕ} (isRounded : IsRounded value rounded)
    (less : value < bound - 1 / 2) : rounded < bound := by
  rcases abs_le.mp isRounded.near with ⟨near, _⟩
  have below : (rounded : ℚ) < bound := by linarith
  exact_mod_cast below

theorem isRounded_below {whole : ℕ} {fraction : ℚ} (nonneg : 0 ≤ fraction)
    (below : fraction < 1 / 2) : IsRounded (whole + fraction) whole := by
  have distance : |(whole + fraction : ℚ) - whole| = fraction := by
    rw [add_sub_cancel_left, abs_of_nonneg nonneg]
  constructor <;> rw [distance]
  · exact below.le
  · exact fun tie => absurd tie below.ne

theorem isRounded_above {whole : ℕ} {fraction : ℚ} (above : 1 / 2 < fraction)
    (less : fraction < 1) : IsRounded (whole + fraction) (whole + 1) := by
  have distance : |(whole + fraction : ℚ) - (whole + 1 : ℕ)| = 1 - fraction := by
    rw [abs_of_nonpos] <;> push_cast <;> linarith
  constructor <;> rw [distance]
  · linarith
  · intro tie
    linarith

theorem isRounded_tie (whole : ℕ) : IsRounded (whole + 1 / 2) (whole + whole % 2) := by
  have even : (whole + whole % 2) % 2 = 0 := by omega
  refine ⟨?_, fun _ => even⟩
  rcases Nat.mod_two_eq_zero_or_one whole with parity | parity <;> rw [parity] <;> norm_num

theorem isRounded_roundHalfEven (numerator : ℕ) {denominator : ℕ} (positive : 0 < denominator) :
    IsRounded (numerator / denominator) (roundHalfEven numerator denominator) := by
  have denominatorPos : (0 : ℚ) < denominator := by exact_mod_cast positive
  obtain ⟨quotient, quotient_eq⟩ : ∃ q, q = numerator / denominator := ⟨_, rfl⟩
  obtain ⟨remainder, remainder_eq⟩ : ∃ r, r = numerator % denominator := ⟨_, rfl⟩
  have value_eq : (numerator / denominator : ℚ) = quotient + remainder / denominator := by
    have parts : (numerator : ℚ) = quotient * denominator + remainder := by
      rw [quotient_eq, remainder_eq]
      exact_mod_cast (Nat.div_add_mod' numerator denominator).symm
    rw [parts]
    field_simp
  have less : (remainder : ℚ) / denominator < 1 := by
    rw [div_lt_one denominatorPos, remainder_eq]
    exact_mod_cast Nat.mod_lt numerator positive
  rw [value_eq, roundHalfEven]
  simp only [← quotient_eq, ← remainder_eq]
  split
  · next below =>
      apply isRounded_below (by positivity)
      rw [div_lt_div_iff₀ denominatorPos two_pos]
      exact_mod_cast (by omega : remainder * 2 < 1 * denominator)
  · split
    · next above =>
        refine isRounded_above ?_ less
        rw [div_lt_div_iff₀ two_pos denominatorPos]
        exact_mod_cast (by omega : 1 * denominator < remainder * 2)
    · have tie : (remainder : ℚ) / denominator = 1 / 2 := by
        rw [div_eq_div_iff denominatorPos.ne' two_ne_zero]
        exact_mod_cast (by omega : remainder * 2 = 1 * denominator)
      rw [tie]
      exact isRounded_tie quotient

/-! ## Powers moved into a quotient -/

theorem scale_pos {base : ℕ} (basePos : 0 < base) (numerator : ℕ) {denominator : ℕ}
    (positive : 0 < denominator) (exponent : ℤ) :
    0 < (scale base numerator denominator exponent).2 := by
  unfold scale
  split
  · exact positive
  · exact Nat.mul_pos positive (Nat.pow_pos basePos)

theorem scale_eq (base numerator denominator : ℕ) (exponent : ℤ) :
    ((scale base numerator denominator exponent).1 : ℚ) /
        (scale base numerator denominator exponent).2 =
      numerator / denominator * (base : ℚ) ^ exponent := by
  unfold scale
  split
  · next nonneg =>
      obtain ⟨power, rfl⟩ := Int.eq_ofNat_of_zero_le nonneg
      push_cast
      simp
      ring
  · next negative =>
      obtain ⟨power, power_eq⟩ := Int.eq_ofNat_of_zero_le (by omega : 0 ≤ -exponent)
      obtain rfl : exponent = -power := by omega
      simp
      ring

/-! ## Binary logarithms -/

theorem log_eq_of_bounds {value : ℚ} {exponent : ℤ} (lower : (2 : ℚ) ^ exponent ≤ value)
    (upper : value < (2 : ℚ) ^ (exponent + 1)) : Int.log 2 value = exponent := by
  have positive : 0 < value := lt_of_lt_of_le (zpow_pos two_pos exponent) lower
  have atLeast := (Int.zpow_le_iff_le_log one_lt_two positive).mp (by exact_mod_cast lower)
  have below := (Int.lt_zpow_iff_log_lt one_lt_two positive).mp (by exact_mod_cast upper)
  omega

theorem zpow_natCast_sub (first second : ℕ) :
    (2 : ℚ) ^ ((first : ℤ) - second) = 2 ^ first / 2 ^ second := by
  rw [zpow_sub₀ two_ne_zero, zpow_natCast, zpow_natCast]

/-- The logarithms of the two numbers determine that of the quotient but for one. -/
theorem bounds_of_log2 {numerator denominator : ℕ} (numeratorPos : 0 < numerator)
    (denominatorPos : 0 < denominator) :
    let estimate : ℤ := (numerator.log2 : ℤ) - denominator.log2
    (2 : ℚ) ^ (estimate - 1) ≤ numerator / denominator ∧
      (numerator / denominator : ℚ) < (2 : ℚ) ^ (estimate + 1) := by
  intro estimate
  have numeratorLower : (2 : ℚ) ^ numerator.log2 ≤ numerator := by
    exact_mod_cast Nat.log2_self_le numeratorPos.ne'
  have numeratorUpper : (numerator : ℚ) < (2 : ℚ) ^ (numerator.log2 + 1) := by
    exact_mod_cast @Nat.lt_log2_self numerator
  have denominatorLower : (2 : ℚ) ^ denominator.log2 ≤ denominator := by
    exact_mod_cast Nat.log2_self_le denominatorPos.ne'
  have denominatorUpper : (denominator : ℚ) < (2 : ℚ) ^ (denominator.log2 + 1) := by
    exact_mod_cast @Nat.lt_log2_self denominator
  have positive : (0 : ℚ) < denominator := by exact_mod_cast denominatorPos
  constructor
  · have lower_eq : estimate - 1 = (numerator.log2 : ℤ) - (denominator.log2 + 1 : ℕ) := by omega
    rw [lower_eq, zpow_natCast_sub]
    gcongr
  · have upper_eq : estimate + 1 = ((numerator.log2 + 1 : ℕ) : ℤ) - denominator.log2 := by omega
    rw [upper_eq, zpow_natCast_sub]
    gcongr

theorem floorLog2_eq {numerator denominator : ℕ} (numeratorPos : 0 < numerator)
    (denominatorPos : 0 < denominator) :
    floorLog2 numerator denominator = Int.log 2 (numerator / denominator : ℚ) := by
  obtain ⟨estimate, estimate_eq⟩ :
      ∃ k : ℤ, k = (numerator.log2 : ℤ) - denominator.log2 := ⟨_, rfl⟩
  rcases bounds_of_log2 numeratorPos denominatorPos with ⟨lower, upper⟩
  rw [← estimate_eq] at lower upper
  have ratio_eq := scale_eq 2 numerator denominator (-estimate)
  have rightPos : (0 : ℚ) < (scale 2 numerator denominator (-estimate)).2 := by
    exact_mod_cast scale_pos two_pos numerator denominatorPos (-estimate)
  have less_iff : (scale 2 numerator denominator (-estimate)).1 <
      (scale 2 numerator denominator (-estimate)).2 ↔
        (numerator / denominator : ℚ) < (2 : ℚ) ^ estimate := by
    rw [← Nat.cast_lt (α := ℚ), ← div_lt_one rightPos, ratio_eq, zpow_neg, ← div_eq_mul_inv]
    exact div_lt_one (zpow_pos two_pos estimate)
  rw [floorLog2]
  simp only [← estimate_eq, less_iff]
  split
  · next below =>
      rw [log_eq_of_bounds lower (by simpa using below)]
  · next notBelow =>
      rw [log_eq_of_bounds (not_lt.mp notBelow) upper]

/-! ## The nearest double -/

/-- The exponent of the last place of the doubles around a value. -/
def lastPlace (value : ℚ) : ℤ :=
  max (Int.log 2 value - 52) (-1074)

/-- The bits are those of the double nearest to a value that is not negative. -/
inductive IsNearest : ℚ → ℕ → Prop
  | zero : IsNearest 0 0
  | positive {value : ℚ} {mantissa : ℕ} : 0 < value →
      IsRounded (value / (2 : ℚ) ^ lastPlace value) mantissa →
      IsNearest value (min ((lastPlace value + 1074).toNat * 2 ^ 52 + mantissa) infinityBits)

theorem IsNearest.unique {value : ℚ} {first second : ℕ} (isFirst : IsNearest value first)
    (isSecond : IsNearest value second) : first = second := by
  cases isFirst with
  | zero =>
      cases isSecond with
      | zero => rfl
      | positive positive _ => exact absurd positive (lt_irrefl 0)
  | positive positive firstRounded =>
      cases isSecond with
      | zero => exact absurd positive (lt_irrefl 0)
      | positive _ secondRounded => rw [firstRounded.unique secondRounded]

theorem isNearest_nearestBits (numerator : ℕ) {denominator : ℕ} (denominatorPos : 0 < denominator) :
    IsNearest (numerator / denominator) (nearestBits numerator denominator) := by
  unfold nearestBits
  split
  · next numerator_eq =>
      rw [numerator_eq, Nat.cast_zero, zero_div]
      exact .zero
  · next nonzero =>
      have numeratorPos : 0 < numerator := Nat.pos_of_ne_zero nonzero
      have valuePos : (0 : ℚ) < numerator / denominator := by positivity
      rw [floorLog2_eq numeratorPos denominatorPos]
      refine .positive valuePos ?_
      have rounded := isRounded_roundHalfEven
        (scale 2 numerator denominator (-lastPlace (numerator / denominator))).1
        (scale_pos two_pos numerator denominatorPos (-lastPlace (numerator / denominator)))
      rw [scale_eq, zpow_neg, ← div_eq_mul_inv] at rounded
      exact_mod_cast rounded

end Number

end GrowthGrammar
