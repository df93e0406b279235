import GrowthGrammar.Proofs.Wavefront.Numerals

/-!
# Numbers in a file

The text of a double is that of the nearest number of units of the last place, behind a minus sign
if the double is below zero. So numbers that are rounded alike are written alike, but for what is
rounded to zero from below; and what is read is within half a unit of the double.
-/

namespace GrowthGrammar

open Text (decimalDigits padZeros dropZeros)

namespace Wavefront

open Number

/-! ## Units of the last place -/

/-- The text of a number of units of the last place. -/
def unitsChars (places units : ℕ) : List Char :=
  stripZeros (insertPoint places (decimalDigits units))

/-- The text is a numeral, and leaving out zeros keeps the value. -/
theorem exists_unitsChars (places units : ℕ) :
    ∃ numeral : Numeral, unitsChars places units = numeral.chars ∧ numeral.negative = false ∧
      numeral.number = units * (10 : ℚ) ^ (-(places : ℤ)) := by
  rcases exists_numeral false places units with ⟨numeral, unsigned, chars_eq, number_eq⟩
  refine ⟨numeral.stripped, ?_, unsigned, numeral.number_stripped.trans number_eq⟩
  rw [← numeral.stripZeros_chars, chars_eq]
  rfl

theorem minus_not_mem_unitsChars (places units : ℕ) : '-' ∉ unitsChars places units := by
  rcases exists_unitsChars places units with ⟨numeral, text_eq, unsigned, _⟩
  rw [text_eq]
  exact numeral.minus_not_mem_chars unsigned

theorem reads_unitsChars (places units : ℕ) :
    Reads (unitsChars places units) (units * (10 : ℚ) ^ (-(places : ℤ))) := by
  rcases exists_unitsChars places units with ⟨numeral, text_eq, unsigned, number_eq⟩
  rw [text_eq, ← number_eq]
  exact numeral.reads_chars unsigned

theorem unitsChars_inj {places first second : ℕ} :
    unitsChars places first = unitsChars places second ↔ first = second := by
  refine ⟨fun equal => ?_, congrArg _⟩
  have value_eq := (reads_unitsChars places first).value_eq
  rw [equal, (reads_unitsChars places second).value_eq] at value_eq
  have nonzero : (10 : ℚ) ^ (-(places : ℤ)) ≠ 0 := zpow_ne_zero _ (by norm_num)
  exact_mod_cast (mul_left_injective₀ nonzero value_eq).symm

theorem unitsChars_zero (places : ℕ) : unitsChars places 0 = ['0'] := by
  have padded_eq : padZeros (places + 1) (decimalDigits 0) = '0' :: List.replicate places '0' :=
    List.replicate_succ'.symm
  have dropped : dropZeros (List.replicate places '0') = [] := by
    simp [dropZeros]
  rw [unitsChars, insertPoint, padded_eq, List.length_cons, List.length_replicate,
    Nat.add_sub_cancel_left]
  split
  · rfl
  · show stripZeros (['0'] ++ '.' :: List.replicate places '0') = ['0']
    rw [stripZeros_pointed fun _ => Text.isDigit_of_mem_replicate, dropped]
    rfl

/-! ## Texts of doubles -/

theorem signed_inj {first second : Bool} {text other : List Char} (unsigned : '-' ∉ text)
    (otherUnsigned : '-' ∉ other) :
    signed first text = signed second other ↔ first = second ∧ text = other := by
  cases first <;> cases second
  · simp [signed]
  · simp only [signed, if_true, Bool.false_eq_true, false_and, iff_false]
    rintro rfl
    exact unsigned List.mem_cons_self
  · simp only [signed, if_true, Bool.true_eq_false, false_and, iff_false]
    rintro rfl
    exact otherUnsigned List.mem_cons_self
  · simp [signed]

section

variable {x y : Float} {places : ℕ} {units others : ℤ}

theorem numberText_eq (finite : isFinite x = true)
    (rounds : RoundsTo (value x * 10 ^ places) units) :
    numberText places x = .ofList (signed (value x < 0) (unitsChars places units.natAbs)) := by
  rcases exists_normalised finite with ⟨mantissa, exponent, unpacked, value_eq⟩
  rw [← value_eq, roundsTo_iff unpacked] at rounds
  rw [numberText, numberChars, fixedChars_eq unpacked, stripZeros_signed, ← rounds,
    natAbs_withSign, unitsChars]

theorem ofList_signed_inj {first second : Bool} {units others : ℕ} :
    String.ofList (signed first (unitsChars places units)) =
        .ofList (signed second (unitsChars places others)) ↔
      first = second ∧ units = others := by
  rw [String.ofList_inj, signed_inj (minus_not_mem_unitsChars _ _) (minus_not_mem_unitsChars _ _),
    unitsChars_inj]

/-- A number is not rounded to the other side of zero. -/
theorem neg_iff_units_neg (rounds : RoundsTo (value x * 10 ^ places) units) (nonzero : units ≠ 0) :
    value x < 0 ↔ units < 0 := by
  have scalePos : (0 : ℚ) < 10 ^ places := pow_pos (by norm_num) places
  constructor
  · intro negative
    exact lt_of_le_of_ne (rounds.nonpos (mul_neg_of_neg_of_pos negative scalePos).le) nonzero
  · intro unitsNegative
    by_contra nonneg
    have unitsNonneg := rounds.nonneg (mul_nonneg (not_lt.mp nonneg) scalePos.le)
    omega

/-- Two numbers that are rounded to the same number of units are written alike, unless they are
rounded to zero and just one of them is below zero: that one is written as zero with a sign. Numbers
that are rounded differently are written differently. -/
theorem numberText_eq_iff (xFinite : isFinite x = true) (yFinite : isFinite y = true)
    (xRounds : RoundsTo (value x * 10 ^ places) units)
    (yRounds : RoundsTo (value y * 10 ^ places) others) :
    (numberText places x = "-0" ↔ units = 0 ∧ value x < 0) ∧
      (numberText places x = numberText places y ↔
        units = others ∧ (units = 0 → (value x < 0 ↔ value y < 0))) := by
  have negativeZero : "-0" = String.ofList (signed true (unitsChars places 0)) := by
    rw [unitsChars_zero]
    rfl
  rw [numberText_eq xFinite xRounds, numberText_eq yFinite yRounds, negativeZero,
    ofList_signed_inj, ofList_signed_inj, decide_eq_true_iff, decide_eq_decide]
  refine ⟨by rw [Int.natAbs_eq_zero, and_comm], ?_⟩
  by_cases zero : units = 0
  · subst zero
    have magnitude_eq : Int.natAbs 0 = others.natAbs ↔ 0 = others := by omega
    rw [magnitude_eq, and_comm, forall_prop_of_true rfl]
  · -- Other than zero, the number of units has a sign of its own, and the text shows both.
    rw [neg_iff_units_neg xRounds zero]
    constructor
    · rintro ⟨sameSign, magnitude_eq⟩
      rw [neg_iff_units_neg yRounds (by omega)] at sameSign
      omega
    · rintro ⟨rfl, _⟩
      exact ⟨(neg_iff_units_neg yRounds zero).symm, rfl⟩

/-- Two numbers beside zero, and two that are both written as 2.67. -/
theorem numberText_eq_iff_of_neighbours :
    (RoundsTo (value (-0.000001) * 10 ^ 5) 0 ∧ RoundsTo (value 0.000001 * 10 ^ 5) 0 ∧
      numberText 5 (-0.000001) = "-0" ∧ numberText 5 (-0.000001) ≠ numberText 5 0.000001) ∧
    RoundsTo (value 2.675 * 10 ^ 2) 267 ∧ RoundsTo (value 2.67 * 10 ^ 2) 267 ∧
      numberText 2 2.675 = numberText 2 2.67 := by
  have below : Binary64.ofFloat (-0.000001) = .finite true 4722366482869645 (-72) := by
    decide +kernel
  have above : Binary64.ofFloat 0.000001 = .finite false 4722366482869645 (-72) := by
    decide +kernel
  have belowRounds : RoundsTo (value (-0.000001) * 10 ^ 5) 0 :=
    (roundsTo_iff below).mpr (by decide)
  have aboveRounds : RoundsTo (value 0.000001 * 10 ^ 5) 0 := (roundsTo_iff above).mpr (by decide)
  have negative : value (-0.000001) < 0 := (value_neg_iff below).mpr (by decide)
  have positive : ¬value 0.000001 < 0 := mt (value_neg_iff above).mp (by decide)
  rcases numberText_eq_iff (by decide +kernel) (by decide +kernel) belowRounds aboveRounds with
    ⟨zero_iff, alike_iff⟩
  have midway : Binary64.ofFloat 2.675 = .finite false 6023564501608038 (-51) := by decide +kernel
  have exact : Binary64.ofFloat 2.67 = .finite false 6012305502539612 (-51) := by decide +kernel
  have midwayRounds : RoundsTo (value 2.675 * 10 ^ 2) 267 :=
    (roundsTo_iff midway).mpr (by decide)
  have exactRounds : RoundsTo (value 2.67 * 10 ^ 2) 267 := (roundsTo_iff exact).mpr (by decide)
  have alike := (numberText_eq_iff (by decide +kernel) (by decide +kernel) midwayRounds
    exactRounds).2.mpr ⟨rfl, nofun⟩
  refine ⟨⟨belowRounds, aboveRounds, zero_iff.mpr ⟨rfl, negative⟩, fun equal => ?_⟩,
    midwayRounds, exactRounds, alike⟩
  exact positive (((alike_iff.mp equal).2 rfl).mp negative)

/-- Zero has two texts: of two numbers that are rounded to it the one below zero has a sign. -/
theorem numberText_of_small :
    isFinite (-0.000001) = true ∧ isFinite 0.000001 = true ∧
      RoundsTo (value (-0.000001) * 10 ^ 5) 0 ∧ RoundsTo (value 0.000001 * 10 ^ 5) 0 ∧
      numberText 5 (-0.000001) = "-0" ∧ numberText 5 0.000001 = "0" := by
  have below : Binary64.ofFloat (-0.000001) = .finite true 4722366482869645 (-72) := by
    decide +kernel
  have above : Binary64.ofFloat 0.000001 = .finite false 4722366482869645 (-72) := by
    decide +kernel
  exact ⟨by decide +kernel, by decide +kernel, (roundsTo_iff below).mpr (by decide),
    (roundsTo_iff above).mpr (by decide), by decide +kernel, by decide +kernel⟩

end

/-! ## Texts with all places -/

/-- The digits in front of the point in the text of a number of units of the last place. -/
def wholeDigits (places units : ℕ) : List Char :=
  digitsBeforePoint (insertPoint places (decimalDigits units))

section

variable {x : Float}

/-- The text with all places is a numeral for the nearest number of units. -/
theorem exists_numeral_fixedChars {negative : Bool} {mantissa : ℕ} {exponent : ℤ}
    (finite : Binary64.ofFloat x = .finite negative mantissa exponent) (places : ℕ) :
    ∃ (numeral : Numeral) (units : ℤ), numeral.chars = fixedChars places x ∧
      RoundsTo (value x * 10 ^ places) units ∧
      numeral.number = units * (10 : ℚ) ^ (-(places : ℤ)) ∧
      digitsBeforePoint numeral.chars = wholeDigits places units.natAbs := by
  rcases exists_numeral negative places (nearestUnits places mantissa exponent) with
    ⟨numeral, _, chars_eq, number_eq⟩
  refine ⟨numeral, withSign negative (nearestUnits places mantissa exponent), ?_, ?_, number_eq, ?_⟩
  · rw [chars_eq, fixedChars_eq finite]
  · exact (roundsTo_iff finite).mpr rfl
  · rw [chars_eq, digitsBeforePoint_signed, natAbs_withSign, wholeDigits]

/-- The text of a finite double denotes the number that its text with all places denotes. This is
the nearest multiple of a unit of the last place, so whoever reads the text is within half a unit of
the double. -/
theorem numberText_shortens_fixed (finite : isFinite x = true) (places : ℕ) :
    ∃ units : ℤ, RoundsTo (value x * 10 ^ places) units ∧
      Shortens (numberText places x).toList (fixed places x).toList
        (units * (10 : ℚ) ^ (-(places : ℤ))) ∧
      ∀ number, Denotes (numberText places x).toList number →
        |number - value x| ≤ 1 / 2 * (10 : ℚ) ^ (-(places : ℤ)) := by
  cases unpacked : Binary64.ofFloat x with
  | nan | infinite _ => simp [isFinite, unpacked] at finite
  | finite negative mantissa exponent =>
      rcases exists_normalised finite with ⟨_, _, normalised, value_eq⟩
      rcases exists_numeral_fixedChars unpacked places with
        ⟨full, units, full_eq, rounds, fullNumber, fullDigits⟩
      rcases exists_numeral_fixedChars normalised places with
        ⟨numeral, others, chars_eq, otherRounds, number_eq, digits_eq⟩
      -- Zero without its sign is the same number.
      rw [value_eq] at otherRounds
      obtain rfl := rounds.unique otherRounds
      have text_eq : (numberText places x).toList = numeral.stripped.chars := by
        rw [numberText, String.toList_ofList, numberChars, ← chars_eq, numeral.stripZeros_chars]
      have shortens := numeral.shortens_stripped
      rw [number_eq] at shortens
      rw [text_eq, fixed, String.toList_ofList, ← full_eq]
      refine ⟨units, rounds, ?_, fun number denotes => ?_⟩
      · exact { shortens with
          denotes_full := fullNumber ▸ full.denotes
          digits_eq := by rw [shortens.digits_eq, digits_eq, fullDigits] }
      · rw [denotes.unique shortens.denotes]
        exact rounds.near_units

/-- A hundred keeps its zeros with no place and with five, and 2.675 loses one behind its point. -/
theorem numberText_shortens_fixed_of_hundred :
    (isFinite 100 = true ∧ Shortens "100".toList "100".toList (100 * 10 ^ (-(0 : ℤ))) ∧
      Shortens "100".toList "100.00000".toList (10000000 * 10 ^ (-(5 : ℤ)))) ∧
    isFinite 2.675 = true ∧ Shortens "2.675".toList "2.6750".toList (26750 * 10 ^ (-(4 : ℤ))) ∧
      |26750 * 10 ^ (-(4 : ℤ)) - value 2.675| ≤ 1 / 2 * (10 : ℚ) ^ (-(4 : ℤ)) := by
  have hundredFinite : isFinite 100 = true := by decide +kernel
  have midwayFinite : isFinite 2.675 = true := by decide +kernel
  have hundred : Binary64.ofFloat 100 = .finite false 7036874417766400 (-46) := by decide +kernel
  have midway : Binary64.ofFloat 2.675 = .finite false 6023564501608038 (-51) := by decide +kernel
  rcases numberText_shortens_fixed hundredFinite 0 with ⟨whole, wholeRounds, wholeShortens, _⟩
  rcases numberText_shortens_fixed hundredFinite 5 with ⟨units, rounds, shortens, _⟩
  rcases numberText_shortens_fixed midwayFinite 4 with
    ⟨fraction, fractionRounds, fractionShortens, near⟩
  obtain rfl : whole = 100 := wholeRounds.unique ((roundsTo_iff hundred).mpr (by decide))
  obtain rfl : units = 10000000 := rounds.unique ((roundsTo_iff hundred).mpr (by decide))
  obtain rfl : fraction = 26750 := fractionRounds.unique ((roundsTo_iff midway).mpr (by decide))
  have texts : numberText 0 100 = "100" ∧ fixed 0 100 = "100" ∧ numberText 5 100 = "100" ∧
      fixed 5 100 = "100.00000" ∧ numberText 4 2.675 = "2.675" ∧ fixed 4 2.675 = "2.6750" := by
    decide +kernel
  simp only [texts] at wholeShortens shortens fractionShortens near
  have near := near _ fractionShortens.denotes
  exact ⟨⟨hundredFinite, by exact_mod_cast wholeShortens, by exact_mod_cast shortens⟩,
    midwayFinite, by exact_mod_cast fractionShortens, by exact_mod_cast near⟩

end

end Wavefront

end GrowthGrammar
