import GrowthGrammar.Number.Format
import GrowthGrammar.Proofs.Expr.Literal
import GrowthGrammar.Proofs.Number.Binary64
import GrowthGrammar.Proofs.Number.Decimal

/-!
# Numbers that are written and read

The text of a finite parameter is a literal with the value of the parameter, perhaps behind a minus
sign, and is read as the same double. Only the sign of zero is lost.
-/

namespace GrowthGrammar

open Text (isDigit decimalDigits decimalValue padZeros Stops)

namespace Text

/-! ## Digits -/

theorem decimalValue_eq (digits : List Char) :
    decimalValue digits = Nat.ofDigitChars 10 digits 0 := by
  rw [decimalValue, digitsValue, Nat.ofDigitChars_eq_foldl, List.foldl_map]
  congr 1
  funext value digit
  rw [Nat.mul_comm]

theorem decimalValue_append (front back : List Char) :
    decimalValue (front ++ back) = decimalValue front * 10 ^ back.length + decimalValue back := by
  simp only [decimalValue_eq, Nat.ofDigitChars_append]
  rw [Nat.ofDigitChars_eq_ofDigitChars_zero]
  ring

@[simp] theorem decimalValue_replicate_zero (count : ℕ) :
    decimalValue (List.replicate count '0') = 0 := by
  simp [decimalValue_eq]

@[simp] theorem decimalValue_padZeros (width : ℕ) (digits : List Char) :
    decimalValue (padZeros width digits) = decimalValue digits := by
  simp [padZeros, decimalValue_append]

@[simp] theorem decimalValue_decimalDigits (n : ℕ) : decimalValue (decimalDigits n) = n := by
  rw [decimalValue_eq, decimalDigits, Nat.ofDigitChars_ten_toDigits]

theorem isDigit_of_mem_decimalDigits {n : ℕ} {c : Char} (member : c ∈ decimalDigits n) :
    isDigit c = true := by
  have digit := Nat.isDigit_of_mem_toDigits (by decide) (by decide) member
  simp only [Char.isDigit, Bool.and_eq_true, decide_eq_true_eq, UInt32.le_iff_toNat_le] at digit
  simpa [isDigit] using digit

theorem isDigit_of_mem_replicate {count : ℕ} {c : Char} (member : c ∈ List.replicate count '0') :
    isDigit c = true := by
  rw [List.eq_of_mem_replicate member]
  rfl

/-- Digits without the zeros at their end. -/
def dropZeros (digits : List Char) : List Char :=
  (digits.reverse.dropWhile (· == '0')).reverse

theorem exists_dropZeros_append (digits : List Char) :
    ∃ count, digits = dropZeros digits ++ List.replicate count '0' := by
  have zeros : ∀ c ∈ digits.reverse.takeWhile (· == '0'), c = '0' :=
    fun c member => by simpa using List.mem_takeWhile_imp member
  refine ⟨(digits.reverse.takeWhile (· == '0')).length, ?_⟩
  rw [dropZeros, ← List.reverse_replicate, ← List.reverse_append,
    ← List.eq_replicate_of_mem zeros, List.takeWhile_append_dropWhile, List.reverse_reverse]

end Text

namespace Number

open Token (IsExponent IsNumber IsRun)

variable {digits whole fraction exponent : List Char}

/-! ## Reading literals -/

theorem stops_of_isExponent (isExponent : IsExponent exponent) : Stops isDigit exponent := by
  have stops := Token.stops_of_isExponent (fun _ => Token.continuesLiteral_of_isDigit) ⟨rfl, rfl⟩
    isExponent Text.stops_nil
  rwa [List.append_nil] at stops

theorem ofLiteral_whole (inside : ∀ c ∈ digits, isDigit c = true)
    (isExponent : IsExponent exponent) :
    Decimal.ofLiteral (digits ++ exponent) =
      { digits := decimalValue digits, exponent := Decimal.exponentOfLiteral exponent } := by
  have stops := stops_of_isExponent isExponent
  simp only [Decimal.ofLiteral, Text.takeWhile_append inside stops,
    Text.dropWhile_append inside stops]
  cases isExponent with
  | absent => simp
  | present marked _ _ => rcases marked with rfl | rfl <;> simp

theorem ofLiteral_pointed (wholeDigits : ∀ c ∈ whole, isDigit c = true)
    (fractionDigits : ∀ c ∈ fraction, isDigit c = true) (isExponent : IsExponent exponent) :
    Decimal.ofLiteral (whole ++ '.' :: fraction ++ exponent) =
      { digits := decimalValue (whole ++ fraction)
        exponent := Decimal.exponentOfLiteral exponent - fraction.length } := by
  have pointStops : Stops isDigit ('.' :: (fraction ++ exponent)) := Text.stops_cons.mpr rfl
  have stops := stops_of_isExponent isExponent
  simp only [Decimal.ofLiteral, List.append_assoc, List.cons_append,
    Text.takeWhile_append wholeDigits pointStops, Text.dropWhile_append wholeDigits pointStops,
    Text.takeWhile_append fractionDigits stops, Text.dropWhile_append fractionDigits stops]

theorem isRun_decimalDigits (n : ℕ) : IsRun isDigit (decimalDigits n) :=
  ⟨Nat.toDigits_ne_nil, fun _ => Text.isDigit_of_mem_decimalDigits⟩

/-- The text is a literal, and denotes the value. -/
structure Reads (text : List Char) (value : ℚ) : Prop where
  isNumber : IsNumber text
  value_eq : (Decimal.ofLiteral text).value = value

theorem reads_whole (run : IsRun isDigit digits) (isExponent : IsExponent exponent) :
    Reads (digits ++ exponent)
      (decimalValue digits * (10 : ℚ) ^ Decimal.exponentOfLiteral exponent) :=
  ⟨.whole run isExponent, by rw [ofLiteral_whole run.2 isExponent, Decimal.value]⟩

theorem reads_pointed (wholeDigits : ∀ c ∈ whole, isDigit c = true)
    (fractionDigits : ∀ c ∈ fraction, isDigit c = true) (nonempty : whole ≠ [] ∨ fraction ≠ [])
    (isExponent : IsExponent exponent) :
    Reads (whole ++ '.' :: fraction ++ exponent) (decimalValue (whole ++ fraction) *
      (10 : ℚ) ^ (Decimal.exponentOfLiteral exponent - fraction.length)) :=
  ⟨.pointed wholeDigits fractionDigits nonempty isExponent, by
    rw [ofLiteral_pointed wholeDigits fractionDigits isExponent, Decimal.value]⟩

theorem reads_decimalDigits (n : ℕ) : Reads (decimalDigits n) n := by
  have reads := reads_whole (isRun_decimalDigits n) .absent
  simpa [Decimal.exponentOfLiteral] using reads

/-! ## Exponents -/

theorem isRun_padZeros (width n : ℕ) : IsRun isDigit (padZeros width (decimalDigits n)) := by
  refine ⟨List.append_ne_nil_of_right_ne_nil _ Nat.toDigits_ne_nil, fun c member => ?_⟩
  rcases List.mem_append.mp member with zero | digit
  · exact Text.isDigit_of_mem_replicate zero
  · exact Text.isDigit_of_mem_decimalDigits digit

theorem isExponent_exponentText (power : ℤ) : IsExponent (exponentText power) := by
  have run := isRun_padZeros 2 power.natAbs
  unfold exponentText
  split
  · exact .present (.inl rfl) (.inr (.inr rfl)) run
  · exact .present (.inl rfl) (.inr (.inl rfl)) run

theorem exponentOfLiteral_exponentText (power : ℤ) :
    Decimal.exponentOfLiteral (exponentText power) = power := by
  unfold exponentText
  split <;>
    simp only [Decimal.exponentOfLiteral, Text.decimalValue_padZeros,
      Text.decimalValue_decimalDigits] <;>
    omega

/-! ## Placing the point -/

theorem value_shift {n count : ℕ} {power : ℤ} :
    ((n * 10 ^ count : ℕ) : ℚ) * (10 : ℚ) ^ power = n * (10 : ℚ) ^ (count + power) := by
  rw [zpow_add₀ (by norm_num), zpow_natCast]
  push_cast
  ring

/-- The point stands in front of the digits, and zeros between. -/
theorem reads_zeros_before (run : IsRun isDigit digits) {place : ℤ} (notPositive : place ≤ 0) :
    Reads ('0' :: '.' :: List.replicate (-place).toNat '0' ++ digits)
      (decimalValue digits * (10 : ℚ) ^ (place - digits.length)) := by
  have zero : ∀ c ∈ ['0'], isDigit c = true := List.forall_mem_singleton.mpr rfl
  have fractionDigits : ∀ c ∈ List.replicate (-place).toNat '0' ++ digits, isDigit c = true :=
    List.forall_mem_append.mpr ⟨fun _ => Text.isDigit_of_mem_replicate, run.2⟩
  have reads := reads_pointed zero fractionDigits (.inl (List.cons_ne_nil _ _)) .absent
  have value_eq : decimalValue (['0'] ++ (List.replicate (-place).toNat '0' ++ digits)) =
      decimalValue digits := by
    rw [List.singleton_append, ← List.cons_append, ← List.replicate_succ, Text.decimalValue_append]
    simp
  have power_eq : Decimal.exponentOfLiteral [] -
      ((List.replicate (-place).toNat '0' ++ digits).length : ℤ) = place - digits.length := by
    rw [List.length_append, List.length_replicate, Decimal.exponentOfLiteral]
    omega
  rw [value_eq, power_eq] at reads
  simpa using reads

/-- The point stands behind all digits and zeros, with another zero behind it. -/
theorem reads_zeros_behind (run : IsRun isDigit digits) {count : ℕ}
    (atMost : digits.length ≤ count) :
    Reads (digits ++ List.replicate (count - digits.length) '0' ++ ['.', '0'])
      (decimalValue digits * (10 : ℚ) ^ ((count : ℤ) - digits.length)) := by
  have wholeDigits : ∀ c ∈ digits ++ List.replicate (count - digits.length) '0', isDigit c = true :=
    List.forall_mem_append.mpr ⟨run.2, fun _ => Text.isDigit_of_mem_replicate⟩
  have zero : ∀ c ∈ ['0'], isDigit c = true := List.forall_mem_singleton.mpr rfl
  have reads := reads_pointed wholeDigits zero (.inr (List.cons_ne_nil _ _)) .absent
  have value_eq : decimalValue (digits ++ List.replicate (count - digits.length) '0' ++ ['0']) =
      decimalValue digits * 10 ^ (count - digits.length + 1) := by
    rw [List.append_assoc, ← List.replicate_succ', Text.decimalValue_append]
    simp
  have power_eq : ((count - digits.length + 1 : ℕ) : ℤ) +
      (Decimal.exponentOfLiteral [] - (['0'].length : ℤ)) = count - digits.length := by
    rw [Decimal.exponentOfLiteral, List.length_singleton]
    omega
  rw [value_eq, value_shift, power_eq] at reads
  simpa using reads

/-- The point stands between the digits. -/
theorem reads_point_between (run : IsRun isDigit digits) {count : ℕ}
    (less : count < digits.length) :
    Reads (digits.take count ++ '.' :: digits.drop count)
      (decimalValue digits * (10 : ℚ) ^ ((count : ℤ) - digits.length)) := by
  have wholeDigits : ∀ c ∈ digits.take count, isDigit c = true :=
    fun c member => run.2 c (List.mem_of_mem_take member)
  have fractionDigits : ∀ c ∈ digits.drop count, isDigit c = true :=
    fun c member => run.2 c (List.mem_of_mem_drop member)
  have nonempty : digits.drop count ≠ [] := by simpa using less
  have reads := reads_pointed wholeDigits fractionDigits (.inr nonempty) .absent
  have power_eq : Decimal.exponentOfLiteral [] - ((digits.drop count).length : ℤ) =
      count - digits.length := by
    rw [Decimal.exponentOfLiteral, List.length_drop]
    omega
  rw [List.take_append_drop, power_eq] at reads
  simpa using reads

theorem reads_point_within (run : IsRun isDigit digits) {place : ℤ} (positive : 0 < place) :
    Reads (digits.take place.toNat ++ List.replicate (place.toNat - digits.length) '0' ++
        '.' :: if (digits.drop place.toNat).isEmpty then ['0'] else digits.drop place.toNat)
      (decimalValue digits * (10 : ℚ) ^ (place - digits.length)) := by
  obtain ⟨count, rfl⟩ := Int.eq_ofNat_of_zero_le positive.le
  rw [Int.toNat_natCast]
  split
  · next behindAll =>
      have atMost : digits.length ≤ count := by simpa using behindAll
      rw [List.take_of_length_le atMost]
      exact reads_zeros_behind run atMost
  · next within =>
      have less : count < digits.length := by simpa using within
      rw [Nat.sub_eq_zero_of_le less.le, List.replicate_zero, List.append_nil]
      exact reads_point_between run less

/-- One digit stands in front of the point, if there are others. -/
theorem reads_exponent_behind (run : IsRun isDigit digits) (place : ℤ) :
    Reads (digits.take 1 ++
        (if (digits.drop 1).isEmpty then [] else '.' :: digits.drop 1) ++ exponentText (place - 1))
      (decimalValue digits * (10 : ℚ) ^ (place - digits.length)) := by
  have isExponent := isExponent_exponentText (place - 1)
  have power_eq := exponentOfLiteral_exponentText (place - 1)
  rcases run with ⟨nonempty, inside⟩
  rcases List.exists_cons_of_ne_nil nonempty with ⟨first, others, rfl⟩
  rcases List.forall_mem_cons.mp inside with ⟨firstDigit, otherDigits⟩
  rw [List.drop_one, List.tail_cons, List.take_one, List.head?_cons, Option.toList_some]
  cases others with
  | nil =>
      have reads := reads_whole ⟨List.cons_ne_nil _ _, inside⟩ isExponent
      rw [power_eq] at reads
      simpa using reads
  | cons second others =>
      have wholeDigits : ∀ c ∈ [first], isDigit c = true := List.forall_mem_singleton.mpr firstDigit
      have reads := reads_pointed wholeDigits otherDigits (.inl (List.cons_ne_nil _ _)) isExponent
      have place_eq : place - 1 - ((second :: others).length : ℤ) =
          place - ((first :: second :: others).length : ℤ) := by
        simp only [List.length_cons]
        omega
      rw [power_eq, place_eq] at reads
      exact reads

theorem reads_placePoint (run : IsRun isDigit digits) (place : ℤ) :
    Reads (placePoint digits place)
      (decimalValue digits * (10 : ℚ) ^ (place - digits.length)) := by
  unfold placePoint
  split
  · split
    · next notPositive => exact reads_zeros_before run notPositive
    · next positive => exact reads_point_within run (not_le.mp positive)
  · exact reads_exponent_behind run place

/-- Zeros at the end are made up for by the place of the point. -/
theorem significant_spec {decimal : Decimal} (nonzero : decimal.digits ≠ 0) :
    IsRun isDigit decimal.significant.1 ∧
      decimalValue decimal.significant.1 *
          (10 : ℚ) ^ (decimal.significant.2 - decimal.significant.1.length) = decimal.value := by
  obtain ⟨digits, digits_eq⟩ : ∃ text, text = decimal.significant.1 := ⟨_, rfl⟩
  rcases Text.exists_dropZeros_append (decimalDigits decimal.digits) with ⟨count, split⟩
  change _ = decimal.significant.1 ++ _ at split
  rw [← digits_eq] at split
  have place_eq : decimal.significant.2 = digits.length + count + decimal.exponent := by
    simp [Decimal.significant, split]
  have value_eq : decimal.digits = decimalValue digits * 10 ^ count := by
    rw [← Text.decimalValue_decimalDigits decimal.digits, split]
    simp [Text.decimalValue_append]
  rw [← digits_eq, place_eq]
  refine ⟨⟨?_, fun c member => ?_⟩, ?_⟩
  · rintro rfl
    apply nonzero
    rw [value_eq]
    simp [decimalValue, Text.digitsValue]
  · have digit : c ∈ decimalDigits decimal.digits := split ▸ List.mem_append_left _ member
    exact Text.isDigit_of_mem_decimalDigits digit
  · rw [Decimal.value, value_eq, value_shift]
    congr 2
    ring

/-! ## Texts of doubles -/

variable {x : Float} {negative : Bool} {mantissa : ℕ} {power : ℤ}

theorem toFloat_eq_magnitude {decimal : Decimal}
    (nearest : IsNearest decimal.value (x.toBits.toNat % 2 ^ 63)) :
    decimal.toFloat = magnitude x := by
  rw [Decimal.toFloat, Decimal.nearestBits_eq_of_isNearest nearest, magnitude]

theorem exists_shortestChars (finite : Binary64.ofFloat x = .finite negative mantissa power) :
    ∃ text, shortestChars x = signed negative text ∧ IsNumber text ∧
      (Decimal.ofLiteral text).toFloat = magnitude x := by
  have nearest := Binary64.isNearest_of_ofBits finite
  simp only [shortestChars, finite]
  split
  · next zero =>
      have zeros : ∀ c ∈ ['0'], isDigit c = true := List.forall_mem_singleton.mpr rfl
      have reads := reads_pointed zeros zeros (.inl (List.cons_ne_nil _ _)) .absent
      have zero_eq : (Decimal.ofLiteral ['0', '.', '0']).value = 0 := by
        simp [Decimal.value, (by decide : (Decimal.ofLiteral ['0', '.', '0']).digits = 0)]
      refine ⟨['0', '.', '0'], rfl, reads.isNumber, toFloat_eq_magnitude ?_⟩
      rwa [zero_eq, ← zero_mul, ← Nat.cast_zero, ← zero]
  · next nonzero =>
      have readsBack := Decimal.nearestBits_shortest nearest
      have digits_ne : (Decimal.shortest (x.toBits.toNat % 2 ^ 63) mantissa power).digits ≠ 0 := by
        intro digits_eq
        rw [Decimal.nearestBits, if_pos digits_eq] at readsBack
        exact nonzero (Binary64.mantissa_eq_zero finite readsBack.symm)
      rcases significant_spec digits_ne with ⟨run, value_eq⟩
      have reads := reads_placePoint run
        (Decimal.shortest (x.toBits.toNat % 2 ^ 63) mantissa power).significant.2
      have isNearest := Decimal.isNearest_nearestBits
        (Decimal.shortest (x.toBits.toNat % 2 ^ 63) mantissa power)
      rw [readsBack, ← value_eq, ← reads.value_eq] at isNearest
      exact ⟨_, rfl, reads.isNumber, toFloat_eq_magnitude isNearest⟩

theorem natAbs_withSign (negative : Bool) (n : ℕ) : (withSign negative n).natAbs = n := by
  cases negative <;> simp [withSign]

theorem withSign_neg_iff (negative : Bool) (n : ℕ) :
    withSign negative n < 0 ↔ negative = true ∧ n ≠ 0 := by
  cases negative <;> simp [withSign]
  omega

theorem exists_integer (finite : Binary64.ofFloat x = .finite negative mantissa power) {n : ℤ}
    (integer : integerOf? x = some n) :
    ∃ whole : ℕ, n = withSign negative whole ∧ (whole : ℚ) = mantissa * (2 : ℚ) ^ power := by
  obtain ⟨numerator, numerator_eq⟩ : ∃ m, m = (scale 2 mantissa 1 power).1 := ⟨_, rfl⟩
  obtain ⟨denominator, denominator_eq⟩ : ∃ m, m = (scale 2 mantissa 1 power).2 := ⟨_, rfl⟩
  have ratio_eq := scale_eq 2 mantissa 1 power
  have positive := scale_pos two_pos mantissa one_pos power
  rw [← denominator_eq] at positive ratio_eq
  simp only [integerOf?, finite, ← numerator_eq, ← denominator_eq] at integer
  split at integer
  · next divides =>
      have denominator_ne : (denominator : ℚ) ≠ 0 := by exact_mod_cast positive.ne'
      refine ⟨numerator / denominator, (Option.some.inj integer).symm, ?_⟩
      rw [Nat.cast_div (Nat.dvd_of_mod_eq_zero divides) denominator_ne, numerator_eq, ratio_eq,
        Nat.cast_one, div_one, Nat.cast_two]
  · cases integer

theorem intChars_spec (finite : Binary64.ofFloat x = .finite negative mantissa power) {n : ℤ}
    (integer : integerOf? x = some n) :
    (Decimal.ofLiteral (decimalDigits n.natAbs)).toFloat = magnitude x ∧
      (n < 0 ↔ negative = true ∧ mantissa ≠ 0) := by
  rcases exists_integer finite integer with ⟨whole, rfl, whole_eq⟩
  rw [natAbs_withSign, withSign_neg_iff]
  constructor
  · apply toFloat_eq_magnitude
    rw [(reads_decimalDigits whole).value_eq, whole_eq]
    exact Binary64.isNearest_of_ofBits finite
  · have power_ne : (2 : ℚ) ^ power ≠ 0 := zpow_ne_zero power two_ne_zero
    have zero_iff : whole = 0 ↔ mantissa = 0 := by
      rw [← Nat.cast_eq_zero (R := ℚ), whole_eq, mul_eq_zero_iff_right power_ne, Nat.cast_eq_zero]
    rw [ne_eq, ne_eq, zero_iff]

/-- The double that a sign and a literal are read as. -/
def signedValue (minus : Bool) (text : List Char) : Float :=
  if minus then -(Decimal.ofLiteral text).toFloat else (Decimal.ofLiteral text).toFloat

theorem negativeZero_spec (finite : Binary64.ofFloat x = .finite true 0 power) :
    (x == magnitude x) = true ∧ parameterChars (magnitude x) = parameterChars x := by
  have opposite := eq_of_magnitude finite
  have nearest := Binary64.isNearest_of_ofBits finite
  rw [Nat.cast_zero, zero_mul] at nearest
  have zero_eq : magnitude x = .ofBits (.ofNat 0) := by rw [magnitude, nearest.unique .zero]
  rw [if_pos rfl, zero_eq] at opposite
  rw [zero_eq, ← opposite]
  decide +kernel

theorem parameterChars_eq_or (x : Float) :
    (∃ n, integerOf? x = some n ∧ parameterChars x = intChars n) ∨
      parameterChars x = shortestChars x := by
  unfold parameterChars
  cases integer : integerOf? x with
  | none => exact .inr rfl
  | some n =>
      by_cases small : n.natAbs < 10 ^ 15
      · exact .inl ⟨n, rfl, if_pos small⟩
      · exact .inr (if_neg small)

/-- The double that is read is equal to the one that was written, and has the same text. -/
theorem exists_parameterChars (finite : isFinite x = true) :
    ∃ minus text, parameterChars x = signed minus text ∧ IsNumber text ∧
      (x == signedValue minus text) = true ∧
      parameterChars (signedValue minus text) = parameterChars x := by
  cases unpacked : Binary64.ofFloat x with
  | nan | infinite _ => simp [isFinite, unpacked] at finite
  | finite negative mantissa power =>
      -- With the sign of the double, the literal is read as the double itself.
      have restored : ∀ {text : List Char},
          (Decimal.ofLiteral text).toFloat = magnitude x → signedValue negative text = x := by
        intro text read
        rw [signedValue, read, eq_of_magnitude unpacked]
      have same := beq_self unpacked
      rcases parameterChars_eq_or x with ⟨n, integer, chars_eq⟩ | chars_eq
      · have isNumber := (reads_decimalDigits n.natAbs).isNumber
        rcases intChars_spec unpacked integer with ⟨read, negative_iff⟩
        refine ⟨n < 0, decimalDigits n.natAbs, chars_eq, isNumber, ?_⟩
        by_cases zero : negative = true ∧ mantissa = 0
        · rcases zero with ⟨rfl, rfl⟩
          have unsigned : decide (n < 0) = false := by simp [negative_iff]
          rw [unsigned, signedValue, if_neg Bool.false_ne_true, read]
          exact negativeZero_spec unpacked
        · have sign_eq : decide (n < 0) = negative := by
            cases negative <;> simp_all
          rw [sign_eq, restored read]
          exact ⟨same, rfl⟩
      · rcases exists_shortestChars unpacked with ⟨text, text_eq, isNumber, read⟩
        refine ⟨negative, text, chars_eq.trans text_eq, isNumber, ?_⟩
        rw [restored read]
        exact ⟨same, rfl⟩

end Number

end GrowthGrammar
