import GrowthGrammar.Proofs.Number.Places
import GrowthGrammar.Wavefront

/-!
# Numerals without needless zeros

A numeral has a sign, digits, and perhaps more digits behind a point. Without the zeros at the end
of its fraction it denotes the same number, and has the same digits in front of the point.
-/

namespace GrowthGrammar

open Text (isDigit decimalDigits decimalValue dropZeros)

namespace Number

/-! ## What a text denotes -/

/-- The text is a literal for the number, or a minus sign and a literal for its opposite. -/
inductive Denotes : List Char → ℚ → Prop
  | plain {text : List Char} {number : ℚ} : Reads text number → Denotes text number
  | minus {text : List Char} {number : ℚ} : Reads text number → Denotes ('-' :: text) (-number)

theorem not_reads_minus {text : List Char} {number : ℚ} : ¬Reads ('-' :: text) number := by
  intro reads
  rcases reads.isNumber.head '-' rfl with digit | point
  · cases digit
  · cases point

/-- A text denotes one number at most. -/
theorem Denotes.unique {text : List Char} {first second : ℚ} (isFirst : Denotes text first)
    (isSecond : Denotes text second) : first = second := by
  cases isFirst with
  | plain reads =>
      cases isSecond with
      | plain others => exact reads.value_eq.symm.trans others.value_eq
      | minus others => exact absurd reads not_reads_minus
  | minus reads =>
      cases isSecond with
      | plain others => exact absurd others not_reads_minus
      | minus others => rw [← reads.value_eq, ← others.value_eq]

theorem Reads.denotes_signed {text : List Char} {units : ℕ} {power : ℚ}
    (reads : Reads text (units * power)) (negative : Bool) :
    Denotes (signed negative text) (withSign negative units * power) := by
  cases negative with
  | false => simpa [signed, withSign] using Denotes.plain reads
  | true => simpa [signed, withSign] using Denotes.minus reads

/-- The digits of a text up to its point. -/
def digitsBeforePoint (text : List Char) : List Char :=
  (text.takeWhile (· != '.')).filter isDigit

/-- A sign is no digit. -/
theorem digitsBeforePoint_signed (negative : Bool) (text : List Char) :
    digitsBeforePoint (signed negative text) = digitsBeforePoint text := by
  cases negative with
  | false => rfl
  | true =>
      show ('-' :: text.takeWhile (· != '.')).filter isDigit = _
      rw [List.filter_cons_of_neg (by decide), digitsBeforePoint]

/-- The text denotes the same number as a longer one, with the same digits in front of the point and
nothing at its end that does not count. -/
structure Shortens (text full : List Char) (number : ℚ) : Prop where
  denotes_full : Denotes full number
  denotes : Denotes text number
  nonempty : text ≠ []
  last_ne_point : text.getLast? ≠ some '.'
  last_ne_zero : '.' ∈ text → text.getLast? ≠ some '0'
  digits_eq : digitsBeforePoint text = digitsBeforePoint full

end Number

namespace Wavefront

open Number

/-! ## Leaving out zeros -/

/-- A point and the digits behind it, if there are any. -/
def pointed (digits : List Char) : List Char :=
  if digits = [] then [] else '.' :: digits

theorem stripZeros_of_not_mem {text : List Char} (unpointed : '.' ∉ text) :
    stripZeros text = text := by
  rw [stripZeros, if_neg (by simpa using unpointed)]

/-- What stands in front of the point is kept. -/
theorem stripZeros_pointed {front fraction : List Char}
    (digits : ∀ c ∈ fraction, isDigit c = true) :
    stripZeros (front ++ '.' :: fraction) = front ++ pointed (dropZeros fraction) := by
  have reverse_eq :
      (front ++ '.' :: fraction).reverse = fraction.reverse ++ '.' :: front.reverse := by
    simp
  rw [stripZeros, if_pos (by simp), reverse_eq, List.dropWhile_append, dropZeros]
  cases kept : fraction.reverse.dropWhile (· == '0') with
  | nil => simp [pointed]
  | cons last others =>
      have member : last ∈ fraction.reverse.dropWhile (· == '0') := by
        rw [kept]
        exact List.mem_cons_self
      have digit : isDigit last = true :=
        digits last (List.mem_reverse.mp ((List.dropWhile_sublist _).mem member))
      have different : last ≠ '.' := by
        rintro rfl
        cases digit
      simp [pointed, different]

/-- A sign is not reached from the end. -/
theorem stripZeros_signed (negative : Bool) (text : List Char) :
    stripZeros (signed negative text) = signed negative (stripZeros text) := by
  cases negative with
  | false => rfl
  | true =>
      have contains_eq : ('-' :: text).contains '.' = text.contains '.' := by simp
      show stripZeros ('-' :: text) = '-' :: stripZeros text
      rw [stripZeros, stripZeros, contains_eq, List.reverse_cons, List.dropWhile_append]
      split
      · cases kept : text.reverse.dropWhile (· == '0') with
        | nil => rfl
        | cons last others =>
            by_cases point : last = '.'
            · simp [point]
            · simp [point]
      · rfl

/-! ## Numerals -/

structure Numeral where
  negative : Bool
  whole : List Char
  fraction : List Char
  nonempty : whole ≠ []
  digits : ∀ c ∈ whole ++ fraction, isDigit c = true

namespace Numeral

variable (numeral : Numeral)

def chars : List Char :=
  signed numeral.negative (numeral.whole ++ pointed numeral.fraction)

/-- The number in units of the last place. -/
def units : ℕ :=
  decimalValue (numeral.whole ++ numeral.fraction)

def number : ℚ :=
  withSign numeral.negative numeral.units * (10 : ℚ) ^ (-(numeral.fraction.length : ℤ))

/-- Without its sign a numeral is a literal. -/
theorem reads : Reads (numeral.whole ++ pointed numeral.fraction)
    (numeral.units * (10 : ℚ) ^ (-(numeral.fraction.length : ℤ))) := by
  rcases List.forall_mem_append.mp numeral.digits with ⟨wholeDigits, fractionDigits⟩
  rw [pointed, units]
  split
  · next absent =>
      rw [absent]
      simpa [Decimal.exponentOfLiteral] using reads_whole ⟨numeral.nonempty, wholeDigits⟩ .absent
  · simpa [Decimal.exponentOfLiteral] using
      reads_pointed wholeDigits fractionDigits (.inl numeral.nonempty) .absent

theorem denotes : Denotes numeral.chars numeral.number :=
  numeral.reads.denotes_signed numeral.negative

theorem reads_chars (unsigned : numeral.negative = false) : Reads numeral.chars numeral.number := by
  rw [chars, number, unsigned]
  exact numeral.reads

theorem isDigit_of_mem_whole {c : Char} (member : c ∈ numeral.whole) : isDigit c = true :=
  numeral.digits c (List.mem_append_left _ member)

theorem point_not_mem_whole : '.' ∉ numeral.whole := fun member => by
  cases numeral.isDigit_of_mem_whole member

theorem minus_not_mem_chars (unsigned : numeral.negative = false) : '-' ∉ numeral.chars := by
  have notDigit : '-' ∉ numeral.whole ++ numeral.fraction := fun member => by
    cases numeral.digits '-' member
  rw [List.mem_append, not_or] at notDigit
  rw [chars, unsigned, signed, if_neg Bool.false_ne_true, pointed]
  split
  · simp [notDigit.1]
  · simp [notDigit]

theorem chars_ne_nil : numeral.chars ≠ [] := by
  rw [chars, signed]
  split
  · exact List.cons_ne_nil _ _
  · exact List.append_ne_nil_of_left_ne_nil numeral.nonempty _

/-- The last character is a digit, of the fraction if there is one. -/
theorem getLast?_chars : numeral.chars.getLast? = (numeral.whole ++ numeral.fraction).getLast? := by
  have unsigned : (numeral.whole ++ pointed numeral.fraction).getLast? =
      (numeral.whole ++ numeral.fraction).getLast? := by
    by_cases absent : numeral.fraction = []
    · simp [pointed, absent]
    · rw [pointed, if_neg absent, List.getLast?_append_cons, List.getLast?_cons_of_ne_nil absent,
        List.getLast?_append_of_ne_nil _ absent]
  have nonempty : numeral.whole ++ pointed numeral.fraction ≠ [] :=
    List.append_ne_nil_of_left_ne_nil numeral.nonempty _
  rw [chars, signed, ← unsigned]
  split
  · exact List.getLast?_cons_of_ne_nil nonempty
  · rfl

theorem point_mem_chars : '.' ∈ numeral.chars ↔ numeral.fraction ≠ [] := by
  have signed_iff : '.' ∈ numeral.chars ↔ '.' ∈ numeral.whole ++ pointed numeral.fraction := by
    rw [chars, signed]
    split <;> simp
  rw [signed_iff, List.mem_append, pointed]
  split
  · next absent => simp [numeral.point_not_mem_whole, absent]
  · next present => simp [present]

theorem digitsBeforePoint_chars : digitsBeforePoint numeral.chars = numeral.whole := by
  have beforePoint : (numeral.whole ++ pointed numeral.fraction).takeWhile (· != '.') =
      numeral.whole := by
    have unpointed : ∀ c ∈ numeral.whole, (c != '.') = true := by
      intro c member
      rw [bne_iff_ne]
      rintro rfl
      exact numeral.point_not_mem_whole member
    rw [List.takeWhile_append_of_pos unpointed, pointed]
    split <;> simp
  rw [chars, digitsBeforePoint_signed, digitsBeforePoint, beforePoint]
  exact List.filter_eq_self.mpr fun _ => numeral.isDigit_of_mem_whole

/-! ## Numerals without zeros at their end -/

/-- The numeral without the zeros at the end of its fraction. -/
def stripped : Numeral where
  negative := numeral.negative
  whole := numeral.whole
  fraction := dropZeros numeral.fraction
  nonempty := numeral.nonempty
  digits := by
    rcases Text.exists_dropZeros_append numeral.fraction with ⟨zeros, fraction_eq⟩
    intro c member
    apply numeral.digits
    rw [fraction_eq, ← List.append_assoc]
    exact List.mem_append_left _ member

theorem stripZeros_chars : stripZeros numeral.chars = numeral.stripped.chars := by
  have stripped_eq : stripZeros (numeral.whole ++ pointed numeral.fraction) =
      numeral.whole ++ pointed (dropZeros numeral.fraction) := by
    rcases List.forall_mem_append.mp numeral.digits with ⟨_, fractionDigits⟩
    by_cases absent : numeral.fraction = []
    · simpa [absent, pointed, dropZeros] using stripZeros_of_not_mem numeral.point_not_mem_whole
    · rw [← stripZeros_pointed fractionDigits, pointed, if_neg absent]
  rw [chars, stripZeros_signed, stripped_eq]
  rfl

/-- Zeros at the end of the places do not count. -/
theorem value_zeros (n kept zeros : ℕ) :
    ((n * 10 ^ zeros : ℕ) : ℚ) * (10 : ℚ) ^ (-((kept + zeros : ℕ) : ℤ)) =
      n * (10 : ℚ) ^ (-(kept : ℤ)) := by
  rw [value_shift]
  congr 2
  push_cast
  ring

theorem withSign_mul_congr (negative : Bool) {units others : ℕ} {power otherPower : ℚ}
    (equal : (units : ℚ) * power = others * otherPower) :
    (withSign negative units : ℚ) * power = withSign negative others * otherPower := by
  cases negative <;> simpa [withSign] using equal

theorem number_stripped : numeral.stripped.number = numeral.number := by
  rcases Text.exists_dropZeros_append numeral.fraction with ⟨zeros, fraction_eq⟩
  have units_eq : numeral.units = numeral.stripped.units * 10 ^ zeros := by
    rw [units, fraction_eq, ← List.append_assoc, Text.decimalValue_append]
    simp [units, stripped]
  have length_eq : numeral.fraction.length = numeral.stripped.fraction.length + zeros := by
    conv_lhs => rw [fraction_eq]
    simp [stripped]
  have magnitude_eq := value_zeros numeral.stripped.units numeral.stripped.fraction.length zeros
  rw [← units_eq, ← length_eq] at magnitude_eq
  exact withSign_mul_congr numeral.negative magnitude_eq.symm

theorem getLast?_dropZeros (digits : List Char) : (dropZeros digits).getLast? ≠ some '0' := by
  rw [dropZeros, List.getLast?_reverse]
  intro zero
  have nonzero := List.head?_dropWhile_not (· == '0') digits.reverse
  rw [zero] at nonzero
  cases nonzero

/-- Leaving out zeros keeps the number and the digits in front of the point. -/
theorem shortens_stripped : Shortens numeral.stripped.chars numeral.chars numeral.number where
  denotes_full := numeral.denotes
  denotes := numeral.number_stripped ▸ numeral.stripped.denotes
  nonempty := numeral.stripped.chars_ne_nil
  last_ne_point := by
    rw [getLast?_chars]
    intro point
    cases numeral.stripped.digits '.' (List.mem_of_getLast? point)
  last_ne_zero := by
    rw [point_mem_chars, getLast?_chars]
    intro present
    rw [List.getLast?_append_of_ne_nil _ present]
    exact getLast?_dropZeros numeral.fraction
  digits_eq := by
    rw [digitsBeforePoint_chars, digitsBeforePoint_chars]
    rfl

end Numeral

/-! ## Numbers of units -/

theorem exists_numeral (negative : Bool) (places units : ℕ) :
    ∃ numeral : Numeral, numeral.negative = negative ∧
      numeral.chars = signed negative (insertPoint places (decimalDigits units)) ∧
      numeral.number = withSign negative units * (10 : ℚ) ^ (-(places : ℤ)) := by
  rcases exists_insertPoint places units with
    ⟨whole, fraction, padded_eq, nonempty, length_eq, text_eq⟩
  have units_eq : decimalValue (whole ++ fraction) = units := by
    rw [← padded_eq, Text.decimalValue_padZeros, Text.decimalValue_decimalDigits]
  have absent_iff : places = 0 ↔ fraction = [] := by
    rw [← length_eq, List.length_eq_zero_iff]
  refine ⟨⟨negative, whole, fraction, nonempty, ?_⟩, rfl, ?_, ?_⟩
  · rw [← padded_eq]
    exact (isRun_padZeros _ _).2
  · rw [text_eq, Numeral.chars, pointed]
    split
    · next absent => simp [absent_iff.mpr absent]
    · next present => simp [mt absent_iff.mp present]
  · rw [Numeral.number, Numeral.units, units_eq, length_eq]

end Wavefront

end GrowthGrammar
