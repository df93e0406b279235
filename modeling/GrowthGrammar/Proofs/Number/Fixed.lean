import Mathlib.Data.List.Basic
import GrowthGrammar.Number.Format

/-!
# Characters of numbers

The text of a number has digits, a sign, a point, or the letters of what is no number.
-/

namespace GrowthGrammar

namespace Number

/-- The characters beside digits. -/
def marks : List Char :=
  ['-', '.', 'n', 'a', 'i', 'f']

def IsNumeric (c : Char) : Prop :=
  c.isDigit ∨ c ∈ marks

theorem IsNumeric.ne_space {c : Char} (numeric : IsNumeric c) : c ≠ ' ' ∧ c ≠ '\n' := by
  constructor
  · rintro rfl
    simp [IsNumeric, marks] at numeric
  · rintro rfl
    simp [IsNumeric, marks] at numeric

theorem isNumeric_of_mem_decimalDigits {n : Nat} {c : Char} (member : c ∈ Text.decimalDigits n) :
    IsNumeric c :=
  .inl (Nat.isDigit_of_mem_toDigits (by decide) (by decide) member)

/-- Different numbers have different digits. -/
theorem eq_of_toDigits_eq {first second : Nat}
    (equal : Nat.toDigits 10 first = Nat.toDigits 10 second) : first = second := by
  calc
    first = Nat.ofDigitChars 10 (Nat.toDigits 10 first) 0 := Nat.ofDigitChars_ten_toDigits.symm
    _ = Nat.ofDigitChars 10 (Nat.toDigits 10 second) 0 := by rw [equal]
    _ = second := Nat.ofDigitChars_ten_toDigits

theorem isNumeric_of_mem_padZeros {width : Nat} {digits : List Char}
    (numeric : ∀ c ∈ digits, IsNumeric c) : ∀ c ∈ Text.padZeros width digits, IsNumeric c := by
  intro c member
  rcases List.mem_append.mp member with zero | digit
  · rw [List.eq_of_mem_replicate zero]
    exact .inl (by decide)
  · exact numeric c digit

theorem isNumeric_of_mem_insertPoint {places : Nat} {digits : List Char}
    (numeric : ∀ c ∈ digits, IsNumeric c) : ∀ c ∈ insertPoint places digits, IsNumeric c := by
  have padded : ∀ c ∈ Text.padZeros (places + 1) digits, IsNumeric c :=
    isNumeric_of_mem_padZeros numeric
  intro c member
  unfold insertPoint at member
  dsimp only at member
  split at member
  · exact padded c (List.mem_of_mem_take member)
  · rcases List.mem_append.mp member with whole | fraction
    · exact padded c (List.mem_of_mem_take whole)
    · rcases List.mem_cons.mp fraction with rfl | digit
      · exact .inr (by decide)
      · exact padded c (List.mem_of_mem_drop digit)

theorem isNumeric_of_mem_signed {negative : Bool} {text : List Char}
    (numeric : ∀ c ∈ text, IsNumeric c) : ∀ c ∈ signed negative text, IsNumeric c := by
  intro c member
  unfold signed at member
  split at member
  · rcases List.mem_cons.mp member with rfl | other
    · exact .inr (by decide)
    · exact numeric c other
  · exact numeric c member

theorem isNumeric_of_mem_specialText (special : Binary64) :
    ∀ c ∈ specialText special, IsNumeric c := by
  have letters : ['n', 'a', 'n'] ⊆ marks ∧ ['i', 'n', 'f'] ⊆ marks := by decide
  cases special with
  | nan => exact fun c member => .inr (letters.1 member)
  | infinite negative => exact isNumeric_of_mem_signed fun c member => .inr (letters.2 member)
  | finite negative mantissa exponent => exact fun c member => absurd member List.not_mem_nil

theorem isNumeric_of_mem_fixedChars {places : Nat} {x : Float} :
    ∀ c ∈ fixedChars places x, IsNumeric c := by
  intro c member
  unfold fixedChars at member
  split at member
  · exact isNumeric_of_mem_signed
      (isNumeric_of_mem_insertPoint fun c digit => isNumeric_of_mem_decimalDigits digit) c member
  · exact isNumeric_of_mem_specialText _ c member

end Number

end GrowthGrammar
