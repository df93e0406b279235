import GrowthGrammar.Text.Lines
import Mathlib.Data.List.Basic

/-!
# Lines that are joined

Lines that stand below each other are the lines of their text.
-/

namespace GrowthGrammar.Text

theorem endsLine_eq_false_of_visible {c : Char} (visible : isBlank c = false) :
    endsLine c = false := by
  simp [isBlank, isWhiteSpace] at visible
  simp [endsLine]
  omega

theorem lines_cons {c : Char} (visible : endsLine c = false) (rest : List Char) :
    lines (c :: rest) =
      match lines rest with
      | [] => [[c]]
      | first :: others => (c :: first) :: others := by
  have notReturn : c ≠ '\r' := by
    rintro rfl
    cases visible
  rw [lines, visible]
  · rfl
  · rintro _ rfl
    exact absurd rfl notReturn

theorem lines_newline (rest : List Char) : lines ('\n' :: rest) = [] :: lines rest := by
  rw [lines]
  · rfl
  · intro _ equal
    exact absurd equal (by decide)

theorem lines_append {line : List Char} (unbroken : ∀ c ∈ line, endsLine c = false)
    (rest : List Char) : lines (line ++ '\n' :: rest) = line :: lines rest := by
  induction line with
  | nil => exact lines_newline rest
  | cons c line induction =>
      rcases List.forall_mem_cons.mp unbroken with ⟨visible, others⟩
      rw [List.cons_append, lines_cons visible, induction others]

/-- A line that holds something is the only one of its text. -/
theorem lines_self {line : List Char} (nonempty : line ≠ [])
    (unbroken : ∀ c ∈ line, endsLine c = false) : lines line = [line] := by
  induction line with
  | nil => exact absurd rfl nonempty
  | cons c line induction =>
      rcases List.forall_mem_cons.mp unbroken with ⟨visible, others⟩
      rw [lines_cons visible]
      cases line with
      | nil => rfl
      | cons second line => rw [induction (List.cons_ne_nil second line) others]

/-- Of texts without a line end only an empty one at the end is lost when they are joined. -/
theorem lines_intercalate {texts : List (List Char)}
    (unbroken : ∀ text ∈ texts, ∀ c ∈ text, endsLine c = false) :
    texts = lines (List.intercalate ['\n'] texts) ∨
      texts = lines (List.intercalate ['\n'] texts) ++ [[]] := by
  induction texts with
  | nil => exact .inl rfl
  | cons text texts induction =>
      rcases List.forall_mem_cons.mp unbroken with ⟨first, others⟩
      cases texts with
      | nil =>
          rw [List.intercalate_singleton]
          rcases text with _ | ⟨c, rest⟩
          · exact .inr rfl
          · exact .inl (lines_self (List.cons_ne_nil c rest) first).symm
      | cons second texts =>
          rw [List.intercalate_cons_cons, List.append_assoc, List.singleton_append,
            lines_append first]
          rcases induction others with whole | cut
          · exact .inl (congrArg (text :: ·) whole)
          · exact .inr (congrArg (text :: ·) cut)

end GrowthGrammar.Text
