import GrowthGrammar.Expr.Token
import GrowthGrammar.Proofs.Text.Span

/-!
# Literals

What number literals are, said without a reader, and that the reader of numbers finds exactly them.
-/

namespace GrowthGrammar

namespace Token

open Text (isDigit isHexDigit Stops)

/-- One or more characters of a kind. -/
def IsRun (kind : Char → Bool) (text : List Char) : Prop :=
  text ≠ [] ∧ ∀ c ∈ text, kind c = true

instance (kind : Char → Bool) (text : List Char) : Decidable (IsRun kind text) :=
  decidable_of_iff (text ≠ [] ∧ text.all kind = true) (Iff.rfl.and List.all_eq_true)

inductive IsExponent : List Char → Prop
  | absent : IsExponent []
  | present {mark : Char} {sign digits : List Char} : mark = 'e' ∨ mark = 'E' →
      sign = [] ∨ sign = ['+'] ∨ sign = ['-'] → IsRun isDigit digits →
      IsExponent (mark :: sign ++ digits)

/-- A decimal literal: an integer, or digits with a point that has a digit on one side at least,
and behind both perhaps an exponent. -/
inductive IsNumber : List Char → Prop
  | whole {digits exponent : List Char} : IsRun isDigit digits → IsExponent exponent →
      IsNumber (digits ++ exponent)
  | pointed {whole fraction exponent : List Char} : (∀ c ∈ whole, isDigit c = true) →
      (∀ c ∈ fraction, isDigit c = true) → whole ≠ [] ∨ fraction ≠ [] → IsExponent exponent →
      IsNumber (whole ++ '.' :: fraction ++ exponent)

inductive IsHexadecimal : List Char → Prop
  | digits {mark : Char} {digits : List Char} : mark = 'x' ∨ mark = 'X' →
      IsRun isHexDigit digits → IsHexadecimal ('0' :: mark :: digits)

/-- The characters of decimal literals beside digits. -/
def numberMarks : List Char :=
  ['.', 'e', 'E', '+', '-']

theorem IsExponent.mem {text : List Char} (isExponent : IsExponent text) {c : Char}
    (member : c ∈ text) : isDigit c = true ∨ c ∈ numberMarks := by
  cases isExponent with
  | absent => cases member
  | present marked signed run =>
      rcases List.mem_append.mp member with member | digit
      · rcases List.mem_cons.mp member with rfl | member
        · rcases marked with rfl | rfl <;> exact .inr (by decide)
        · rcases signed with rfl | rfl | rfl
          · cases member
          · exact .inr (List.mem_singleton.mp member ▸ by decide)
          · exact .inr (List.mem_singleton.mp member ▸ by decide)
      · exact .inl (run.2 c digit)

theorem IsNumber.mem {text : List Char} (number : IsNumber text) {c : Char} (member : c ∈ text) :
    isDigit c = true ∨ c ∈ numberMarks := by
  cases number with
  | whole run isExponent =>
      rcases List.mem_append.mp member with digit | member
      · exact .inl (run.2 c digit)
      · exact isExponent.mem member
  | pointed wholeDigits fractionDigits _ isExponent =>
      rcases List.mem_append.mp member with member | member
      · rcases List.mem_append.mp member with digit | member
        · exact .inl (wholeDigits c digit)
        · rcases List.mem_cons.mp member with rfl | digit
          · exact .inr List.mem_cons_self
          · exact .inl (fractionDigits c digit)
      · exact isExponent.mem member

theorem IsNumber.ne_nil {text : List Char} (number : IsNumber text) : text ≠ [] := by
  cases number with
  | whole run _ => exact List.append_ne_nil_of_left_ne_nil run.1 _
  | pointed _ _ _ _ => simp

/-- A number starts with a digit or with its point. -/
theorem IsNumber.head {text : List Char} (number : IsNumber text) :
    ∀ c ∈ text.head?, isDigit c = true ∨ c = '.' := by
  cases number with
  | @whole digits exponent run _ =>
      rcases List.exists_cons_of_ne_nil run.1 with ⟨digit, others, rfl⟩
      simpa using .inl (run.2 digit List.mem_cons_self)
  | @pointed whole fraction exponent wholeDigits _ _ _ =>
      cases whole with
      | nil => simp
      | cons digit others => simpa using .inl (wholeDigits digit List.mem_cons_self)

/-- The characters that a literal or a word can go on with. -/
def continuesLiteral (c : Char) : Bool :=
  continuesWord c || c = '.'

section

variable {text rest literal : List Char}

/-- What ends a literal ends the parts of it. -/
theorem stops_of_stops_continuesLiteral {kind : Char → Bool}
    (implies : ∀ c, kind c = true → continuesLiteral c = true)
    (stops : Stops continuesLiteral rest) : Stops kind rest := by
  intro c first
  have ends := stops c first
  cases inside : kind c with
  | false => rfl
  | true => rw [implies c inside] at ends; cases ends

theorem continuesLiteral_of_isDigit {c : Char} (digit : isDigit c = true) :
    continuesLiteral c = true := by
  simp [continuesLiteral, continuesWord, digit]

theorem spanDigits_append {digits : List Char} (inside : ∀ c ∈ digits, isDigit c = true)
    (stops : Stops isDigit rest) : spanDigits (digits ++ rest) = (digits, rest) := by
  rw [spanDigits, Text.takeWhile_append inside stops, Text.dropWhile_append inside stops]

theorem continuesWord_of_isWord {letters : List Char} (valid : isWord letters = true) :
    ∀ c ∈ letters, continuesWord c = true := by
  cases letters with
  | nil => cases valid
  | cons first others =>
      simp only [isWord, Bool.and_eq_true, List.all_eq_true] at valid
      exact List.forall_mem_cons.mpr ⟨by simp [continuesWord, valid.1], valid.2⟩

theorem continuesLiteral_of_isHexDigit {c : Char} (digit : isHexDigit c = true) :
    continuesLiteral c = true := by
  simp only [isHexDigit, Text.hexValue?] at digit
  split at digit
  · next decimal => exact continuesLiteral_of_isDigit decimal
  · have letter : startsWord c = true := by
      simp only [startsWord, Bool.or_eq_true, Bool.and_eq_true, decide_eq_true_eq]
      split at digit
      · next lower => exact .inl (.inl (by simp at lower ⊢; omega))
      · split at digit
        · next upper => exact .inl (.inr (by simp at upper ⊢; omega))
        · cases digit
    simp [continuesLiteral, continuesWord, letter]

theorem IsHexadecimal.mem (hexadecimal : IsHexadecimal text) {c : Char} (member : c ∈ text) :
    continuesLiteral c = true := by
  cases hexadecimal with
  | digits marked run =>
      rcases List.mem_cons.mp member with rfl | member
      · rfl
      · rcases List.mem_cons.mp member with rfl | digit
        · rcases marked with rfl | rfl <;> rfl
        · exact continuesLiteral_of_isHexDigit (run.2 c digit)

theorem eq_of_spanDigits {digits : List Char} (read : spanDigits text = (digits, rest)) :
    text = digits ++ rest ∧ ∀ c ∈ digits, isDigit c = true := by
  cases read
  exact ⟨List.takeWhile_append_dropWhile.symm, fun _ member => List.mem_takeWhile_imp member⟩

theorem spanExponent_append {exponent : List Char} (isExponent : IsExponent exponent)
    (stops : Stops continuesLiteral rest) : spanExponent (exponent ++ rest) = (exponent, rest) := by
  have digitsStop : Stops isDigit rest :=
    stops_of_stops_continuesLiteral (fun _ => continuesLiteral_of_isDigit) stops
  cases isExponent with
  | absent =>
      cases rest with
      | nil => rfl
      | cons c rest =>
          have ends : continuesLiteral c = false := Text.stops_cons.mp stops
          have unmarked : ¬((c = 'e' || c = 'E') = true) := by
            intro marked
            simp only [Bool.or_eq_true, decide_eq_true_eq] at marked
            rcases marked with rfl | rfl <;> cases ends
          simp [spanExponent, unmarked]
  | @present mark sign digits marked signed run =>
      have isMark : (mark = 'e' || mark = 'E') = true := by simpa using marked
      have read : spanDigits (digits ++ rest) = (digits, rest) :=
        spanDigits_append run.2 digitsStop
      rcases signed with rfl | rfl | rfl
      · rcases List.exists_cons_of_ne_nil run.1 with ⟨digit, others, rfl⟩
        have isDigit : isDigit digit = true := run.2 digit List.mem_cons_self
        have unsigned : digit ≠ '+' ∧ digit ≠ '-' := by
          constructor <;> rintro rfl <;> cases isDigit
        rw [List.cons_append] at read
        simp [spanExponent, isMark, unsigned.1, unsigned.2, read]
      · simp [spanExponent, isMark, read, run.1]
      · simp [spanExponent, isMark, read, run.1]

/-- An exponent behind its mark and its sign: without a digit there is none. -/
private theorem eq_of_spanSigned {mark : Char} {sign behind : List Char}
    (marked : mark = 'e' ∨ mark = 'E') (signed : sign = [] ∨ sign = ['+'] ∨ sign = ['-'])
    (read : (if (spanDigits behind).1.isEmpty then ([], mark :: sign ++ behind)
      else (mark :: sign ++ (spanDigits behind).1, (spanDigits behind).2)) = (literal, rest)) :
    mark :: sign ++ behind = literal ++ rest ∧ IsExponent literal := by
  cases digitsRead : spanDigits behind with
  | mk digits after =>
      rcases eq_of_spanDigits digitsRead with ⟨rfl, inside⟩
      simp only [digitsRead] at read
      split at read
      · cases read
        exact ⟨rfl, .absent⟩
      · next notEmpty =>
          cases read
          have run : IsRun isDigit digits := ⟨by simpa using notEmpty, inside⟩
          exact ⟨(List.append_assoc _ _ _).symm, .present marked signed run⟩

theorem eq_of_spanExponent (read : spanExponent text = (literal, rest)) :
    text = literal ++ rest ∧ IsExponent literal := by
  cases text with
  | nil =>
      cases read
      exact ⟨rfl, .absent⟩
  | cons mark behind =>
      by_cases isMark : (mark = 'e' || mark = 'E') = true
      · have marked : mark = 'e' ∨ mark = 'E' := by simpa using isMark
        simp only [spanExponent, isMark, if_true] at read
        split at read
        · exact eq_of_spanSigned marked (.inr (.inl rfl)) read
        · exact eq_of_spanSigned marked (.inr (.inr rfl)) read
        · exact eq_of_spanSigned marked (.inl rfl) read
      · simp only [spanExponent, isMark] at read
        cases read
        exact ⟨rfl, .absent⟩

/-- An exponent does not start like more digits or like a point. -/
theorem stops_of_isExponent {kind : Char → Bool} {exponent : List Char}
    (implies : ∀ c, kind c = true → continuesLiteral c = true)
    (unmarked : kind 'e' = false ∧ kind 'E' = false) (isExponent : IsExponent exponent)
    (stops : Stops continuesLiteral rest) : Stops kind (exponent ++ rest) := by
  cases isExponent with
  | absent => exact stops_of_stops_continuesLiteral implies stops
  | present marked _ _ =>
      rcases marked with rfl | rfl
      · exact Text.stops_cons.mpr unmarked.1
      · exact Text.stops_cons.mpr unmarked.2

theorem spanNumber?_append (number : IsNumber literal) (stops : Stops continuesLiteral rest) :
    spanNumber? (literal ++ rest) = some (literal, rest) := by
  cases number with
  | @whole digits exponent run isExponent =>
      have digitsStop : Stops isDigit (exponent ++ rest) :=
        stops_of_isExponent (fun _ => continuesLiteral_of_isDigit) ⟨rfl, rfl⟩ isExponent stops
      have pointStops : Stops (· = '.') (exponent ++ rest) :=
        stops_of_isExponent (by simp +contextual [continuesLiteral]) ⟨rfl, rfl⟩ isExponent stops
      have digitsRead := spanDigits_append run.2 digitsStop
      have exponentRead := spanExponent_append isExponent stops
      have notEmpty : digits.isEmpty = false := by simpa using run.1
      simp only [spanNumber?, List.append_assoc, digitsRead]
      split
      · next behind pointed =>
          rw [pointed] at pointStops
          cases Text.stops_cons.mp pointStops
      · simp [exponentRead, notEmpty]
  | @pointed whole fraction exponent wholeDigits fractionDigits nonempty isExponent =>
      have digitsStop : Stops isDigit (exponent ++ rest) :=
        stops_of_isExponent (fun _ => continuesLiteral_of_isDigit) ⟨rfl, rfl⟩ isExponent stops
      have wholeRead : spanDigits (whole ++ '.' :: (fraction ++ (exponent ++ rest))) =
          (whole, '.' :: (fraction ++ (exponent ++ rest))) :=
        spanDigits_append wholeDigits (Text.stops_cons.mpr rfl)
      have fractionRead := spanDigits_append fractionDigits digitsStop
      have exponentRead := spanExponent_append isExponent stops
      have notEmpty : (whole.isEmpty && fraction.isEmpty) = false := by
        rcases nonempty with nonempty | nonempty <;> simp [nonempty]
      simp only [spanNumber?, List.append_assoc, List.cons_append, wholeRead, fractionRead,
        exponentRead, notEmpty]
      rfl

theorem eq_of_spanNumber? (read : spanNumber? text = some (literal, rest)) :
    text = literal ++ rest ∧ IsNumber literal := by
  cases wholeRead : spanDigits text with
  | mk whole behindWhole =>
      rcases eq_of_spanDigits wholeRead with ⟨rfl, wholeDigits⟩
      simp only [spanNumber?, wholeRead] at read
      split at read
      · next behindPoint =>
          cases fractionRead : spanDigits behindPoint with
          | mk fraction behindFraction =>
              cases exponentRead : spanExponent behindFraction with
              | mk exponent after =>
                  rcases eq_of_spanDigits fractionRead with ⟨rfl, fractionDigits⟩
                  rcases eq_of_spanExponent exponentRead with ⟨rfl, isExponent⟩
                  simp only [fractionRead, exponentRead] at read
                  split at read
                  · cases read
                  · next nonempty =>
                      cases read
                      refine ⟨by simp, .pointed wholeDigits fractionDigits ?_ isExponent⟩
                      simpa [imp_iff_not_or] using nonempty
      · cases exponentRead : spanExponent behindWhole with
        | mk exponent after =>
            rcases eq_of_spanExponent exponentRead with ⟨rfl, isExponent⟩
            simp only [exponentRead] at read
            split at read
            · cases read
            · next nonempty =>
                cases read
                exact ⟨by simp, .whole ⟨by simpa using nonempty, wholeDigits⟩ isExponent⟩

theorem spanHexadecimal?_append (hexadecimal : IsHexadecimal literal)
    (stops : Stops continuesLiteral rest) :
    spanHexadecimal? (literal ++ rest) = some (literal, rest) := by
  cases hexadecimal with
  | @digits mark digits marked run =>
      have isMark : (mark = 'x' || mark = 'X') = true := by simpa using marked
      have digitsStop : Stops isHexDigit rest :=
        stops_of_stops_continuesLiteral (fun _ => continuesLiteral_of_isHexDigit) stops
      have notEmpty : digits.isEmpty = false := by simpa using run.1
      simp [spanHexadecimal?, isMark, Text.takeWhile_append run.2 digitsStop,
        Text.dropWhile_append run.2 digitsStop, notEmpty]

theorem eq_of_spanHexadecimal? (read : spanHexadecimal? text = some (literal, rest)) :
    text = literal ++ rest ∧ IsHexadecimal literal := by
  unfold spanHexadecimal? at read
  split at read
  · next mark behind =>
      dsimp only at read
      split at read
      · next accepted =>
          cases read
          simp only [Bool.and_eq_true, Bool.or_eq_true, decide_eq_true_eq] at accepted
          refine ⟨by simp, .digits accepted.1 ⟨by simpa using accepted.2, fun _ member => ?_⟩⟩
          exact List.mem_takeWhile_imp member
      · cases read
  · cases read

/-- No number looks like a hexadecimal literal, whatever it is followed by. -/
theorem spanHexadecimal?_number (number : IsNumber literal) (stops : Stops continuesLiteral rest) :
    spanHexadecimal? (literal ++ rest) = none := by
  unfold spanHexadecimal?
  split
  · next mark behind text_eq =>
      have unmarked : ¬(mark = 'x' ∨ mark = 'X') := by
        intro marked
        match literal with
        | [] =>
            have ends : continuesLiteral '0' = false := stops '0' (by simp_all)
            cases ends
        | [_] =>
            have ends : continuesLiteral mark = false := stops mark (by simp_all)
            rcases marked with rfl | rfl <;> cases ends
        | _ :: second :: _ =>
            have same : second = mark := by simp_all
            have known := number.mem (c := mark) (by simp [same])
            rcases marked with rfl | rfl <;> simp [isDigit, numberMarks] at known
      simp [unmarked]
  · rfl

end

end Token

end GrowthGrammar
