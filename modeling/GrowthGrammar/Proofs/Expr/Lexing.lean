import GrowthGrammar.Proofs.Expr.Literal
import Mathlib.Data.List.Chain

/-!
# Token sequences

Texts in which tokens stand one after the other, and that the lexer finds exactly these tokens. Two
tokens need no space between them when one of them is a mark.
-/

namespace GrowthGrammar

namespace Token

open Text (isBlank isDigit Stops Trimmed)

def chars : Token → List Char
  | number literal => literal
  | hexadecimal literal => literal
  | word letters => letters
  | plus => ['+']
  | minus => ['-']
  | times => ['*']
  | divide => ['/']
  | openParen => ['(']
  | closeParen => [')']

def isMark : Token → Bool
  | number _ | hexadecimal _ | word _ => false
  | _ => true

/-- Literals and words are such. -/
def Valid : Token → Prop
  | number literal => IsNumber literal
  | hexadecimal literal => IsHexadecimal literal
  | word letters => isWord letters = true
  | _ => True

/-- A text of tokens with any number of spaces between them, and none at its ends. -/
inductive Spaced : List Token → List Char → Prop
  | last {token : Token} : Spaced [token] token.chars
  | next {token : Token} {spaces : List Char} {tokens : List Token} {text : List Char} :
      (∀ c ∈ spaces, isSpace c = true) → Spaced tokens text →
      Spaced (token :: tokens) (token.chars ++ spaces ++ text)

/-! ## Characters of tokens -/

def markChars : List Char :=
  ['+', '-', '*', '/', '(', ')']

def IsTokenChar (c : Char) : Prop :=
  continuesLiteral c = true ∨ c ∈ markChars

theorem range_of_continuesLiteral {c : Char} (inside : continuesLiteral c = true) :
    '.'.toNat ≤ c.toNat ∧ c.toNat ≤ 'z'.toNat := by
  simp only [continuesLiteral, continuesWord, startsWord, isDigit, Bool.or_eq_true,
    Bool.and_eq_true, decide_eq_true_eq] at inside
  rcases inside with (((lower | upper) | rfl) | digit) | rfl
  · exact ⟨Nat.le_trans (by decide) lower.1, lower.2⟩
  · exact ⟨Nat.le_trans (by decide) upper.1, Nat.le_trans upper.2 (by decide)⟩
  · decide
  · exact ⟨Nat.le_trans (by decide) digit.1, Nat.le_trans digit.2 (by decide)⟩
  · decide

theorem IsTokenChar.range {c : Char} (tokenChar : IsTokenChar c) :
    '('.toNat ≤ c.toNat ∧ c.toNat ≤ 'z'.toNat := by
  rcases tokenChar with inside | mark
  · rcases range_of_continuesLiteral inside with ⟨least, greatest⟩
    exact ⟨Nat.le_trans (by decide) least, greatest⟩
  · have all : ∀ c ∈ markChars, '('.toNat ≤ c.toNat ∧ c.toNat ≤ 'z'.toNat := by
      simp [markChars]
    exact all c mark

theorem IsTokenChar.isBlank_eq_false {c : Char} (tokenChar : IsTokenChar c) :
    isBlank c = false := by
  rcases tokenChar.range with ⟨least, greatest⟩
  simp only [Char.reduceToNat] at least greatest
  simp [isBlank, Text.isWhiteSpace]
  omega

theorem Valid.isTokenChar {token : Token} (valid : token.Valid) {c : Char}
    (member : c ∈ token.chars) : IsTokenChar c := by
  cases token with
  | number literal =>
      rcases IsNumber.mem valid member with digit | mark
      · exact .inl (continuesLiteral_of_isDigit digit)
      · have all : ∀ c ∈ numberMarks, IsTokenChar c := by
          simp [numberMarks, markChars, IsTokenChar, continuesLiteral, continuesWord, startsWord]
        exact all c mark
  | hexadecimal literal => exact .inl (IsHexadecimal.mem valid member)
  | word letters =>
      exact .inl (by simp [continuesLiteral, continuesWord_of_isWord valid c member])
  | plus | minus | times | divide | openParen | closeParen =>
      exact .inr (List.mem_singleton.mp member ▸ by decide)

theorem Valid.chars_ne_nil {token : Token} (valid : token.Valid) : token.chars ≠ [] := by
  cases token with
  | number literal => exact IsNumber.ne_nil valid
  | hexadecimal literal => cases valid; exact List.cons_ne_nil _ _
  | word letters =>
      rintro rfl
      cases valid
  | plus | minus | times | divide | openParen | closeParen => exact List.cons_ne_nil _ _

/-! ## One token -/

theorem eq_of_mark? {c : Char} {token : Token} (marked : mark? c = some token) :
    token.chars = [c] ∧ token.Valid ∧ token.isMark = true := by
  unfold mark? at marked
  split at marked <;> cases marked <;> exact ⟨rfl, trivial, rfl⟩

theorem mark?_eq_none {c : Char} (inside : continuesLiteral c = true) : mark? c = none := by
  cases marked : mark? c with
  | none => rfl
  | some token =>
      unfold mark? at marked
      split at marked <;> first | exact absurd inside (by decide) | cases marked

theorem startsWord_eq_false {c : Char} (literal : isDigit c = true ∨ c = '.') :
    startsWord c = false := by
  rcases literal with digit | rfl
  · simp only [isDigit, Bool.and_eq_true, decide_eq_true_eq, Char.reduceToNat] at digit
    have notUnderscore : c ≠ '_' := by
      rintro rfl
      exact absurd digit (by decide)
    simp [startsWord, notUnderscore]
    omega
  · rfl

theorem next?_append {token : Token} (valid : token.Valid) {rest : List Char}
    (stops : token.isMark = false → Stops continuesLiteral rest) :
    next? (token.chars ++ rest) = some (token, rest) := by
  cases token with
  | number literal =>
      have numberRead := spanNumber?_append valid (stops rfl)
      have notHexadecimal := spanHexadecimal?_number valid (stops rfl)
      have head := IsNumber.head valid
      rcases List.exists_cons_of_ne_nil valid.chars_ne_nil with ⟨c, others, rfl⟩
      have first : isDigit c = true ∨ c = '.' := head c rfl
      have inside : continuesLiteral c = true := by
        rcases first with digit | rfl
        · exact continuesLiteral_of_isDigit digit
        · rfl
      rw [List.cons_append] at numberRead notHexadecimal
      simp [chars, next?, mark?_eq_none inside, startsWord_eq_false first, notHexadecimal,
        numberRead]
  | hexadecimal literal =>
      have hexadecimalRead := spanHexadecimal?_append valid (stops rfl)
      cases valid with
      | digits marked run =>
          simp only [chars, List.cons_append] at hexadecimalRead ⊢
          simp [next?, mark?, startsWord, hexadecimalRead]
  | word letters =>
      cases letters with
      | nil => cases valid
      | cons first others =>
          have valid : startsWord first = true ∧ others.all continuesWord = true :=
            Bool.and_eq_true_iff.mp valid
          have inside : ∀ c ∈ others, continuesWord c = true := List.all_eq_true.mp valid.2
          have wordStops : Stops continuesWord rest :=
            stops_of_stops_continuesLiteral (by simp +contextual [continuesLiteral]) (stops rfl)
          have unmarked : mark? first = none :=
            mark?_eq_none (by simp [continuesLiteral, continuesWord, valid.1])
          simp [chars, next?, unmarked, valid.1, Text.takeWhile_append inside wordStops,
            Text.dropWhile_append inside wordStops]
  | plus | minus | times | divide | openParen | closeParen => rfl

theorem eq_of_next? {token : Token} {text rest : List Char}
    (read : next? text = some (token, rest)) : text = token.chars ++ rest ∧ token.Valid := by
  cases text with
  | nil => cases read
  | cons c behind =>
      simp only [next?] at read
      split at read
      · next mark marked =>
          cases read
          rcases eq_of_mark? marked with ⟨chars_eq, valid, _⟩
          exact ⟨by rw [chars_eq]; rfl, valid⟩
      · split at read
        · next letter =>
            cases read
            refine ⟨by simp [chars], Bool.and_eq_true_iff.mpr ⟨letter, ?_⟩⟩
            exact List.all_eq_true.mpr fun _ member => List.mem_takeWhile_imp member
        · split at read
          · next literal after hexadecimalRead =>
              cases read
              exact eq_of_spanHexadecimal? hexadecimalRead
          · rcases Option.map_eq_some_iff.mp read with ⟨⟨literal, after⟩, numberRead, pair_eq⟩
            cases pair_eq
            exact eq_of_spanNumber? numberRead

/-! ## All tokens -/

theorem isBlank_of_isSpace {c : Char} (space : isSpace c = true) : isBlank c = true := by
  simp only [isSpace, Bool.or_eq_true, decide_eq_true_eq] at space
  rcases space with (((rfl | rfl) | rfl) | rfl) | rfl <;> decide

theorem isSpace_eq_false_of_isBlank {c : Char} (visible : isBlank c = false) :
    isSpace c = false := by
  cases space : isSpace c with
  | false => rfl
  | true => exact absurd (isBlank_of_isSpace space) (by simp [visible])

theorem continuesLiteral_eq_false_of_isSpace {c : Char} (space : isSpace c = true) :
    continuesLiteral c = false := by
  simp only [isSpace, Bool.or_eq_true, decide_eq_true_eq] at space
  rcases space with (((rfl | rfl) | rfl) | rfl) | rfl <;> decide

/-- Of two tokens in a row one is a mark. -/
def Separate (first second : Token) : Prop :=
  first.isMark = true ∨ second.isMark = true

theorem stops_of_isMark {token : Token} (marked : token.isMark = true) (rest : List Char) :
    Stops continuesLiteral (token.chars ++ rest) := by
  cases token with
  | number _ | hexadecimal _ | word _ => cases marked
  | plus | minus | times | divide | openParen | closeParen => exact Text.stops_cons.mpr rfl

theorem listWithin_zero (text : List Char) :
    listWithin 0 text = if text.dropWhile isSpace = [] then some [] else none := by
  unfold listWithin
  cases text.dropWhile isSpace with
  | nil => rfl
  | cons c rest => rfl

theorem listWithin_succ (length : Nat) (text : List Char) :
    listWithin (length + 1) text =
      if text.dropWhile isSpace = [] then some []
      else (next? (text.dropWhile isSpace)).bind fun (token, rest) =>
        (listWithin length rest).map (token :: ·) := by
  conv_lhs => unfold listWithin
  cases text.dropWhile isSpace with
  | nil => rfl
  | cons c rest =>
      simp only [reduceCtorEq, if_false, Option.map_eq_bind]
      rfl

theorem listWithin_append {spaces : List Char} (space : ∀ c ∈ spaces, isSpace c = true)
    (length : Nat) (text : List Char) :
    listWithin length (spaces ++ text) = listWithin length text := by
  unfold listWithin
  rw [List.dropWhile_append_of_pos space]

/-- The token in front is read first. -/
theorem listWithin_chars {token : Token} (valid : token.Valid) {rest : List Char}
    (stops : token.isMark = false → Stops continuesLiteral rest) (length : Nat) :
    listWithin (length + 1) (token.chars ++ rest) =
      (listWithin length rest).map (token :: ·) := by
  have read := next?_append valid stops
  have tokenChar := @valid.isTokenChar
  rcases List.exists_cons_of_ne_nil valid.chars_ne_nil with ⟨c, others, chars_eq⟩
  rw [chars_eq] at read tokenChar ⊢
  have visible : isSpace c = false :=
    isSpace_eq_false_of_isBlank (tokenChar List.mem_cons_self).isBlank_eq_false
  rw [List.cons_append] at read ⊢
  have kept : (c :: (others ++ rest)).dropWhile isSpace = c :: (others ++ rest) :=
    List.dropWhile_cons_of_neg (by simp [visible])
  simp [listWithin_succ, kept, read]

theorem Spaced.exists_append {token : Token} {tokens : List Token} {text : List Char}
    (spaced : Spaced (token :: tokens) text) : ∃ rest, text = token.chars ++ rest := by
  cases spaced with
  | last => exact ⟨[], (List.append_nil _).symm⟩
  | @next _ spaces _ text _ _ => exact ⟨spaces ++ text, List.append_assoc _ _ _⟩

theorem Spaced.length_le {tokens : List Token} {text : List Char} (spaced : Spaced tokens text)
    (valid : ∀ token ∈ tokens, token.Valid) : tokens.length ≤ text.length := by
  induction spaced with
  | @last token =>
      exact List.length_pos_iff.mpr (valid token List.mem_cons_self).chars_ne_nil
  | @next token spaces tokens text _ _ induction =>
      rcases List.forall_mem_cons.mp valid with ⟨first, others⟩
      have positive := List.length_pos_iff.mpr first.chars_ne_nil
      have rest := induction others
      simp only [List.length_cons, List.length_append]
      omega

theorem listWithin_of_spaced {tokens : List Token} {text : List Char} (spaced : Spaced tokens text)
    (valid : ∀ token ∈ tokens, token.Valid) (separate : tokens.IsChain Separate) {length : Nat}
    (enough : tokens.length ≤ length) : listWithin length text = some tokens := by
  induction spaced generalizing length with
  | @last token =>
      rcases Nat.exists_eq_succ_of_ne_zero (Nat.ne_of_gt enough) with ⟨length, rfl⟩
      have valid : token.Valid := valid token List.mem_cons_self
      have read := listWithin_chars valid (fun _ => Text.stops_nil) length
      rw [List.append_nil] at read
      rw [read]
      cases length <;> rfl
  | @next token spaces tokens text space spaced induction =>
      rcases List.forall_mem_cons.mp valid with ⟨first, others⟩
      have positive : 0 < length := Nat.lt_of_lt_of_le (Nat.succ_pos _) enough
      rcases Nat.exists_eq_succ_of_ne_zero positive.ne' with ⟨length, rfl⟩
      have stops : token.isMark = false → Stops continuesLiteral (spaces ++ text) := by
        intro unmarked
        rcases spaces with _ | ⟨c, spaces⟩
        · rcases tokens with _ | ⟨second, tokens⟩
          · cases spaced
          · rcases spaced.exists_append with ⟨rest, rfl⟩
            have marked : second.isMark = true := by
              simpa [Separate, unmarked] using separate.rel
            exact stops_of_isMark marked rest
        · exact Text.stops_cons.mpr
            (continuesLiteral_eq_false_of_isSpace (space c List.mem_cons_self))
      rw [List.append_assoc, listWithin_chars first stops, listWithin_append space,
        induction others separate.tail (Nat.le_of_succ_le_succ enough)]
      rfl

theorem list?_of_spaced {tokens : List Token} {text : List Char} (spaced : Spaced tokens text)
    (valid : ∀ token ∈ tokens, token.Valid) (separate : tokens.IsChain Separate) :
    list? text = some tokens :=
  listWithin_of_spaced spaced valid separate (spaced.length_le valid)

/-- What the lexer accepts: spaces, or tokens with spaces around them. -/
inductive Padded : List Token → List Char → Prop
  | blank {spaces : List Char} : (∀ c ∈ spaces, isSpace c = true) → Padded [] spaces
  | around {before text after : List Char} {tokens : List Token} :
      (∀ c ∈ before, isSpace c = true) → Spaced tokens text → (∀ c ∈ after, isSpace c = true) →
      Padded tokens (before ++ text ++ after)

theorem Padded.append {spaces text : List Char} {tokens : List Token}
    (space : ∀ c ∈ spaces, isSpace c = true) (padded : Padded tokens text) :
    Padded tokens (spaces ++ text) := by
  cases padded with
  | blank others => exact .blank (List.forall_mem_append.mpr ⟨space, others⟩)
  | @around before text after _ others spaced behind =>
      have padded := Padded.around (List.forall_mem_append.mpr ⟨space, others⟩) spaced behind
      simpa using padded

theorem Padded.cons {text : List Char} {tokens : List Token} (token : Token)
    (padded : Padded tokens text) : Padded (token :: tokens) (token.chars ++ text) := by
  have nothing : ∀ c ∈ ([] : List Char), isSpace c = true := List.forall_mem_nil _
  cases padded with
  | blank spaces => exact .around nothing .last spaces
  | @around before text after _ spaces spaced behind =>
      have spacedNext : Spaced (token :: tokens) (token.chars ++ before ++ text) :=
        .next spaces spaced
      have padded := Padded.around nothing spacedNext behind
      simpa using padded

theorem padded_of_listWithin {length : Nat} {text : List Char} {tokens : List Token}
    (read : listWithin length text = some tokens) :
    Padded tokens text ∧ ∀ token ∈ tokens, token.Valid := by
  induction length generalizing text tokens with
  | zero =>
      rw [listWithin_zero] at read
      split at read
      · next nothing =>
          cases read
          exact ⟨.blank (List.dropWhile_eq_nil_iff.mp nothing), List.forall_mem_nil _⟩
      · cases read
  | succ length induction =>
      rw [listWithin_succ] at read
      split at read
      · next nothing =>
          cases read
          exact ⟨.blank (List.dropWhile_eq_nil_iff.mp nothing), List.forall_mem_nil _⟩
      · rcases Option.bind_eq_some_iff.mp read with ⟨⟨token, rest⟩, first, read⟩
        rcases Option.map_eq_some_iff.mp read with ⟨others, behind, rfl⟩
        rcases eq_of_next? first with ⟨text_eq, valid⟩
        rcases induction behind with ⟨padded, othersValid⟩
        refine ⟨?_, List.forall_mem_cons.mpr ⟨valid, othersValid⟩⟩
        have spaces : ∀ c ∈ text.takeWhile isSpace, isSpace c = true :=
          fun _ member => List.mem_takeWhile_imp member
        rw [← List.takeWhile_append_dropWhile (p := isSpace) (l := text), text_eq]
        exact (padded.cons token).append spaces

theorem spaced_of_list? {text : List Char} {tokens : List Token} (trimmed : Trimmed text)
    (nonempty : tokens ≠ []) (read : list? text = some tokens) :
    Spaced tokens text ∧ ∀ token ∈ tokens, token.Valid := by
  rcases padded_of_listWithin read with ⟨padded, valid⟩
  refine ⟨?_, valid⟩
  cases padded with
  | blank => exact absurd rfl nonempty
  | @around before core after _ spacesBefore spaced spacesAfter =>
      have start := trimmed.start
      have finish := trimmed.finish
      rw [List.append_assoc] at start
      rw [List.reverse_append] at finish
      have before_eq : before = [] :=
        start.eq_nil fun c member => isBlank_of_isSpace (spacesBefore c member)
      have after_eq : after.reverse = [] := finish.eq_nil fun c member =>
        isBlank_of_isSpace (spacesAfter c (List.mem_reverse.mp member))
      rwa [before_eq, List.reverse_eq_nil_iff.mp after_eq, List.nil_append, List.append_nil]

end Token

end GrowthGrammar
