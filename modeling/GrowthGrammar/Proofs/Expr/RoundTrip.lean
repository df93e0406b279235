import GrowthGrammar.Proofs.Expr.Parsing

/-!
# Formulas and their printings

A text compiles to an expression exactly when it is a printing of it, apart from blanks around it.
-/

namespace GrowthGrammar

open Text (AllBlank Trimmed trim)

namespace Token

theorem Spaced.exists_last {tokens : List Token} {text : List Char} (spaced : Spaced tokens text) :
    ∃ token ∈ tokens, ∃ rest, text = rest ++ token.chars := by
  induction spaced with
  | @last token => exact ⟨token, List.mem_cons_self, [], rfl⟩
  | @next token spaces tokens text _ _ induction =>
      rcases induction with ⟨final, member, rest, rfl⟩
      refine ⟨final, List.mem_cons_of_mem token member, token.chars ++ spaces ++ rest, ?_⟩
      exact (List.append_assoc _ _ _).symm

/-- A text that starts like a token, from either side, does not start with a blank. -/
theorem stops_isBlank {letters : List Char} (nonempty : letters ≠ [])
    (tokenChars : ∀ c ∈ letters, IsTokenChar c) (rest : List Char) :
    Text.Stops Text.isBlank (letters ++ rest) := by
  rcases List.exists_cons_of_ne_nil nonempty with ⟨c, others, rfl⟩
  exact Text.stops_cons.mpr (tokenChars c List.mem_cons_self).isBlank_eq_false

theorem Spaced.trimmed {tokens : List Token} {text : List Char} (spaced : Spaced tokens text)
    (valid : ∀ token ∈ tokens, token.Valid) : Trimmed text := by
  constructor
  · rcases tokens with _ | ⟨first, tokens⟩
    · cases spaced
    · rcases spaced.exists_append with ⟨rest, rfl⟩
      have firstValid : first.Valid := valid first List.mem_cons_self
      exact stops_isBlank firstValid.chars_ne_nil (fun _ => firstValid.isTokenChar) rest
  · rcases spaced.exists_last with ⟨last, member, rest, rfl⟩
    have lastValid : last.Valid := valid last member
    rw [List.reverse_append]
    apply stops_isBlank
    · simpa using lastValid.chars_ne_nil
    · exact fun _ member => lastValid.isTokenChar (List.mem_reverse.mp member)

end Token

namespace Expr

/-- The tokens of the expression stand in the text, with any number of spaces between them. -/
def Prints (expr : Expr) (text : List Char) : Prop :=
  ∃ tokens, Written 1 expr tokens ∧ Token.Spaced tokens text

theorem Prints.trimmed {expr : Expr} {text : List Char} (prints : expr.Prints text) :
    Trimmed text := by
  rcases prints with ⟨tokens, written, spaced⟩
  exact spaced.trimmed written.valid

theorem ofText?_of_prints {expr : Expr} {text : List Char} (prints : expr.Prints text) :
    ofText? text = some expr := by
  rcases prints with ⟨tokens, written, spaced⟩
  rw [ofText?, Token.list?_of_spaced spaced written.valid written.separate]
  exact Parser.parse?_of_written written

theorem prints_of_ofText? {expr : Expr} {text : List Char} (trimmed : Trimmed text)
    (read : ofText? text = some expr) : expr.Prints text := by
  rcases Option.bind_eq_some_iff.mp read with ⟨tokens, listed, parsed⟩
  have nonempty : tokens ≠ [] := by
    rintro rfl
    cases parsed
  rcases Token.spaced_of_list? trimmed nonempty listed with ⟨spaced, valid⟩
  exact ⟨tokens, Parser.written_of_parse? valid parsed, spaced⟩

end Expr

namespace Formula

/-- The source of the formula is a printing of its tree, and stands in the text between blanks. -/
def StandsIn (formula : Formula) (text : String) : Prop :=
  formula.tree.Prints formula.source.toList ∧
    ∃ before after, AllBlank before ∧ AllBlank after ∧
      text.toList = before ++ formula.source.toList ++ after

theorem compile_of_standsIn {formula : Formula} {text : String} (stands : formula.StandsIn text) :
    compile text = .ok formula := by
  rcases stands with ⟨prints, before, after, blankBefore, blankAfter, text_eq⟩
  have trimmed : trim text.toList = formula.source.toList := by
    rw [text_eq, Text.trim_append blankBefore blankAfter prints.trimmed]
  simp [compile, trimmed, Expr.ofText?_of_prints prints]

theorem standsIn_of_compile {formula : Formula} {text : String}
    (compiled : compile text = .ok formula) : formula.StandsIn text := by
  unfold compile at compiled
  dsimp only at compiled
  split at compiled
  · next tree read =>
      cases compiled
      rcases Text.exists_trim text.toList with ⟨before, after, blankBefore, blankAfter, text_eq⟩
      refine ⟨?_, before, after, blankBefore, blankAfter, ?_⟩
      · simpa using Expr.prints_of_ofText? (Text.trimmed_trim text.toList) read
      · simpa using text_eq
  · cases compiled

/-- Nothing else can go wrong with an expression. -/
theorem compile_eq (text : String) :
    (∃ formula, compile text = .ok formula) ∨
      compile text = .error
        { cause := .invalidExpression
          location := { line := none, source := some (.ofList (trim text.toList)) } } := by
  unfold compile
  dsimp only
  split
  · exact .inl ⟨_, rfl⟩
  · exact .inr rfl

/-- A text compiles to the expressions that it is a printing of, and to nothing else. Every
well-formed expression has printings, and those with as few tokens as possible have parentheses
only where an operand binds less tightly than its place needs. -/
theorem compile_exact :
    (∀ (text : String) (formula : Formula),
      compile text = .ok formula ↔ formula.StandsIn text) ∧
    (∀ text : String, (∀ formula : Formula, ¬formula.StandsIn text) →
      compile text = .error
        { cause := .invalidExpression
          location := { line := none, source := some (.ofList (trim text.toList)) } }) ∧
    (∀ expr : Expr, expr.WellFormed →
      expr.Written 1 expr.tokens ∧
        ∀ tokens, expr.Written 1 tokens → expr.tokens.length ≤ tokens.length) := by
  refine ⟨fun text formula => ⟨standsIn_of_compile, compile_of_standsIn⟩, ?_, ?_⟩
  · intro text unprinted
    rcases compile_eq text with ⟨formula, compiled⟩ | refused
    · exact absurd (standsIn_of_compile compiled) (unprinted formula)
    · exact refused
  · intro expr wellFormed
    refine ⟨(Expr.written_tokens wellFormed).of_le expr.level_pos, fun tokens written => ?_⟩
    have bare : Expr.place 1 expr.level expr.tokens = expr.tokens := if_pos expr.level_pos
    exact bare ▸ Expr.length_place_le written

/-- A product of a negated name and a sum, with spaces in some places, and two numbers in a row. -/
theorem compile_exact_of_signed_product :
    let tree : Expr := .binary .mul (.signed .minus (.reference "truer"))
      (.binary .add (.number "1.e+5") (.hexadecimal "0x1F"))
    let formula : Formula := { source := "-truer*\t(1.e+5+ 0x1F)", tree }
    tree.WellFormed ∧ formula.StandsIn "\n-truer*\t(1.e+5+ 0x1F) " ∧
      compile "\n-truer*\t(1.e+5+ 0x1F) " = .ok formula ∧
      (∀ formula : Formula, ¬formula.StandsIn "1 .5 ") ∧
      compile "1 .5 " = .error
        { cause := .invalidExpression, location := { line := none, source := some "1 .5" } } := by
  rcases compile_exact with ⟨accepts, refuses, prints⟩
  intro tree formula
  have exponent : Token.IsExponent ['e', '+', '5'] :=
    .present (.inl rfl) (.inr (.inl rfl)) (by decide : Token.IsRun Text.isDigit ['5'])
  have number : Token.IsNumber "1.e+5".toList := by
    rw [(by decide : "1.e+5".toList = ['1'] ++ '.' :: [] ++ ['e', '+', '5'])]
    exact .pointed (List.forall_mem_singleton.mpr rfl) (List.forall_mem_nil _) (by decide) exponent
  have hexadecimal : Token.IsHexadecimal "0x1F".toList := by
    rw [(by decide : "0x1F".toList = ['0', 'x', '1', 'F'])]
    exact .digits (.inl rfl) (by decide)
  have wellFormed : tree.WellFormed := ⟨(by decide : _ ∧ _), number, hexadecimal⟩
  have nothing : ∀ c ∈ ([] : List Char), Token.isSpace c = true := List.forall_mem_nil _
  have tab : ∀ c ∈ ['\t'], Token.isSpace c = true := List.forall_mem_singleton.mpr rfl
  have blank : ∀ c ∈ [' '], Token.isSpace c = true := List.forall_mem_singleton.mpr rfl
  have spaced : Token.Spaced tree.tokens formula.source.toList := by
    rw [(by decide : tree.tokens = [.minus, .word ['t', 'r', 'u', 'e', 'r'], .times, .openParen,
      .number ['1', '.', 'e', '+', '5'], .plus, .hexadecimal ['0', 'x', '1', 'F'], .closeParen]),
      (by decide : formula.source.toList = ['-'] ++ [] ++ (['t', 'r', 'u', 'e', 'r'] ++ [] ++
        (['*'] ++ ['\t'] ++ (['('] ++ [] ++ (['1', '.', 'e', '+', '5'] ++ [] ++ (['+'] ++ [' '] ++
          (['0', 'x', '1', 'F'] ++ [] ++ [')'])))))))]
    exact .next nothing (.next nothing (.next tab (.next nothing (.next nothing
      (.next blank (.next nothing .last))))))
  have stands : formula.StandsIn "\n-truer*\t(1.e+5+ 0x1F) " :=
    ⟨⟨tree.tokens, (prints tree wellFormed).1, spaced⟩, ['\n'], [' '], by decide, by decide,
      by decide⟩
  have refused : compile "1 .5 " = .error
      { cause := .invalidExpression, location := { line := none, source := some "1 .5" } } := by
    decide
  have unprinted : ∀ formula : Formula, ¬formula.StandsIn "1 .5 " := by
    intro formula stands
    have compiled := (accepts _ _).mpr stands
    rw [refused] at compiled
    cases compiled
  exact ⟨wellFormed, stands, (accepts _ _).mpr stands, unprinted, refuses _ unprinted⟩

end Formula

end GrowthGrammar
