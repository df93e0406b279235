import GrowthGrammar.Grammar.Parse
import GrowthGrammar.Proofs.Expr.RoundTrip
import GrowthGrammar.Proofs.Grammar.Scanning

/-!
# Expressions as parameters

The source of a formula stands as one parameter between braces, and compiles to the formula.
-/

namespace GrowthGrammar

open RawSymbol (depthAfter IsParameter)

namespace Token

theorem Spaced.mem {tokens : List Token} {text : List Char} (spaced : Spaced tokens text) {c : Char}
    (member : c ∈ text) : isSpace c = true ∨ ∃ token ∈ tokens, c ∈ token.chars := by
  induction spaced with
  | @last token => exact .inr ⟨token, List.mem_cons_self, member⟩
  | @next token spaces tokens text space _ induction =>
      rcases List.mem_append.mp member with member | member
      · rcases List.mem_append.mp member with inToken | inSpaces
        · exact .inr ⟨token, List.mem_cons_self, inToken⟩
        · exact .inl (space c inSpaces)
      · rcases induction member with isSpace | ⟨other, otherMember, inside⟩
        · exact .inl isSpace
        · exact .inr ⟨other, List.mem_cons_of_mem token otherMember, inside⟩

theorem unreserved_of_isSpace {c : Char} (space : isSpace c = true) :
    c ≠ '{' ∧ c ≠ '}' ∧ c ≠ ',' := by
  simp only [isSpace, Bool.or_eq_true, decide_eq_true_eq] at space
  rcases space with (((rfl | rfl) | rfl) | rfl) | rfl <;> decide

theorem IsTokenChar.unreserved {c : Char} (tokenChar : IsTokenChar c) :
    c ≠ '{' ∧ c ≠ '}' ∧ c ≠ ',' := by
  refine ⟨?_, ?_, ?_⟩ <;> rintro rfl <;> rcases tokenChar with inside | mark
  · cases inside
  · exact absurd mark (by decide)
  · cases inside
  · exact absurd mark (by decide)
  · cases inside
  · exact absurd mark (by decide)

/-! How deep the text behind tokens is nested. -/

theorem foldl_depthAfter {text : List Char} (flat : ∀ c ∈ text, c ≠ '(' ∧ c ≠ ')') (depth : Int) :
    text.foldl depthAfter depth = depth := by
  induction text with
  | nil => rfl
  | cons c text induction =>
      rcases List.forall_mem_cons.mp flat with ⟨first, others⟩
      rw [List.foldl_cons, depthAfter, if_neg first.1, if_neg first.2, induction others]

/-- Spaces do not nest. -/
theorem Spaced.foldl_depthAfter {tokens : List Token} {text : List Char}
    (spaced : Spaced tokens text) (depth : Int) :
    text.foldl depthAfter depth = (tokens.flatMap chars).foldl depthAfter depth := by
  induction spaced generalizing depth with
  | last => simp
  | @next token spaces tokens text space _ induction =>
      have flat : ∀ c ∈ spaces, c ≠ '(' ∧ c ≠ ')' := by
        intro c member
        constructor <;> rintro rfl <;> exact absurd (space _ member) (by decide)
      simp [List.foldl_append, Token.foldl_depthAfter flat, induction]

theorem Valid.flat {token : Token} (valid : token.Valid) (unmarked : token.isMark = false) :
    ∀ c ∈ token.chars, c ≠ '(' ∧ c ≠ ')' := by
  have literal : ∀ c, continuesLiteral c = true → c ≠ '(' ∧ c ≠ ')' := by
    intro c inside
    constructor <;> rintro rfl <;> cases inside
  have marks : ∀ c ∈ numberMarks, c ≠ '(' ∧ c ≠ ')' := by simp [numberMarks]
  cases token with
  | number _ =>
      intro c member
      rcases IsNumber.mem valid member with digit | mark
      · exact literal c (continuesLiteral_of_isDigit digit)
      · exact marks c mark
  | hexadecimal _ => exact fun c member => literal c (IsHexadecimal.mem valid member)
  | word _ =>
      intro c member
      exact literal c (by simp [continuesLiteral, continuesWord_of_isWord valid c member])
  | plus | minus | times | divide | openParen | closeParen => cases unmarked

theorem Valid.foldl_depthAfter {token : Token} (valid : token.Valid)
    (unmarked : token.isMark = false) (depth : Int) :
    ([token].flatMap chars).foldl depthAfter depth = depth := by
  rw [List.flatMap_singleton, Token.foldl_depthAfter (valid.flat unmarked)]

end Token

namespace Expr

theorem Written.foldl_depthAfter {level : Nat} {expr : Expr} {tokens : List Token}
    (written : Written level expr tokens) (depth : Int) :
    (tokens.flatMap Token.chars).foldl depthAfter depth = depth := by
  induction written generalizing depth with
  | number valid => exact @Token.Valid.foldl_depthAfter (.number _) valid rfl depth
  | hexadecimal valid => exact @Token.Valid.foldl_depthAfter (.hexadecimal _) valid rfl depth
  | reference valid _ => exact @Token.Valid.foldl_depthAfter (.word _) valid rfl depth
  | @truth value => cases value <;> rfl
  | random => simp [Token.chars, randomWord, depthAfter]
  | group _ induction =>
      simp [List.foldl_append, Token.chars, depthAfter, induction]
  | @signed sign _ _ _ induction =>
      cases sign <;> simp [Sign.token, Token.chars, depthAfter, induction]
  | @binary operation _ _ _ _ _ _ left right =>
      cases operation <;>
        simp [Operation.token, Token.chars, depthAfter, List.foldl_append, left, right]
  | looser _ induction => exact induction depth

theorem Prints.isParameter {expr : Expr} {text : List Char} (prints : expr.Prints text) :
    IsParameter text := by
  rcases prints with ⟨tokens, written, spaced⟩
  refine ⟨?_, spaced.trimmed written.valid, ?_, ?_⟩
  · rintro rfl
    have length_le := spaced.length_le written.valid
    rw [List.length_nil, Nat.le_zero, List.length_eq_zero_iff] at length_le
    subst length_le
    cases spaced
  · intro c member
    rcases spaced.mem member with space | ⟨token, tokenMember, inside⟩
    · exact Token.unreserved_of_isSpace space
    · exact ((written.valid token tokenMember).isTokenChar inside).unreserved
  · rw [spaced.foldl_depthAfter, written.foldl_depthAfter]

end Expr

theorem compileParameter_eq_ok_iff {location : Location} {raw : String} {formula : Formula} :
    compileParameter location raw = .ok formula ↔ Formula.compile raw = .ok formula :=
  Fallible.mapError_eq_ok_iff

theorem compileParameter_source {formula : Formula}
    (prints : formula.tree.Prints formula.source.toList) (location : Location) :
    compileParameter location formula.source = .ok formula :=
  compileParameter_eq_ok_iff.mpr (Formula.compile_of_standsIn
    ⟨prints, [], [], Text.allBlank_nil, Text.allBlank_nil, (List.append_nil _).symm⟩)

end GrowthGrammar
