import GrowthGrammar.Expr.Parse
import GrowthGrammar.Proofs.Expr.Lexing

/-!
# Printed expressions

The token sequences that stand for an expression. Parentheses may stand around every part of it,
and must stand where an operand binds less tightly than its place needs.
-/

namespace GrowthGrammar

def Sign.token : Sign → Token
  | plus => .plus
  | minus => .minus

def Operation.token : Operation → Token
  | add => .plus
  | sub => .minus
  | mul => .times
  | div => .divide

theorem Operation.level_pos (operation : Operation) : 1 ≤ operation.level := by
  cases operation <;> decide

theorem Operation.level_le (operation : Operation) : operation.level ≤ 2 := by
  cases operation <;> decide

@[simp] theorem Sign.isMark_token (sign : Sign) : sign.token.isMark = true := by
  cases sign <;> rfl

@[simp] theorem Operation.isMark_token (operation : Operation) : operation.token.isMark = true := by
  cases operation <;> rfl

theorem Token.valid_of_isMark {token : Token} (marked : token.isMark = true) : token.Valid := by
  cases token with
  | number _ | hexadecimal _ | word _ => cases marked
  | plus | minus | times | divide | openParen | closeParen => trivial

namespace Expr

open Token (IsNumber IsHexadecimal isWord Separate)

/-- All literals are such, and all names are words without a meaning of their own. -/
def WellFormed : Expr → Prop
  | number literal => IsNumber literal.toList
  | hexadecimal literal => IsHexadecimal literal.toList
  | truth _ => True
  | random => True
  | reference name => isWord name.toList = true ∧ name.toList ∉ Token.reserved
  | signed _ operand => operand.WellFormed
  | binary _ left right => left.WellFormed ∧ right.WellFormed

def truthWord : Bool → List Char
  | true => ['t', 'r', 'u', 'e']
  | false => ['f', 'a', 'l', 's', 'e']

def randomWord : List Char :=
  ['r', 'a', 'n', 'd', 'o', 'm']

/-- The tokens stand for the expression at a place that needs a level of binding: 1 for the
operands of a sum, 2 for those of a product, 3 behind a sign, and 4 where nothing but a literal, a
word or a group can stand. The operations associate to the left, so that the right operand needs a
level more. -/
inductive Written : Nat → Expr → List Token → Prop
  | number {literal : String} : IsNumber literal.toList →
      Written 4 (.number literal) [.number literal.toList]
  | hexadecimal {literal : String} : IsHexadecimal literal.toList →
      Written 4 (.hexadecimal literal) [.hexadecimal literal.toList]
  | truth {value : Bool} : Written 4 (.truth value) [.word (truthWord value)]
  | random : Written 4 .random [.word randomWord, .openParen, .closeParen]
  | reference {name : String} : isWord name.toList = true → name.toList ∉ Token.reserved →
      Written 4 (.reference name) [.word name.toList]
  | group {expr : Expr} {tokens : List Token} : Written 1 expr tokens →
      Written 4 expr (.openParen :: tokens ++ [.closeParen])
  | signed {sign : Sign} {operand : Expr} {tokens : List Token} : Written 3 operand tokens →
      Written 3 (.signed sign operand) (sign.token :: tokens)
  | binary {operation : Operation} {left right : Expr} {leftTokens rightTokens : List Token} :
      Written operation.level left leftTokens →
      Written (operation.level + 1) right rightTokens →
      Written operation.level (.binary operation left right)
        (leftTokens ++ operation.token :: rightTokens)
  | looser {level : Nat} {expr : Expr} {tokens : List Token} : Written (level + 1) expr tokens →
      Written level expr tokens

namespace Written

variable {level : Nat} {expr : Expr} {tokens : List Token}

theorem of_le {lower : Nat} (written : Written level expr tokens) (le : lower ≤ level) :
    Written lower expr tokens := by
  induction level with
  | zero => exact Nat.le_zero.mp le ▸ written
  | succ level induction =>
      rcases Nat.le_or_eq_of_le_succ le with less | rfl
      · exact induction written.looser less
      · exact written

/-! Literals and names that are given by their characters. -/

theorem ofNumber {literal : List Char} (isNumber : IsNumber literal) :
    Written 4 (.number (.ofList literal)) [.number literal] := by
  have written := @Written.number (.ofList literal) (by rwa [String.toList_ofList])
  rwa [String.toList_ofList] at written

theorem ofHexadecimal {literal : List Char} (isHexadecimal : IsHexadecimal literal) :
    Written 4 (.hexadecimal (.ofList literal)) [.hexadecimal literal] := by
  have written := @Written.hexadecimal (.ofList literal) (by rwa [String.toList_ofList])
  rwa [String.toList_ofList] at written

theorem ofReference {letters : List Char} (valid : isWord letters = true)
    (free : letters ∉ Token.reserved) :
    Written 4 (.reference (.ofList letters)) [.word letters] := by
  have written := @Written.reference (.ofList letters) (by rwa [String.toList_ofList])
    (by rwa [String.toList_ofList])
  rwa [String.toList_ofList] at written

theorem wellFormed (written : Written level expr tokens) : expr.WellFormed := by
  induction written with
  | number valid | hexadecimal valid => exact valid
  | truth | random => trivial
  | reference valid free => exact ⟨valid, free⟩
  | group _ induction | signed _ induction | looser _ induction => exact induction
  | binary _ _ left right => exact ⟨left, right⟩

theorem valid (written : Written level expr tokens) : ∀ token ∈ tokens, token.Valid := by
  induction written with
  | number valid | hexadecimal valid => simpa [Token.Valid] using valid
  | @truth value => cases value <;> simp [truthWord, Token.Valid, isWord] <;> decide
  | random => simp [randomWord, Token.Valid, isWord]; decide
  | reference valid _ => simpa [Token.Valid] using valid
  | group _ induction =>
      have marks : Token.openParen.Valid ∧ Token.closeParen.Valid := ⟨trivial, trivial⟩
      exact List.forall_mem_cons.mpr ⟨marks.1,
        List.forall_mem_append.mpr ⟨induction, List.forall_mem_singleton.mpr marks.2⟩⟩
  | @signed sign _ _ _ induction =>
      exact List.forall_mem_cons.mpr ⟨Token.valid_of_isMark sign.isMark_token, induction⟩
  | @binary operation _ _ _ _ _ _ left right =>
      have mark := Token.valid_of_isMark operation.isMark_token
      exact List.forall_mem_append.mpr ⟨left, List.forall_mem_cons.mpr ⟨mark, right⟩⟩
  | looser _ induction => exact induction

private theorem separate_cons {mark : Token} (marked : mark.isMark = true) {back : List Token}
    (backSeparate : back.IsChain Separate) : (mark :: back).IsChain Separate :=
  List.isChain_cons.mpr ⟨fun _ _ => .inl marked, backSeparate⟩

/-- A mark can stand between any two tokens. -/
private theorem separate_append {mark : Token} (marked : mark.isMark = true)
    {front back : List Token} (frontSeparate : front.IsChain Separate)
    (backSeparate : back.IsChain Separate) : (front ++ mark :: back).IsChain Separate := by
  refine List.isChain_append.mpr ⟨frontSeparate, separate_cons marked backSeparate, ?_⟩
  intro last _ first isFirst
  cases isFirst
  exact .inr marked

theorem separate (written : Written level expr tokens) : tokens.IsChain Separate := by
  induction written with
  | number | hexadecimal | truth | reference => exact .singleton _
  | random => exact @separate_append .openParen rfl [_] [_] (.singleton _) (.singleton _)
  | group _ induction =>
      exact separate_cons rfl (separate_append rfl induction .nil)
  | @signed sign _ _ _ induction =>
      exact separate_cons sign.isMark_token induction
  | @binary operation _ _ _ _ _ _ left right =>
      exact separate_append operation.isMark_token left right
  | looser _ induction => exact induction

end Written

/-! ## Printing with as few parentheses as possible -/

/-- How tightly an expression binds when it stands without parentheses. -/
def level : Expr → Nat
  | binary operation _ _ => operation.level
  | signed _ _ => 3
  | _ => 4

/-- Parentheses around tokens that bind at one level, at a place that needs another. -/
def place (needed level : Nat) (tokens : List Token) : List Token :=
  if needed ≤ level then tokens else .openParen :: tokens ++ [.closeParen]

def tokens : Expr → List Token
  | number literal => [.number literal.toList]
  | hexadecimal literal => [.hexadecimal literal.toList]
  | truth value => [.word (truthWord value)]
  | random => [.word randomWord, .openParen, .closeParen]
  | reference name => [.word name.toList]
  | signed sign operand => sign.token :: place 3 operand.level operand.tokens
  | binary operation left right =>
      place operation.level left.level left.tokens ++
        operation.token :: place (operation.level + 1) right.level right.tokens

theorem level_pos (expr : Expr) : 1 ≤ expr.level := by
  cases expr with
  | binary operation _ _ => exact operation.level_pos
  | number | hexadecimal | truth | random | reference | signed => simp [level]

theorem written_place {needed : Nat} {expr : Expr} {tokens : List Token}
    (written : Written expr.level expr tokens) (le : needed ≤ 4) :
    Written needed expr (place needed expr.level tokens) := by
  unfold place
  split
  · next enough => exact written.of_le enough
  · exact (Written.group (written.of_le expr.level_pos)).of_le le

/-- A well-formed expression can be printed. -/
theorem written_tokens {expr : Expr} (wellFormed : expr.WellFormed) :
    Written expr.level expr expr.tokens := by
  induction expr with
  | number literal => exact .number wellFormed
  | hexadecimal literal => exact .hexadecimal wellFormed
  | truth value => exact .truth
  | random => exact .random
  | reference name => exact .reference wellFormed.1 wellFormed.2
  | signed sign operand induction =>
      exact .signed (written_place (induction wellFormed) (by decide))
  | binary operation left right leftInduction rightInduction =>
      have least := operation.level_le
      exact .binary (written_place (leftInduction wellFormed.1) (by omega))
        (written_place (rightInduction wellFormed.2) (by omega))

theorem length_place_mono {needed more level : Nat} (le : needed ≤ more) (tokens : List Token) :
    (place needed level tokens).length ≤ (place more level tokens).length := by
  unfold place
  split <;> split <;> simp <;> omega

/-- No printing of an expression has fewer tokens, and so none has fewer parentheses. -/
theorem length_place_le {needed : Nat} {expr : Expr} {tokens : List Token}
    (written : Written needed expr tokens) :
    (place needed expr.level expr.tokens).length ≤ tokens.length := by
  induction written with
  | number | hexadecimal | truth | random | reference => simp [place, level, Expr.tokens]
  | @group expr tokens _ induction =>
      have bare : place 1 expr.level expr.tokens = expr.tokens := if_pos expr.level_pos
      rw [bare] at induction
      unfold place
      split <;> simp <;> omega
  | signed _ induction => simpa [place, level, Expr.tokens] using induction
  | binary _ _ left right =>
      simp only [place, level, Expr.tokens, Nat.le_refl, if_true, List.length_append,
        List.length_cons] at left right ⊢
      omega
  | looser _ induction => exact Nat.le_trans (length_place_mono (Nat.le_succ _) _) induction

end Expr

end GrowthGrammar
