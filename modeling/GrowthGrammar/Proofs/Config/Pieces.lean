import GrowthGrammar.Config.Random
import GrowthGrammar.Proofs.Grammar.Brackets
import GrowthGrammar.Proofs.Grammar.Canonical
import GrowthGrammar.Proofs.Number.Format
import GrowthGrammar.Proofs.Rewrite.Balance
import GrowthGrammar.Proofs.Text.Lines

/-!
# Pieces of random successors

Pieces are the text of symbols with expressions over the one name `r`. So a row of pieces is parsed
as these symbols, and its brackets match when every branch that is opened is closed again.
-/

namespace GrowthGrammar

open Fallible RawSymbol Text

namespace RandomConfig

/-! ## Pieces as symbols -/

def literalFormula (text : String) : Formula :=
  { source := text, tree := .number text }

def widthFormula : Formula :=
  { source := "r", tree := .reference "r" }

def taperedFormula (shrink : String) : Formula :=
  { source := "r*" ++ shrink, tree := .binary .mul (.reference "r") (.number shrink) }

namespace Piece

def template : Piece → Template
  | segment length shrink =>
      { name := "l", formulas := [literalFormula length, widthFormula, taperedFormula shrink] }
  | thinSegment length shrink =>
      { name := "l"
        formulas := [literalFormula length, taperedFormula shrink, taperedFormula shrink] }
  | growth shrink => { name := "A", formulas := [taperedFormula shrink] }
  | turn sign axis none => { name := sign ++ axis, formulas := [] }
  | turn sign axis (some degrees) =>
      { name := sign ++ axis, formulas := [literalFormula (toString degrees)] }
  | openBranch => { name := "[", formulas := [] }
  | closeBranch => { name := "]", formulas := [] }

theorem toList_text (piece : Piece) : piece.text.toList = piece.template.chars := by
  match piece with
  | segment _ _ | thinSegment _ _ | growth _ | turn _ _ (some _) =>
      simp [text, template, braced, Template.chars, parameterList, literalFormula, widthFormula,
        taperedFormula, List.intercalate]
  | turn _ _ none | openBranch | closeBranch =>
      simp [text, template, Template.chars, parameterList]

end Piece

/-- The text of a number as a parameter. -/
def IsLiteral (text : String) : Prop :=
  Token.IsNumber text.toList

/-- A piece that stands within its branch: anything but a bracket. -/
inductive Leaf : Piece → Prop
  | segment {length shrink : String} : IsLiteral length → IsLiteral shrink →
      Leaf (.segment length shrink)
  | thinSegment {length shrink : String} : IsLiteral length → IsLiteral shrink →
      Leaf (.thinSegment length shrink)
  | growth {shrink : String} : IsLiteral shrink → Leaf (.growth shrink)
  | turn {sign axis : String} : sign ∈ ["+", "-"] → axis ∈ ["x", "y", "z"] →
      Leaf (.turn sign axis none)
  | turnBy {sign axis : String} (degrees : Nat) : sign ∈ ["+", "-"] → axis ∈ ["x", "y", "z"] →
      Leaf (.turn sign axis (some degrees))

/-- A row of pieces behind which all of `depth` open branches are closed, while never more than
`maxDepth` are open. -/
inductive Closes : Nat → List Piece → Prop
  | nil : Closes 0 []
  | leaf {depth : Nat} {piece : Piece} {pieces : List Piece} : Leaf piece → Closes depth pieces →
      Closes depth (piece :: pieces)
  | openBranch {depth : Nat} {pieces : List Piece} : depth < maxDepth →
      Closes (depth + 1) pieces → Closes depth (.openBranch :: pieces)
  | closeBranch {depth : Nat} {pieces : List Piece} : Closes depth pieces →
      Closes (depth + 1) (.closeBranch :: pieces)

/-! ## Expressions in pieces -/

theorem isLiteral_toString (n : Nat) : IsLiteral (toString (n : Int)) := by
  have text_eq : (toString (n : Int)).toList = decimalDigits n := by
    change (Nat.repr n).toList = _
    rw [Nat.repr, String.toList_ofList, decimalDigits]
  rw [IsLiteral, text_eq]
  exact (Number.reads_decimalDigits n).isNumber

theorem written_width : Expr.Written 4 (.reference "r") [.word ['r']] :=
  Expr.Written.ofReference (by decide) (by decide)

theorem prints_literal {text : String} (isLiteral : IsLiteral text) :
    (literalFormula text).tree.Prints text.toList :=
  ⟨[.number text.toList], (Expr.Written.number isLiteral).of_le (by decide), .last⟩

theorem prints_width : widthFormula.tree.Prints widthFormula.source.toList :=
  ⟨[.word ['r']], written_width.of_le (by decide), .last⟩

theorem prints_tapered {shrink : String} (isLiteral : IsLiteral shrink) :
    (taperedFormula shrink).tree.Prints (taperedFormula shrink).source.toList := by
  have nothing : ∀ c ∈ ([] : List Char), Token.isSpace c = true := List.forall_mem_nil _
  have product : Expr.Written 2 (taperedFormula shrink).tree
      [.word ['r'], .times, .number shrink.toList] :=
    @Expr.Written.binary .mul _ _ _ _ (written_width.of_le (by decide))
      ((Expr.Written.number isLiteral).of_le (by decide))
  have spaced := @Token.Spaced.next (.word ['r']) _ _ _ nothing
    (@Token.Spaced.next .times _ _ _ nothing (@Token.Spaced.last (.number shrink.toList)))
  refine ⟨_, product.of_le (by decide), ?_⟩
  simpa [taperedFormula, Token.chars] using spaced

theorem unbroken_of_isLiteral {text : String} (isLiteral : IsLiteral text) :
    ∀ c ∈ text.toList, endsLine c = false := by
  intro c member
  have valid : (Token.number text.toList).Valid := isLiteral
  exact endsLine_eq_false_of_visible (valid.isTokenChar member).isBlank_eq_false

/-- An expression of decimal numbers and the one name `r`, without any other word. -/
def OverWidth : Expr → Prop
  | .number _ => True
  | .reference name => name = "r"
  | .signed _ operand => OverWidth operand
  | .binary _ left right => OverWidth left ∧ OverWidth right
  | .hexadecimal _ | .truth _ | .random => False

theorem OverWidth.scoped {expr : Expr} (overWidth : OverWidth expr) : expr.Scoped ["r"] := by
  induction expr with
  | number => exact List.forall_mem_nil _
  | hexadecimal | truth | random => exact overWidth.elim
  | reference name => exact List.forall_mem_singleton.mpr (List.mem_singleton.mpr overWidth)
  | signed _ operand induction => exact induction overWidth
  | binary _ left right leftInduction rightInduction =>
      exact List.forall_mem_append.mpr
        ⟨leftInduction overWidth.1, rightInduction overWidth.2⟩

/-- The expressions of a piece are printed as they are, use the one name, and stand on one line. -/
structure Suits (formula : Formula) : Prop where
  prints : formula.tree.Prints formula.source.toList
  overWidth : OverWidth formula.tree
  unbroken : ∀ c ∈ formula.source.toList, endsLine c = false

theorem suits_literal {text : String} (isLiteral : IsLiteral text) :
    Suits (literalFormula text) :=
  ⟨prints_literal isLiteral, trivial, unbroken_of_isLiteral isLiteral⟩

theorem suits_width : Suits widthFormula :=
  ⟨prints_width, rfl, List.forall_mem_singleton.mpr rfl⟩

theorem suits_tapered {shrink : String} (isLiteral : IsLiteral shrink) :
    Suits (taperedFormula shrink) := by
  refine ⟨prints_tapered isLiteral, ⟨rfl, trivial⟩, ?_⟩
  have source_eq : (taperedFormula shrink).source.toList = 'r' :: '*' :: shrink.toList := by
    simp [taperedFormula]
  rw [source_eq]
  exact List.forall_mem_cons.mpr ⟨rfl, List.forall_mem_cons.mpr
    ⟨rfl, unbroken_of_isLiteral isLiteral⟩⟩

/-! ## Rows of pieces -/

theorem turn_cases {sign axis : String} (isSign : sign ∈ ["+", "-"])
    (isAxis : axis ∈ ["x", "y", "z"]) :
    sign ++ axis ∈ ["+x", "+y", "+z", "-x", "-y", "-z"] := by
  simp only [List.mem_cons, List.not_mem_nil, or_false] at isSign isAxis
  rcases isSign with rfl | rfl <;> rcases isAxis with rfl | rfl | rfl <;> decide

theorem isName_turn {sign axis : String} (isSign : sign ∈ ["+", "-"])
    (isAxis : axis ∈ ["x", "y", "z"]) : IsName (sign ++ axis).toList := by
  have all : ∀ name ∈ ["+x", "+y", "+z", "-x", "-y", "-z"], IsName name.toList := by decide
  exact all _ (turn_cases isSign isAxis)

theorem unbracketed_turn {sign axis : String} (isSign : sign ∈ ["+", "-"])
    (isAxis : axis ∈ ["x", "y", "z"]) :
    Symbol.opens ⟨sign ++ axis, []⟩ = false ∧ Symbol.closes ⟨sign ++ axis, []⟩ = false := by
  have all : ∀ name ∈ ["+x", "+y", "+z", "-x", "-y", "-z"],
      Symbol.opens ⟨name, []⟩ = false ∧ Symbol.closes ⟨name, []⟩ = false := by decide
  exact all _ (turn_cases isSign isAxis)

/-- The name of a piece is one, and its expressions suit it. -/
structure Written (piece : Piece) : Prop where
  name : IsName piece.template.name.toList
  formulas : ∀ formula ∈ piece.template.formulas, Suits formula

theorem Leaf.written {piece : Piece} (leaf : Leaf piece) : Written piece := by
  cases leaf with
  | segment isLength isShrink =>
      exact ⟨(by decide : IsName "l".toList), by simp [Piece.template, suits_literal isLength,
        suits_width, suits_tapered isShrink]⟩
  | thinSegment isLength isShrink =>
      exact ⟨(by decide : IsName "l".toList), by simp [Piece.template, suits_literal isLength,
        suits_tapered isShrink]⟩
  | growth isShrink =>
      exact ⟨(by decide : IsName "A".toList), by simp [Piece.template, suits_tapered isShrink]⟩
  | turn isSign isAxis =>
      exact ⟨isName_turn isSign isAxis, List.forall_mem_nil _⟩
  | turnBy degrees isSign isAxis =>
      exact ⟨isName_turn isSign isAxis,
        List.forall_mem_singleton.mpr (suits_literal (isLiteral_toString degrees))⟩

theorem Closes.written {depth : Nat} {pieces : List Piece} (closes : Closes depth pieces) :
    ∀ piece ∈ pieces, Written piece := by
  induction closes with
  | nil => exact List.forall_mem_nil _
  | leaf leaf _ induction => exact List.forall_mem_cons.mpr ⟨leaf.written, induction⟩
  | openBranch _ _ induction | closeBranch _ induction =>
      exact List.forall_mem_cons.mpr ⟨⟨by decide, List.forall_mem_nil _⟩, induction⟩

/-- The symbols of a row of pieces, without their parameters. -/
def bareWord (pieces : List Piece) : List Symbol :=
  (pieces.map Piece.template).map Template.bare

theorem Leaf.unbracketed {piece : Piece} (leaf : Leaf piece) :
    piece.template.bare.opens = false ∧ piece.template.bare.closes = false := by
  cases leaf with
  | segment | thinSegment | growth => exact ⟨rfl, rfl⟩
  | turn isSign isAxis | turnBy _ isSign isAxis => exact unbracketed_turn isSign isAxis

theorem Closes.covered {depth : Nat} {pieces : List Piece} (closes : Closes depth pieces) :
    Word.Covered depth (bareWord pieces) := by
  induction closes with
  | nil => exact Word.covered_nil 0
  | leaf leaf _ induction =>
      rcases leaf.unbracketed with ⟨notOpens, notCloses⟩
      exact induction.cons (by rw [notOpens, notCloses])
  | openBranch _ _ induction => exact induction.cons rfl
  | closeBranch _ induction => exact induction.cons rfl

theorem Closes.within {depth : Nat} {pieces : List Piece} (closes : Closes depth pieces)
    (le : depth ≤ maxDepth) : Word.Within maxDepth depth (bareWord pieces) := by
  induction closes with
  | nil => exact Word.within_nil le
  | leaf leaf _ induction =>
      rcases leaf.unbracketed with ⟨notOpens, notCloses⟩
      exact (induction le).cons (by rw [notOpens, notCloses]) le
  | openBranch below _ induction => exact (induction below).cons rfl le
  | closeBranch _ induction => exact (induction (Nat.le_of_succ_le le)).cons rfl le

theorem Closes.closings {depth : Nat} {pieces : List Piece} (closes : Closes depth pieces) :
    Word.closings (bareWord pieces) = Word.openings (bareWord pieces) + depth := by
  induction closes with
  | nil => rfl
  | leaf leaf _ induction =>
      rcases leaf.unbracketed with ⟨notOpens, notCloses⟩
      simp only [bareWord, List.map_cons, Word.openings_cons, Word.closings_cons, notOpens,
        notCloses] at induction ⊢
      exact induction
  | openBranch _ _ induction | closeBranch _ induction =>
      simp only [bareWord, List.map_cons, Word.openings_cons, Word.closings_cons] at induction ⊢
      rw [induction]
      simp [Piece.template, Template.bare, Symbol.opens, Symbol.closes]
      omega

theorem Closes.concat {depth : Nat} {pieces : List Piece} (closes : Closes depth pieces)
    {piece : Piece} (leaf : Leaf piece) : Closes depth (pieces ++ [piece]) := by
  induction closes with
  | nil => exact .leaf leaf .nil
  | leaf first _ induction => exact .leaf first induction
  | openBranch below _ induction => exact .openBranch below induction
  | closeBranch _ induction => exact .closeBranch induction

theorem closes_replicate (depth : Nat) : Closes depth (List.replicate depth .closeBranch) := by
  induction depth with
  | zero => exact .nil
  | succ depth induction => exact .closeBranch induction

/-! ## Texts of pieces -/

theorem toList_successorText (pieces : List Piece) :
    (successorText pieces).toList =
      List.intercalate [' '] ((pieces.map Piece.template).map Template.chars) := by
  have blank : " ".toList = [' '] := rfl
  have chars_eq : ∀ piece ∈ pieces,
      (String.toList ∘ Piece.text) piece = (Template.chars ∘ Piece.template) piece :=
    fun piece _ => piece.toList_text
  rw [successorText, String.toList_intercalate, blank, List.map_map, List.map_map,
    List.map_congr_left chars_eq]

section

variable {pieces : List Piece} (written : ∀ piece ∈ pieces, Written piece)

include written

theorem printable_templates : ∀ template ∈ pieces.map Piece.template, template.Printable :=
  List.forall_mem_map.mpr fun piece member =>
    ⟨(written piece member).name,
      fun formula inside => ((written piece member).formulas formula inside).prints⟩

theorem overWidth_templates : ∀ template ∈ pieces.map Piece.template,
    ∀ formula ∈ template.formulas, OverWidth formula.tree :=
  List.forall_mem_map.mpr fun piece member formula inside =>
    ((written piece member).formulas formula inside).overWidth

omit written in
theorem Written.unbroken {piece : Piece} (written : Written piece) :
    ∀ c ∈ piece.template.chars, endsLine c = false := by
  intro c member
  rcases List.mem_append.mp member with inName | inParameters
  · have nameChar := written.name.nameChar c inName
    simp only [isNameChar, Bool.and_eq_true, Bool.not_eq_true'] at nameChar
    exact endsLine_eq_false_of_visible nameChar.1.1.1
  · rw [parameterList] at inParameters
    split at inParameters
    · cases inParameters
    · rw [List.mem_append, List.mem_cons, List.mem_singleton] at inParameters
      rcases inParameters with (rfl | inside) | rfl
      · rfl
      · rcases mem_intercalate inside with separator | ⟨part, partMember, inPart⟩
        · have all : ∀ c ∈ [',', ' '], endsLine c = false :=
            List.forall_mem_cons.mpr ⟨rfl, List.forall_mem_singleton.mpr rfl⟩
          exact all c separator
        · rcases List.mem_map.mp partMember with ⟨formula, formulaMember, rfl⟩
          exact (written.formulas formula formulaMember).unbroken c inPart
      · rfl

theorem unbroken_successorText : ∀ c ∈ (successorText pieces).toList, endsLine c = false := by
  intro c member
  rw [toList_successorText] at member
  rcases mem_intercalate member with blank | ⟨part, partMember, inside⟩
  · rw [List.mem_singleton.mp blank]
    rfl
  · rcases List.mem_map.mp partMember with ⟨template, templateMember, rfl⟩
    rcases List.mem_map.mp templateMember with ⟨piece, pieceMember, rfl⟩
    exact (written piece pieceMember).unbroken c inside

/-- A rule that grows by a row of pieces is parsed on every line. -/
theorem parse_ruleText (nonempty : pieces ≠ []) (line : Option Int) :
    parseProduction (ruleText (successorText pieces)) line =
      .ok { predecessor := "A", bindings := ["r"], successor := pieces.map Piece.template, line } := by
  let production : Production :=
    { predecessor := "A", bindings := ["r"], successor := pieces.map Piece.template, line }
  have printable : production.Printable :=
    ⟨(by decide : IsName "A".toList), (by decide : splitAtArrow? "A".toList = none),
      List.forall_mem_singleton.mpr (by decide : isBindingName "r" = true),
      List.nodup_singleton "r", printable_templates written,
      fun template member formula inside =>
        (overWidth_templates written template member formula inside).scoped⟩
  have grows : production.successor ≠ [] := by simpa [production] using nonempty
  have text_eq : production.text = ruleText (successorText pieces) := by
    apply String.toList_injective
    rw [Production.text, String.toList_ofList, (printable.chars_eq_of_ne_nil grows).1]
    simp [production, ruleText, braced, toList_successorText, Production.rawLeft, RawSymbol.chars,
      parameterList]
  rw [← text_eq]
  exact printable.parse_text line

end

end RandomConfig

end GrowthGrammar
