import GrowthGrammar.Grammar.Parse
import GrowthGrammar.Proofs.Grammar.Parameter
import GrowthGrammar.Proofs.Number.Format

/-!
# Words that are written and parsed

The text of a sequence of symbols is parsed as a sequence of symbols that are equal to them.
-/

namespace GrowthGrammar

open Fallible Number RawSymbol
open Text (AllBlank)

/-! ## Parameters -/

/-- A literal with a minus sign in front, or by itself. -/
def Expr.ofSigned (minus : Bool) (text : List Char) : Expr :=
  if minus then .signed .minus (.number (.ofList text)) else .number (.ofList text)

theorem Expr.prints_ofSigned {text : List Char} (isNumber : Token.IsNumber text) (minus : Bool) :
    (Expr.ofSigned minus text).Prints (Number.signed minus text) := by
  have number := Written.ofNumber isNumber
  cases minus with
  | false => exact ⟨[.number text], number.of_le (by decide), .last⟩
  | true =>
      have nothing : ∀ c ∈ ([] : List Char), Token.isSpace c = true := List.forall_mem_nil _
      have negated := @Written.signed .minus _ _ number.looser
      exact ⟨[.minus, .number text], negated.of_le (by decide), .next nothing .last⟩

theorem Expr.constant?_ofSigned (minus : Bool) (text : List Char) :
    (Expr.ofSigned minus text).constant? = some (signedValue minus text) := by
  have value_eq : numberValue (.ofList text) = (Decimal.ofLiteral text).toFloat := by
    rw [numberValue, String.toList_ofList]
  cases minus <;> rw [signedValue, ← value_eq] <;> rfl

/-- The text of a finite number is a parameter, and as such a constant. -/
theorem exists_constantParameter {x : Float} (finite : isFinite x = true) :
    IsParameter (parameterChars x) ∧ ∀ location, ∃ y,
      constantParameter location (.ofList (parameterChars x)) = .ok y ∧
        (x == y) = true ∧ parameterChars y = parameterChars x := by
  rcases exists_parameterChars finite with ⟨minus, text, chars_eq, isNumber, equal, again⟩
  have prints := Expr.prints_ofSigned isNumber minus
  rw [chars_eq] at again ⊢
  refine ⟨prints.isParameter, fun location => ⟨signedValue minus text, ?_, equal, again⟩⟩
  let formula : Formula :=
    { source := .ofList (signed minus text), tree := .ofSigned minus text }
  have printsSource : formula.tree.Prints formula.source.toList := by
    rwa [String.toList_ofList]
  refine bind_eq_ok_iff.mpr ⟨formula, compileParameter_source printsSource location, ?_⟩
  rw [Expr.constant?_ofSigned]
  rfl

/-- A word reads as a name, and stands as a parameter also with a minus sign in front. -/
theorem isParameter_signed {letters : List Char} (valid : Token.isWord letters = true)
    (free : letters ∉ Token.reserved) (minus : Bool) :
    IsParameter (Number.signed minus letters) := by
  have reference := Expr.Written.ofReference valid free
  cases minus with
  | false => exact Expr.Prints.isParameter ⟨[.word letters], reference.of_le (by decide), .last⟩
  | true =>
      have nothing : ∀ c ∈ ([] : List Char), Token.isSpace c = true := List.forall_mem_nil _
      have negated := @Expr.Written.signed .minus _ _ reference.looser
      exact Expr.Prints.isParameter
        ⟨[.minus, .word letters], negated.of_le (by decide), .next nothing .last⟩

/-- The text of any number stands as a parameter; that of a special one is a word. -/
theorem isParameter_parameterChars (x : Float) : IsParameter (parameterChars x) := by
  cases finite : isFinite x with
  | true => exact (exists_constantParameter finite).1
  | false =>
      rw [isFinite] at finite
      rw [parameterChars, integerOf?, shortestChars]
      cases unpacked : Binary64.ofFloat x with
      | nan => exact isParameter_signed (by decide) (by decide) false
      | infinite negative => exact isParameter_signed (by decide) (by decide) negative
      | finite negative mantissa exponent =>
          rw [unpacked] at finite
          cases finite

/-! ## Symbols -/

namespace Symbol

/-- The name is a name, and all parameters are finite. -/
structure Printable (symbol : Symbol) : Prop where
  name : IsName symbol.name.toList
  finite : ∀ x ∈ symbol.parameters, isFinite x = true

instance (symbol : Symbol) : Decidable symbol.Printable :=
  decidable_of_iff (IsName symbol.name.toList ∧ symbol.parameters.all isFinite = true)
    ⟨fun ⟨name, all⟩ => ⟨name, List.all_eq_true.mp all⟩,
      fun ⟨name, finite⟩ => ⟨name, List.all_eq_true.mpr finite⟩⟩

/-- The names are the same, and the parameters equal as numbers. -/
structure Equal (symbol other : Symbol) : Prop where
  name : other.name = symbol.name
  parameters : List.Forall₂ (fun x y => (x == y) = true) symbol.parameters other.parameters

def raw (symbol : Symbol) : RawSymbol :=
  { name := symbol.name, parameters := symbol.parameters.map fun x => .ofList (parameterChars x) }

theorem chars_eq (symbol : Symbol) : symbol.chars = symbol.raw.chars := by
  simp [Symbol.chars, RawSymbol.chars, raw, Function.comp_def]

theorem plain_raw {symbol : Symbol} (isName : IsName symbol.name.toList) : symbol.raw.Plain := by
  refine ⟨isName, fun parameter member => ?_⟩
  rcases List.mem_map.mp member with ⟨x, _, rfl⟩
  rw [String.toList_ofList]
  exact isParameter_parameterChars x

end Symbol

theorem toList_symbolsText (symbols : List Symbol) :
    (symbolsText symbols).toList =
      List.intercalate [' '] ((symbols.map Symbol.raw).map RawSymbol.chars) := by
  have blank : " ".toList = [' '] := rfl
  have chars_eq : ∀ symbol ∈ symbols,
      (String.toList ∘ Symbol.text) symbol = (RawSymbol.chars ∘ Symbol.raw) symbol :=
    fun symbol _ => by simp [Symbol.text, Symbol.chars_eq]
  rw [symbolsText, String.toList_intercalate, blank, List.map_map, List.map_map,
    List.map_congr_left chars_eq]

/-- The text of symbols with names is cut into these symbols, whatever their parameters are. -/
theorem scan_symbolsText {symbols : List Symbol}
    (isName : ∀ symbol ∈ symbols, IsName symbol.name.toList) :
    scan (symbolsText symbols).toList = .ok (symbols.map Symbol.raw) := by
  rw [toList_symbolsText]
  exact scan_intercalate (List.forall_mem_map.mpr fun symbol member =>
    Symbol.plain_raw (isName symbol member))

/-- A symbol whose parameters are constants. -/
def constantSymbol (location : Location) (raw : RawSymbol) : Except ParseError Symbol := do
  return { name := raw.name, parameters := ← raw.parameters.mapM (constantParameter location) }

theorem parseWord_eq (text : String) :
    let location : Location := { line := none, source := some text }
    parseWord text = scanWithin location text.toList >>= fun raws =>
      raws.mapM (constantSymbol location) :=
  rfl

theorem exists_constantSymbol {symbol : Symbol} (printable : symbol.Printable)
    (location : Location) :
    ∃ again, constantSymbol location symbol.raw = .ok again ∧ symbol.Equal again ∧
      again.text = symbol.text := by
  have each : ∀ x ∈ symbol.parameters, ∃ y,
      constantParameter location (.ofList (parameterChars x)) = .ok y ∧
        (x == y) = true ∧ parameterChars y = parameterChars x := fun x member =>
    (exists_constantParameter (printable.finite x member)).2 location
  rcases exists_mapM_map_eq_ok each with ⟨parameters, read, related⟩
  have same : ∀ x y, (x == y) = true ∧ parameterChars y = parameterChars x →
      parameterChars y = parameterChars x := fun _ _ => And.right
  have chars_eq := map_eq_map_of_forall₂ same related
  refine ⟨{ name := symbol.name, parameters }, bind_eq_ok_iff.mpr ⟨parameters, read, rfl⟩,
    ⟨rfl, related.imp fun _ _ => And.left⟩, ?_⟩
  rw [Symbol.text, Symbol.text, Symbol.chars, Symbol.chars, chars_eq]

/-- A word that is written is parsed as symbols that are equal to those that were written, and
these are written the same way again. -/
theorem parseWord_symbolsText {symbols : List Symbol}
    (printable : ∀ symbol ∈ symbols, symbol.Printable) :
    ∃ again, parseWord (symbolsText symbols) = .ok again ∧
      List.Forall₂ Symbol.Equal symbols again ∧ symbolsText again = symbolsText symbols := by
  have scanned : ∀ location,
      scanWithin location (symbolsText symbols).toList = .ok (symbols.map Symbol.raw) := by
    intro location
    rw [scanWithin, scan_symbolsText fun symbol member => (printable symbol member).name]
    rfl
  have each := fun symbol member => exists_constantSymbol (printable symbol member)
  rcases exists_mapM_map_eq_ok fun symbol member => each symbol member _ with
    ⟨again, read, related⟩
  have same : ∀ symbol again, Symbol.Equal symbol again ∧ again.text = symbol.text →
      again.text = symbol.text := fun _ _ => And.right
  refine ⟨again, ?_, related.imp fun _ _ => And.left, ?_⟩
  · rw [parseWord_eq]
    exact bind_eq_ok_iff.mpr ⟨_, scanned _, read⟩
  · rw [symbolsText, symbolsText, map_eq_map_of_forall₂ same related]

/-- Names that look like a number and like an arrow, a zero with a sign, an integer and a number on
either side of the switch between their texts, and the smallest and the largest double. -/
theorem parseWord_symbolsText_of_extremes :
    let symbols : List Symbol :=
      [{ name := "->", parameters := [.ofBits 0x8000000000000000, .ofBits 1] },
        { name := "-1e5", parameters := [] },
        { name := "F", parameters := [1e15, -999999999999999, -0.00015] },
        { name := "(", parameters := [-.ofBits 0x7fefffffffffffff] }]
    (∀ symbol ∈ symbols, symbol.Printable) ∧
      (symbols.map Symbol.text = ["->{0, 5e-324}", "-1e5",
        "F{1000000000000000.0, -999999999999999, -0.00015}", "({-1.7976931348623157e+308}"]) ∧
      ∃ again, parseWord (symbolsText symbols) = .ok again ∧
        List.Forall₂ Symbol.Equal symbols again ∧ symbolsText again = symbolsText symbols := by
  intro symbols
  have printable : ∀ symbol ∈ symbols, symbol.Printable := by decide +kernel
  exact ⟨printable, by decide +kernel, parseWord_symbolsText printable⟩

end GrowthGrammar
