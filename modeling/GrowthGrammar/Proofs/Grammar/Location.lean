import GrowthGrammar.Grammar.Parse
import GrowthGrammar.Proofs.Fallible

/-!
# Where errors stand

The place at which a rule stands is carried by its errors and by the production. What is parsed does
not depend on it otherwise.
-/

namespace GrowthGrammar

open Fallible

/-- Whether something is parsed, and as what, does not depend on the location, and each error carries
the location that is given. -/
def Located (parse : Location → Except ParseError α) : Prop :=
  ∃ outcome : Except ParseError.Cause α, ∀ location,
    parse location = outcome.mapError fun cause => { cause, location }

namespace Located

theorem ok (value : α) : Located fun _ => .ok value :=
  ⟨.ok value, fun _ => rfl⟩

theorem error (cause : ParseError.Cause) :
    Located fun location => (.error { cause, location } : Except ParseError α) :=
  ⟨.error cause, fun _ => rfl⟩

theorem bind {first : Location → Except ParseError α}
    {next : Location → α → Except ParseError β} (located : Located first)
    (continues : ∀ value, Located fun location => next location value) :
    Located fun location => first location >>= next location := by
  rcases located with ⟨outcome, first_eq⟩
  cases outcome with
  | error cause =>
      refine ⟨.error cause, fun location => ?_⟩
      dsimp only
      rw [first_eq]
      rfl
  | ok value =>
      rcases continues value with ⟨rest, next_eq⟩
      refine ⟨rest, fun location => ?_⟩
      dsimp only
      rw [first_eq, ← next_eq]
      rfl

theorem mapM {parse : Location → α → Except ParseError β} {items : List α}
    (each : ∀ item, Located fun location => parse location item) :
    Located fun location => items.mapM (parse location) := by
  induction items with
  | nil => exact ok []
  | cons item items induction =>
      simp only [List.mapM_cons]
      exact bind (each item) fun value => bind induction fun values => ok (value :: values)

end Located

theorem located_scanWithin (text : List Char) :
    Located fun location => RawSymbol.scanWithin location text :=
  ⟨RawSymbol.scan text, fun _ => rfl⟩

theorem located_compileParameter (raw : String) :
    Located fun location => compileParameter location raw := by
  simp only [compileParameter]
  cases Formula.compile raw with
  | error _ => exact .error (.invalidParameter raw)
  | ok formula => exact .ok formula

theorem located_parseLeftSide (text : List Char) :
    Located fun location => parseLeftSide location text := by
  refine .bind (located_scanWithin text) fun symbols => ?_
  match symbols with
  | [] => exact .error .missingLeftSide
  | [symbol] =>
      dsimp only
      cases symbol.parameters.find? fun name => !isBindingName name with
      | some name => exact .error (.invalidBinding name)
      | none =>
          by_cases nodup : symbol.parameters.Nodup
          · simp only [if_pos nodup]
            exact .ok symbol
          · simp only [if_neg nodup]
            exact .error .duplicateBinding
  | _ :: _ :: _ => exact .error .severalLeftSymbols

theorem located_parseTemplate (bindings : List String) (raw : RawSymbol) :
    Located fun location => parseTemplate location bindings raw := by
  refine .bind (.mapM located_compileParameter) fun formulas => ?_
  cases formulas.findSome? (unboundName? bindings) with
  | some name => exact .error (.unboundName name)
  | none => exact .ok (Template.mk raw.name formulas)

/-- A rule that stands on no line. -/
def parseRule (location : Location) (source : List Char) : Except ParseError Production :=
  match splitAtArrow? source with
  | none => throw { cause := .missingArrow, location }
  | some (left, right) => do
      let symbol ← parseLeftSide location left
      let raws ← RawSymbol.scanWithin location right
      let successor ← raws.mapM (parseTemplate location symbol.parameters)
      return { predecessor := symbol.name, bindings := symbol.parameters, successor, line := none }

theorem located_parseRule (source : List Char) :
    Located fun location => parseRule location source := by
  simp only [parseRule]
  cases splitAtArrow? source with
  | none => exact .error .missingArrow
  | some parts =>
      exact .bind (located_parseLeftSide parts.1) fun symbol =>
        .bind (located_scanWithin parts.2) fun raws =>
          .bind (.mapM (located_parseTemplate symbol.parameters)) fun successor => .ok _

theorem parseProduction_eq (text : String) (line : Option Int) :
    parseProduction text line =
      (parseRule { line, source := some (.ofList (Text.trim text.toList)) }
        (Text.trim text.toList)).map fun production => { production with line } := by
  simp only [parseProduction, parseRule]
  cases splitAtArrow? (Text.trim text.toList) with
  | none => rfl
  | some parts =>
      dsimp only
      generalize Location.mk line (some (.ofList (Text.trim text.toList))) = location
      cases parseLeftSide location parts.1 with
      | error _ => rfl
      | ok symbol =>
          simp only [ok_bind]
          cases RawSymbol.scanWithin location parts.2 with
          | error _ => rfl
          | ok raws =>
              simp only [ok_bind]
              cases raws.mapM (parseTemplate location symbol.parameters) <;> rfl

/-- A rule is parsed alike on every line. -/
theorem exists_parseProduction_eq (text : String) :
    ∃ outcome : Except ParseError.Cause Production, ∀ line,
      parseProduction text line =
        (outcome.map fun production => { production with line }).mapError fun cause =>
          { cause, location := { line, source := some (.ofList (Text.trim text.toList)) } } := by
  rcases located_parseRule (Text.trim text.toList) with ⟨outcome, rule_eq⟩
  refine ⟨outcome, fun line => ?_⟩
  have located := rule_eq { line, source := some (.ofList (Text.trim text.toList)) }
  dsimp only at located
  rw [parseProduction_eq, located]
  cases outcome <;> rfl

/-- A rule that is parsed on one line is parsed on every line. -/
theorem parseProduction_elsewhere {text : String} {line : Option Int} {production : Production}
    (parsed : parseProduction text line = .ok production) (other : Option Int) :
    parseProduction text other = .ok { production with line := other } := by
  rcases exists_parseProduction_eq text with ⟨outcome, parse_eq⟩
  rw [parse_eq] at parsed ⊢
  cases outcome with
  | error cause => cases parsed
  | ok rule =>
      cases parsed
      rfl

/-- A rule that is refused on one line is refused on every line, for the same cause. -/
theorem parseProduction_error_elsewhere {text : String} {line : Option Int} {error : ParseError}
    (refused : parseProduction text line = .error error) (other : Option Int) :
    error.location.line = line ∧ parseProduction text other =
      .error { error with location := { error.location with line := other } } := by
  rcases exists_parseProduction_eq text with ⟨outcome, parse_eq⟩
  rw [parse_eq] at refused ⊢
  cases outcome with
  | ok rule => cases refused
  | error cause =>
      cases refused
      exact ⟨rfl, rfl⟩

end GrowthGrammar
