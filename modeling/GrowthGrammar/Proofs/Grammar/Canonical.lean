import GrowthGrammar.Proofs.Grammar.Arrow
import GrowthGrammar.Proofs.Grammar.Parameter
import GrowthGrammar.Proofs.Grammar.Scope
import GrowthGrammar.Proofs.Grammar.Spelling

/-!
# Printing and parsing productions

What a rule is parsed to can be printed, and the text of what can be printed parses to it, on
whichever line it stands.
-/

namespace GrowthGrammar

open Fallible RawSymbol Text

/-! ## What can be printed -/

/-- The source of each expression is a printing of it. -/
structure Template.Printable (template : Template) : Prop where
  name : IsName template.name.toList
  formulas : ∀ formula ∈ template.formulas, formula.tree.Prints formula.source.toList

structure Production.Printable (production : Production) : Prop where
  name : IsName production.predecessor.toList
  arrowless : Arrowless production.predecessor.toList
  bindings : ∀ name ∈ production.bindings, isBindingName name = true
  nodup : production.bindings.Nodup
  successor : ∀ template ∈ production.successor, template.Printable
  inScope : production.Scoped

/-! ## What is parsed can be printed -/

theorem parseLeftSide_eq_ok_iff {location : Location} {text : List Char} {symbol : RawSymbol} :
    parseLeftSide location text = .ok symbol ↔
      scan text = .ok [symbol] ∧ (∀ name ∈ symbol.parameters, isBindingName name = true) ∧
        symbol.parameters.Nodup := by
  rw [parseLeftSide, bind_eq_ok_iff]
  constructor
  · rintro ⟨symbols, scanned, checked⟩
    rw [scanWithin_eq_ok_iff] at scanned
    match symbols, checked with
    | [], checked => cases checked
    | [single], checked =>
        dsimp only at checked
        split at checked
        · cases checked
        · next valid =>
            split at checked
            · next nodup =>
                cases checked
                exact ⟨scanned, by simpa using valid, nodup⟩
            · cases checked
    | _ :: _ :: _, checked => cases checked
  · rintro ⟨scanned, bindings, nodup⟩
    refine ⟨[symbol], scanWithin_eq_ok_iff.mpr scanned, ?_⟩
    have valid : symbol.parameters.find? (fun name => !isBindingName name) = none := by
      simpa using bindings
    simp [valid, nodup]
    rfl

theorem parseTemplate_eq_ok_iff {location : Location} {bindings : List String} {raw : RawSymbol}
    {template : Template} :
    parseTemplate location bindings raw = .ok template ↔
      raw.parameters.mapM (compileParameter location) = .ok template.formulas ∧
        raw.name = template.name ∧ template.Scoped bindings := by
  rw [parseTemplate, bind_eq_ok_iff]
  constructor
  · rintro ⟨formulas, compiled, checked⟩
    cases unbound : formulas.findSome? (unboundName? bindings) with
    | some name => simp [unbound] at checked
    | none =>
        rw [unbound] at checked
        cases checked
        refine ⟨compiled, rfl, fun formula member => ?_⟩
        exact unboundName?_eq_none_iff.mp (List.findSome?_eq_none_iff.mp unbound formula member)
  · rintro ⟨compiled, name_eq, inScope⟩
    refine ⟨template.formulas, compiled, ?_⟩
    have bound : template.formulas.findSome? (unboundName? bindings) = none :=
      List.findSome?_eq_none_iff.mpr fun formula member =>
        unboundName?_eq_none_iff.mpr (inScope formula member)
    rw [bound, name_eq]
    rfl

theorem Template.printable_of_parse {location : Location} {bindings : List String}
    {raw : RawSymbol} {template : Template} (isName : IsName raw.name.toList)
    (parsed : parseTemplate location bindings raw = .ok template) : template.Printable := by
  rcases parseTemplate_eq_ok_iff.mp parsed with ⟨compiled, name_eq, _⟩
  refine ⟨name_eq ▸ isName, fun formula member => ?_⟩
  rcases exists_mem_of_mapM_eq_ok compiled member with ⟨parameter, _, compiled⟩
  exact (Formula.standsIn_of_compile (compileParameter_eq_ok_iff.mp compiled)).1

theorem Production.printable_of_parse {text : String} {line : Option Int} {production : Production}
    (parsed : parseProduction text line = .ok production) : production.Printable := by
  have inScope := parseProduction_scoped parsed
  simp only [parseProduction] at parsed
  split at parsed
  · cases parsed
  · next left right parts =>
      rcases bind_eq_ok_iff.mp parsed with ⟨symbol, leftSide, parsed⟩
      rcases bind_eq_ok_iff.mp parsed with ⟨raws, scanned, parsed⟩
      rcases bind_eq_ok_iff.mp parsed with ⟨successor, templates, parsed⟩
      cases parsed
      rcases parseLeftSide_eq_ok_iff.mp leftSide with ⟨scannedLeft, bindings, nodup⟩
      rcases (spelled_of_scan scannedLeft).names symbol List.mem_cons_self with ⟨isName, inside⟩
      refine ⟨isName, (eq_of_splitAtArrow? parts).2.of_within inside, bindings, nodup, ?_, inScope⟩
      intro template member
      rcases exists_mem_of_mapM_eq_ok templates member with ⟨raw, rawMember, parsed⟩
      have names := (spelled_of_scan (scanWithin_eq_ok_iff.mp scanned)).names
      exact Template.printable_of_parse (names raw rawMember).1 parsed

/-! ## What can be printed is parsed again -/

def Template.raw (template : Template) : RawSymbol :=
  { name := template.name, parameters := template.formulas.map Formula.source }

def Production.rawLeft (production : Production) : RawSymbol :=
  { name := production.predecessor, parameters := production.bindings }

/-- A name is a printing of the reference to it. -/
theorem isParameter_of_isBindingName {name : String} (binding : isBindingName name = true) :
    IsParameter name.toList := by
  simp only [isBindingName, Bool.and_eq_true, Bool.not_eq_true', List.contains_eq_mem,
    decide_eq_false_iff_not] at binding
  have written := Expr.Written.reference binding.1 binding.2
  have prints : (Expr.reference name).Prints name.toList :=
    ⟨[.word name.toList], written.of_le (by decide), .last⟩
  exact prints.isParameter

theorem unpointed_of_isBindingName {name : String} (binding : isBindingName name = true) :
    '>' ∉ name.toList := by
  simp only [isBindingName, Bool.and_eq_true] at binding
  intro member
  cases Token.continuesWord_of_isWord binding.1 '>' member

theorem Template.chars_eq (template : Template) : template.chars = template.raw.chars := by
  simp [Template.chars, RawSymbol.chars, raw, Function.comp_def]

theorem Template.Printable.plain {template : Template} (printable : template.Printable) :
    template.raw.Plain := by
  refine ⟨printable.name, fun parameter member => ?_⟩
  rcases List.mem_map.mp member with ⟨formula, formulaMember, rfl⟩
  exact (printable.formulas formula formulaMember).isParameter

theorem parseTemplate_raw {location : Location} {bindings : List String} {template : Template}
    (printable : template.Printable) (inScope : template.Scoped bindings) :
    parseTemplate location bindings template.raw = .ok template := by
  refine parseTemplate_eq_ok_iff.mpr ⟨mapM_map_eq_ok fun formula member => ?_, rfl, inScope⟩
  exact compileParameter_source (printable.formulas formula member) location

namespace Production.Printable

variable {production : Production} (printable : production.Printable)

include printable

theorem plainLeft : production.rawLeft.Plain :=
  ⟨printable.name, fun name member => isParameter_of_isBindingName (printable.bindings name member)⟩

/-- No binding has the second half of an arrow in it. -/
theorem arrowless_left : Arrowless (production.rawLeft.chars ++ [' ']) := by
  rw [RawSymbol.chars, List.append_assoc]
  apply printable.arrowless.append
  intro member
  rcases List.mem_append.mp member with member | blank
  · rw [parameterList] at member
    split at member
    · cases member
    · rw [List.mem_append, List.mem_cons] at member
      rcases member with (pointed | member) | pointed
      · cases pointed
      · rcases mem_intercalate member with separator | ⟨part, partMember, inside⟩
        · exact absurd separator (by decide)
        · rcases List.mem_map.mp partMember with ⟨name, nameMember, rfl⟩
          exact unpointed_of_isBindingName (printable.bindings name nameMember) inside
      · exact absurd pointed (by decide)
  · exact absurd blank (by decide)

theorem scan_left : scan (production.rawLeft.chars ++ [' ']) = .ok [production.rawLeft] := by
  have separated : Separated [' '] := by simp [Separated]; decide
  rw [scan_chars printable.plainLeft separated, scan_blank rfl, scan_nil]
  rfl

theorem scan_right : production.successor = [] ∨
    let right := List.intercalate [' '] (production.successor.map Template.chars)
    Trimmed right ∧ right ≠ [] ∧ scan right = .ok (production.successor.map Template.raw) := by
  have plain : ∀ symbol ∈ production.successor.map Template.raw, symbol.Plain :=
    List.forall_mem_map.mpr fun template member => (printable.successor template member).plain
  have chars_eq : production.successor.map Template.chars =
      (production.successor.map Template.raw).map RawSymbol.chars := by
    simp [Template.chars_eq]
  have filled : ∀ part ∈ (production.successor.map Template.raw).map RawSymbol.chars,
      part ≠ [] ∧ Trimmed part :=
    List.forall_mem_map.mpr fun symbol member =>
      ⟨chars_ne_nil (plain symbol member).name, trimmed_chars (plain symbol member).name⟩
  dsimp only
  rw [chars_eq]
  cases successor_eq : production.successor with
  | nil => exact .inl rfl
  | cons template successor =>
      rw [successor_eq] at plain filled
      refine .inr ⟨trimmed_intercalate [' '] filled, ?_, scan_intercalate plain⟩
      rcases exists_append_intercalate [' '] template.raw.chars
        ((successor.map Template.raw).map RawSymbol.chars) with ⟨rest, joined⟩
      rw [List.map_cons, List.map_cons, joined]
      exact List.append_ne_nil_of_left_ne_nil (chars_ne_nil (plain _ List.mem_cons_self).name) rest

/-- A successor that is there goes up to the end of the text. -/
theorem chars_eq_of_ne_nil (grows : production.successor ≠ []) :
    let right := List.intercalate [' '] (production.successor.map Template.chars)
    production.chars = production.rawLeft.chars ++ [' ', '-', '>', ' '] ++ right ∧
      Trimmed production.chars ∧ scan right = .ok (production.successor.map Template.raw) := by
  have left_eq : production.predecessor.toList ++
      parameterList (production.bindings.map String.toList) = production.rawLeft.chars := rfl
  have trimmedLeft : Trimmed production.rawLeft.chars := trimmed_chars printable.name
  have leftNonempty : production.rawLeft.chars ≠ [] := chars_ne_nil printable.name
  rcases printable.scan_right with empty | ⟨trimmedRight, rightNonempty, scanned⟩
  · exact absurd empty grows
  · have trimmed := trimmedLeft.append trimmedRight leftNonempty rightNonempty [' ', '-', '>', ' ']
    have cut := Text.trimEnd_append Text.allBlank_nil trimmed.finish
    rw [List.append_nil] at cut
    rw [Production.chars, left_eq]
    exact ⟨cut, cut.symm ▸ trimmed, scanned⟩

/-- The blank behind the arrow is cut off when no successor follows it. -/
theorem chars_eq :
    ∃ behind, production.chars = production.rawLeft.chars ++ [' '] ++ '-' :: '>' :: behind ∧
      scan behind = .ok (production.successor.map Template.raw) ∧ Trimmed production.chars := by
  have left_eq : production.predecessor.toList ++
      parameterList (production.bindings.map String.toList) = production.rawLeft.chars := rfl
  have trimmedLeft : Trimmed production.rawLeft.chars := trimmed_chars printable.name
  have leftNonempty : production.rawLeft.chars ≠ [] := chars_ne_nil printable.name
  rcases eq_or_ne production.successor [] with empty | grows
  · have arrow : ∀ c ∈ ['-', '>'], Text.isBlank c = false :=
      List.forall_mem_cons.mpr ⟨rfl, List.forall_mem_singleton.mpr rfl⟩
    have trimmed : Trimmed (production.rawLeft.chars ++ [' '] ++ ['-', '>']) :=
      trimmedLeft.append (Text.trimmed_of_visible arrow) leftNonempty (by decide) [' ']
    have blank : AllBlank [' '] := by decide
    have cut := Text.trimEnd_append blank trimmed.finish
    have whole_eq : production.rawLeft.chars ++ [' ', '-', '>', ' '] ++ [] =
        production.rawLeft.chars ++ [' '] ++ ['-', '>'] ++ [' '] := by simp
    rw [Production.chars, left_eq, empty, List.map_nil, List.intercalate_nil, whole_eq, cut,
      List.map_nil]
    exact ⟨[], rfl, scan_nil, trimmed⟩
  · rcases printable.chars_eq_of_ne_nil grows with ⟨chars_eq, trimmed, scanned⟩
    refine ⟨' ' :: _, ?_, (scan_blank rfl _).trans scanned, trimmed⟩
    rw [chars_eq]
    simp

theorem parse_text (line : Option Int) :
    parseProduction production.text line = .ok { production with line } := by
  rcases printable.chars_eq with ⟨behind, chars_eq, scanned, trimmed⟩
  have source_eq : trim production.text.toList = production.chars := by
    rw [Production.text, String.toList_ofList, trimmed.trim_eq]
  have parts : splitAtArrow? production.chars =
      some (production.rawLeft.chars ++ [' '], behind) := by
    rw [chars_eq, splitAtArrow?_append printable.arrowless_left]
  have leftSide : ∀ location, parseLeftSide location (production.rawLeft.chars ++ [' ']) =
      .ok production.rawLeft := fun location =>
    parseLeftSide_eq_ok_iff.mpr ⟨printable.scan_left, printable.bindings, printable.nodup⟩
  have templates : ∀ location, (production.successor.map Template.raw).mapM
      (parseTemplate location production.bindings) = .ok production.successor := fun location =>
    mapM_map_eq_ok fun template member =>
      parseTemplate_raw (printable.successor template member) (printable.inScope template member)
  have scannedRight : ∀ location, scanWithin location behind =
      .ok (production.successor.map Template.raw) := fun location =>
    scanWithin_eq_ok_iff.mpr scanned
  simp only [parseProduction, source_eq, parts, leftSide, scannedRight]
  simp only [Production.rawLeft, bind, Except.bind, templates]
  rfl

end Production.Printable

/-- The text of a production that was parsed is parsed to the same production, so that two
productions with the same text differ in nothing but their lines. -/
theorem Production.parse_text_of_parsed {text : String} {line : Option Int}
    {production : Production} (parsed : parseProduction text line = .ok production) :
    parseProduction production.text production.line = .ok production ∧
      ∀ (other : String) (otherLine : Option Int) (twin : Production),
        parseProduction other otherLine = .ok twin → twin.text = production.text →
          twin = { production with line := twin.line } := by
  have printable := printable_of_parse parsed
  refine ⟨printable.parse_text production.line, ?_⟩
  intro other otherLine twin parsedTwin text_eq
  have again := (printable_of_parse parsedTwin).parse_text twin.line
  rw [text_eq, printable.parse_text twin.line] at again
  exact (Except.ok.inj again).symm

/-- A name with a dash in it, an arrow to the right of the first one, no blanks between symbols,
and blanks within an expression. -/
theorem Production.parse_text_of_arrow_on_right :
    let double : Formula :=
      { source := "( x*2 )", tree := .binary .mul (.reference "x") (.number "2") }
    let second : Formula := { source := "y", tree := .reference "y" }
    let production : Production :=
      { predecessor := "A-b"
        bindings := ["x", "y"]
        successor := [{ name := "F", formulas := [double, second] },
          { name := "->", formulas := [{ source := "random()", tree := .random }] },
          { name := "[+", formulas := [] }]
        line := some 3 }
    parseProduction "A-b{ x,y }  ->F{( x*2 ) ,y}->{random()}[+" (some 3) = .ok production ∧
      production.text = "A-b{x, y} -> F{( x*2 ), y} ->{random()} [+" ∧
      parseProduction production.text (some 3) = .ok production := by
  intro double second production
  have parsed : parseProduction "A-b{ x,y }  ->F{( x*2 ) ,y}->{random()}[+" (some 3) =
      .ok production := by
    decide +kernel
  exact ⟨parsed, by decide +kernel, (parse_text_of_parsed parsed).1⟩

end GrowthGrammar
