import GrowthGrammar.Grammar.Production
import GrowthGrammar.Grammar.Scan
import GrowthGrammar.Proofs.Fallible
import GrowthGrammar.Proofs.Text.Span

/-!
# Scanning printed symbols

Symbols that are written with their parameters in braces, one blank between any two of them, are
found again by the scanner.
-/

namespace GrowthGrammar

namespace RawSymbol

open Fallible Text

/-! ## Single symbols -/

theorem scan_nil : scan [] = .ok [] := by
  rw [scan.eq_def]

theorem scan_blank {c : Char} (blank : isBlank c = true) (rest : List Char) :
    scan (c :: rest) = scan rest := by
  rw [scan.eq_def]
  exact if_pos blank

/-- From the first character of a name on. -/
theorem scan_isNameChar {c : Char} (nameChar : isNameChar c = true) (rest : List Char) :
    scan (c :: rest) =
      let name := String.ofList (c :: rest.takeWhile isNameChar)
      match rest.dropWhile isNameChar with
      | '{' :: inside =>
          match inside.dropWhile (· != '}') with
          | [] => .error .unbalancedOpen
          | _ :: behind =>
              if (inside.takeWhile (· != '}')).contains '{' then .error .nestedOpen
              else
                (splitParameters (inside.takeWhile (· != '}'))).bind fun parameters =>
                  (scan behind).map ({ name, parameters } :: ·)
      | behind => (scan behind).map ({ name, parameters := [] } :: ·) := by
  simp only [isNameChar, Bool.and_eq_true, bne_iff_ne, Bool.not_eq_true'] at nameChar
  rcases nameChar with ⟨⟨⟨visible, notOpen⟩, notClose⟩, notComma⟩
  rw [scan.eq_def]
  dsimp only
  rw [if_neg (by simp [visible]), if_neg notOpen, if_neg notClose, if_neg notComma]
  split
  · next inside opened =>
      simp only [opened]
      split
      · next unclosed => simp only [unclosed]
      · next close behind closed =>
          simp only [closed]
          split
          · rfl
          · cases splitParameters (inside.takeWhile (· != '}')) with
            | error cause => rfl
            | ok parameters => cases scan behind <;> rfl
  · next notOpened =>
      split
      · next inside opened => exact absurd opened (notOpened inside)
      · cases scan (rest.dropWhile isNameChar) <;> rfl

/-- No symbol starts with a brace or a comma. -/
theorem scan_ne_ok {c : Char} (visible : isBlank c ≠ true) (notName : isNameChar c ≠ true)
    (rest : List Char) (symbols : List RawSymbol) : scan (c :: rest) ≠ .ok symbols := by
  have reserved : c = '{' ∨ c = '}' ∨ c = ',' := by
    by_contra other
    simp_all [isNameChar]
  intro scanned
  rw [scan.eq_def] at scanned
  dsimp only at scanned
  rw [if_neg visible] at scanned
  rcases reserved with rfl | rfl | rfl <;> cases scanned

/-- One or more characters of names. -/
structure IsName (name : List Char) : Prop where
  nonempty : name ≠ []
  nameChar : ∀ c ∈ name, isNameChar c = true

instance (name : List Char) : Decidable (IsName name) :=
  decidable_of_iff (name ≠ [] ∧ name.all isNameChar = true)
    ⟨fun ⟨nonempty, all⟩ => ⟨nonempty, List.all_eq_true.mp all⟩,
      fun ⟨nonempty, nameChar⟩ => ⟨nonempty, List.all_eq_true.mpr nameChar⟩⟩

theorem scan_bare {name rest : List Char} (isName : IsName name) (stops : Stops isNameChar rest)
    (unbraced : rest.head? ≠ some '{') :
    scan (name ++ rest) = (scan rest).map ({ name := .ofList name, parameters := [] } :: ·) := by
  rcases List.exists_cons_of_ne_nil isName.nonempty with ⟨c, others, rfl⟩
  rcases List.forall_mem_cons.mp isName.nameChar with ⟨first, nameChars⟩
  rw [List.cons_append, scan_isNameChar first, Text.takeWhile_append nameChars stops,
    Text.dropWhile_append nameChars stops]
  dsimp only
  split
  · simp at unbraced
  · rfl

theorem scan_braced {name body rest : List Char} {parameters : List String} (isName : IsName name)
    (unbraced : ∀ c ∈ body, c ≠ '{' ∧ c ≠ '}')
    (parameters_eq : splitParameters body = .ok parameters) :
    scan (name ++ '{' :: body ++ '}' :: rest) =
      (scan rest).map ({ name := .ofList name, parameters } :: ·) := by
  rcases List.exists_cons_of_ne_nil isName.nonempty with ⟨c, others, rfl⟩
  rcases List.forall_mem_cons.mp isName.nameChar with ⟨first, nameChars⟩
  have nameStops : Stops isNameChar ('{' :: (body ++ '}' :: rest)) := Text.stops_cons.mpr rfl
  have inside : ∀ c ∈ body, (c != '}') = true := fun c member => by
    simpa using (unbraced c member).2
  have bodyStops : Stops (· != '}') ('}' :: rest) := Text.stops_cons.mpr rfl
  have notNested : body.contains '{' = false := by
    simpa using fun member => (unbraced '{' member).1 rfl
  rw [List.append_assoc, List.cons_append, List.cons_append, scan_isNameChar first,
    Text.takeWhile_append nameChars nameStops, Text.dropWhile_append nameChars nameStops]
  simp only [Text.takeWhile_append inside bodyStops, Text.dropWhile_append inside bodyStops,
    notNested, parameters_eq]
  rfl

/-! ## Parameters -/

/-- A text that stands as one parameter between braces: no brace or comma is in it, no blank at its
ends, and its parentheses close what they open. -/
structure IsParameter (text : List Char) : Prop where
  nonempty : text ≠ []
  trimmed : Trimmed text
  unreserved : ∀ c ∈ text, c ≠ '{' ∧ c ≠ '}' ∧ c ≠ ','
  nesting : text.foldl depthAfter 0 = 0

theorem splitAtCommas_ne_nil (depth : Int) (text : List Char) : splitAtCommas depth text ≠ [] := by
  cases text with
  | nil => exact List.cons_ne_nil _ _
  | cons c rest =>
      unfold splitAtCommas
      split
      · exact List.cons_ne_nil _ _
      · split <;> exact List.cons_ne_nil _ _

/-- A text without commas belongs to the first part. -/
theorem splitAtCommas_append {part : List Char} (uncut : ∀ c ∈ part, c ≠ ',') (depth : Int)
    (rest : List Char) :
    splitAtCommas depth (part ++ rest) =
      (splitAtCommas (part.foldl depthAfter depth) rest).modifyHead (part ++ ·) := by
  induction part generalizing depth with
  | nil =>
      rw [List.nil_append, List.foldl_nil]
      cases splitAtCommas depth rest <;> rfl
  | cons c part induction =>
      rcases List.forall_mem_cons.mp uncut with ⟨first, others⟩
      rw [List.cons_append, splitAtCommas, if_neg (by simp [first]), induction others,
        List.foldl_cons]
      rcases List.exists_cons_of_ne_nil (splitAtCommas_ne_nil _ rest) with ⟨head, tail, parts_eq⟩
      rw [parts_eq]
      rfl

/-- Behind the first parameter each has the blank in front of it that follows the comma. -/
theorem splitAtCommas_intercalate {first : List Char} {others : List (List Char)}
    (isParameter : ∀ part ∈ first :: others, IsParameter part) :
    splitAtCommas 0 (List.intercalate [',', ' '] (first :: others)) =
      first :: others.map (' ' :: ·) := by
  induction others generalizing first with
  | nil =>
      have parameter := isParameter first List.mem_cons_self
      have uncut : ∀ c ∈ first, c ≠ ',' := fun c member => (parameter.unreserved c member).2.2
      have split := splitAtCommas_append uncut 0 []
      rw [List.append_nil, parameter.nesting] at split
      rw [List.intercalate_singleton, split]
      simp [splitAtCommas]
  | cons second others induction =>
      rcases List.forall_mem_cons.mp isParameter with ⟨parameter, isParameter⟩
      have uncut : ∀ c ∈ first, c ≠ ',' := fun c member => (parameter.unreserved c member).2.2
      rw [List.intercalate_cons_cons, List.append_assoc, splitAtCommas_append uncut,
        parameter.nesting]
      simp [splitAtCommas, depthAfter, induction isParameter]

theorem exists_append_intercalate (separator first : List Char) (others : List (List Char)) :
    ∃ rest, List.intercalate separator (first :: others) = first ++ rest := by
  cases others with
  | nil => exact ⟨[], by rw [List.intercalate_singleton, List.append_nil]⟩
  | cons second others => exact ⟨_, by rw [List.intercalate_cons_cons, List.append_assoc]⟩

theorem IsParameter.not_isAllBlank {part : List Char} (parameter : IsParameter part)
    (rest : List Char) : isAllBlank (part ++ rest) = false := by
  rcases List.exists_cons_of_ne_nil parameter.nonempty with ⟨c, others, rfl⟩
  have visible : isBlank c = false := Text.stops_cons.mp parameter.trimmed.start
  simp [isAllBlank, visible]

theorem IsParameter.trim_cons {part : List Char} (parameter : IsParameter part) :
    trim (' ' :: part) = part := by
  have blank : AllBlank [' '] := by decide
  simpa using Text.trim_append blank Text.allBlank_nil parameter.trimmed

theorem splitParameters_intercalate {parts : List (List Char)} (nonempty : parts ≠ [])
    (isParameter : ∀ part ∈ parts, IsParameter part) :
    splitParameters (List.intercalate [',', ' '] parts) = .ok (parts.map String.ofList) := by
  rcases List.exists_cons_of_ne_nil nonempty with ⟨first, others, rfl⟩
  have trimmed : (first :: others.map (' ' :: ·)).map trim = first :: others := by
    rcases List.forall_mem_cons.mp isParameter with ⟨parameter, isParameter⟩
    rw [List.map_cons, parameter.trimmed.trim_eq, List.map_map]
    congr 1
    exact (List.map_congr_left fun part member => (isParameter part member).trim_cons).trans
      (List.map_id others)
  have filled : (first :: others).any List.isEmpty = false := by
    simpa using fun part member => (isParameter part member).nonempty
  have visible : isAllBlank (List.intercalate [',', ' '] (first :: others)) = false := by
    rcases exists_append_intercalate [',', ' '] first others with ⟨rest, body_eq⟩
    rw [body_eq]
    exact (isParameter first List.mem_cons_self).not_isAllBlank rest
  simp only [splitParameters, visible, splitAtCommas_intercalate isParameter, trimmed, filled]
  rfl

/-- Of trimmed parts with anything in between, only the outer ends count. -/
theorem trimmed_intercalate {parts : List (List Char)} (separator : List Char)
    (trimmed : ∀ part ∈ parts, part ≠ [] ∧ Trimmed part) :
    Trimmed (List.intercalate separator parts) := by
  induction parts with
  | nil => exact ⟨Text.stops_nil, Text.stops_nil⟩
  | cons first others induction =>
      rcases List.forall_mem_cons.mp trimmed with ⟨⟨nonempty, trimmedFirst⟩, trimmed⟩
      cases others with
      | nil => rwa [List.intercalate_singleton]
      | cons second others =>
          rw [List.intercalate_cons_cons]
          refine trimmedFirst.append (induction trimmed) nonempty ?_ separator
          rcases exists_append_intercalate separator second others with ⟨rest, joined⟩
          rw [joined]
          exact List.append_ne_nil_of_left_ne_nil (trimmed second List.mem_cons_self).1 rest

theorem mem_intercalate {separator : List Char} {parts : List (List Char)} {c : Char}
    (member : c ∈ List.intercalate separator parts) : c ∈ separator ∨ ∃ part ∈ parts, c ∈ part := by
  induction parts with
  | nil => cases member
  | cons first others induction =>
      cases others with
      | nil =>
          rw [List.intercalate_singleton] at member
          exact .inr ⟨first, List.mem_cons_self, member⟩
      | cons second others =>
          rw [List.intercalate_cons_cons, List.append_assoc] at member
          rcases List.mem_append.mp member with inFirst | member
          · exact .inr ⟨first, List.mem_cons_self, inFirst⟩
          · rcases List.mem_append.mp member with inSeparator | member
            · exact .inl inSeparator
            · rcases induction member with inSeparator | ⟨part, partMember, inside⟩
              · exact .inl inSeparator
              · exact .inr ⟨part, List.mem_cons_of_mem first partMember, inside⟩

theorem unbraced_intercalate {parts : List (List Char)}
    (isParameter : ∀ part ∈ parts, IsParameter part) :
    ∀ c ∈ List.intercalate [',', ' '] parts, c ≠ '{' ∧ c ≠ '}' := by
  intro c member
  rcases mem_intercalate member with separator | ⟨part, partMember, inside⟩
  · have all : ∀ c ∈ [',', ' '], c ≠ '{' ∧ c ≠ '}' := by simp
    exact all c separator
  · rcases (isParameter part partMember).unreserved c inside with ⟨notOpen, notClose, _⟩
    exact ⟨notOpen, notClose⟩

/-! ## Sequences of symbols -/

def chars (symbol : RawSymbol) : List Char :=
  symbol.name.toList ++ parameterList (symbol.parameters.map String.toList)

/-- A symbol that can be scanned from its own text. -/
structure Plain (symbol : RawSymbol) : Prop where
  name : IsName symbol.name.toList
  parameters : ∀ parameter ∈ symbol.parameters, IsParameter parameter.toList

/-- The text ends or goes on with a blank. -/
def Separated (rest : List Char) : Prop :=
  ∀ c ∈ rest.head?, isBlank c = true

theorem chars_ne_nil {symbol : RawSymbol} (isName : IsName symbol.name.toList) :
    symbol.chars ≠ [] :=
  List.append_ne_nil_of_left_ne_nil isName.nonempty _

theorem trimmed_chars {symbol : RawSymbol} (isName : IsName symbol.name.toList) :
    Trimmed symbol.chars := by
  have visible : ∀ c ∈ symbol.name.toList, isBlank c = false := by
    intro c member
    have nameChar := isName.nameChar c member
    simp only [isNameChar, Bool.and_eq_true, Bool.not_eq_true'] at nameChar
    exact nameChar.1.1.1
  have trimmedName := Text.trimmed_of_visible visible
  rw [chars, parameterList]
  split
  · rwa [List.append_nil]
  · have close : Trimmed ['}'] := Text.trimmed_of_visible (List.forall_mem_singleton.mpr rfl)
    rw [← List.append_assoc]
    exact trimmedName.append close isName.nonempty (List.cons_ne_nil _ _) _

theorem Separated.stops {rest : List Char} (separated : Separated rest) :
    Stops isNameChar rest ∧ rest.head? ≠ some '{' := by
  constructor
  · intro c first
    simp [isNameChar, separated c first]
  · intro first
    exact absurd (separated '{' first) (by decide)

theorem scan_chars {symbol : RawSymbol} (plain : symbol.Plain) {rest : List Char}
    (separated : Separated rest) : scan (symbol.chars ++ rest) = (scan rest).map (symbol :: ·) := by
  rcases symbol with ⟨name, parameters⟩
  cases parameters with
  | nil =>
      rcases separated.stops with ⟨stops, unbraced⟩
      simpa [chars, parameterList] using scan_bare plain.name stops unbraced
  | cons first others =>
      have isParameter : ∀ part ∈ (first :: others).map String.toList, IsParameter part := by
        simpa using plain.parameters
      have parameters_eq := splitParameters_intercalate (by simp) isParameter
      have read := @scan_braced _ _ rest _ plain.name (unbraced_intercalate isParameter)
        parameters_eq
      simpa [chars, parameterList, Function.comp_def] using read

theorem scan_intercalate {symbols : List RawSymbol} (plain : ∀ symbol ∈ symbols, symbol.Plain) :
    scan (List.intercalate [' '] (symbols.map chars)) = .ok symbols := by
  induction symbols with
  | nil =>
      rw [List.map_nil, List.intercalate_nil, scan_nil]
  | cons symbol symbols induction =>
      rcases List.forall_mem_cons.mp plain with ⟨first, others⟩
      cases symbols with
      | nil =>
          have nothing : Separated [] := by simp [Separated]
          have read := scan_chars first nothing
          rw [List.append_nil] at read
          rw [List.map_singleton, List.intercalate_singleton, read, scan_nil]
          rfl
      | cons second symbols =>
          have separated : ∀ rest, Separated (' ' :: rest) := by simp [Separated]; decide
          rw [List.map_cons, List.map_cons, List.intercalate_cons_cons, List.append_assoc,
            List.cons_append, scan_chars first (separated _), scan_blank rfl, List.nil_append,
            ← List.map_cons, induction others]
          rfl

end RawSymbol

end GrowthGrammar
