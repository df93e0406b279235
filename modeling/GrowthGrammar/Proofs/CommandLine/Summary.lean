import GrowthGrammar.CommandLine.Run
import GrowthGrammar.Proofs.Grammar.Canonical
import GrowthGrammar.Proofs.Rewrite.Choices

/-!
# Summaries of grammars

The summary of a configuration has a line with the names that have several productions. The names
can be read from it. All symbols for which rewriting draws a production have one of these names; the
others of the names have productions that no symbol has to choose from.
-/

namespace GrowthGrammar

open Fallible RawSymbol

namespace CommandLine

/-! ## Reading a summary -/

/-- What stands behind a label in the lines that start with it. -/
def labelled (label : String) (lines : List String) : List String :=
  (lines.filter fun line => label.toList.isPrefixOf line.toList).map fun line =>
    .ofList (line.toList.drop label.toList.length)

/-- The names between the commas of an enumeration. -/
def enumerated (text : String) : List String :=
  (text.toList.splitOn ',').map fun name => .ofList (Text.trim name)

/-- The names that lines tell to be those of stochastic symbols. -/
def stochasticSymbols (lines : List String) : List String :=
  (labelled "stochastic symbols: " lines).flatMap enumerated

example : stochasticSymbols ["productions: 4", "stochastic symbols: A, leaf", "seed: none"] =
    ["A", "leaf"] := by decide

theorem labelled_append (label : String) (first second : List String) :
    labelled label (first ++ second) = labelled label first ++ labelled label second := by
  simp [labelled]

theorem labelled_cons (label line : String) (lines : List String) :
    labelled label (line :: lines) = labelled label [line] ++ labelled label lines :=
  labelled_append label [line] lines

theorem labelled_self (label rest : String) : labelled label [label ++ rest] = [rest] := by
  simp [labelled]

/-- Two labels that do not begin alike are never taken for each other. -/
theorem labelled_other {label front : String}
    (apart : ¬(label.toList <+: front.toList ∨ front.toList <+: label.toList)) (rest : String) :
    labelled label [front ++ rest] = [] := by
  have unmarked : ¬label.toList <+: (front ++ rest).toList := by
    rw [String.toList_append]
    intro starts
    exact apart (List.prefix_or_prefix_of_prefix starts (List.prefix_append _ _))
  simpa [labelled] using unmarked

/-- With a blank behind each comma. -/
theorem intercalate_comma_blank (first : List Char) (others : List (List Char)) :
    List.intercalate [',', ' '] (first :: others) =
      List.intercalate [','] (first :: others.map (' ' :: ·)) := by
  induction others generalizing first with
  | nil => rfl
  | cons second others induction =>
      rw [List.map_cons, List.intercalate_cons_cons, List.intercalate_cons_cons, induction]
      cases others <;> simp [List.intercalate_cons_cons]

theorem trim_of_isName {name : List Char} (isName : IsName name) :
    Text.trim name = name ∧ Text.trim (' ' :: name) = name := by
  have trimmed : Text.Trimmed name := by
    apply Text.trimmed_of_visible
    intro c member
    have nameChar := isName.nameChar c member
    simp only [isNameChar, Bool.and_eq_true, Bool.not_eq_true'] at nameChar
    exact nameChar.1.1.1
  have blank : Text.AllBlank [' '] := by decide
  exact ⟨trimmed.trim_eq, by simpa using Text.trim_append blank Text.allBlank_nil trimmed⟩

theorem enumerated_intercalate {names : List String} (nonempty : names ≠ [])
    (isName : ∀ name ∈ names, IsName name.toList) :
    enumerated (", ".intercalate names) = names := by
  obtain ⟨first, others, rfl⟩ := List.exists_cons_of_ne_nil nonempty
  have uncut : ∀ part ∈ first.toList :: (others.map String.toList).map (' ' :: ·), ',' ∉ part := by
    have names_uncut : ∀ name ∈ first :: others, ',' ∉ name.toList := by
      intro name member comma
      have nameChar := (isName name member).nameChar ',' comma
      cases nameChar
    simpa using names_uncut
  have parts : (", ".intercalate (first :: others)).toList.splitOn ',' =
      first.toList :: (others.map String.toList).map (' ' :: ·) := by
    rw [String.toList_intercalate, List.map_cons]
    change (List.intercalate [',', ' '] _).splitOn ',' = _
    rw [intercalate_comma_blank, List.splitOn_intercalate ',' uncut (List.cons_ne_nil _ _)]
  have read : ∀ name ∈ others,
      String.ofList (Text.trim (' ' :: name.toList)) = name := by
    intro name member
    rw [(trim_of_isName (isName name (List.mem_cons_of_mem first member))).2, String.ofList_toList]
  rw [enumerated, parts, List.map_cons, (trim_of_isName (isName first List.mem_cons_self)).1,
    String.ofList_toList, List.map_map, List.map_map]
  congr 1
  exact (List.map_congr_left read).trans (List.map_id others)

/-! ## The lines of a dry run -/

section

variable (config : Config) (grammar : Grammar) (entropy : Int)

theorem labelled_meshReport (commands : List Symbol) :
    labelled "stochastic symbols: " (meshReport config commands).lines = [] := by
  rw [meshReport]
  cases generate config commands with
  | error error => rfl
  | ok built => exact labelled_other (by decide) _

theorem labelled_dryRun :
    labelled "stochastic symbols: " (dryRun config grammar entropy).lines = [] := by
  rw [dryRun]
  split
  · decide
  · rfl
  · dsimp only
    rw [labelled_cons, labelled_other (by decide), labelled_meshReport]
    rfl

theorem labelled_summary :
    labelled "stochastic symbols: " (summary config grammar) =
      match grammar.rules.stochasticNames with
      | [] => []
      | names => [", ".intercalate names] := by
  have front (name start passes size : String) : labelled "stochastic symbols: "
      ["name: " ++ name, "axiom symbols: " ++ start, "iterations: " ++ passes,
        "productions: " ++ size] = [] := by
    rw [labelled_cons, labelled_other (by decide), labelled_cons, labelled_other (by decide),
      labelled_cons, labelled_other (by decide), labelled_other (by decide)]
    rfl
  have seed (seed : String) : labelled "stochastic symbols: " ["seed: " ++ seed] = [] :=
    labelled_other (by decide) seed
  have listed : labelled "stochastic symbols: " (match grammar.rules.stochasticNames with
      | [] => []
      | names => ["stochastic symbols: " ++ ", ".intercalate names]) =
      match grammar.rules.stochasticNames with
      | [] => []
      | names => [", ".intercalate names] := by
    cases grammar.rules.stochasticNames with
    | nil => rfl
    | cons first others => exact labelled_self _ _
  rw [summary, labelled_append, labelled_append, labelled_append, front, seed, List.nil_append,
    List.append_nil]
  cases config.settings.mergeSort _ with
  | nil => exact (List.append_nil _).trans listed
  | cons first others =>
      rw [labelled_other (by decide), List.append_nil]
      exact listed

end

/-! ## The names that are listed -/

theorem isName_of_mem_stochasticNames {lines : List String} {rules : RuleTable}
    (parsed : parseRuleLines lines = .ok rules) {name : String}
    (member : name ∈ rules.stochasticNames) : IsName name.toList := by
  have several := (rules.mem_stochasticNames_iff name).mp member
  have nonempty : rules.group name ≠ [] := List.ne_nil_of_length_pos (by omega)
  obtain ⟨production, member⟩ := List.exists_mem_of_ne_nil _ nonempty
  rw [RuleTable.group, List.mem_filter, decide_eq_true_eq] at member
  obtain ⟨productions, accepted, parsed⟩ := bind_eq_ok_iff.mp parsed
  cases parsed
  obtain ⟨rule, _, parsed⟩ := exists_mem_of_mapM_eq_ok accepted member.1
  rw [← member.2]
  exact (Production.printable_of_parse parsed).name

theorem stochasticSymbols_validateConfig {config : Config} {grammar : Grammar}
    (parsed : config.grammar = .ok grammar) (entropy : Int) :
    stochasticSymbols (validateConfig config entropy).lines = grammar.rules.stochasticNames := by
  have isName : ∀ name ∈ grammar.rules.stochasticNames, IsName name.toList := by
    obtain ⟨start, _, accepted⟩ := bind_eq_ok_iff.mp parsed
    obtain ⟨rules, parsedRules, accepted⟩ := bind_eq_ok_iff.mp accepted
    cases accepted
    intro name member
    exact isName_of_mem_stochasticNames parsedRules member
  have lines_eq : labelled "stochastic symbols: " (validateConfig config entropy).lines =
      labelled "stochastic symbols: " (summary config grammar) := by
    rw [validateConfig, parsed]
    dsimp only
    rw [labelled_append, labelled_dryRun, List.append_nil]
  rw [stochasticSymbols, lines_eq, labelled_summary]
  cases names : grammar.rules.stochasticNames with
  | nil => rfl
  | cons first others =>
      rw [names] at isName
      dsimp only
      rw [List.flatMap_singleton]
      exact enumerated_intercalate (List.cons_ne_nil first others) isName

/-- A plant with rules of its own. -/
def ruledConfig (rules : String) : Config :=
  { name := "plant", start := "cube", rules, iterations := 0, seed := none, settings := []
    precision := 5 }

end CommandLine

end GrowthGrammar
