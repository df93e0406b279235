import GrowthGrammar.Proofs.Config.Reading
import GrowthGrammar.Proofs.Grammar.RuleBlock
import GrowthGrammar.Proofs.Text.Lines

/-!
# Lists of rules

A list of rules is parsed like the block in which they stand below each other, with the same numbers
of lines. So a configuration may have either.
-/

namespace GrowthGrammar

open Fallible

theorem ruleLines_intercalate {rules : List String}
    (unbroken : ∀ rule ∈ rules, ∀ c ∈ rule.toList, Text.endsLine c = false) :
    rules = ruleLines ("\n".intercalate rules) ∨
      rules = ruleLines ("\n".intercalate rules) ++ [""] := by
  have newline : "\n".toList = ['\n'] := rfl
  have restored : (rules.map String.toList).map String.ofList = rules := by simp
  rw [ruleLines, String.toList_intercalate, newline]
  rcases Text.lines_intercalate (List.forall_mem_map.mpr unbroken) with whole | cut
  · left
    rw [← whole, restored]
  · right
    have mapped := congrArg (List.map String.ofList) cut
    rwa [restored, List.map_append] at mapped

/-- An empty line at the end holds no rule and changes the number of no other line. -/
theorem parseRuleLines_concat_empty (lines : List String) :
    parseRuleLines (lines ++ [""]) = parseRuleLines lines := by
  have noRule : isRule "" = false := by decide
  have skipped : numberedRules (lines ++ [""]) = numberedRules lines := by
    simp [numberedRules, List.zipIdx_append, noRule]
  rw [parseRuleLines, skipped, parseRuleLines]

theorem parseRules_intercalate {rules : List String}
    (unbroken : ∀ rule ∈ rules, ∀ c ∈ rule.toList, Text.endsLine c = false) :
    parseRules ("\n".intercalate rules) = parseRuleLines rules := by
  rcases ruleLines_intercalate unbroken with whole | cut
  · rw [parseRules, ← whole]
  · rw [parseRules, cut, parseRuleLines_concat_empty, ← cut]

namespace Config

/-- A list of rules can be exchanged for its block: whether a configuration is accepted, and what is
read from it, stays the same. -/
theorem ofJson_put_block {members : List (String × Json)} {rules : List String}
    (given : Json.member? members "rules" = some (.array (rules.map .string))) :
    ofJson (.object (Association.put members "rules" (.string ("\n".intercalate rules)))) =
      ofJson (.object members) := by
  have rules_eq (standard : String) :
      memberOr (Association.put members "rules" (.string ("\n".intercalate rules))) "rules" standard
        asRules = memberOr members "rules" standard asRules := by
    rw [memberOr, memberOr, member?_put_self, given]
    exact (asRules_array "rules" rules).symm
  simp only [ofJson, asMembers, ok_bind, rules_eq,
    readPreset_put_of_ne (by decide : "preset" ≠ "rules"),
    memberOr_put_of_ne (by decide : "name" ≠ "rules"),
    memberOr_put_of_ne (by decide : "axiom" ≠ "rules"),
    memberOr_put_of_ne (by decide : "iterations" ≠ "rules"),
    readSeed_put_of_ne (by decide : "seed" ≠ "rules"),
    readSettings_put_of_ne (by decide : "defaults" ≠ "rules"),
    readPrecision_put_of_ne (by decide : "export" ≠ "rules")]

theorem rules_of_ofJson {members : List (String × Json)} {rules : List String} {config : Config}
    (given : Json.member? members "rules" = some (.array (rules.map .string)))
    (accepted : ofJson (.object members) = .ok config) :
    config.rules = "\n".intercalate rules := by
  rcases ofJson_object_eq_ok_iff.mp accepted with ⟨_, _, _, rules_eq, _, _, _, _, _, _⟩
  rw [memberOr, given] at rules_eq
  exact Except.ok.inj (rules_eq.symm.trans (asRules_array "rules" rules))

end Config

/-- Rules that are no more than a line each are parsed like the block of their lines, to the same
table or with the same error. A configuration may have such a list in place of the block: it is
accepted or refused alike, and its grammar has the rules of the list. -/
theorem rules_alike_in_list_and_block {rules : List String}
    (unbroken : ∀ rule ∈ rules, ∀ c ∈ rule.toList, Text.endsLine c = false) :
    parseRuleLines rules = parseRules ("\n".intercalate rules) ∧
      ∀ members, Json.member? members "rules" = some (.array (rules.map .string)) →
        Config.ofJson (.object members) =
            Config.ofJson (.object
              (Association.put members "rules" (.string ("\n".intercalate rules)))) ∧
          ∀ config, Config.ofJson (.object members) = .ok config →
            config.grammar = Grammar.parse config.start rules := by
  have alike := parseRules_intercalate unbroken
  refine ⟨alike.symm, fun members given => ⟨(Config.ofJson_put_block given).symm, ?_⟩⟩
  intro config accepted
  rw [parseRules] at alike
  rw [Config.grammar, Config.rules_of_ofJson given accepted, Grammar.parse, Grammar.parse, alike]

/-- Rules among a comment and empty lines, the last of which is lost in the block, and a list whose
second rule is refused on its third line. -/
theorem rules_alike_in_list_and_block_of_gaps :
    let rules := ["# leaves", "A -> f A", "", "A -> s", "", ""]
    let refused := ["A -> f", "", "A"]
    let members : List (String × Json) :=
      [("axiom", .string "A"), ("rules", .array (rules.map .string))]
    (∀ rule ∈ rules ++ refused, ∀ c ∈ rule.toList, Text.endsLine c = false) ∧
      ruleLines ("\n".intercalate rules) ≠ rules ∧
      (parseRules "# leaves\nA -> f A\n\nA -> s\n\n").toOption.map
          (fun table => table.productions.map Production.line) = some [some 2, some 4] ∧
      parseRules "A -> f\n\nA" =
        .error { cause := .missingArrow, location := { line := some 3, source := some "A" } } ∧
      ∃ config, Config.ofJson (.object members) = .ok config ∧
        config.grammar = Grammar.parse "A" rules := by
  intro rules refused members
  have checked : (rules ++ refused).all fun rule => rule.toList.all (Text.endsLine · == false) := by
    decide +kernel
  have unbroken : ∀ rule ∈ rules ++ refused, ∀ c ∈ rule.toList, Text.endsLine c = false :=
    fun rule member c inside =>
      eq_of_beq (List.all_eq_true.mp (List.all_eq_true.mp checked rule member) c inside)
  rcases List.forall_mem_append.mp unbroken with ⟨ruleLines, refusedLines⟩
  rcases rules_alike_in_list_and_block ruleLines with ⟨parsed, read⟩
  rcases read members rfl with ⟨_, grammar_eq⟩
  refine ⟨unbroken, by decide +kernel, ?_, ?_, _, rfl, grammar_eq _ rfl⟩
  · have block_eq : "# leaves\nA -> f A\n\nA -> s\n\n" = "\n".intercalate rules := by decide +kernel
    rw [block_eq, ← parsed]
    decide +kernel
  · have block_eq : "A -> f\n\nA" = "\n".intercalate refused := by decide +kernel
    rw [block_eq, ← (rules_alike_in_list_and_block refusedLines).1]
    decide +kernel

end GrowthGrammar
