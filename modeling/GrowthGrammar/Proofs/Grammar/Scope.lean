import GrowthGrammar.Grammar.Parse
import GrowthGrammar.Proofs.Expr.Evaluation

/-!
# Scope

The expressions to the right of a parsed rule use the names that its left-hand side binds, and no
others.
-/

namespace GrowthGrammar

open Fallible

def Template.Scoped (bindings : List String) (template : Template) : Prop :=
  ∀ formula ∈ template.formulas, formula.tree.Scoped bindings

def Production.Scoped (production : Production) : Prop :=
  ∀ template ∈ production.successor, template.Scoped production.bindings

def RuleTable.Scoped (table : RuleTable) : Prop :=
  ∀ production ∈ table.productions, production.Scoped

theorem unboundName?_eq_none_iff {bindings : List String} {formula : Formula} :
    unboundName? bindings formula = none ↔ formula.tree.Scoped bindings := by
  simp [unboundName?, Expr.Scoped, Expr.mem_sortedNames]

theorem parseTemplate_scoped {location : Location} {bindings : List String} {raw : RawSymbol}
    {template : Template} (parsed : parseTemplate location bindings raw = .ok template) :
    template.Scoped bindings := by
  rcases bind_eq_ok_iff.mp parsed with ⟨formulas, _, parsed⟩
  cases unbound : formulas.findSome? (unboundName? bindings) with
  | some name => simp [unbound] at parsed
  | none =>
      rw [unbound] at parsed
      cases parsed
      intro formula member
      exact unboundName?_eq_none_iff.mp (List.findSome?_eq_none_iff.mp unbound formula member)

theorem parseProduction_scoped {text : String} {line : Option Int} {production : Production}
    (parsed : parseProduction text line = .ok production) : production.Scoped := by
  simp only [parseProduction] at parsed
  split at parsed
  · cases parsed
  · rcases bind_eq_ok_iff.mp parsed with ⟨symbol, _, parsed⟩
    rcases bind_eq_ok_iff.mp parsed with ⟨raws, _, parsed⟩
    rcases bind_eq_ok_iff.mp parsed with ⟨successor, templates, parsed⟩
    cases parsed
    intro template member
    rcases exists_mem_of_mapM_eq_ok templates member with ⟨raw, _, parsed⟩
    exact parseTemplate_scoped parsed

theorem parseRuleLines_scoped {lines : List String} {table : RuleTable}
    (parsed : parseRuleLines lines = .ok table) : table.Scoped := by
  rcases bind_eq_ok_iff.mp parsed with ⟨productions, rules, parsed⟩
  cases parsed
  intro production member
  rcases exists_mem_of_mapM_eq_ok rules member with ⟨rule, _, parsed⟩
  exact parseProduction_scoped parsed

theorem Grammar.parse_scoped {start : String} {lines : List String} {grammar : Grammar}
    (parsed : Grammar.parse start lines = .ok grammar) : grammar.rules.Scoped := by
  rcases bind_eq_ok_iff.mp parsed with ⟨word, _, parsed⟩
  rcases bind_eq_ok_iff.mp parsed with ⟨rules, parsedRules, parsed⟩
  cases parsed
  exact parseRuleLines_scoped parsedRules

end GrowthGrammar
