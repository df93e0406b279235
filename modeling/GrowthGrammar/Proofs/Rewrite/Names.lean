import GrowthGrammar.Proofs.Grammar.Canonical
import GrowthGrammar.Proofs.Grammar.Word
import GrowthGrammar.Proofs.Rewrite.Balance

/-!
# Names in derivations

All symbols of a derivation have names that can be scanned, since those of the start word and of the
successors were. So the text of any derivation can be cut into its symbols again.
-/

namespace GrowthGrammar

open Fallible RawSymbol

def Symbol.Named (symbol : Symbol) : Prop :=
  IsName symbol.name.toList

structure Grammar.Named (grammar : Grammar) : Prop where
  start : ∀ symbol ∈ grammar.start, symbol.Named
  successor : ∀ production ∈ grammar.rules.productions,
    ∀ template ∈ production.successor, template.bare.Named

/-! Parsing. -/

theorem named_of_parseWord {text : String} {word : List Symbol}
    (parsed : parseWord text = .ok word) : ∀ symbol ∈ word, symbol.Named := by
  intro symbol member
  rw [parseWord_eq] at parsed
  obtain ⟨raws, scanned, read⟩ := bind_eq_ok_iff.mp parsed
  obtain ⟨raw, rawMember, constant⟩ := exists_mem_of_mapM_eq_ok read member
  obtain ⟨parameters, _, same⟩ := bind_eq_ok_iff.mp constant
  cases same
  exact ((spelled_of_scan (scanWithin_eq_ok_iff.mp scanned)).names raw rawMember).1

theorem Grammar.named_of_parse {start : String} {lines : List String} {grammar : Grammar}
    (parsed : Grammar.parse start lines = .ok grammar) : grammar.Named := by
  obtain ⟨word, parsedStart, parsed⟩ := bind_eq_ok_iff.mp parsed
  obtain ⟨rules, parsedRules, parsed⟩ := bind_eq_ok_iff.mp parsed
  cases parsed
  refine ⟨named_of_parseWord parsedStart, fun production member template templateMember => ?_⟩
  obtain ⟨productions, accepted, parsed⟩ := bind_eq_ok_iff.mp parsedRules
  cases parsed
  obtain ⟨rule, _, parsed⟩ := exists_mem_of_mapM_eq_ok accepted member
  exact ((Production.printable_of_parse parsed).successor template templateMember).name

/-! Rewriting. -/

namespace Grammar.Named

variable {grammar : Grammar}

/-- A symbol stays as it is, or makes way for symbols with the names of templates. -/
theorem rewriteSymbol (named : grammar.Named) (source : Option (Source σ)) {symbol : Symbol}
    (symbolNamed : symbol.Named) :
    Ensures (GrowthGrammar.rewriteSymbol grammar.rules source symbol)
      fun word => ∀ symbol ∈ word, symbol.Named := by
  refine .bind (.adaptExcept _ (drawProduction_ensures _)) fun drawn choice => ?_
  cases drawn with
  | none => exact .pure (List.forall_mem_singleton.mpr symbolNamed)
  | some production =>
      have member := (RuleTable.mem_candidates (choice production rfl)).1
      refine .adaptExcept _ fun before word after run => ?_
      have names := production.apply_ensures _ before word after run
      intro symbol symbolMember
      have nameMember : symbol.name ∈ (production.successor.map Template.bare).map Symbol.name :=
        names ▸ List.mem_map_of_mem symbolMember
      rw [List.map_map] at nameMember
      obtain ⟨template, templateMember, same⟩ := List.mem_map.mp nameMember
      have templateNamed := named.successor production member template templateMember
      rw [Symbol.Named, ← same]
      exact templateNamed

theorem rewriteOnce (named : grammar.Named) (source : Option (Source σ)) {word : List Symbol}
    (wordNamed : ∀ symbol ∈ word, symbol.Named) :
    Ensures (GrowthGrammar.rewriteOnce grammar.rules source word)
      fun word => ∀ symbol ∈ word, symbol.Named := by
  refine .bind (.mapM fun symbol member => named.rewriteSymbol source (wordNamed symbol member))
    fun words related => .pure fun symbol member => ?_
  obtain ⟨part, partMember, symbolMember⟩ := List.mem_flatten.mp member
  obtain ⟨_, _, partNamed⟩ := exists_mem_of_forall₂ related partMember
  exact partNamed symbol symbolMember

/-- Whatever is drawn, a derivation that comes to its end has come to symbols with names. -/
theorem expand (named : grammar.Named) {source : Source σ} {limit : Option Int} {iterations : Int}
    {state : σ} {word : List Symbol}
    (expanded : (expand grammar.rules source limit iterations grammar.start state).1 = .ok word) :
    ∀ symbol ∈ word, symbol.Named := by
  have generations := Derivation.forall_run (fun _ => named.rewriteOnce (some source)) limit
    iterations named.start state
  simp only [GrowthGrammar.expand, Derivation.result] at expanded
  split at expanded
  · cases expanded
  · cases expanded
    cases last : (Derivation.run grammar.rules source limit iterations grammar.start
      state).generations.getLast? with
    | none => exact List.forall_mem_nil _
    | some word => exact generations word (List.mem_of_getLast? last)

end Grammar.Named

end GrowthGrammar
