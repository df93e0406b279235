import GrowthGrammar.Proofs.Rewrite.Completion
import GrowthGrammar.Proofs.Rewrite.Composition
import GrowthGrammar.Proofs.Turtle.Brackets

/-!
# Balanced derivations

Rules that leave brackets alone, and whose successors have matching brackets, keep the brackets of a
word matching through all passes. A turtle that obeys such a word saves and restores in turn.
-/

namespace GrowthGrammar

open Fallible

/-! What a pass puts in the place of a symbol, when it does not fail. -/

/-- A symbol with the name of the template. -/
def Template.bare (template : Template) : Symbol :=
  { name := template.name, parameters := [] }

section

variable {source : Option (Source σ)}

theorem Template.instantiate_ensures (template : Template) (env : Env) :
    Ensures (template.instantiate env source) fun symbol => symbol.name = template.name :=
  .bind (.trivial _) fun _ _ => .pure rfl

theorem Production.apply_ensures (production : Production) (values : List Float) :
    Ensures (production.apply values source) fun word =>
      word.map Symbol.name = (production.successor.map Template.bare).map Symbol.name := by
  intro before word after run
  have instances := Ensures.mapM
    (fun template _ => template.instantiate_ensures (.ofLists production.bindings values))
    before word after run
  rw [List.map_map]
  exact map_eq_map_of_forall₂ (fun _ _ same => same) instances

theorem Source.choose_ensures (source : Source σ) (items : List α) :
    Ensures (source.choose items) (· ∈ items) := by
  intro before item after run
  rw [source.run_choose] at run
  cases chosen : answered items (source.index items.length before).1 with
  | error error =>
      rw [chosen] at run
      cases run
  | ok other =>
      rw [chosen] at run
      cases run
      exact mem_of_answered chosen

theorem drawProduction_ensures (candidates : List Production) :
    Ensures (drawProduction source candidates) fun drawn =>
      ∀ production, drawn = some production → production ∈ candidates := by
  match candidates with
  | [] => exact .pure fun _ impossible => by cases impossible
  | [production] =>
      refine .pure fun other same => ?_
      cases same
      exact List.mem_cons_self
  | first :: second :: rest =>
      cases source with
      | none =>
          intro before drawn after run
          cases run
      | some source =>
          refine .bind (source.choose_ensures (first :: second :: rest)) fun production member => ?_
          refine .pure fun other same => ?_
          cases same
          exact member

end

/-! Rules that keep brackets. -/

/-- No bracket is replaced, and the brackets of every successor match. -/
structure RuleTable.KeepsBrackets (table : RuleTable) : Prop where
  predecessor : ∀ production ∈ table.productions,
    production.predecessor ≠ "[" ∧ production.predecessor ≠ "]"
  successor : ∀ production ∈ table.productions,
    Word.Balanced (production.successor.map Template.bare)

section

variable {rules : RuleTable} {source : Option (Source σ)}

theorem rewriteSymbol_ensures (keeps : rules.KeepsBrackets) (symbol : Symbol) :
    Ensures (rewriteSymbol rules source symbol) (Word.Replaces symbol) := by
  refine .bind (.adaptExcept _ (drawProduction_ensures _)) fun drawn choice => ?_
  cases drawn with
  | none => exact .pure (.inl rfl)
  | some production =>
      have candidate := choice production rfl
      have member := (RuleTable.mem_candidates candidate).1
      have predecessor := keeps.predecessor production member
      rw [RuleTable.predecessor_of_mem_candidates candidate] at predecessor
      refine .adaptExcept _ fun before word after run => .inr ⟨?_, ?_, ?_⟩
      · simpa [Symbol.opens] using predecessor.1
      · simpa [Symbol.closes] using predecessor.2
      · exact (keeps.successor production member).of_names_eq
          (production.apply_ensures _ before word after run)

theorem rewriteOnce_ensures (keeps : rules.KeepsBrackets) {word : List Symbol}
    (balanced : Word.Balanced word) :
    Ensures (rewriteOnce rules source word) Word.Balanced :=
  .bind (.mapM fun symbol _ => rewriteSymbol_ensures keeps symbol) fun _ replaces =>
    .pure (balanced.flatten replaces)

end

namespace Derivation

/-- What every pass keeps is true of all generations. -/
theorem forall_passesFrom {rules : RuleTable} {source : Source σ} {property : List Symbol → Prop}
    (kept : ∀ word, property word → Ensures (rewriteOnce rules (some source) word) property)
    (limit : Option Int) (done passes : Nat) {start : List Symbol} (holds : property start)
    (state : σ) :
    ∀ word ∈ (passesFrom rules source limit done passes start state).generations,
      property word := by
  induction passes generalizing done start state with
  | zero =>
      intro word member
      rw [List.mem_singleton.mp member]
      exact holds
  | succ passes induction =>
      rw [passesFrom]
      split
      · simpa using holds
      · next next after rewritten =>
          split
          · simpa using holds
          · have nextHolds := kept start holds state next after rewritten
            intro word member
            rcases List.mem_cons.mp member with rfl | member
            · exact holds
            · exact induction (done + 1) nextHolds after word member

theorem forall_run {rules : RuleTable} {source : Source σ} {property : List Symbol → Prop}
    (kept : ∀ word, property word → Ensures (rewriteOnce rules (some source) word) property)
    (limit : Option Int) (iterations : Int) {start : List Symbol} (holds : property start)
    (state : σ) :
    ∀ word ∈ (run rules source limit iterations start state).generations, property word := by
  rw [run]
  split
  · simp
  · exact forall_passesFrom kept limit 0 iterations.toNat holds state

end Derivation

/-- Every generation is balanced, whatever is drawn and wherever the derivation ends. A turtle with
an empty stack has a pose to restore at each closing bracket that it comes to, and when it comes to
the end its stack is empty again. -/
theorem derivation_balanced {rules : RuleTable} (keeps : rules.KeepsBrackets) (source : Source σ)
    (limit : Option Int) (iterations : Int) {start : List Symbol} (balanced : Word.Balanced start)
    (state : σ) {word : List Symbol}
    (derived : word ∈ (Derivation.run rules source limit iterations start state).generations) :
    Word.Balanced word ∧
      ∀ before : Turtle, before.stack = [] →
        (∀ after, (word.forM Turtle.obey).run before = .ok ⟨⟩ after → after.stack = []) ∧
          ∀ done symbol rest, word = done ++ symbol :: rest → symbol.name = "]" →
            ∀ after, (done.forM Turtle.obey).run before = .ok ⟨⟩ after → after.stack ≠ [] := by
  have kept : ∀ word, Word.Balanced word →
      Ensures (rewriteOnce rules (some source) word) Word.Balanced :=
    fun _ => rewriteOnce_ensures keeps
  have balancedWord := Derivation.forall_run kept limit iterations balanced state word derived
  refine ⟨balancedWord, fun before saved => ⟨fun after run => ?_, ?_⟩⟩
  · rw [Turtle.stack_of_balanced balancedWord run, saved]
  · rintro done symbol rest rfl closes after run
    have isClosing : symbol.closes := by simpa [Symbol.closes] using closes
    rcases Turtle.stack_of_covered_closing balancedWord.1 isClosing run with ⟨pose, left, stack⟩
    rw [stack]
    exact List.cons_ne_nil pose _

/-- Two passes by two rules for one symbol: the one branches, the other has an empty bracket. -/
theorem derivation_balanced_of_branching :
    let opening : Template := ⟨"[", []⟩
    let closing : Template := ⟨"]", []⟩
    let branch : Template := ⟨"A", [⟨"r", .reference "r"⟩]⟩
    let rules : RuleTable := { productions :=
      [{ predecessor := "A", bindings := ["r"], line := none,
         successor := [⟨"f", []⟩, opening, ⟨"+x", []⟩, branch, closing, branch] },
       { predecessor := "A", bindings := ["r"], line := none, successor := [opening, closing] }] }
    let start : List Symbol := [⟨"[", []⟩, ⟨"A", [1]⟩, ⟨"]", []⟩]
    let source : Script := .ofList [0.25, 0.75]
    let derivation := Derivation.run rules Script.source none 2 start source
    let last := derivation.generations.getLast?.getD []
    rules.KeepsBrackets ∧ Word.Balanced start ∧ last ∈ derivation.generations ∧
      last.map Symbol.name =
        ["[", "f", "[", "+x", "[", "]", "]", "f", "[", "+x", "A", "]", "A", "]"] ∧
      Word.Balanced last ∧
      ∃ after, (last.forM Turtle.obey).run (.new .standard) = .ok ⟨⟩ after ∧ after.stack = [] ∧
        ∀ done symbol rest, last = done ++ symbol :: rest → symbol.name = "]" →
          ∀ earlier, (done.forM Turtle.obey).run (.new .standard) = .ok ⟨⟩ earlier →
            earlier.stack ≠ [] := by
  intro opening closing branch rules start source derivation last
  have keeps : rules.KeepsBrackets := ⟨by decide, by decide⟩
  have balanced : Word.Balanced start := by decide
  have derived : last ∈ derivation.generations := by
    have nonempty : derivation.generations ≠ [] := Derivation.run_ne_nil 2 start source
    simp only [last, List.getLast?_eq_some_getLast nonempty, Option.getD_some, List.getLast_mem]
  have names : last.map Symbol.name =
      ["[", "f", "[", "+x", "[", "]", "]", "f", "[", "+x", "A", "]", "A", "]"] := by
    decide +kernel
  have accepted : isCompleted ((last.forM Turtle.obey).run (.new .standard)) = true := by
    decide +kernel
  rcases exists_ok_of_isCompleted accepted with ⟨⟨⟩, after, run⟩
  rcases derivation_balanced keeps Script.source none 2 balanced source derived with
    ⟨balancedLast, obeyed⟩
  rcases obeyed (.new .standard) rfl with ⟨emptied, opened⟩
  exact ⟨keeps, balanced, derived, names, balancedLast, after, run, emptied after run, opened⟩

end GrowthGrammar
