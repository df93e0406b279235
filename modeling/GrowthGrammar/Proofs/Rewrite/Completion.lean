import GrowthGrammar.Proofs.Grammar.Scope
import GrowthGrammar.Proofs.Random.Record
import GrowthGrammar.Random.Twister
import GrowthGrammar.Rewrite
import Mathlib.Data.List.Chain

/-!
# Derivations are completed

A derivation by parsed rules is never cut short by an error: each pass reaches a next word, in which
every symbol that is not kept has a value for each of the expressions it is written with.
-/

namespace GrowthGrammar

open Fallible

/-- The symbol has the name of the template and, as parameters, values of its expressions. -/
structure Template.HasInstance (env : Env) (source : Source σ) (template : Template)
    (symbol : Symbol) : Prop where
  name : symbol.name = template.name
  parameters : List.Forall₂ (fun formula value => formula.tree.HasValue env source value)
    template.formulas symbol.parameters

/-- The words that may stand for a symbol behind a pass. -/
inductive Symbol.Becomes (rules : RuleTable) (source : Source σ) (symbol : Symbol) :
    List Symbol → Prop
  | kept : rules.candidates symbol.name symbol.parameters.length = [] →
      Symbol.Becomes rules source symbol [symbol]
  | replaced {production : Production} {word : List Symbol} :
      production ∈ rules.candidates symbol.name symbol.parameters.length →
      List.Forall₂ (Template.HasInstance (.ofLists production.bindings symbol.parameters) source)
        production.successor word →
      Symbol.Becomes rules source symbol word

/-- The words that may follow a word in a derivation. -/
def Derivation.Follows (rules : RuleTable) (source : Source σ) (word next : List Symbol) : Prop :=
  ∃ parts, List.Forall₂ (Symbol.Becomes rules source) word parts ∧ next = parts.flatten

section

variable {source : Source σ}

theorem Template.instantiate_yields {env : Env} {bindings : List String} {template : Template}
    (inScope : template.Scoped bindings) (bound : ∀ name ∈ bindings, (env name).isSome) :
    Yields (template.instantiate env (some source)) (template.HasInstance env source) := by
  refine Yields.bind (Yields.mapM fun formula member => ?_) fun values parameters =>
    Yields.pure ⟨rfl, parameters⟩
  exact Expr.eval_yields source fun name used => bound name (inScope formula member name used)

theorem Production.apply_yields {production : Production} (inScope : production.Scoped)
    {values : List Float} (length_eq : production.arity = values.length) :
    Yields (production.apply values (some source))
      (List.Forall₂ (Template.HasInstance (.ofLists production.bindings values) source)
        production.successor) :=
  Yields.mapM fun template member =>
    template.instantiate_yields (inScope template member) fun _ bound =>
      Env.isSome_ofLists (Nat.le_of_eq length_eq) bound

theorem Source.choose_yields (inRange : source.InRange) {items : List α} (nonempty : items ≠ []) :
    Yields (source.choose items) (· ∈ items) := by
  intro before
  have positive : 0 < items.length := List.length_pos_iff.mpr nonempty
  rcases inRange items.length before positive with ⟨index, below, drawn⟩
  have found : itemAt? items (index : Int) = some items[index] := by
    simp [itemAt?, below]
  have chosen : answered items (.ok index) = .ok items[index] := by
    simp only [answered, found]
  refine ⟨items[index], (source.index items.length before).2, ?_, List.getElem_mem below⟩
  rw [source.run_choose, drawn, chosen]
  rfl

theorem drawProduction_yields (inRange : source.InRange) (candidates : List Production) :
    Yields (drawProduction (some source) candidates) fun
      | none => candidates = []
      | some production => production ∈ candidates := by
  match candidates with
  | [] => exact .pure rfl
  | [production] => exact .pure List.mem_cons_self
  | first :: second :: rest =>
      exact .bind (source.choose_yields inRange (List.cons_ne_nil first (second :: rest)))
        fun production member => .pure member

theorem RuleTable.mem_candidates {table : RuleTable} {name : String} {arity : Nat}
    {production : Production} (member : production ∈ table.candidates name arity) :
    production ∈ table.productions ∧ production.arity = arity := by
  simp only [candidates, group, List.mem_filter, decide_eq_true_eq] at member
  exact ⟨member.1.1, member.2⟩

theorem RuleTable.predecessor_of_mem_candidates {table : RuleTable} {name : String} {arity : Nat}
    {production : Production} (member : production ∈ table.candidates name arity) :
    production.predecessor = name := by
  simp only [candidates, group, List.mem_filter, decide_eq_true_eq] at member
  exact member.1.2

variable {rules : RuleTable}

theorem rewriteSymbol_yields (inScope : rules.Scoped) (inRange : source.InRange) (symbol : Symbol) :
    Yields (rewriteSymbol rules (some source) symbol) (symbol.Becomes rules source) := by
  refine .bind (.adaptExcept _ (drawProduction_yields inRange _)) fun drawn choice => ?_
  cases drawn with
  | none => exact .pure (.kept choice)
  | some production =>
      rcases RuleTable.mem_candidates choice with ⟨member, arity_eq⟩
      have applied : Yields (production.apply symbol.parameters (some source)) _ :=
        production.apply_yields (inScope production member) arity_eq
      exact .adaptExcept _ (applied.imp fun word => .replaced choice)

theorem rewriteOnce_yields (inScope : rules.Scoped) (inRange : source.InRange)
    (word : List Symbol) :
    Yields (rewriteOnce rules (some source) word) (Derivation.Follows rules source word) :=
  .bind (.mapM fun symbol _ => rewriteSymbol_yields inScope inRange symbol) fun parts becomes =>
    .pure ⟨parts, becomes, rfl⟩

end

namespace Derivation

/-- A derivation that has done all of its passes, with a word for the start and for each pass. -/
structure Completed (rules : RuleTable) (source : Source σ) (passes : Nat) (start : List Symbol)
    (derivation : Derivation σ) : Prop where
  error? : derivation.error? = none
  length : derivation.generations.length = passes + 1
  head? : derivation.generations.head? = some start
  follows : derivation.generations.IsChain (Follows rules source)

theorem passesFrom_completed {rules : RuleTable} {source : Source σ} (inScope : rules.Scoped)
    (inRange : source.InRange) (done passes : Nat) (word : List Symbol) (state : σ) :
    (passesFrom rules source none done passes word state).Completed rules source passes word := by
  induction passes generalizing done word state with
  | zero => exact ⟨rfl, rfl, rfl, .singleton word⟩
  | succ passes induction =>
      rcases rewriteOnce_yields inScope inRange word state with ⟨next, after, run, follows⟩
      have rewritten : rewriteOnce rules (some source) word state = .ok next after := run
      have rest := induction (done + 1) next after
      have unlimited : exceeds none next = none := rfl
      simp only [passesFrom, rewritten, unlimited]
      refine ⟨rest.error?, ?_, rfl, ?_⟩
      · rw [List.length_cons, rest.length]
      · apply List.IsChain.cons rest.follows
        intro first head
        rw [rest.head?] at head
        cases head
        exact follows

/-- All that can end a derivation early is that a word gets too long. -/
theorem passesFrom_error {rules : RuleTable} {source : Source σ} (inScope : rules.Scoped)
    (inRange : source.InRange) {limit : Option Int} {done passes : Nat} {word : List Symbol}
    {state : σ} {error : DerivationError}
    (ended : (passesFrom rules source limit done passes word state).error? = some error) :
    ∃ most pass, error = .expansion (.tooManySymbols most pass) := by
  induction passes generalizing done word state with
  | zero => cases ended
  | succ passes induction =>
      rcases rewriteOnce_yields inScope inRange word state with ⟨next, after, run, _⟩
      have rewritten : rewriteOnce rules (some source) word state = .ok next after := run
      simp only [passesFrom, rewritten] at ended
      cases exceeding : exceeds limit next with
      | none =>
          rw [exceeding] at ended
          exact induction ended
      | some most =>
          rw [exceeding] at ended
          cases ended
          exact ⟨most, done + 1, rfl⟩

theorem Completed.result_eq {rules : RuleTable} {source : Source σ} {passes : Nat}
    {start : List Symbol} {derivation : Derivation σ}
    (completed : derivation.Completed rules source passes start) :
    ∃ word, derivation.generations.getLast? = some word ∧ derivation.result = .ok word := by
  have nonempty : derivation.generations ≠ [] := by
    apply List.ne_nil_of_length_pos
    rw [completed.length]
    exact Nat.succ_pos passes
  refine ⟨_, List.getLast?_eq_some_getLast nonempty, ?_⟩
  simp [result, completed.error?, List.getLast?_eq_some_getLast nonempty]

end Derivation

/-- Rules that use the names they bind, and no others, rewrite every word; so a word fails to be
derived only for the number of passes or of symbols. -/
theorem exists_expansion_of_expand_error {rules : RuleTable} {source : Source σ}
    (inScope : rules.Scoped) (inRange : source.InRange) {limit : Option Int} {iterations : Int}
    {start : List Symbol} {state : σ} {error : DerivationError}
    (failed : (expand rules source limit iterations start state).1 = .error error) :
    ∃ reason, error = .expansion reason := by
  simp only [expand, Derivation.result] at failed
  split at failed
  · next early ended =>
      cases failed
      rw [Derivation.run] at ended
      split at ended
      · cases ended
        exact ⟨_, rfl⟩
      · rcases Derivation.passesFrom_error inScope inRange ended with ⟨most, pass, rfl⟩
        exact ⟨_, rfl⟩
  · cases failed

/-! The numbers of a twister keep to their bounds. -/

theorem Twister.belowWithin_lt {bound : Nat} (positive : 0 < bound) (attempts : Nat)
    (twister : Twister) : (twister.belowWithin attempts bound).1 < bound := by
  induction attempts generalizing twister with
  | zero => exact positive
  | succ attempts induction =>
      simp only [belowWithin]
      split
      · assumption
      · exact induction _

theorem Twister.source_inRange : Twister.source.InRange := fun bound twister positive =>
  ⟨(twister.below bound).1, belowWithin_lt positive 4096 twister, rfl⟩

/-! Grammars given as texts. -/

/-- The rules are one text or a list of texts. Whatever the number of passes and the source, the
derivation comes to its last word, and no word on the way holds a symbol with a parameter that has
no value. -/
theorem Grammar.derivation_completed {start : String} {rules : String ⊕ List String}
    {grammar : Grammar} (parsed : Grammar.parse start (rules.elim ruleLines id) = .ok grammar)
    {source : Source σ} (inRange : source.InRange) {iterations : Int}
    (nonnegative : 0 ≤ iterations) (state : σ) :
    (Derivation.run grammar.rules source none iterations grammar.start state).Completed
        grammar.rules source iterations.toNat grammar.start ∧
      ∃ word, (expand grammar.rules source none iterations grammar.start state).1 = .ok word ∧
        (Derivation.run grammar.rules source none iterations grammar.start
          state).generations.getLast? = some word := by
  have completed : (Derivation.run grammar.rules source none iterations grammar.start
      state).Completed grammar.rules source iterations.toNat grammar.start := by
    rw [Derivation.run, if_neg (Int.not_lt.mpr nonnegative)]
    exact Derivation.passesFrom_completed (Grammar.parse_scoped parsed) inRange 0 _ _ state
  rcases completed.result_eq with ⟨word, last, result⟩
  exact ⟨completed, word, result, last⟩

/-- A start word with a constant, and two rules for one symbol, the one with a random number and
the other without a successor. -/
theorem Grammar.derivation_completed_of_branching :
    ∃ grammar, Grammar.parse "A{1/2} B"
        ((Sum.inl "A{r} -> A{r*random()} [ A{-r} ]\n# leaf\nA{r} ->" :
          String ⊕ List String).elim ruleLines id) = .ok grammar ∧
      Twister.source.InRange ∧ (0 : Int) ≤ 7 ∧
      ∃ word, (expand grammar.rules Twister.source none 7 grammar.start (.ofSeed 1)).1 =
        .ok word := by
  have accepted : (Grammar.parse "A{1/2} B"
      ((Sum.inl "A{r} -> A{r*random()} [ A{-r} ]\n# leaf\nA{r} ->" :
        String ⊕ List String).elim ruleLines id)).isOk = true := by decide +kernel
  rcases exists_ok_of_isOk accepted with ⟨grammar, parsed⟩
  rcases Grammar.derivation_completed parsed Twister.source_inRange
      (by decide : (0 : Int) ≤ 7) (.ofSeed 1) with ⟨_, word, result, _⟩
  exact ⟨grammar, parsed, Twister.source_inRange, by decide, word, result⟩

end GrowthGrammar
