import GrowthGrammar.Proofs.Repetition
import GrowthGrammar.Proofs.Rewrite.Completion

/-!
# What rewriting draws

A pass draws for each symbol in turn: first the index of the production, if there is a choice, and
then one number for each `random()` of the successor. Rules that leave nothing to chance derive the
same words from every source.
-/

namespace GrowthGrammar

/-! The draws that are due, together with what they lead to. -/

/-- An expression draws a number at each `random()`, operands from left to right. -/
inductive Expr.Spends (env : Env) : Expr → List Draw → Except EvalError Float → Prop
  | number {literal : String} : Spends env (.number literal) [] (.ok (numberValue literal))
  | hexadecimal {literal : String} :
      Spends env (.hexadecimal literal) [] (.ok (GrowthGrammar.hexadecimalValue literal))
  | truth {value : Bool} : Spends env (.truth value) [] (.ok (if value then 1 else 0))
  | random {value : Float} : Spends env .random [.uniform value] (.ok value)
  | reference {name : String} {value : Float} :
      env name = some value → Spends env (.reference name) [] (.ok value)
  | signed {sign : Sign} {operand : Expr} {draws : List Draw} {value : Float} :
      Spends env operand draws (.ok value) →
      Spends env (.signed sign operand) draws (.ok (sign.apply value))
  | binary {operation : Operation} {left right : Expr} {first second : List Draw}
      {leftValue rightValue : Float} :
      Spends env left first (.ok leftValue) → Spends env right second (.ok rightValue) →
      Spends env (.binary operation left right) (first ++ second)
        (.ok (operation.apply leftValue rightValue))

/-- A template draws for its parameters in turn. -/
def Template.Spends (env : Env) (template : Template) (draws : List Draw)
    (outcome : Except EvalError Symbol) : Prop :=
  ∃ values, InTurn (fun formula => formula.tree.Spends env) template.formulas draws values ∧
    outcome = values.map fun parameters => { name := template.name, parameters }

/-- A production draws for the symbols of its successor in turn. -/
def Production.Spends (values : List Float) (production : Production) :
    List Draw → Except EvalError (List Symbol) → Prop :=
  InTurn (Template.Spends (.ofLists production.bindings values)) production.successor

/-- A production is drawn only from among two or more. -/
inductive Production.Taken (candidates : List Production) :
    List Draw → Except DrawError (Option Production) → Prop
  | nothing : candidates = [] → Taken candidates [] (.ok none)
  | only {production : Production} :
      candidates = [production] → Taken candidates [] (.ok (some production))
  | drawn {answer : Except Number.TruncationError Int} : 2 ≤ candidates.length →
      Taken candidates [.index candidates.length answer]
        ((Source.answered candidates answer).map some)

/-- A symbol draws the production that replaces it, and then what that production draws. -/
inductive Symbol.Spends (rules : RuleTable) (symbol : Symbol) :
    List Draw → Except RewriteError (List Symbol) → Prop
  | kept {draws : List Draw} :
      Production.Taken (rules.candidates symbol.name symbol.parameters.length) draws (.ok none) →
      Spends rules symbol draws (.ok [symbol])
  | failed {draws : List Draw} {error : DrawError} :
      Production.Taken (rules.candidates symbol.name symbol.parameters.length) draws
        (.error error) →
      Spends rules symbol draws (.error (.draw error))
  | replaced {first second : List Draw} {production : Production}
      {outcome : Except EvalError (List Symbol)} :
      Production.Taken (rules.candidates symbol.name symbol.parameters.length) first
        (.ok (some production)) →
      production.Spends symbol.parameters second outcome →
      Spends rules symbol (first ++ second) (outcome.mapError .eval)

/-- A pass draws for the symbols of the word in turn. -/
def RuleTable.Spends (rules : RuleTable) (word : List Symbol) (draws : List Draw)
    (outcome : Except RewriteError (List Symbol)) : Prop :=
  ∃ parts, InTurn (Symbol.Spends rules) word draws parts ∧ outcome = parts.map List.flatten

section

variable (source : Source σ)

theorem Expr.eval_records {env : Env} {expr : Expr}
    (bound : ∀ name ∈ expr.names, (env name).isSome) :
    Records (expr.eval env (some source)) (expr.eval env (some source.recorded))
      (expr.Spends env) := by
  induction expr with
  | number literal => exact .pure .number
  | hexadecimal literal => exact .pure .hexadecimal
  | truth value => exact .pure .truth
  | random =>
      refine (Records.draw source).imp fun draws outcome drawn => ?_
      rcases drawn with ⟨value, rfl, rfl⟩
      exact .random
  | reference name =>
      rcases Option.isSome_iff_exists.mp (bound name List.mem_cons_self) with ⟨value, found⟩
      simp only [eval, found]
      exact .pure (.reference found)
  | signed sign operand induction =>
      refine .bind (induction bound) (fun draws error failed => by cases failed)
        fun draws value spent => .pure ?_
      rw [List.append_nil]
      exact .signed spent
  | binary operation left right leftInduction rightInduction =>
      have boundLeft : ∀ name ∈ left.names, (env name).isSome := fun name member =>
        bound name (List.mem_append_left right.names member)
      have boundRight : ∀ name ∈ right.names, (env name).isSome := fun name member =>
        bound name (List.mem_append_right left.names member)
      refine .bind (leftInduction boundLeft) (fun draws error failed => by cases failed)
        fun first leftValue leftSpent => ?_
      refine .bind (rightInduction boundRight) (fun draws error failed => by cases failed)
        fun second rightValue rightSpent => .pure ?_
      rw [List.append_nil]
      exact .binary leftSpent rightSpent

theorem Template.instantiate_records {env : Env} {bindings : List String} {template : Template}
    (inScope : template.Scoped bindings) (bound : ∀ name ∈ bindings, (env name).isSome) :
    Records (template.instantiate env (some source))
      (template.instantiate env (some source.recorded)) (template.Spends env) := by
  refine .bind (.mapM fun formula member => ?_) (fun draws error failed => ⟨_, failed, rfl⟩)
    fun draws values spent => .pure ?_
  · exact Expr.eval_records source fun name used => bound name (inScope formula member name used)
  · rw [List.append_nil]
    exact ⟨_, spent, rfl⟩

theorem Production.apply_records {production : Production} (inScope : production.Scoped)
    {values : List Float} (length_eq : production.arity = values.length) :
    Records (production.apply values (some source))
      (production.apply values (some source.recorded)) (production.Spends values) :=
  .mapM fun template member =>
    template.instantiate_records source (inScope template member) fun _ bound =>
      Env.isSome_ofLists (Nat.le_of_eq length_eq) bound

theorem drawProduction_records (candidates : List Production) :
    Records (drawProduction (some source) candidates)
      (drawProduction (some source.recorded) candidates) (Production.Taken candidates) := by
  match candidates with
  | [] => exact .pure (.nothing rfl)
  | [production] => exact .pure (.only rfl)
  | first :: second :: rest =>
      have several : 2 ≤ (first :: second :: rest).length := by simp
      refine .bind (.choose source (first :: second :: rest)) ?_ ?_
      · rintro _ error ⟨answer, rfl, failed⟩
        have taken := @Production.Taken.drawn _ answer several
        rwa [← failed] at taken
      · rintro _ production ⟨answer, rfl, found⟩
        have taken := @Production.Taken.drawn _ answer several
        rw [← found] at taken
        exact .pure taken

variable {rules : RuleTable}

theorem Production.mem_of_taken {candidates : List Production} {draws : List Draw}
    {production : Production} (taken : Taken candidates draws (.ok (some production))) :
    production ∈ candidates := by
  generalize outcome_eq : (.ok (some production) : Except DrawError _) = outcome at taken
  cases taken with
  | nothing => cases outcome_eq
  | only single =>
      cases outcome_eq
      exact single ▸ List.mem_cons_self
  | drawn several =>
      rcases Fallible.map_eq_ok_iff.mp outcome_eq.symm with ⟨other, answered, equal⟩
      cases equal
      exact Source.mem_of_answered answered

theorem rewriteSymbol_records (inScope : rules.Scoped) (symbol : Symbol) :
    Records (rewriteSymbol rules (some source) symbol)
      (rewriteSymbol rules (some source.recorded) symbol) (symbol.Spends rules) := by
  let candidates := rules.candidates symbol.name symbol.parameters.length
  have choice : Records ((drawProduction (some source) candidates).adaptExcept RewriteError.draw)
      ((drawProduction (some source.recorded) candidates).adaptExcept .draw)
      fun draws outcome => ∃ choice, Production.Taken candidates draws choice ∧
        outcome = choice.mapError .draw :=
    .adaptExcept RewriteError.draw (drawProduction_records source candidates) fun _ choice taken =>
      ⟨choice, taken, rfl⟩
  refine .bind choice ?_ ?_
  · rintro draws error ⟨outcome, taken, failed⟩
    cases outcome with
    | ok choice => cases failed
    | error reason =>
        cases failed
        exact .failed taken
  · rintro draws choice ⟨outcome, taken, chosen⟩
    cases outcome with
    | error reason => cases chosen
    | ok choice =>
        cases chosen
        cases choice with
        | none =>
            refine .pure ?_
            rw [List.append_nil]
            exact .kept taken
        | some production =>
            rcases RuleTable.mem_candidates (Production.mem_of_taken taken) with
              ⟨member, arity_eq⟩
            exact .adaptExcept RewriteError.eval
              (production.apply_records source (inScope production member) arity_eq)
              fun _ _ spent => Symbol.Spends.replaced taken spent

theorem rewriteOnce_records (inScope : rules.Scoped) (word : List Symbol) :
    Records (rewriteOnce rules (some source) word) (rewriteOnce rules (some source.recorded) word)
      (rules.Spends word) := by
  refine .bind (.mapM fun symbol _ => rewriteSymbol_records source inScope symbol)
    (fun draws error failed => ⟨_, failed, rfl⟩) fun draws parts spent => .pure ?_
  rw [List.append_nil]
  exact ⟨_, spent, rfl⟩

end

/-! Rules that leave nothing to chance. -/

/-- There is one production at most for each symbol, and none with a `random()`. -/
structure RuleTable.Settled (rules : RuleTable) : Prop where
  single : ∀ name arity, (rules.candidates name arity).length ≤ 1
  plain : ∀ production ∈ rules.productions, ∀ template ∈ production.successor,
    ∀ formula ∈ template.formulas, formula.tree.usesRandom = false

theorem RuleTable.length_candidates_le {rules : RuleTable}
    (nodup : (rules.productions.map fun production =>
      (production.predecessor, production.arity)).Nodup) (name : String) (arity : Nat) :
    (rules.candidates name arity).length ≤ 1 := by
  have candidates_eq : rules.candidates name arity = rules.productions.filter fun production =>
      (production.predecessor, production.arity) = (name, arity) := by
    simp [candidates, group, List.filter_filter, Bool.and_comm]
  cases candidates : rules.candidates name arity with
  | nil => exact Nat.zero_le 1
  | cons production others =>
      have member : production ∈ rules.candidates name arity := candidates ▸ List.mem_cons_self
      have key : (production.predecessor, production.arity) = (name, arity) :=
        Prod.ext (predecessor_of_mem_candidates member) (mem_candidates member).2
      rw [← candidates, candidates_eq, ← key,
        Repetition.filter_eq_singleton nodup (mem_candidates member).1]
      exact Nat.le_refl 1

theorem Expr.exists_settlesTo (env : Env) {expr : Expr} (plain : expr.usesRandom = false) :
    ∃ outcome, SettlesTo (expr.Spends env) outcome := by
  suffices settles : ∃ value, SettlesTo (expr.Spends env) (.ok value) from
    ⟨_, settles.choose_spec⟩
  induction expr with
  | number literal => exact ⟨_, fun _ _ spent => by cases spent; exact ⟨rfl, rfl⟩⟩
  | hexadecimal literal => exact ⟨_, fun _ _ spent => by cases spent; exact ⟨rfl, rfl⟩⟩
  | truth value => exact ⟨_, fun _ _ spent => by cases spent; exact ⟨rfl, rfl⟩⟩
  | random => cases plain
  | reference name =>
      refine ⟨(env name).getD 0, fun _ _ spent => ?_⟩
      cases spent with
      | reference found => exact ⟨rfl, by rw [found]; rfl⟩
  | signed sign operand induction =>
      rcases induction plain with ⟨value, settles⟩
      refine ⟨sign.apply value, fun _ _ spent => ?_⟩
      cases spent with
      | signed spent =>
          rcases settles _ _ spent with ⟨rfl, equal⟩
          cases equal
          exact ⟨rfl, rfl⟩
  | binary operation left right leftInduction rightInduction =>
      rcases Bool.or_eq_false_iff.mp plain with ⟨plainLeft, plainRight⟩
      rcases leftInduction plainLeft with ⟨leftValue, settlesLeft⟩
      rcases rightInduction plainRight with ⟨rightValue, settlesRight⟩
      refine ⟨operation.apply leftValue rightValue, fun _ _ spent => ?_⟩
      cases spent with
      | binary spentLeft spentRight =>
          rcases settlesLeft _ _ spentLeft with ⟨rfl, equalLeft⟩
          rcases settlesRight _ _ spentRight with ⟨rfl, equalRight⟩
          cases equalLeft
          cases equalRight
          exact ⟨rfl, rfl⟩

theorem Template.exists_settlesTo (env : Env) {template : Template}
    (plain : ∀ formula ∈ template.formulas, formula.tree.usesRandom = false) :
    ∃ outcome, SettlesTo (template.Spends env) outcome := by
  rcases exists_settlesTo_inTurn fun formula member =>
    Expr.exists_settlesTo env (plain formula member) with ⟨values, settles⟩
  exact ⟨_, settles.image _⟩

theorem Production.settlesTo_taken {candidates : List Production} (single : candidates.length ≤ 1) :
    SettlesTo (Taken candidates) (.ok candidates.head?) := by
  intro draws outcome taken
  cases taken with
  | nothing none => exact ⟨rfl, by rw [none]; rfl⟩
  | only one => exact ⟨rfl, by rw [one]; rfl⟩
  | drawn several => omega

namespace RuleTable.Settled

variable {rules : RuleTable} (settled : rules.Settled)

include settled

theorem exists_settlesTo_symbol (symbol : Symbol) :
    ∃ outcome, SettlesTo (symbol.Spends rules) outcome := by
  have choice := Production.settlesTo_taken (settled.single symbol.name symbol.parameters.length)
  cases first : (rules.candidates symbol.name symbol.parameters.length).head? with
  | none =>
      rw [first] at choice
      refine ⟨.ok [symbol], fun draws outcome spent => ?_⟩
      cases spent with
      | kept taken => exact ⟨(choice _ _ taken).1, rfl⟩
      | failed taken => cases (choice _ _ taken).2
      | replaced taken => cases (choice _ _ taken).2
  | some production =>
      rw [first] at choice
      have member := (mem_candidates (List.mem_of_mem_head? first)).1
      have templates : ∀ template ∈ production.successor, ∃ outcome, SettlesTo
          (template.Spends (.ofLists production.bindings symbol.parameters)) outcome :=
        fun template successor =>
          template.exists_settlesTo _ (settled.plain production member template successor)
      rcases exists_settlesTo_inTurn templates with ⟨word, settles⟩
      refine ⟨word.mapError .eval, fun draws outcome spent => ?_⟩
      cases spent with
      | kept taken => cases (choice _ _ taken).2
      | failed taken => cases (choice _ _ taken).2
      | replaced taken spent =>
          rcases choice _ _ taken with ⟨rfl, equal⟩
          cases equal
          rcases settles _ _ spent with ⟨rfl, rfl⟩
          exact ⟨rfl, rfl⟩

theorem exists_settlesTo_word (word : List Symbol) :
    ∃ outcome, SettlesTo (rules.Spends word) outcome := by
  rcases exists_settlesTo_inTurn fun symbol (_ : symbol ∈ word) =>
    settled.exists_settlesTo_symbol symbol with ⟨parts, settles⟩
  exact ⟨_, settles.image _⟩

/-- A pass over a word has one end, whatever the source and the state it is in. -/
theorem exists_rewriteOnce_eq (inScope : rules.Scoped) (word : List Symbol) :
    ∃ outcome, ∀ {σ : Type} (source : Source σ) (state : σ),
      rewriteOnce rules (some source) word state = ending outcome state := by
  rcases settled.exists_settlesTo_word word with ⟨outcome, settles⟩
  exact ⟨outcome, fun source state =>
    (rewriteOnce_records source inScope word).run_of_settlesTo settles state⟩

theorem exists_passesFrom_eq (inScope : rules.Scoped) (limit : Option Int) (done passes : Nat)
    (word : List Symbol) :
    ∃ generations error?, ∀ {σ : Type} (source : Source σ) (state : σ),
      Derivation.passesFrom rules source limit done passes word state =
        { generations, error?, state } := by
  induction passes generalizing done word with
  | zero => exact ⟨_, _, fun source state => rfl⟩
  | succ passes induction =>
      rcases settled.exists_rewriteOnce_eq inScope word with ⟨outcome, rewritten⟩
      cases outcome with
      | error error =>
          refine ⟨[word], some (.rewrite error), fun source state => ?_⟩
          simp only [Derivation.passesFrom, rewritten, ending]
      | ok next =>
          cases exceeding : Derivation.exceeds limit next with
          | some most =>
              refine ⟨[word], some (.expansion (.tooManySymbols most (done + 1))),
                fun source state => ?_⟩
              simp only [Derivation.passesFrom, rewritten, ending, exceeding]
          | none =>
              -- The next word does not depend on a source, so neither do the passes behind it.
              rcases induction (done + 1) next with ⟨generations, error?, rest⟩
              refine ⟨word :: generations, error?, fun source state => ?_⟩
              simp only [Derivation.passesFrom, rewritten, ending, exceeding, rest]

theorem exists_run_eq (inScope : rules.Scoped) (limit : Option Int) (iterations : Int)
    (start : List Symbol) :
    ∃ generations error?, ∀ {σ : Type} (source : Source σ) (state : σ),
      Derivation.run rules source limit iterations start state =
        { generations, error?, state } := by
  by_cases counted : iterations < 0
  · exact ⟨_, _, fun source state => by rw [Derivation.run, if_pos counted]⟩
  · rcases settled.exists_passesFrom_eq inScope limit 0 iterations.toNat start with
      ⟨generations, error?, passes⟩
    exact ⟨generations, error?, fun source state => by
      rw [Derivation.run, if_neg counted, passes]⟩

end RuleTable.Settled

/-- The rules are one text or a list of texts. A pass draws what is due for its word, in this order
and nothing else: so says the record, and the record changes nothing. Rules that leave nothing to
chance derive the same generations from every source, whatever its state, and leave it as it is. -/
theorem rewriting_draws {text : String ⊕ List String} {rules : RuleTable}
    (parsed : parseRuleLines (text.elim ruleLines id) = .ok rules) :
    (∀ {σ : Type} (source : Source σ) (word : List Symbol) (state : σ),
      ∃ draws outcome after,
        (rewriteOnce rules (some source) word).run state = ending outcome after ∧
        (rewriteOnce rules (some source.recorded) word).run (state, []) =
          ending outcome (after, draws) ∧
        rules.Spends word draws outcome) ∧
    (rules.Settled → ∀ (limit : Option Int) (iterations : Int) (start : List Symbol),
      ∃ generations error? result, ∀ {σ : Type} (source : Source σ) (state : σ),
        Derivation.run rules source limit iterations start state =
            { generations, error?, state } ∧
          expand rules source limit iterations start state = (result, state)) := by
  have inScope := parseRuleLines_scoped parsed
  constructor
  · intro σ source word state
    rcases rewriteOnce_records source inScope word state [] with
      ⟨draws, outcome, after, run, recorded, _, spent⟩
    exact ⟨draws, outcome, after, run, recorded, spent⟩
  · intro settled limit iterations start
    rcases settled.exists_run_eq inScope limit iterations start with ⟨generations, error?, run⟩
    refine ⟨generations, error?, (Derivation.mk generations error? ()).result,
      fun source state => ⟨run source state, ?_⟩⟩
    rw [expand, run source state]
    rfl

/-- A table with a choice, and one that leaves nothing to chance. -/
theorem rewriting_draws_of_branching :
    (∃ rules, parseRuleLines ((Sum.inl "A{r} -> A{r*random()} A{random()}\nA{r} -> B" :
        String ⊕ List String).elim ruleLines id) = .ok rules ∧
      ∀ (word : List Symbol) (state : Twister), ∃ draws outcome after,
        (rewriteOnce rules (some Twister.source.recorded) word).run (state, []) =
          ending outcome (after, draws) ∧ rules.Spends word draws outcome) ∧
    ∃ rules, parseRuleLines ((Sum.inl "A{r} -> A{r*2} B\nA -> A{1} A" :
        String ⊕ List String).elim ruleLines id) = .ok rules ∧ rules.Settled ∧
      ∀ start : List Symbol, ∃ result, ∀ {σ : Type} (source : Source σ) (state : σ),
        expand rules source (some 5000) 7 start state = (result, state) := by
  constructor
  · have accepted : (parseRuleLines ((Sum.inl "A{r} -> A{r*random()} A{random()}\nA{r} -> B" :
        String ⊕ List String).elim ruleLines id)).isOk = true := by decide +kernel
    rcases Fallible.exists_ok_of_isOk accepted with ⟨rules, parsed⟩
    refine ⟨rules, parsed, fun word state => ?_⟩
    rcases (rewriting_draws parsed).1 Twister.source word state with
      ⟨draws, outcome, after, _, recorded, spent⟩
    exact ⟨draws, outcome, after, recorded, spent⟩
  · let rules : RuleTable :=
      { productions :=
          [{ predecessor := "A"
             bindings := ["r"]
             successor :=
              [{ name := "A"
                 formulas :=
                  [{ source := "r*2", tree := .binary .mul (.reference "r") (.number "2") }] },
                { name := "B", formulas := [] }]
             line := some 1 },
            { predecessor := "A"
              bindings := []
              successor :=
                [{ name := "A", formulas := [{ source := "1", tree := .number "1" }] },
                  { name := "A", formulas := [] }]
              line := some 2 }] }
    have parsed : parseRuleLines ((Sum.inl "A{r} -> A{r*2} B\nA -> A{1} A" :
        String ⊕ List String).elim ruleLines id) = .ok rules := by decide +kernel
    have settled : rules.Settled :=
      ⟨RuleTable.length_candidates_le (by decide +kernel), by decide +kernel⟩
    refine ⟨rules, parsed, settled, fun start => ?_⟩
    rcases (rewriting_draws parsed).2 settled (some 5000) 7 start with ⟨_, _, result, derived⟩
    exact ⟨result, fun source state => (derived source state).2⟩

end GrowthGrammar
