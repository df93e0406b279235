import GrowthGrammar.Proofs.Rewrite.Draws

/-!
# Choices between productions

Nothing but the choice of a production draws an index, so a record of draws tells whether there has
been a choice. There is one for a symbol just if several productions have its name and its number of
parameters. A table also tells the names with several productions of any number of parameters.
-/

namespace GrowthGrammar

/-- A choice draws an index; a `random()` does not. -/
def Draw.isIndex : Draw → Bool
  | .uniform _ => false
  | .index _ _ => true

/-- Rewriting the symbol draws a production from the source. -/
def RuleTable.DrawsChoice (rules : RuleTable) (source : Source σ) (state : σ) (symbol : Symbol) :
    Prop :=
  ∃ outcome after draws,
    (rewriteOnce rules (some source.recorded) [symbol]).run (state, []) =
        ending outcome (after, draws) ∧
      draws.any Draw.isIndex = true

/-! ## The draws of a pass -/

theorem ending_inj {first second : Except ε α} {state other : σ}
    (equal : ending first state = ending second other) : first = second ∧ state = other := by
  cases first <;> cases second <;> cases equal <;> exact ⟨rfl, rfl⟩

theorem Expr.any_isIndex_of_spends {env : Env} {expr : Expr} {draws : List Draw}
    {outcome : Except EvalError Float} (spent : expr.Spends env draws outcome) :
    draws.any Draw.isIndex = false := by
  induction spent with
  | number => rfl
  | hexadecimal => rfl
  | truth => rfl
  | random => rfl
  | reference => rfl
  | signed _ induction => exact induction
  | binary _ _ leftInduction rightInduction =>
      rw [List.any_append, leftInduction, rightInduction]
      rfl

theorem InTurn.any_isIndex {one : α → List Draw → Except ε β → Prop} {items : List α}
    {draws : List Draw} {outcome : Except ε (List β)}
    (each : ∀ item draws outcome, one item draws outcome → draws.any Draw.isIndex = false)
    (spent : InTurn one items draws outcome) : draws.any Draw.isIndex = false := by
  induction spent with
  | nil => rfl
  | stop stopped => exact each _ _ _ stopped
  | cons first _ induction =>
      rw [List.any_append, each _ _ _ first, induction]
      rfl

theorem Production.any_isIndex_of_spends {production : Production} {values : List Float}
    {draws : List Draw} {outcome : Except EvalError (List Symbol)}
    (spent : production.Spends values draws outcome) : draws.any Draw.isIndex = false := by
  apply InTurn.any_isIndex _ spent
  intro template draws outcome instantiated
  obtain ⟨values, evaluated, _⟩ := instantiated
  apply InTurn.any_isIndex _ evaluated
  intro formula draws outcome valued
  exact Expr.any_isIndex_of_spends valued

theorem Production.any_isIndex_of_taken {candidates : List Production} {draws : List Draw}
    {outcome : Except DrawError (Option Production)} (taken : Taken candidates draws outcome) :
    draws.any Draw.isIndex = decide (2 ≤ candidates.length) := by
  cases taken with
  | nothing none =>
      subst none
      rfl
  | only single =>
      subst single
      rfl
  | drawn several => exact (decide_eq_true several).symm

theorem Symbol.any_isIndex_of_spends {rules : RuleTable} {symbol : Symbol} {draws : List Draw}
    {outcome : Except RewriteError (List Symbol)} (spent : symbol.Spends rules draws outcome) :
    draws.any Draw.isIndex =
      decide (2 ≤ (rules.candidates symbol.name symbol.parameters.length).length) := by
  cases spent with
  | kept taken => exact Production.any_isIndex_of_taken taken
  | failed taken => exact Production.any_isIndex_of_taken taken
  | replaced taken spent =>
      rw [List.any_append, Production.any_isIndex_of_taken taken,
        Production.any_isIndex_of_spends spent, Bool.or_false]

namespace RuleTable

theorem any_isIndex_of_spends {rules : RuleTable} {symbol : Symbol} {draws : List Draw}
    {outcome : Except RewriteError (List Symbol)} (spent : rules.Spends [symbol] draws outcome) :
    draws.any Draw.isIndex =
      decide (2 ≤ (rules.candidates symbol.name symbol.parameters.length).length) := by
  obtain ⟨parts, inTurn, _⟩ := spent
  cases inTurn with
  | stop stopped => exact Symbol.any_isIndex_of_spends stopped
  | cons first others =>
      cases others with
      | nil =>
          rw [List.append_nil]
          exact Symbol.any_isIndex_of_spends first

/-- Whether a production is drawn depends on nothing but how many fit the symbol. -/
theorem drawsChoice_iff {rules : RuleTable} (inScope : rules.Scoped) (source : Source σ)
    (state : σ) (symbol : Symbol) :
    rules.DrawsChoice source state symbol ↔
      2 ≤ (rules.candidates symbol.name symbol.parameters.length).length := by
  obtain ⟨draws, outcome, after, _, recorded, _, spent⟩ :=
    rewriteOnce_records source inScope [symbol] state []
  have drawn := any_isIndex_of_spends spent
  constructor
  · intro choice
    obtain ⟨other, afterwards, record, run, isIndex⟩ := choice
    have equal := (ending_inj (recorded.symm.trans run)).2
    have record_eq : draws = record := (Prod.mk.inj equal).2
    apply of_decide_eq_true
    rw [← drawn, record_eq]
    exact isIndex
  · intro several
    exact ⟨outcome, after, draws, recorded, drawn.trans (decide_eq_true several)⟩

/-! ## Names with several productions -/

variable (table : RuleTable) (name : String)

theorem mem_stochasticNames_iff : name ∈ table.stochasticNames ↔ 2 ≤ (table.group name).length := by
  rw [stochasticNames, List.mem_mergeSort, List.mem_filter, decide_eq_true_eq]
  constructor
  · exact And.right
  · intro several
    have nonempty : table.group name ≠ [] := List.ne_nil_of_length_pos (by omega)
    obtain ⟨production, member⟩ := List.exists_mem_of_ne_nil _ nonempty
    rw [group, List.mem_filter, decide_eq_true_eq] at member
    refine ⟨?_, several⟩
    rw [names, List.mem_eraseDups]
    exact List.mem_map.mpr ⟨production, member⟩

/-- The names are in alphabetical order, and none of them is there twice. -/
theorem pairwise_stochasticNames : table.stochasticNames.Pairwise (· < ·) := by
  have sorted : table.stochasticNames.Pairwise
      (fun first second => decide (first ≤ second) = true) := by
    apply List.pairwise_mergeSort
    · intro first second third
      simpa using String.le_trans
    · intro first second
      simpa using String.le_total first second
  have nodup : table.stochasticNames.Nodup := by
    apply (List.mergeSort_perm _ _).nodup_iff.mpr
    exact (Repetition.nodup_eraseDups _).filter _
  apply (sorted.and nodup).imp
  intro first second related
  exact Std.lt_of_le_of_ne (of_decide_eq_true related.1) related.2

/-- Several productions fit some symbol of a name just if two productions of the name have the same
number of parameters. -/
theorem exists_candidates_iff :
    (∃ arity, 2 ≤ (table.candidates name arity).length) ↔
      ¬((table.group name).map Production.arity).Nodup := by
  have count_eq (arity : Nat) : ((table.group name).map Production.arity).count arity =
      (table.candidates name arity).length := by
    rw [List.count_eq_countP, List.countP_map, List.countP_eq_length_filter]
    rfl
  rw [List.nodup_iff_count_le_one]
  simp only [count_eq, not_forall, not_le]
  rfl

theorem exists_drawsChoice_iff {rules : RuleTable} (inScope : rules.Scoped) (source : Source σ)
    (state : σ) (name : String) :
    (∃ symbol : Symbol, symbol.name = name ∧ rules.DrawsChoice source state symbol) ↔
      ¬((rules.group name).map Production.arity).Nodup := by
  rw [← exists_candidates_iff]
  constructor
  · intro drawn
    obtain ⟨symbol, rfl, choice⟩ := drawn
    exact ⟨_, (drawsChoice_iff inScope source state symbol).mp choice⟩
  · intro several
    obtain ⟨arity, several⟩ := several
    refine ⟨{ name, parameters := List.replicate arity 0 }, rfl, ?_⟩
    apply (drawsChoice_iff inScope source state _).mpr
    rw [List.length_replicate]
    exact several

end RuleTable

end GrowthGrammar
