import GrowthGrammar.Rewrite
import Mathlib.Data.List.Infix

/-!
# Rewriting composes

A pass over two words is a pass over the first one and then, from the state of the source that is
left, over the second one. Passes behind passes are one derivation.
-/

namespace GrowthGrammar

theorem rewriteOnce_append (rules : RuleTable) (source : Option (Source σ))
    (first second : List Symbol) :
    rewriteOnce rules source (first ++ second) = do
      let left ← rewriteOnce rules source first
      let right ← rewriteOnce rules source second
      return left ++ right := by
  simp only [rewriteOnce, List.mapM_append, bind_assoc, pure_bind, List.flatten_append]

namespace Derivation

/-- The derivation that goes on from the last word and from the state of the source there. One that
has ended with an error does not go on. -/
def andThen (derivation : Derivation σ) (next : List Symbol → σ → Derivation σ) : Derivation σ :=
  match derivation.error? with
  | some _ => derivation
  | none =>
      let rest := next (derivation.generations.getLast?.getD []) derivation.state
      { rest with generations := derivation.generations.dropLast ++ rest.generations }

/-- What goes on behind a derivation also goes on behind one with a word more in front. -/
theorem andThen_cons {generations : List (List Symbol)} (nonempty : generations ≠ [])
    (word : List Symbol) (error? : Option DerivationError) (state : σ)
    (next : List Symbol → σ → Derivation σ) :
    andThen { generations := word :: generations, error?, state } next =
      let derivation := andThen { generations, error?, state } next
      { derivation with generations := word :: derivation.generations } := by
  rcases List.exists_cons_of_ne_nil nonempty with ⟨first, rest, rfl⟩
  cases error? with
  | some error => rfl
  | none => simp [andThen]

section

variable {derivation : Derivation σ} {next : List Symbol → σ → Derivation σ}

/-- A derivation that goes on ends as what it goes on with. -/
theorem ending_andThen
    (reaches : ∀ word state, (next word state).generations ≠ []) :
    ((derivation.andThen next).result, (derivation.andThen next).state) =
      match derivation.result with
      | .ok word => ((next word derivation.state).result, (next word derivation.state).state)
      | .error error => (.error error, derivation.state) := by
  cases ended : derivation.error? with
  | some error => simp only [andThen, result, ended]
  | none =>
      have last := List.getLast?_append_of_ne_nil derivation.generations.dropLast
        (reaches (derivation.generations.getLast?.getD []) derivation.state)
      simp only [andThen, result, ended, last]

theorem generations_prefix_andThen (nonempty : derivation.generations ≠ [])
    (begins : ∀ word state, (next word state).generations.head? = some word) :
    derivation.generations <+: (derivation.andThen next).generations := by
  cases ended : derivation.error? with
  | some error => simp only [andThen, ended, List.prefix_rfl]
  | none =>
      have last := List.getLast?_eq_some_getLast nonempty
      rcases List.head?_eq_some_iff.mp (begins (derivation.generations.getLast nonempty)
        derivation.state) with ⟨rest, rest_eq⟩
      refine ⟨rest, ?_⟩
      simp only [andThen, ended, last, Option.getD_some, rest_eq]
      rw [List.append_cons, List.dropLast_append_getLast]

end

section

variable {rules : RuleTable} {source : Source σ} {limit : Option Int}

theorem head?_passesFrom (done passes : Nat) (word : List Symbol) (state : σ) :
    (passesFrom rules source limit done passes word state).generations.head? = some word := by
  cases passes with
  | zero => rfl
  | succ passes =>
      rw [passesFrom]
      split
      · rfl
      · split <;> rfl

theorem passesFrom_ne_nil (done passes : Nat) (word : List Symbol) (state : σ) :
    (passesFrom rules source limit done passes word state).generations ≠ [] :=
  List.ne_nil_of_mem (List.mem_of_mem_head? (head?_passesFrom done passes word state))

/-- The later passes are counted on from the earlier ones, so a limit is reported with the number
of the pass that exceeds it. -/
theorem passesFrom_add (done passes more : Nat) (word : List Symbol) (state : σ) :
    passesFrom rules source limit done (passes + more) word state =
      (passesFrom rules source limit done passes word state).andThen
        (passesFrom rules source limit (done + passes) more) := by
  induction passes generalizing done word state with
  | zero => simp [passesFrom, andThen]
  | succ passes induction =>
      rw [Nat.add_right_comm, passesFrom, passesFrom]
      cases rewriteOnce rules (some source) word state with
      | error error after => rfl
      | ok next after =>
          dsimp only
          cases exceeds limit next with
          | some limit => rfl
          | none =>
              dsimp only
              rw [andThen_cons (passesFrom_ne_nil _ _ _ _), induction (done + 1) next after,
                Nat.add_assoc, Nat.add_comm 1 passes]

/-- Without a limit it does not matter how many passes are done already. -/
theorem passesFrom_unlimited (done other passes : Nat) (word : List Symbol) (state : σ) :
    passesFrom rules source none done passes word state =
      passesFrom rules source none other passes word state := by
  induction passes generalizing done other word state with
  | zero => rfl
  | succ passes induction =>
      rw [passesFrom, passesFrom]
      cases rewriteOnce rules (some source) word state with
      | error error after => rfl
      | ok next after =>
          have rest := induction (done + 1) (other + 1) next after
          simp only [exceeds, Option.filter_none, rest]

theorem run_natCast (passes : Nat) (start : List Symbol) (state : σ) :
    run rules source limit passes start state =
      passesFrom rules source limit 0 passes start state := by
  rw [run, if_neg (Int.not_lt.mpr (Int.natCast_nonneg passes)), Int.toNat_natCast]

theorem run_add (earlier later : Nat) (start : List Symbol) (state : σ) :
    run rules source none (earlier + later : Nat) start state =
      (run rules source none earlier start state).andThen fun word between =>
        run rules source none later word between := by
  rw [run_natCast, run_natCast, passesFrom_add]
  congr 1
  funext word between
  rw [run_natCast, passesFrom_unlimited]

theorem head?_run (passes : Nat) (start : List Symbol) (state : σ) :
    (run rules source limit passes start state).generations.head? = some start := by
  rw [run_natCast, head?_passesFrom]

theorem run_ne_nil (passes : Nat) (start : List Symbol) (state : σ) :
    (run rules source limit passes start state).generations ≠ [] :=
  List.ne_nil_of_mem (List.mem_of_mem_head? (head?_run passes start state))

end

end Derivation

/-- A pass over a word in two parts is a pass over each of them in turn, the second one from the
state of the source that the first one leaves; when one of them fails, so does the whole. In the
same way the passes of a derivation without a limit come apart into earlier and later ones, and the
generations that the earlier ones reach are not changed by those that follow. -/
theorem rewriting_composes (rules : RuleTable) (source : Source σ) :
    (∀ first second : List Symbol,
      rewriteOnce rules (some source) (first ++ second) = do
        let left ← rewriteOnce rules (some source) first
        let right ← rewriteOnce rules (some source) second
        return left ++ right) ∧
    ∀ (earlier later : Nat) (start : List Symbol) (state : σ),
      expand rules source none (earlier + later : Nat) start state =
          (match expand rules source none earlier start state with
          | (.ok word, between) => expand rules source none later word between
          | (.error error, between) => (.error error, between)) ∧
        (Derivation.run rules source none earlier start state).generations <+:
          (Derivation.run rules source none (earlier + later : Nat) start state).generations := by
  refine ⟨rewriteOnce_append rules (some source), fun earlier later start state => ?_⟩
  rw [Derivation.run_add]
  constructor
  · simp only [expand, Derivation.run_add]
    rw [Derivation.ending_andThen (Derivation.run_ne_nil later)]
    cases (Derivation.run rules source none earlier start state).result <;> rfl
  · exact Derivation.generations_prefix_andThen (Derivation.run_ne_nil earlier start state)
      (Derivation.head?_run later)

end GrowthGrammar
