import GrowthGrammar.Expr.Basic
import GrowthGrammar.Proofs.Fallible

/-!
# Evaluation of expressions

Whether an expression has a value is decided by its leaves, from left to right: the names have to be
bound, and there has to be a source for each `random()`.
-/

namespace GrowthGrammar

open Fallible

namespace Env

theorem isSome_bind_of_isSome {env : Env} {name : String} (bound : (env name).isSome)
    (other : String) (value : Float) : ((env.bind other value) name).isSome := by
  unfold bind
  split <;> simp [bound]

private theorem isSome_foldl_bind {pairs : List (String × Float)} {env : Env} {name : String}
    (bound : (env name).isSome ∨ name ∈ pairs.map Prod.fst) :
    ((pairs.foldl (fun env (name, value) => env.bind name value) env) name).isSome := by
  induction pairs generalizing env with
  | nil => simpa using bound
  | cons pair pairs induction =>
      rw [List.foldl_cons]
      apply induction
      rcases bound with bound | member
      · exact .inl (isSome_bind_of_isSome bound _ _)
      · rcases List.mem_cons.mp member with equal | member
        · exact .inl (by simp [bind, equal])
        · exact .inr member

/-- Names that are paired with as many values are all bound. -/
theorem isSome_ofLists {names : List String} {values : List Float}
    (length_le : names.length ≤ values.length) {name : String} (member : name ∈ names) :
    (ofLists names values name).isSome := by
  apply isSome_foldl_bind
  rw [List.map_fst_zip length_le]
  exact .inr member

end Env

namespace Expr

/-- The names of an expression are among the bindings. -/
def Scoped (bindings : List String) (expr : Expr) : Prop :=
  ∀ name ∈ expr.names, name ∈ bindings

theorem mem_sortedNames {expr : Expr} {name : String} :
    name ∈ expr.sortedNames ↔ name ∈ expr.names := by
  rw [sortedNames, List.mem_mergeSort, List.mem_eraseDups]

/-- The parts of an expression that have no operands, from left to right. -/
def leaves : Expr → List Expr
  | signed _ operand => operand.leaves
  | binary _ left right => left.leaves ++ right.leaves
  | leaf => [leaf]

/-- What a leaf fails with: a name needs a value, and `random()` a source. -/
def leafError? (env : Env) (source : Option (Source σ)) : Expr → Option EvalError
  | reference name => if (env name).isSome then none else some (.unboundName name)
  | random => if source.isSome then none else some .noSource
  | _ => none

theorem mem_names_iff {expr : Expr} {name : String} :
    name ∈ expr.names ↔ reference name ∈ expr.leaves := by
  induction expr <;> simp_all [names, leaves]

theorem usesRandom_iff {expr : Expr} : expr.usesRandom = true ↔ random ∈ expr.leaves := by
  induction expr <;> simp_all [usesRandom, leaves]

/-- Evaluation fails at the first leaf that fails. -/
theorem errorOf?_eval (env : Env) (source : Option (Source σ)) (expr : Expr) (before : σ) :
    errorOf? ((expr.eval env source).run before) =
      expr.leaves.findSome? (leafError? env source) := by
  induction expr generalizing before with
  | number literal => rfl
  | hexadecimal literal => rfl
  | truth value => rfl
  | random => cases source <;> rfl
  | reference name =>
      simp only [eval, leaves, List.findSome?_singleton, leafError?]
      cases env name <;> rfl
  | signed sign operand induction =>
      rw [leaves, ← induction before, eval, errorOf?_bind]
      cases (operand.eval env source).run before <;> rfl
  | binary operation left right leftInduction rightInduction =>
      rw [leaves, List.findSome?_append, ← leftInduction before, eval, errorOf?_bind]
      cases (left.eval env source).run before with
      | error error between => rfl
      | ok leftValue between =>
          -- Which leaf fails first on the right does not depend on what the left one has drawn.
          change errorOf? ((right.eval env source >>= fun rightValue =>
            pure (operation.apply leftValue rightValue)).run between) =
              right.leaves.findSome? (leafError? env source)
          rw [← rightInduction between, errorOf?_bind]
          cases (right.eval env source).run between <;> rfl

/-- No leaf fails when all names are bound and there is a source for what is drawn. -/
theorem findSome?_leafError?_eq_none_iff {env : Env} {source : Option (Source σ)} {expr : Expr} :
    expr.leaves.findSome? (leafError? env source) = none ↔
      (∀ name ∈ expr.names, (env name).isSome) ∧ (source.isSome ∨ expr.usesRandom = false) := by
  rw [List.findSome?_eq_none_iff]
  constructor
  · intro supplied
    constructor
    · intro name member
      have named := supplied _ (mem_names_iff.mp member)
      simpa [leafError?, Option.isSome_iff_ne_none] using named
    · by_cases drawn : expr.usesRandom = true
      · have sourced := supplied _ (usesRandom_iff.mp drawn)
        exact .inl (by simpa [leafError?, Option.isSome_iff_ne_none] using sourced)
      · exact .inr (Bool.eq_false_iff.mpr drawn)
  · rintro ⟨bound, sourced⟩ leaf member
    cases leaf with
    | reference name => simp [leafError?, bound name (mem_names_iff.mpr member)]
    | random =>
        rw [usesRandom_iff.mpr member] at sourced
        have given : source.isSome = true := by simpa using sourced
        simp [leafError?, given]
    | number | hexadecimal | truth | signed | binary => rfl

theorem exists_eval_iff {env : Env} {source : Option (Source σ)} {expr : Expr} {before : σ} :
    (∃ value after, (expr.eval env source).run before = .ok value after) ↔
      (∀ name ∈ expr.names, (env name).isSome) ∧ (source.isSome ∨ expr.usesRandom = false) := by
  rw [← errorOf?_eq_none_iff, errorOf?_eval, findSome?_leafError?_eq_none_iff]

/-- Environments that agree on the names of an expression are the same to it. -/
theorem eval_congr {env other : Env} (source : Option (Source σ)) {expr : Expr}
    (agree : ∀ name ∈ expr.names, env name = other name) :
    expr.eval env source = expr.eval other source := by
  induction expr with
  | number | hexadecimal | truth | random => rfl
  | reference name => simp only [eval, agree name List.mem_cons_self]
  | signed sign operand induction => simp only [eval, induction agree]
  | binary operation left right leftInduction rightInduction =>
      have agreeLeft : ∀ name ∈ left.names, env name = other name := fun name member =>
        agree name (List.mem_append_left right.names member)
      have agreeRight : ∀ name ∈ right.names, env name = other name := fun name member =>
        agree name (List.mem_append_right left.names member)
      simp only [eval, leftInduction agreeLeft, rightInduction agreeRight]

/-- A constant has one value, wherever it is evaluated, and draws nothing. -/
theorem exists_value_of_isConstant {expr : Expr} (constant : expr.isConstant = true) :
    ∃ value, ∀ {σ : Type} (env : Env) (source : Option (Source σ)) (before : σ),
      (expr.eval env source).run before = .ok value before := by
  simp only [isConstant, Bool.and_eq_true, List.isEmpty_iff, Bool.not_eq_true'] at constant
  rcases constant with ⟨nameless, plain⟩
  induction expr with
  | number literal => exact ⟨_, fun _ _ _ => rfl⟩
  | hexadecimal literal => exact ⟨_, fun _ _ _ => rfl⟩
  | truth value => exact ⟨_, fun _ _ _ => rfl⟩
  | random => cases plain
  | reference name => cases nameless
  | signed sign operand induction =>
      rcases induction nameless plain with ⟨value, evaluates⟩
      refine ⟨sign.apply value, fun env source before => ?_⟩
      rw [eval, run_bind_eq_ok_iff]
      exact ⟨value, before, evaluates env source before, rfl⟩
  | binary operation left right leftInduction rightInduction =>
      rcases List.append_eq_nil_iff.mp nameless with ⟨namelessLeft, namelessRight⟩
      rcases Bool.or_eq_false_iff.mp plain with ⟨plainLeft, plainRight⟩
      rcases leftInduction namelessLeft plainLeft with ⟨leftValue, evaluatesLeft⟩
      rcases rightInduction namelessRight plainRight with ⟨rightValue, evaluatesRight⟩
      refine ⟨operation.apply leftValue rightValue, fun env source before => ?_⟩
      rw [eval, run_bind_eq_ok_iff]
      refine ⟨leftValue, before, evaluatesLeft env source before, ?_⟩
      rw [run_bind_eq_ok_iff]
      exact ⟨rightValue, before, evaluatesRight env source before, rfl⟩

theorem isSome_constant?_iff {expr : Expr} : expr.constant?.isSome ↔ expr.isConstant = true := by
  constructor
  · intro found
    rw [constant?] at found
    split at found
    · next value after run =>
        rcases exists_eval_iff.mp ⟨value, after, run⟩ with ⟨bound, sourced⟩
        have nameless : expr.names = [] := by
          apply List.eq_nil_iff_forall_not_mem.mpr
          intro name member
          cases bound name member
        have plain : expr.usesRandom = false := by simpa using sourced
        simp [isConstant, nameless, plain]
    · cases found
  · intro constant
    rcases exists_value_of_isConstant constant with ⟨value, evaluates⟩
    rw [constant?, evaluates]
    rfl

/-- A value that the expression takes when it is evaluated from some state of the source. -/
def HasValue (env : Env) (source : Source σ) (expr : Expr) (value : Float) : Prop :=
  ∃ before after, (expr.eval env (some source)).run before = .ok value after

theorem eval_yields {env : Env} (source : Source σ) {expr : Expr}
    (bound : ∀ name ∈ expr.names, (env name).isSome) :
    Yields (expr.eval env (some source)) (expr.HasValue env source) := by
  intro before
  have sourced : (some source).isSome = true := rfl
  rcases exists_eval_iff.mpr ⟨bound, .inl sourced⟩ with ⟨value, after, run⟩
  exact ⟨value, after, run, before, after, run⟩

end Expr

end GrowthGrammar
