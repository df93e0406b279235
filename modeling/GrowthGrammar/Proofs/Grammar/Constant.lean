import GrowthGrammar.Grammar.Parse
import GrowthGrammar.Proofs.Expr.Evaluation

/-!
# Constants

The names of an expression and its use of `random()` tell whether it has a value. With neither it is
a constant, so a start word whose parameters are found to be constants is never refused for the
evaluation of one.
-/

namespace GrowthGrammar

open Fallible

/-- Why a start word is refused when a parameter is evaluated only once it is found constant. -/
inductive WordError
  | parse (error : ParseError)
  | eval (error : EvalError)

/-- Compile a parameter, look for names and random numbers in it, and evaluate it last. -/
def checkedParameter (location : Location) (raw : String) : Except WordError Float := do
  let formula ← (compileParameter location raw).mapError .parse
  if formula.tree.isConstant then
    match (formula.tree.eval .empty (none : Option (Source Unit))).run () with
    | .ok value _ => return value
    | .error error _ => throw (.eval error)
  else throw (.parse { cause := .notConstant raw, location })

def checkedWord (text : String) : Except WordError (List Symbol) := do
  let location : Location := { line := none, source := some text }
  let raws ← (RawSymbol.scanWithin location text.toList).mapError .parse
  raws.mapM fun raw => do
    return { name := raw.name, parameters := ← raw.parameters.mapM (checkedParameter location) }

theorem checkedParameter_eq (location : Location) (raw : String) :
    checkedParameter location raw = (constantParameter location raw).mapError .parse := by
  rw [checkedParameter, constantParameter, mapError_bind]
  congr 1
  funext formula
  by_cases constant : formula.tree.isConstant = true
  · rcases Expr.exists_value_of_isConstant constant with ⟨value, evaluates⟩
    have found : formula.tree.constant? = some value := by rw [Expr.constant?, evaluates]
    rw [if_pos constant, evaluates, found]
    rfl
  · have missing : formula.tree.constant? = none := by
      rw [← Option.not_isSome_iff_eq_none, Expr.isSome_constant?_iff]
      exact constant
    rw [if_neg constant, missing]
    rfl

theorem checkedWord_eq (text : String) :
    checkedWord text = (parseWord text).mapError .parse := by
  rw [checkedWord, parseWord, mapError_bind]
  congr 1
  funext raws
  rw [← mapM_mapError]
  congr 1
  funext raw
  have parameter_eq := funext (checkedParameter_eq { line := none, source := some text })
  rw [mapError_bind, ← mapM_mapError, parameter_eq]
  rfl

/-- An expression has a value exactly when all its names are bound and there is a source for what it
draws; otherwise evaluation fails with what its first failing leaf fails with. Its value and its
draws are the same in all environments that agree on its names. A constant has a value without any
names and without a source, and the same one everywhere, so that a start word is never refused for
the evaluation of a parameter. -/
theorem free_names_decide_evaluation :
    (∀ expr : Expr,
      (∀ {σ : Type} (env : Env) (source : Option (Source σ)) (before : σ),
        ((∃ value after, (expr.eval env source).run before = .ok value after) ↔
          (∀ name ∈ expr.names, (env name).isSome) ∧
            (source.isSome ∨ expr.usesRandom = false)) ∧
        ∀ error, (∃ after, (expr.eval env source).run before = .error error after) ↔
          ∃ earlier leaf later, expr.leaves = earlier ++ leaf :: later ∧
            Expr.leafError? env source leaf = some error ∧
            ∀ other ∈ earlier, Expr.leafError? env source other = none) ∧
      (∀ {σ : Type} (env other : Env) (source : Option (Source σ)),
        (∀ name ∈ expr.names, env name = other name) →
          expr.eval env source = expr.eval other source) ∧
      (expr.isConstant = true → ∃ value, expr.constant? = some value ∧
        ∀ {σ : Type} (env : Env) (source : Option (Source σ)) (before : σ),
          (expr.eval env source).run before = .ok value before)) ∧
    ∀ text, checkedWord text = (parseWord text).mapError .parse := by
  refine ⟨fun expr => ⟨fun env source before => ⟨Expr.exists_eval_iff, fun error => ?_⟩,
    fun env other source agree => Expr.eval_congr source agree, fun constant => ?_⟩,
    checkedWord_eq⟩
  · rw [← errorOf?_eq_some_iff, Expr.errorOf?_eval, List.findSome?_eq_some_iff]
  · rcases Expr.exists_value_of_isConstant constant with ⟨value, evaluates⟩
    exact ⟨value, by rw [Expr.constant?, evaluates], evaluates⟩

/-- A name that starts with a reserved word, behind a draw: without a source the draw fails first, and
with one the name does. -/
theorem free_names_decide_evaluation_of_mixed :
    let expr : Expr := .binary .sub (.reference "a") (.binary .mul .random (.reference "randomize"))
    let constant : Expr := .signed .minus (.binary .div (.number "1") (.hexadecimal "0x2"))
    let env : Env := .ofLists ["a"] [2]
    let other : Env := .ofLists ["a", "b"] [2, 3]
    Formula.compile "a - random()*randomize" =
        .ok { source := "a - random()*randomize", tree := expr } ∧
      (∀ name ∈ expr.names, env name = other name) ∧
      expr.eval env (some Script.source) = expr.eval other (some Script.source) ∧
      (∃ after, (expr.eval env (none : Option (Source Unit))).run () = .error .noSource after) ∧
      (∃ after, (expr.eval env (some Script.source)).run (.ofList [0.5]) =
        .error (.unboundName "randomize") after) ∧
      constant.isConstant = true ∧
      ∃ value, constant.constant? = some value ∧
        ∀ {σ : Type} (env : Env) (source : Option (Source σ)) (before : σ),
          (constant.eval env source).run before = .ok value before := by
  intro expr constant env other
  rcases free_names_decide_evaluation.1 expr with ⟨decided, agreeing, _⟩
  have agree : ∀ name ∈ expr.names, env name = other name := by
    simp [expr, env, other, Expr.names, Env.ofLists, Env.bind]
  have isConstant : constant.isConstant = true := by decide
  refine ⟨by decide +kernel, agree, agreeing env other _ agree, ?_, ?_, isConstant,
    (free_names_decide_evaluation.1 constant).2.2 isConstant⟩
  · exact ((decided env none ()).2 .noSource).mpr
      ⟨[.reference "a"], .random, [.reference "randomize"], rfl, rfl,
        List.forall_mem_singleton.mpr rfl⟩
  · exact ((decided env (some Script.source) (.ofList [0.5])).2 (.unboundName "randomize")).mpr
      ⟨[.reference "a", .random], .reference "randomize", [], rfl, rfl,
        List.forall_mem_cons.mpr ⟨rfl, List.forall_mem_singleton.mpr rfl⟩⟩

end GrowthGrammar
