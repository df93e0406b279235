import GrowthGrammar.Proofs.Turtle.Emission
import GrowthGrammar.Proofs.Turtle.Failure
import GrowthGrammar.Proofs.Turtle.Resources

/-!
# Runs without lines

A turtle that draws no line and turns by angles with a cosine carries out every word.
-/

namespace GrowthGrammar

open Fallible Turtle

/-- The symbol starts no line, and if it turns the turtle, then by an angle with a cosine. -/
structure Symbol.Steady (defaults : Defaults) (symbol : Symbol) : Prop where
  noLine : symbol.name ≠ "s"
  turns : ∀ {axis sign angle}, Command.ofSymbol? symbol = some (.rotate axis sign angle) →
    Frame.hasCosine (signedAngle sign (angle.getD defaults.angle)) = true

namespace Turtle

variable {before : Turtle}

theorem exists_run_of_idle {symbol : Symbol} (idle : before.stroke? = none)
    (steady : symbol.Steady before.defaults) : ∃ after, (obey symbol).run before = .ok ⟨⟩ after := by
  cases run : (obey symbol).run before with
  | ok value after => exact ⟨after, rfl⟩
  | error error after =>
      rcases run_obey_error_iff.mp ⟨after, run⟩ with ⟨command, reads, fails⟩
      cases fails with
      | rotate noCosine =>
          rw [steady.turns reads] at noCosine
          cases noCosine
      | line _ broken =>
          rw [lineError?, idle] at broken
          cases broken

/-- What a turtle that draws no line still has behind a symbol that starts none. -/
theorem exists_run_obey {symbol : Symbol} (idle : before.stroke? = none)
    (steady : symbol.Steady before.defaults) :
    ∃ after, (obey symbol).run before = .ok ⟨⟩ after ∧ after.stroke? = none ∧
      after.defaults = before.defaults := by
  rcases exists_run_of_idle idle steady with ⟨after, run⟩
  refine ⟨after, run, ?_, ?_⟩
  · have tracks : Emitter.start.Tracks before := by
      rw [Emitter.Tracks, idle]
      rfl
    have next_eq : Emitter.start.next symbol.name = Emitter.start := by
      have noLine := steady.noLine
      unfold Emitter.next
      split <;> first | rfl | contradiction
    have tracksAfter := (tracks.obey run).tracks
    rw [next_eq, Emitter.Tracks] at tracksAfter
    split at tracksAfter
    · assumption
    · cases tracksAfter.1
  · have kept := background_of_obey symbol before
    rw [run] at kept
    exact congrArg Prod.fst kept

theorem exists_run_steady {word : List Symbol} (idle : before.stroke? = none)
    (steady : ∀ symbol ∈ word, symbol.Steady before.defaults) :
    ∃ after, (word.forM obey).run before = .ok ⟨⟩ after := by
  induction word generalizing before with
  | nil => exact ⟨before, rfl⟩
  | cons symbol word induction =>
      rcases List.forall_mem_cons.mp steady with ⟨first, others⟩
      rcases exists_run_obey idle first with ⟨between, run, idleNext, defaults_eq⟩
      rcases induction idleNext (defaults_eq ▸ others) with ⟨after, rest⟩
      exact ⟨after, run_forM_cons_eq_ok_iff.mpr ⟨between, run, rest⟩⟩

end Turtle

end GrowthGrammar
