import GrowthGrammar.Proofs.Turtle.Steps

/-!
# Failures of a turtle

A command fails for one of two reasons: it turns the turtle by an angle that has no cosine, or it
ends a line of which no tube can be made. A run fails at the first command that does.
-/

namespace GrowthGrammar

open Fallible

/-- The commands that end a line; behind a bracket another one is started. -/
def Command.endsLine : Command → Bool
  | endLine | push | pop => true
  | _ => false

namespace Turtle

/-- What keeps the line that is being drawn from becoming a tube. -/
def lineError? (turtle : Turtle) : Option CurveError :=
  turtle.stroke?.bind fun stroke =>
    match stroke.tube? turtle.pose.radius turtle.pose.tension with
    | .ok _ => none
    | .error error => some error

/-- Why a turtle cannot carry out a command. -/
inductive Fails (before : Turtle) : Command → TurtleError → Prop
  | rotate {axis : Axis} {sign : Sign} {angle : Option Float} :
      Frame.hasCosine (signedAngle sign (angle.getD before.defaults.angle)) = false →
      Fails before (.rotate axis sign angle) (.rotation .infiniteAngle)
  | line {command : Command} {error : CurveError} : command.endsLine = true →
      before.lineError? = some error → Fails before command (.curve error)

variable {before : Turtle}

theorem run_rotate (axis : Axis) (degrees : Float) :
    (rotate axis degrees).run before =
      if Frame.hasCosine degrees then
        .ok ⟨⟩ (before.withFrame (before.pose.frame.rotate axis degrees))
      else .error (.rotation .infiniteAngle) before := by
  rw [rotate, EStateM.run_bind, EStateM.run_get]
  dsimp only
  rw [Frame.rotate?]
  cases Frame.hasCosine degrees <;> rfl

theorem run_breakLine_idle (idle : before.stroke? = none) :
    breakLine.run before = .ok ⟨⟩ before := by
  rw [breakLine, EStateM.run_bind, EStateM.run_get]
  dsimp only
  rw [isDrawing, idle, Option.isSome_none, if_neg Bool.false_ne_true]
  rfl

theorem run_breakLine_drawing {stroke : Stroke} (drawing : before.stroke? = some stroke) :
    breakLine.run before = (endLine >>= fun _ => modify startLine).run before := by
  rw [breakLine, EStateM.run_bind, EStateM.run_get]
  dsimp only
  rw [isDrawing, drawing, Option.isSome_some, if_pos rfl]

/-- A motion that fails just when the line of the turtle cannot become a tube. -/
def NeedsTube (motion : Motion Unit) : Prop :=
  ∀ before, ∃ after, motion.run before =
    match before.lineError? with
    | none => .ok ⟨⟩ after
    | some error => .error (.curve error) after

theorem NeedsTube.bind_modify {motion : Motion Unit} (needs : NeedsTube motion)
    (change : Turtle → Turtle) : NeedsTube (motion >>= fun _ => modify change) := by
  intro before
  rcases needs before with ⟨after, run⟩
  rw [EStateM.run_bind, run]
  cases before.lineError? with
  | none => exact ⟨change after, rfl⟩
  | some error => exact ⟨after, rfl⟩

theorem needsTube_endLine : NeedsTube endLine := by
  intro before
  rw [lineError?]
  cases drawing : before.stroke? with
  | none => exact ⟨before, run_endLine_idle drawing⟩
  | some stroke =>
      rw [run_endLine_drawing drawing, Option.bind_some]
      cases stroke.tube? before.pose.radius before.pose.tension with
      | ok solid? => exact ⟨_, rfl⟩
      | error error => exact ⟨_, rfl⟩

theorem needsTube_breakLine : NeedsTube breakLine := by
  intro before
  cases drawing : before.stroke? with
  | none =>
      rw [run_breakLine_idle drawing, lineError?, drawing]
      exact ⟨before, rfl⟩
  | some stroke =>
      rw [run_breakLine_drawing drawing]
      exact needsTube_endLine.bind_modify startLine before

theorem needsTube_perform {command : Command} (ends : command.endsLine = true) :
    NeedsTube (perform command) := by
  intro before
  rw [perform, EStateM.run_bind, EStateM.run_get]
  cases command with
  | endLine => exact needsTube_endLine before
  | push => exact needsTube_breakLine.bind_modify save before
  | pop => exact needsTube_breakLine.bind_modify restore before
  | _ => cases ends

/-- A command is carried out, or there is a reason why it is not. -/
theorem run_perform_cases (before : Turtle) (command : Command) :
    (∃ after, (perform command).run before = .ok ⟨⟩ after) ∨
      ∃ error after, (perform command).run before = .error error after ∧
        Fails before command error := by
  by_cases ends : command.endsLine = true
  · rcases needsTube_perform ends before with ⟨after, run⟩
    cases broken : before.lineError? with
    | none => exact .inl ⟨after, by rw [run, broken]⟩
    | some error => exact .inr ⟨.curve error, after, by rw [run, broken], .line ends broken⟩
  · rw [perform, EStateM.run_bind, EStateM.run_get]
    cases command with
    | rotate axis sign angle =>
        dsimp only
        rw [run_rotate]
        split
        · exact .inl ⟨_, rfl⟩
        · next noCosine => exact .inr ⟨_, _, rfl, .rotate (Bool.eq_false_iff.mpr noCosine)⟩
    | endLine | push | pop => exact absurd rfl ends
    | _ => exact .inl ⟨_, rfl⟩

theorem Fails.run {command : Command} {error : TurtleError} (fails : Fails before command error) :
    ∃ after, (perform command).run before = .error error after := by
  cases fails with
  | rotate noCosine =>
      refine ⟨before, ?_⟩
      rw [perform, EStateM.run_bind, EStateM.run_get]
      dsimp only
      rw [run_rotate, noCosine, if_neg Bool.false_ne_true]
  | line ends broken =>
      rcases needsTube_perform ends before with ⟨after, run⟩
      exact ⟨after, by rw [run, broken]⟩

theorem run_obey_error_iff {symbol : Symbol} {error : TurtleError} :
    (∃ after, (obey symbol).run before = .error error after) ↔
      ∃ command, Command.ofSymbol? symbol = some command ∧ Fails before command error := by
  rw [obey]
  cases reads : Command.ofSymbol? symbol with
  | none =>
      constructor
      · rintro ⟨after, run⟩
        cases run
      · rintro ⟨command, found, _⟩
        cases found
  | some command =>
      constructor
      · rintro ⟨after, run⟩
        rcases run_perform_cases before command with ⟨other, done⟩ | ⟨other, last, failed, fails⟩
        · cases run.symm.trans done
        · cases run.symm.trans failed
          exact ⟨command, rfl, fails⟩
      · rintro ⟨other, found, fails⟩
        cases found
        exact fails.run

/-- A run fails at the first command that cannot be carried out. -/
theorem run_error_iff {word : List Symbol} {error : TurtleError} :
    (∃ after, (word.forM obey).run before = .error error after) ↔
      ∃ done symbol rest between command, word = done ++ symbol :: rest ∧
        (done.forM obey).run before = .ok ⟨⟩ between ∧
        Command.ofSymbol? symbol = some command ∧ Fails between command error := by
  rw [run_forM_error_iff]
  constructor
  · rintro ⟨done, symbol, rest, between, after, rfl, runDone, failed⟩
    rcases run_obey_error_iff.mp ⟨after, failed⟩ with ⟨command, reads, fails⟩
    exact ⟨done, symbol, rest, between, command, rfl, runDone, reads, fails⟩
  · rintro ⟨done, symbol, rest, between, command, rfl, runDone, reads, fails⟩
    rcases run_obey_error_iff.mpr ⟨command, reads, fails⟩ with ⟨after, failed⟩
    exact ⟨done, symbol, rest, between, after, rfl, runDone, failed⟩

end Turtle

end GrowthGrammar
