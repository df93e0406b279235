import GrowthGrammar.Proofs.Grammar.Brackets
import GrowthGrammar.Proofs.Turtle.Steps

/-!
# Saved poses

Brackets save and restore the pose of a turtle. Whatever stands between two matching brackets, the
pose behind them is the pose in front of them.
-/

namespace GrowthGrammar

open Fallible

theorem Command.ofSymbol?_eq_push_iff {symbol : Symbol} :
    Command.ofSymbol? symbol = some .push ↔ symbol.opens := by
  unfold Command.ofSymbol? Symbol.opens
  split <;> simp_all

theorem Command.ofSymbol?_eq_pop_iff {symbol : Symbol} :
    Command.ofSymbol? symbol = some .pop ↔ symbol.closes := by
  unfold Command.ofSymbol? Symbol.closes
  split <;> simp_all

theorem Symbol.closes_eq_false_of_opens {symbol : Symbol} (opens : symbol.opens) :
    symbol.closes = false := by
  simp_all [Symbol.opens, Symbol.closes]

namespace Turtle

@[simp] theorem restore_stack (turtle : Turtle) : turtle.restore.stack = turtle.stack.tail := by
  unfold restore
  split <;> simp_all

theorem restore_pose {turtle : Turtle} {pose : Pose} {stack : List Pose}
    (saved : turtle.stack = pose :: stack) : turtle.restore.pose = pose := by
  simp [restore, saved]

/-- Only brackets change the stack. -/
theorem Performs.stack {command : Command} {before after : Turtle}
    (performs : Performs before command after) (notPush : command ≠ .push)
    (notPop : command ≠ .pop) : after.stack = before.stack := by
  cases performs with
  | endLine ends => cases ends <;> simp
  | push => exact absurd rfl notPush
  | pop => exact absurd rfl notPop
  | _ => simp

theorem breaks_of_obey_opening {symbol : Symbol} (opens : symbol.opens) {before after : Turtle}
    (run : (obey symbol).run before = .ok ⟨⟩ after) :
    ∃ between, Breaks before between ∧ after = between.save := by
  cases performs_of_obey (Command.ofSymbol?_eq_push_iff.mpr opens) run with
  | push breaks => exact ⟨_, breaks, rfl⟩

theorem breaks_of_obey_closing {symbol : Symbol} (closes : symbol.closes) {before after : Turtle}
    (run : (obey symbol).run before = .ok ⟨⟩ after) :
    ∃ between, Breaks before between ∧ after = between.restore := by
  cases performs_of_obey (Command.ofSymbol?_eq_pop_iff.mpr closes) run with
  | pop breaks => exact ⟨_, breaks, rfl⟩

/-- One symbol puts the pose on the stack, takes the uppermost pose from it or leaves it alone. -/
theorem stack_of_obey {symbol : Symbol} {before after : Turtle}
    (run : (obey symbol).run before = .ok ⟨⟩ after) :
    after.stack = if symbol.opens then before.pose :: before.stack
      else if symbol.closes then before.stack.tail else before.stack := by
  by_cases opens : symbol.opens
  · rcases breaks_of_obey_opening opens run with ⟨between, breaks, saved⟩
    simp [saved, save, opens, breaks.pose, breaks.stack]
  · by_cases closes : symbol.closes
    · rcases breaks_of_obey_closing closes run with ⟨between, breaks, restored⟩
      simp [restored, opens, closes, breaks.stack]
    · rw [if_neg opens, if_neg closes]
      cases reads : Command.ofSymbol? symbol with
      | none => rw [eq_of_obey_unknown reads run]
      | some command =>
          apply (performs_of_obey reads run).stack
          · rintro rfl
            exact opens (Command.ofSymbol?_eq_push_iff.mp reads)
          · rintro rfl
            exact closes (Command.ofSymbol?_eq_pop_iff.mp reads)

/-- The poses below those that a word may take from the stack stay where they are. The invariant of
the induction splits the stack into the poses whose brackets are open and the poses below them. -/
theorem stack_of_covered {word : List Symbol} (opened : List Pose) {below : List Pose}
    {before after : Turtle} (covered : Word.Covered opened.length word)
    (split : before.stack = opened ++ below)
    (run : (word.forM obey).run before = .ok ⟨⟩ after) :
    ∃ left, after.stack = left ++ below ∧
      left.length + Word.closings word = opened.length + Word.openings word := by
  induction word generalizing opened before with
  | nil =>
      cases run
      exact ⟨opened, split, rfl⟩
  | cons symbol word induction =>
      rcases run_forM_cons_eq_ok_iff.mp run with ⟨between, first, rest⟩
      have stack := stack_of_obey first
      rw [Word.openings_cons, Word.closings_cons]
      by_cases opens : symbol.opens
      · have notCloses := Symbol.closes_eq_false_of_opens opens
        rw [if_pos opens, split] at stack
        rcases induction (before.pose :: opened)
            (covered.tail (by simp [opens, notCloses])) stack rest with ⟨left, leftStack, counts⟩
        refine ⟨left, leftStack, ?_⟩
        simp only [opens, notCloses, List.length_cons, if_true, Bool.false_eq_true, if_false]
          at counts ⊢
        omega
      · by_cases closes : symbol.closes
        · have positive := covered.closes_le closes (Bool.eq_false_iff.mpr opens)
          rcases List.exists_cons_of_length_pos positive with ⟨pose, lower, rfl⟩
          rw [if_neg opens, if_pos closes, split] at stack
          rcases induction lower (covered.tail (by simp [opens, closes])) stack rest with
              ⟨left, leftStack, counts⟩
          refine ⟨left, leftStack, ?_⟩
          simp only [opens, closes, List.length_cons, if_true, Bool.false_eq_true, if_false]
            at counts ⊢
          omega
        · rw [if_neg opens, if_neg closes, split] at stack
          rcases induction opened (covered.tail (by simp [opens, closes])) stack rest with
              ⟨left, leftStack, counts⟩
          refine ⟨left, leftStack, ?_⟩
          simpa [opens, closes] using counts

/-- A balanced word leaves the stack as it was. -/
theorem stack_of_balanced {word : List Symbol} (balanced : Word.Balanced word)
    {before after : Turtle} (run : (word.forM obey).run before = .ok ⟨⟩ after) :
    after.stack = before.stack := by
  rcases stack_of_covered [] balanced.1 rfl run with ⟨left, stack, counts⟩
  have none_left : left.length = 0 := by
    have closed := balanced.2
    rw [List.length_nil] at counts
    omega
  rw [stack, List.eq_nil_of_length_eq_zero none_left, List.nil_append]

/-- In front of a closing bracket of a covered word the stack is higher than at the start. -/
theorem stack_of_covered_closing {done rest : List Symbol} {symbol : Symbol}
    (covered : Word.Covered 0 (done ++ symbol :: rest)) (closes : symbol.closes)
    {before after : Turtle} (run : (done.forM obey).run before = .ok ⟨⟩ after) :
    ∃ pose left, after.stack = pose :: left ++ before.stack := by
  have notOpens : symbol.opens = false := by
    by_contra opens
    rw [Bool.not_eq_false] at opens
    rw [Symbol.closes_eq_false_of_opens opens] at closes
    cases closes
  have coveredDone : Word.Covered 0 done := fun start isPrefix =>
    covered start (isPrefix.trans (List.prefix_append done _))
  rcases stack_of_covered [] coveredDone rfl run with ⟨left, stack, counts⟩
  have count := covered (done ++ [symbol]) ⟨rest, (List.append_cons done symbol rest).symm⟩
  rw [Word.closings_append, Word.openings_append, Word.closings_singleton,
    Word.openings_singleton, if_pos closes, notOpens] at count
  have positive : 0 < left.length := by
    simp only [List.length_nil, Bool.false_eq_true, if_false] at counts count
    omega
  rcases List.exists_cons_of_length_pos positive with ⟨pose, lower, rfl⟩
  exact ⟨pose, lower, stack⟩

/-- A balanced word in brackets restores the pose: the frame, the material with its identity, the
tension and the radius. A command that fails ends the run, and the brackets are commands too: the
closing one fails when the line that is open there cannot become a tube. -/
theorem bracketed_restores {opening closing : Symbol} (opens : opening.name = "[")
    (closes : closing.name = "]") {word : List Symbol} (balanced : Word.Balanced word)
    {before after : Turtle}
    (run : ((opening :: word ++ [closing]).forM obey).run before = .ok ⟨⟩ after) :
    after.pose = before.pose ∧ after.stack = before.stack := by
  have isOpening : opening.opens := by simpa [Symbol.opens] using opens
  have isClosing : closing.closes := by simpa [Symbol.closes] using closes
  rw [List.cons_append] at run
  rcases run_forM_cons_eq_ok_iff.mp run with ⟨inside, runOpening, run⟩
  rcases run_forM_append_eq_ok_iff.mp run with ⟨atEnd, runWord, run⟩
  rcases run_forM_cons_eq_ok_iff.mp run with ⟨last, runClosing, done⟩
  cases done
  rcases breaks_of_obey_opening isOpening runOpening with ⟨saved, breaksBefore, rfl⟩
  rcases breaks_of_obey_closing isClosing runClosing with ⟨broken, breaksBehind, rfl⟩
  have stack : broken.stack = before.pose :: before.stack := by
    rw [breaksBehind.stack, stack_of_balanced balanced runWord, save, breaksBefore.pose,
      breaksBefore.stack]
  exact ⟨restore_pose stack, by rw [restore_stack, stack, List.tail_cons]⟩

/-- A turtle with a pose on its stack turns, moves, draws and paints within nested brackets. -/
theorem bracketed_restores_of_nested :
    let opening : Symbol := ⟨"[", []⟩
    let closing : Symbol := ⟨"]", []⟩
    let word : List Symbol := [⟨"+x", [40]⟩, ⟨"f", []⟩, ⟨"s", []⟩, opening, ⟨"r", [0.5]⟩,
      ⟨"m", [255]⟩, ⟨"sphere", []⟩, closing, ⟨"t", []⟩, ⟨"e", []⟩, ⟨"unknown", []⟩, ⟨"l", [1]⟩]
    let before := ((Turtle.new .standard).move 1).save
    opening.name = "[" ∧ closing.name = "]" ∧ Word.Balanced word ∧
      ∃ after, ((opening :: word ++ [closing]).forM obey).run before = .ok ⟨⟩ after ∧
        after.pose = before.pose ∧ after.stack = before.stack := by
  intro opening closing word before
  have accepted :
      isCompleted (((opening :: word ++ [closing]).forM obey).run before) = true := by
    decide +kernel
  rcases exists_ok_of_isCompleted accepted with ⟨⟨⟩, after, run⟩
  have balanced : Word.Balanced word := by decide
  exact ⟨rfl, rfl, balanced, after, run, bracketed_restores rfl rfl balanced run⟩

/-- No command within the brackets fails, but no tube leads to infinity: the closing bracket fails
when it ends the line, and the pose is not restored. -/
theorem bracketed_stranded_at_infinity :
    let opening : Symbol := ⟨"[", []⟩
    let closing : Symbol := ⟨"]", []⟩
    let word : List Symbol := [⟨"s", []⟩, ⟨"f", [1 / 0]⟩]
    let before := Turtle.new .standard
    let ended := ((opening :: word ++ [closing]).forM obey).run before
    Word.Balanced word ∧ isCompleted (((opening :: word).forM obey).run before) = true ∧
      isCompleted ended = false ∧ (stateOf ended).pose.frame ≠ before.pose.frame ∧
      (stateOf ended).stack.length ≠ before.stack.length := by
  decide +kernel

end Turtle

end GrowthGrammar
