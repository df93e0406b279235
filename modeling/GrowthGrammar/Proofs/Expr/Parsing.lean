import GrowthGrammar.Proofs.Expr.Printing

/-!
# Parsing printed expressions

The parser reads a token sequence as an expression exactly when the sequence stands for it. Both
directions follow what waits to the left of the place that the parser has reached.
-/

namespace GrowthGrammar

namespace Parser

open GrowthGrammar.Expr (Written)

/-- What waits directly to the left leaves an operand of the level to what follows. -/
def Waits (level : Nat) : List Pending → Prop
  | .sign _ :: _ => 3 ≤ level
  | .operand _ operation :: _ => operation.level < level
  | _ => True

theorem waits_three (pending : List Pending) : Waits 3 pending := by
  match pending with
  | [] | .group :: _ => exact trivial
  | .sign _ :: _ => exact Nat.le_refl 3
  | .operand _ operation :: _ => exact Nat.lt_succ_of_le operation.level_le

theorem Waits.mono {lower level : Nat} {pending : List Pending} (waits : Waits lower pending)
    (le : lower ≤ level) : Waits level pending := by
  match pending, waits with
  | [], _ | .group :: _, _ => exact trivial
  | .sign _ :: _, waits => exact Nat.le_trans waits le
  | .operand _ _ :: _, waits => exact Nat.lt_of_lt_of_le waits le

theorem settle_of_waits {operation : Operation} {pending : List Pending}
    (waits : Waits operation.level pending) (operand : Expr) :
    settle operation.level pending operand = (pending, operand) := by
  match pending, waits with
  | [], _ | .group :: _, _ => rfl
  | .sign _ :: _, waits => exact absurd (Nat.le_trans waits operation.level_le) (by decide)
  | .operand _ _ :: _, waits => exact if_neg (Nat.not_le.mpr waits)

/-! ## Every printing is read -/

theorem step_sign (pending : List Pending) (sign : Sign) :
    step (.expecting pending) sign.token = some (.expecting (.sign sign :: pending)) := by
  cases sign <;> rfl

theorem step_operation (pending : List Pending) (operand : Expr) (operation : Operation) :
    step (.reached pending operand) operation.token = binary operation pending operand := by
  cases operation <;> rfl

theorem step_closeParen (pending : List Pending) (operand : Expr) :
    step (.reached pending operand) .closeParen =
      match settle 0 pending operand with
      | (.group :: pending, operand) => some (.reached pending operand)
      | _ => none :=
  rfl

theorem word_of_free {letters : List Char} (free : letters ∉ Token.reserved)
    (pending : List Pending) :
    word pending letters = some (.reached pending (.reference (.ofList letters))) := by
  simp only [Token.reserved, List.mem_cons, List.not_mem_nil, or_false, not_or] at free
  simp [word, free]

/-- The tokens of an expression lead to an operand that settles as the expression does. -/
theorem foldlM_of_written {level : Nat} {expr : Expr} {tokens : List Token}
    (written : Written level expr tokens) {pending : List Pending} (waits : Waits level pending) :
    ∃ reached operand, tokens.foldlM step (.expecting pending) = some (.reached reached operand) ∧
      ∀ lower ≤ level, settle lower reached operand = settle lower pending expr := by
  induction written generalizing pending with
  | @number literal =>
      exact ⟨pending, .number literal, by simp [step, State.expecting], fun _ _ => rfl⟩
  | @hexadecimal literal =>
      exact ⟨pending, .hexadecimal literal, by simp [step, State.expecting], fun _ _ => rfl⟩
  | @truth value =>
      exact ⟨pending, .truth value, by cases value <;> rfl, fun _ _ => rfl⟩
  | random => exact ⟨pending, .random, rfl, fun _ _ => rfl⟩
  | @reference name _ free =>
      exact ⟨pending, .reference name, by simp [step, State.expecting, word_of_free free],
        fun _ _ => rfl⟩
  | @group expr tokens _ induction =>
      have waitsGroup : Waits 1 (.group :: pending) := trivial
      rcases induction waitsGroup with ⟨reached, operand, read, settles⟩
      refine ⟨pending, expr, ?_, fun _ _ => rfl⟩
      have opened : step (.expecting pending) .openParen =
          some (.expecting (.group :: pending)) := rfl
      have closed : step (.reached reached operand) .closeParen = some (.reached pending expr) := by
        have settled : settle 0 reached operand = (.group :: pending, expr) :=
          settles 0 (Nat.zero_le 1)
        rw [step_closeParen, settled]
      simp [opened, read, closed]
  | @signed sign operand tokens _ induction =>
      have waitsSign : Waits 3 (.sign sign :: pending) := Nat.le_refl 3
      rcases induction waitsSign with ⟨reached, operand, read, settles⟩
      refine ⟨reached, operand, ?_, settles⟩
      simp [step_sign, read]
  | @binary operation left right leftTokens rightTokens _ _ leftInduction rightInduction =>
      rcases leftInduction waits with ⟨leftReached, leftOperand, leftRead, leftSettles⟩
      have waitsOperand : Waits (operation.level + 1) (.operand left operation :: pending) :=
        Nat.lt_succ_self _
      rcases rightInduction waitsOperand with ⟨reached, operand, read, settles⟩
      refine ⟨reached, operand, ?_, ?_⟩
      · have settled : settle operation.level leftReached leftOperand = (pending, left) := by
          rw [leftSettles _ (Nat.le_refl _), settle_of_waits waits]
        simp [leftRead, step_operation, binary, settled, read]
      · intro lower le
        rw [settles lower (Nat.le_succ_of_le le)]
        exact if_pos le
  | looser _ induction =>
      rcases induction (waits.mono (Nat.le_succ _)) with ⟨reached, operand, read, settles⟩
      exact ⟨reached, operand, read, fun lower le => settles lower (Nat.le_succ_of_le le)⟩

theorem parse?_of_written {expr : Expr} {tokens : List Token} (written : Written 1 expr tokens) :
    parse? tokens = some expr := by
  have waits : Waits 1 [] := trivial
  rcases foldlM_of_written written waits with ⟨reached, operand, read, settles⟩
  have settled : settle 0 reached operand = ([], expr) := settles 0 (Nat.zero_le 1)
  simp [parse?, read, State.result?, State.reached, settled]

/-! ## Only printings are read -/

/-- The tokens that are waiting, as they have been read. -/
inductive Read : List Token → List Pending → Prop
  | start : Read [] []
  | group {tokens : List Token} {pending : List Pending} : Read tokens pending →
      Read (tokens ++ [.openParen]) (.group :: pending)
  | sign {tokens : List Token} {pending : List Pending} {sign : Sign} : Read tokens pending →
      Read (tokens ++ [sign.token]) (.sign sign :: pending)
  | operand {tokens leftTokens : List Token} {pending : List Pending} {operation : Operation}
      {left : Expr} : Read tokens pending → Waits operation.level pending →
      Written operation.level left leftTokens →
      Read (tokens ++ leftTokens ++ [operation.token]) (.operand left operation :: pending)

/-- Completing what waits keeps the tokens and what they stand for. -/
theorem settle_read {level : Nat} (le : level ≤ 3) {front back : List Token}
    {pending : List Pending} {operand : Expr} {strength : Nat} (read : Read front pending)
    (waits : Waits strength pending) (written : Written strength operand back)
    (enough : level ≤ strength) :
    ∃ rest operandTokens, front ++ back = rest ++ operandTokens ∧
      Read rest (settle level pending operand).1 ∧
      Written level (settle level pending operand).2 operandTokens ∧
      Waits level (settle level pending operand).1 := by
  induction read generalizing back operand strength with
  | start => exact ⟨[], back, rfl, .start, written.of_le enough, trivial⟩
  | group read _ => exact ⟨_, back, rfl, .group read, written.of_le enough, trivial⟩
  | @sign tokens pending sign read induction =>
      rcases induction (waits_three pending) (.signed (written.of_le waits)) le with
        ⟨rest, operandTokens, tokens_eq, settled⟩
      exact ⟨rest, operandTokens, by simpa using tokens_eq, settled⟩
  | @operand tokens leftTokens pending operation left read waitsLeft writtenLeft induction =>
      unfold settle
      split
      · next tighter =>
          rcases induction waitsLeft (.binary writtenLeft (written.of_le waits)) tighter with
            ⟨rest, operandTokens, tokens_eq, settled⟩
          exact ⟨rest, operandTokens, by simpa using tokens_eq, settled⟩
      · next looser =>
          exact ⟨_, back, rfl, .operand read waitsLeft writtenLeft, written.of_le enough,
            Nat.not_le.mp looser⟩

theorem settle_zero (pending : List Pending) (operand : Expr) :
    settle 0 pending operand = settle 1 pending operand := by
  induction pending generalizing operand with
  | nil => rfl
  | cons first pending induction =>
      cases first with
      | group => rfl
      | sign sign => exact induction _
      | operand left operation =>
          simp [settle, operation.level_pos, induction]

/-- What the tokens up to a state of the parser stand for. -/
def Explains (tokens : List Token) (state : State) : Prop :=
  match state.phase with
  | .before => Read tokens state.pending
  | .afterRandom => ∃ front, tokens = front ++ [.word Expr.randomWord] ∧ Read front state.pending
  | .insideRandom =>
      ∃ front, tokens = front ++ [.word Expr.randomWord, .openParen] ∧ Read front state.pending
  | .behind operand =>
      ∃ front back, tokens = front ++ back ∧ Read front state.pending ∧ Written 4 operand back

/-- At the end of a group or of the whole, everything up to its start is completed. -/
theorem settle_zero_read {tokens : List Token} {pending : List Pending} {operand : Expr}
    (explains : Explains tokens (.reached pending operand)) :
    ∃ rest operandTokens, tokens = rest ++ operandTokens ∧
      Read rest (settle 0 pending operand).1 ∧
      Written 1 (settle 0 pending operand).2 operandTokens := by
  rcases explains with ⟨front, back, rfl, read, written⟩
  rw [settle_zero]
  have waits : Waits 4 pending := (waits_three pending).mono (by decide)
  rcases settle_read (by decide : 1 ≤ 3) read waits written (by decide) with
    ⟨rest, operandTokens, tokens_eq, readRest, writtenRest, _⟩
  exact ⟨rest, operandTokens, tokens_eq, readRest, writtenRest⟩

theorem explains_binary {tokens : List Token} {next : State} {pending : List Pending}
    {operand : Expr} (explains : Explains tokens (.reached pending operand)) (operation : Operation)
    (stepped : binary operation pending operand = some next) :
    Explains (tokens ++ [operation.token]) next := by
  rcases explains with ⟨front, back, rfl, read, written⟩
  have waits : Waits 4 pending := (waits_three pending).mono (by decide)
  have le : operation.level ≤ 3 := Nat.le_succ_of_le operation.level_le
  rcases settle_read le read waits written (Nat.le_succ_of_le le) with
    ⟨rest, operandTokens, tokens_eq, readRest, writtenLeft, waitsLeft⟩
  cases stepped
  rw [tokens_eq]
  exact .operand readRest waitsLeft writtenLeft

theorem explains_word {tokens : List Token} {pending : List Pending} {next : State}
    {letters : List Char} (read : Read tokens pending) (valid : Token.isWord letters = true)
    (stepped : word pending letters = some next) :
    Explains (tokens ++ [.word letters]) next := by
  rw [word] at stepped
  split at stepped
  · next letters_eq =>
      cases stepped
      exact ⟨tokens, _, rfl, read, letters_eq ▸ @Written.truth true⟩
  · split at stepped
    · next letters_eq =>
        cases stepped
        exact ⟨tokens, _, rfl, read, letters_eq ▸ @Written.truth false⟩
    · split at stepped
      · next letters_eq =>
          cases stepped
          exact ⟨tokens, by rw [letters_eq]; rfl, read⟩
      · next notTrue notFalse notRandom =>
          cases stepped
          have free : letters ∉ Token.reserved := by
            simp [Token.reserved, notTrue, notFalse, notRandom]
          exact ⟨tokens, _, rfl, read, .ofReference valid free⟩

/-- A literal, a word or a mark where an operand is expected. -/
theorem explains_step_before {tokens : List Token} {pending : List Pending} {next : State}
    {token : Token} (read : Read tokens pending) (valid : token.Valid)
    (stepped : step (.expecting pending) token = some next) :
    Explains (tokens ++ [token]) next := by
  cases token with
  | number literal =>
      cases stepped
      exact ⟨tokens, _, rfl, read, .ofNumber valid⟩
  | hexadecimal literal =>
      cases stepped
      exact ⟨tokens, _, rfl, read, .ofHexadecimal valid⟩
  | word letters => exact explains_word read valid stepped
  | plus =>
      cases stepped
      exact @Read.sign _ _ .plus read
  | minus =>
      cases stepped
      exact @Read.sign _ _ .minus read
  | openParen =>
      cases stepped
      exact .group read
  | times | divide | closeParen => cases stepped

theorem explains_step_behind {tokens : List Token} {pending : List Pending} {operand : Expr}
    {next : State} {token : Token} (explains : Explains tokens (.reached pending operand))
    (stepped : step (.reached pending operand) token = some next) :
    Explains (tokens ++ [token]) next := by
  cases token with
  | plus => exact explains_binary explains .add stepped
  | minus => exact explains_binary explains .sub stepped
  | times => exact explains_binary explains .mul stepped
  | divide => exact explains_binary explains .div stepped
  | closeParen =>
      rcases settle_zero_read explains with ⟨rest, operandTokens, rfl, read, written⟩
      rw [step_closeParen] at stepped
      generalize settle 0 pending operand = settled at read written stepped
      rcases settled with ⟨_ | ⟨⟨⟩, pending⟩, inner⟩ <;> cases stepped
      cases read with
      | group read => exact ⟨_, _, by simp, read, .group written⟩
  | number _ | hexadecimal _ | word _ | openParen => cases stepped

theorem explains_step {tokens : List Token} {state next : State} {token : Token}
    (explains : Explains tokens state) (valid : token.Valid)
    (stepped : step state token = some next) : Explains (tokens ++ [token]) next := by
  rcases state with ⟨pending, phase⟩
  cases phase with
  | before => exact explains_step_before explains valid stepped
  | afterRandom =>
      rcases explains with ⟨front, rfl, read⟩
      cases token <;> cases stepped
      exact ⟨front, by simp, read⟩
  | insideRandom =>
      rcases explains with ⟨front, rfl, read⟩
      cases token <;> cases stepped
      exact ⟨front, _, by simp, read, .random⟩
  | behind operand => exact explains_step_behind explains stepped

theorem explains_foldlM {tokens more : List Token} {state last : State}
    (explains : Explains tokens state) (valid : ∀ token ∈ more, token.Valid)
    (run : more.foldlM step state = some last) : Explains (tokens ++ more) last := by
  induction more generalizing tokens state with
  | nil =>
      cases run
      simpa using explains
  | cons token more induction =>
      rcases List.forall_mem_cons.mp valid with ⟨first, others⟩
      rw [List.foldlM_cons] at run
      rcases Option.bind_eq_some_iff.mp run with ⟨next, stepped, run⟩
      have explained := induction (explains_step explains first stepped) others run
      simpa using explained

theorem written_of_parse? {tokens : List Token} {expr : Expr}
    (valid : ∀ token ∈ tokens, token.Valid) (parsed : parse? tokens = some expr) :
    Written 1 expr tokens := by
  rcases Option.bind_eq_some_iff.mp parsed with ⟨⟨pending, phase⟩, run, result⟩
  have explained : Explains [] (.expecting []) := Read.start
  have explains := explains_foldlM explained valid run
  cases phase with
  | before | afterRandom | insideRandom => cases result
  | behind operand =>
      rcases settle_zero_read explains with ⟨rest, operandTokens, tokens_eq, read, written⟩
      simp only [State.result?] at result
      generalize settle 0 pending operand = settled at read written result
      rcases settled with ⟨_ | _, inner⟩ <;> cases result
      cases read
      rw [List.nil_append] at tokens_eq
      exact tokens_eq ▸ written

end Parser

end GrowthGrammar
