import GrowthGrammar.Proofs.Grammar.Location
import GrowthGrammar.Proofs.Repetition
import GrowthGrammar.Proofs.Text.Span

/-!
# Blocks of rules

A block of rules is parsed line by line: each line that holds a rule is parsed by itself, and the
first one that cannot be parsed ends it with its number.
-/

namespace GrowthGrammar

open Fallible
open Text (AllBlank trim trim_eq_nil_iff)

/-- The line is neither blank nor a comment. -/
def HoldsRule (line : String) : Prop :=
  ¬AllBlank line.toList ∧ (trim line.toList).head? ≠ some '#'

instance (line : String) : Decidable (HoldsRule line) :=
  inferInstanceAs (Decidable (_ ∧ _))

theorem isRule_iff {line : String} : isRule line = true ↔ HoldsRule line := by
  rw [isRule]
  cases trimmed : trim line.toList with
  | nil => simp [HoldsRule, trim_eq_nil_iff.mp trimmed]
  | cons c rest =>
      have visible : ¬AllBlank line.toList := by
        rw [← trim_eq_nil_iff, trimmed]
        exact List.cons_ne_nil c rest
      simp [HoldsRule, visible, trimmed]

/-- The line is a rule when it stands alone. -/
def IsAccepted (line : String) : Prop :=
  ∃ production, parseProduction line none = .ok production

/-- All rules among the lines are accepted. -/
def AllAccepted (lines : List String) : Prop :=
  ∀ line ∈ lines, HoldsRule line → IsAccepted line

/-- The productions of the accepted rules among the lines, each with the number of its line. -/
def productionsFrom (number : Nat) : List String → List Production
  | [] => []
  | line :: lines =>
      let others := productionsFrom (number + 1) lines
      if HoldsRule line then
        match parseProduction line none with
        | .ok production => { production with line := some number } :: others
        | .error _ => others
      else others

/-- Parse the rules among lines of which the first has the number. -/
def parseLinesFrom (number : Nat) (lines : List String) : Except ParseError (List Production) :=
  ((lines.zipIdx number).filter fun (line, _) => isRule line).mapM fun (line, number) =>
    parseProduction line (some number)

theorem parseRuleLines_eq (lines : List String) :
    parseRuleLines lines = (parseLinesFrom 1 lines).map fun productions => { productions } := by
  change parseLinesFrom 1 lines >>= (fun productions => .ok (RuleTable.mk productions)) = _
  cases parseLinesFrom 1 lines <;> rfl

section

variable {line : String} {lines : List String} {number : Nat}

theorem parseLinesFrom_of_skipped (skipped : ¬HoldsRule line) :
    parseLinesFrom number (line :: lines) = parseLinesFrom (number + 1) lines := by
  rw [parseLinesFrom, List.zipIdx_cons, List.filter_cons_of_neg (by simpa [isRule_iff] using skipped)]
  rfl

theorem parseLinesFrom_of_rule (rule : HoldsRule line) :
    parseLinesFrom number (line :: lines) =
      parseProduction line (some number) >>= fun production =>
        (parseLinesFrom (number + 1) lines).map (production :: ·) := by
  rw [parseLinesFrom, List.zipIdx_cons, List.filter_cons_of_pos (by simpa [isRule_iff] using rule),
    List.mapM_cons, parseLinesFrom]
  rfl

theorem productionsFrom_of_skipped (skipped : ¬HoldsRule line) :
    productionsFrom number (line :: lines) = productionsFrom (number + 1) lines := by
  rw [productionsFrom, if_neg skipped]

theorem productionsFrom_of_accepted (rule : HoldsRule line) {production : Production}
    (parsed : parseProduction line none = .ok production) :
    productionsFrom number (line :: lines) =
      { production with line := some number } :: productionsFrom (number + 1) lines := by
  simp only [productionsFrom, if_pos rule, parsed]

/-- Accepted rules in front are parsed, and what follows is parsed behind them. -/
theorem parseLinesFrom_append (accepted : AllAccepted lines) (rest : List String) :
    parseLinesFrom number (lines ++ rest) =
      (parseLinesFrom (number + lines.length) rest).map (productionsFrom number lines ++ ·) := by
  induction lines generalizing number with
  | nil =>
      rw [List.nil_append, List.length_nil, Nat.add_zero]
      cases parseLinesFrom number rest <;> rfl
  | cons line lines induction =>
      rcases List.forall_mem_cons.mp accepted with ⟨first, others⟩
      have counted : number + (line :: lines).length = number + 1 + lines.length := by
        rw [List.length_cons, Nat.add_assoc, Nat.add_comm 1]
      rw [List.cons_append, counted]
      by_cases rule : HoldsRule line
      · rcases first rule with ⟨production, parsed⟩
        rw [parseLinesFrom_of_rule rule, parseProduction_elsewhere parsed, ok_bind,
          induction others, productionsFrom_of_accepted rule parsed]
        cases parseLinesFrom (number + 1 + lines.length) rest <;> rfl
      · rw [parseLinesFrom_of_skipped rule, induction others, productionsFrom_of_skipped rule]

theorem length_productionsFrom (accepted : AllAccepted lines) :
    (productionsFrom number lines).length = lines.countP fun line => HoldsRule line := by
  induction lines generalizing number with
  | nil => rfl
  | cons line lines induction =>
      rcases List.forall_mem_cons.mp accepted with ⟨first, others⟩
      by_cases rule : HoldsRule line
      · rcases first rule with ⟨production, parsed⟩
        rw [productionsFrom_of_accepted rule parsed, List.length_cons, induction others,
          List.countP_cons_of_pos (by simpa using rule)]
      · rw [productionsFrom_of_skipped rule, induction others,
          List.countP_cons_of_neg (by simpa using rule)]

/-- Each production is what its line is parsed to. -/
theorem exists_line_of_mem_productionsFrom {production : Production}
    (member : production ∈ productionsFrom number lines) :
    ∃ line ∈ lines, parseProduction line production.line = .ok production := by
  induction lines generalizing number with
  | nil => cases member
  | cons line lines induction =>
      have behind : production ∈ productionsFrom (number + 1) lines →
          ∃ other ∈ line :: lines, parseProduction other production.line = .ok production := by
        intro member
        rcases induction member with ⟨other, otherMember, parsed⟩
        exact ⟨other, List.mem_cons_of_mem line otherMember, parsed⟩
      rw [productionsFrom] at member
      split at member
      · split at member
        · next first parsed =>
            rcases List.mem_cons.mp member with rfl | member
            · exact ⟨line, List.mem_cons_self, parseProduction_elsewhere parsed _⟩
            · exact behind member
        · exact behind member
      · exact behind member

end

/-- Either all rules are accepted, or there is a first one that is refused. -/
theorem allAccepted_or_refused (lines : List String) :
    AllAccepted lines ∨ ∃ earlier line later error, lines = earlier ++ line :: later ∧
      AllAccepted earlier ∧ HoldsRule line ∧ parseProduction line none = .error error := by
  induction lines with
  | nil => exact .inl (List.forall_mem_nil _)
  | cons line lines induction =>
      have extend : (HoldsRule line → IsAccepted line) →
          AllAccepted (line :: lines) ∨ ∃ earlier other later error,
            line :: lines = earlier ++ other :: later ∧ AllAccepted earlier ∧ HoldsRule other ∧
              parseProduction other none = .error error := by
        intro first
        rcases induction with others | ⟨earlier, other, later, error, rfl, others, refused⟩
        · exact .inl (List.forall_mem_cons.mpr ⟨first, others⟩)
        · exact .inr ⟨line :: earlier, other, later, error, rfl,
            List.forall_mem_cons.mpr ⟨first, others⟩, refused⟩
      by_cases rule : HoldsRule line
      · cases parsed : parseProduction line none with
        | ok production => exact extend fun _ => ⟨production, parsed⟩
        | error error =>
            exact .inr ⟨[], line, lines, error, rfl, List.forall_mem_nil _, rule, parsed⟩
      · exact extend fun holds => absurd holds rule

theorem parseRuleLines_of_allAccepted {lines : List String} (accepted : AllAccepted lines) :
    parseRuleLines lines = .ok { productions := productionsFrom 1 lines } := by
  have parsed : parseLinesFrom 1 (lines ++ []) = .ok (productionsFrom 1 lines ++ []) :=
    parseLinesFrom_append accepted []
  rw [List.append_nil, List.append_nil] at parsed
  rw [parseRuleLines_eq, parsed]
  rfl

/-- The error of the first refused rule carries the number of its line. -/
theorem parseRuleLines_of_refused {earlier later : List String} {line : String}
    {error : ParseError} (accepted : AllAccepted earlier) (rule : HoldsRule line)
    (refused : parseProduction line none = .error error) :
    parseRuleLines (earlier ++ line :: later) =
      .error { error with
        location := { error.location with line := some ((earlier.length + 1 : Nat) : Int) } } := by
  rw [parseRuleLines_eq, parseLinesFrom_append accepted, parseLinesFrom_of_rule rule,
    (parseProduction_error_elsewhere refused _).2, Nat.add_comm 1]
  rfl

theorem parseRuleLines_eq_ok_iff {lines : List String} {table : RuleTable} :
    parseRuleLines lines = .ok table ↔
      AllAccepted lines ∧ table = { productions := productionsFrom 1 lines } := by
  constructor
  · intro parsed
    rcases allAccepted_or_refused lines with
      accepted | ⟨earlier, line, later, error, rfl, accepted, rule, refused⟩
    · rw [parseRuleLines_of_allAccepted accepted] at parsed
      cases parsed
      exact ⟨accepted, rfl⟩
    · rw [parseRuleLines_of_refused accepted rule refused] at parsed
      cases parsed
  · rintro ⟨accepted, rfl⟩
    exact parseRuleLines_of_allAccepted accepted

theorem parseRuleLines_eq_error_iff {lines : List String} {error : ParseError} :
    parseRuleLines lines = .error error ↔
      ∃ earlier line later, lines = earlier ++ line :: later ∧ AllAccepted earlier ∧
        HoldsRule line ∧ error.location.line = some ((earlier.length + 1 : Nat) : Int) ∧
        parseProduction line none =
          .error { error with location := { error.location with line := none } } := by
  constructor
  · intro failed
    rcases allAccepted_or_refused lines with
      accepted | ⟨earlier, line, later, first, rfl, accepted, rule, refused⟩
    · rw [parseRuleLines_of_allAccepted accepted] at failed
      cases failed
    · rw [parseRuleLines_of_refused accepted rule refused] at failed
      cases failed
      refine ⟨earlier, line, later, rfl, accepted, rule, rfl, ?_⟩
      exact (parseProduction_error_elsewhere refused none).2
  · rintro ⟨earlier, line, later, rfl, accepted, rule, numbered, refused⟩
    rw [parseRuleLines_of_refused accepted rule refused, ← numbered]

/-- Grouping by name keeps all productions. -/
theorem RuleTable.grouped_perm (table : RuleTable) : table.grouped.Perm table.productions :=
  Repetition.flatMap_filter_perm Production.predecessor table.productions

/-- Lines are parsed to a table just if each rule among them is accepted by itself. The candidates
for a name and an arity are then those of the productions, in the order of their lines and with
the numbers of these, that have the name and the arity; there is one production for each rule, also
when they are grouped by name. Otherwise the error is that of the first rule that is refused, with
the number of its line. -/
theorem parseRuleLines_by_line (lines : List String) :
    ((∃ table, parseRuleLines lines = .ok table) ↔
      ∀ line ∈ lines, HoldsRule line → ∃ production, parseProduction line none = .ok production) ∧
    (∀ table, parseRuleLines lines = .ok table →
      (∀ name arity, table.candidates name arity =
        (productionsFrom 1 lines).filter fun production =>
          production.predecessor = name ∧ production.arity = arity) ∧
      table.grouped.Perm (productionsFrom 1 lines) ∧
      table.size = lines.countP fun line => HoldsRule line) ∧
    ∀ error, parseRuleLines lines = .error error ↔
      ∃ earlier line later, lines = earlier ++ line :: later ∧
        (∀ other ∈ earlier, HoldsRule other →
          ∃ production, parseProduction other none = .ok production) ∧
        HoldsRule line ∧ error.location.line = some ((earlier.length + 1 : Nat) : Int) ∧
        parseProduction line none =
          .error { error with location := { error.location with line := none } } := by
  refine ⟨⟨?_, fun accepted => ⟨_, parseRuleLines_of_allAccepted accepted⟩⟩, ?_,
    fun error => parseRuleLines_eq_error_iff⟩
  · rintro ⟨table, parsed⟩
    exact (parseRuleLines_eq_ok_iff.mp parsed).1
  · intro table parsed
    rcases parseRuleLines_eq_ok_iff.mp parsed with ⟨accepted, rfl⟩
    refine ⟨fun name arity => ?_, RuleTable.grouped_perm _, length_productionsFrom accepted⟩
    simp [RuleTable.candidates, RuleTable.group, List.filter_filter, Bool.and_comm]

/-- Productions of one name with two arities between a comment and a blank line, and a block whose
second rule has no arrow. -/
theorem parseRuleLines_by_line_of_siblings :
    let lines := ["# leaves", "A{r} -> f{r}", "", "A -> B", " A{s} ->"]
    let refused := ["A -> B", "\t# leaves", "", "A{s}", "A"]
    (∃ table, parseRuleLines lines = .ok table ∧ table.size = 3 ∧
      (table.candidates "A" 1).map Production.text = ["A{r} -> f{r}", "A{s} ->"] ∧
      (table.candidates "A" 1).map Production.line = [some 2, some 5]) ∧
    HoldsRule "A{s}" ∧
    parseRuleLines refused =
      .error { cause := .missingArrow, location := { line := some 4, source := some "A{s}" } } := by
  intro lines refused
  rcases parseRuleLines_by_line lines with ⟨parsed_iff, table_eq, _⟩
  have accepted : ∀ line ∈ lines, HoldsRule line → (parseProduction line none).isOk := by
    decide +kernel
  rcases parsed_iff.mpr fun line member rule => exists_ok_of_isOk (accepted line member rule) with
    ⟨table, parsed⟩
  rcases table_eq table parsed with ⟨candidates_eq, _, size_eq⟩
  have first : ∀ other ∈ ["A -> B", "\t# leaves", ""], HoldsRule other →
      (parseProduction other none).isOk := by
    decide +kernel
  have rule : HoldsRule "A{s}" := by decide +kernel
  refine ⟨⟨table, parsed, by rw [size_eq]; decide +kernel, ?_, ?_⟩, rule, ?_⟩
  · rw [candidates_eq]
    decide +kernel
  · rw [candidates_eq]
    decide +kernel
  · exact ((parseRuleLines_by_line refused).2.2 _).mpr
      ⟨["A -> B", "\t# leaves", ""], "A{s}", ["A"], rfl,
        fun other member rule => exists_ok_of_isOk (first other member rule), rule, rfl,
        by decide +kernel⟩

end GrowthGrammar
