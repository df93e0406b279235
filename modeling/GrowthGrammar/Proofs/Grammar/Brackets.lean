import GrowthGrammar.Grammar.Symbol
import Mathlib.Data.List.Infix

/-!
# Brackets in words

A word is balanced when its brackets match: none is closed before it is opened, and all are closed
at the end.
-/

namespace GrowthGrammar

namespace Symbol

def opens (symbol : Symbol) : Bool :=
  symbol.name = "["

def closes (symbol : Symbol) : Bool :=
  symbol.name = "]"

end Symbol

namespace Word

def openings (word : List Symbol) : Nat :=
  word.countP Symbol.opens

def closings (word : List Symbol) : Nat :=
  word.countP Symbol.closes

/-- With `depth` brackets open in front of the word, none is closed before it is opened. -/
def Covered (depth : Nat) (word : List Symbol) : Prop :=
  ∀ start, start <+: word → closings start ≤ openings start + depth

def Balanced (word : List Symbol) : Prop :=
  Covered 0 word ∧ closings word = openings word

instance (depth : Nat) (word : List Symbol) : Decidable (Covered depth word) :=
  decidable_of_iff (∀ start ∈ word.inits, closings start ≤ openings start + depth) (by
    simp only [List.mem_inits, Covered])

instance (word : List Symbol) : Decidable (Balanced word) :=
  inferInstanceAs (Decidable (Covered 0 word ∧ closings word = openings word))

example : Balanced [⟨"[", []⟩, ⟨"f", []⟩, ⟨"]", []⟩] := by decide

example : ¬Balanced [⟨"]", []⟩, ⟨"[", []⟩] := by decide

theorem openings_cons (symbol : Symbol) (word : List Symbol) :
    openings (symbol :: word) = openings word + if symbol.opens then 1 else 0 :=
  List.countP_cons

theorem closings_cons (symbol : Symbol) (word : List Symbol) :
    closings (symbol :: word) = closings word + if symbol.closes then 1 else 0 :=
  List.countP_cons

/-- A closing bracket at the start has an open one in front of it. -/
theorem Covered.closes_le {depth : Nat} {symbol : Symbol} {word : List Symbol}
    (covered : Covered depth (symbol :: word)) (closes : symbol.closes)
    (notOpens : symbol.opens = false) : 1 ≤ depth := by
  have first := covered [symbol] ⟨word, rfl⟩
  simpa [closings, openings, closes, notOpens] using first

/-- Behind its first symbol a word is covered with the brackets that are open there. -/
theorem Covered.tail {depth : Nat} {symbol : Symbol} {word : List Symbol}
    (covered : Covered depth (symbol :: word)) {next : Nat}
    (counts : depth + (if symbol.opens then 1 else 0) = next + if symbol.closes then 1 else 0) :
    Covered next word := by
  intro start isPrefix
  have extended := covered (symbol :: start) (List.cons_prefix_cons.mpr ⟨rfl, isPrefix⟩)
  rw [openings_cons, closings_cons] at extended
  omega

theorem openings_singleton (symbol : Symbol) :
    openings [symbol] = if symbol.opens then 1 else 0 :=
  List.countP_singleton

theorem closings_singleton (symbol : Symbol) :
    closings [symbol] = if symbol.closes then 1 else 0 :=
  List.countP_singleton

theorem openings_append (first second : List Symbol) :
    openings (first ++ second) = openings first + openings second :=
  List.countP_append

theorem closings_append (first second : List Symbol) :
    closings (first ++ second) = closings first + closings second :=
  List.countP_append

theorem covered_nil (depth : Nat) : Covered depth [] := by
  intro start isPrefix
  rw [List.prefix_nil.mp isPrefix]
  exact Nat.zero_le _

/-- A word is covered when it is covered behind its first symbol, with the brackets open there. -/
theorem Covered.cons {symbol : Symbol} {word : List Symbol} {depth next : Nat}
    (counts : depth + (if symbol.opens then 1 else 0) = next + if symbol.closes then 1 else 0)
    (covered : Covered next word) : Covered depth (symbol :: word) := by
  intro start isPrefix
  rcases List.prefix_cons_iff.mp isPrefix with rfl | ⟨rest, rfl, restPrefix⟩
  · exact Nat.zero_le _
  · have behind := covered rest restPrefix
    rw [openings_cons, closings_cons]
    omega

/-- With `depth` brackets open in front of the word, never more than `limit` are open. -/
def Within (limit depth : Nat) (word : List Symbol) : Prop :=
  ∀ start, start <+: word → openings start + depth ≤ closings start + limit

theorem within_nil {limit depth : Nat} (le : depth ≤ limit) : Within limit depth [] := by
  intro start isPrefix
  rw [List.prefix_nil.mp isPrefix]
  simpa [openings, closings] using le

theorem Within.cons {symbol : Symbol} {word : List Symbol} {limit depth next : Nat}
    (counts : depth + (if symbol.opens then 1 else 0) = next + if symbol.closes then 1 else 0)
    (le : depth ≤ limit) (within : Within limit next word) :
    Within limit depth (symbol :: word) := by
  intro start isPrefix
  rcases List.prefix_cons_iff.mp isPrefix with rfl | ⟨rest, rfl, restPrefix⟩
  · simpa [openings, closings] using le
  · have behind := within rest restPrefix
    rw [openings_cons, closings_cons]
    omega

/-- How many brackets are open behind the first symbol of a covered word. -/
theorem Covered.exists_next {symbol : Symbol} {word : List Symbol} {depth : Nat}
    (covered : Covered depth (symbol :: word)) :
    ∃ next, depth + (if symbol.opens then 1 else 0) = next + (if symbol.closes then 1 else 0) ∧
      Covered next word := by
  have first := covered [symbol] ⟨word, rfl⟩
  rw [closings_singleton, openings_singleton] at first
  exact ⟨_, (Nat.sub_add_cancel (by omega)).symm, covered.tail (Nat.sub_add_cancel (by omega)).symm⟩

/-- A word whose brackets match may stand in front of a covered word. -/
theorem Balanced.covered_append {first second : List Symbol} {depth : Nat}
    (balanced : Balanced first) (covered : Covered depth second) :
    Covered depth (first ++ second) := by
  intro start isPrefix
  rcases List.prefix_or_prefix_of_prefix isPrefix (List.prefix_append first second) with
    within | ⟨rest, rfl⟩
  · have before := balanced.1 start within
    omega
  · have behind := covered rest ((List.prefix_append_right_inj first).mp isPrefix)
    rw [openings_append, closings_append, balanced.2]
    omega

/-! Brackets are told by the names of the symbols alone. -/

theorem openings_eq_countP (word : List Symbol) :
    openings word = (word.map Symbol.name).countP (· = "[") := by
  rw [List.countP_map]
  rfl

theorem closings_eq_countP (word : List Symbol) :
    closings word = (word.map Symbol.name).countP (· = "]") := by
  rw [List.countP_map]
  rfl

theorem Balanced.of_names_eq {first second : List Symbol} (balanced : Balanced first)
    (names : second.map Symbol.name = first.map Symbol.name) : Balanced second := by
  constructor
  · intro start isPrefix
    -- The prefix of the same length has the same names.
    have same : start.map Symbol.name = (first.take start.length).map Symbol.name := by
      rw [List.map_take, ← names, ← List.map_take, ← List.prefix_iff_eq_take.mp isPrefix]
    have before := balanced.1 (first.take start.length) (List.take_prefix _ _)
    rw [openings_eq_countP, closings_eq_countP, ← same] at before
    rwa [openings_eq_countP, closings_eq_countP]
  · rw [openings_eq_countP, closings_eq_countP, names, ← openings_eq_countP, ← closings_eq_countP]
    exact balanced.2

/-- A word that may stand for a symbol without disturbing the brackets around it. -/
def Replaces (symbol : Symbol) (part : List Symbol) : Prop :=
  part = [symbol] ∨ symbol.opens = false ∧ symbol.closes = false ∧ Balanced part

theorem covered_flatten {word : List Symbol} {parts : List (List Symbol)}
    (replaces : List.Forall₂ Replaces word parts) {depth : Nat} (covered : Covered depth word) :
    Covered depth parts.flatten := by
  induction replaces generalizing depth with
  | nil => exact covered_nil depth
  | @cons symbol part word parts head _ induction =>
      rcases covered.exists_next with ⟨next, counts, behind⟩
      rw [List.flatten_cons]
      rcases head with rfl | ⟨notOpens, notCloses, balanced⟩
      · exact (induction behind).cons counts
      · simp only [notOpens, notCloses, Bool.false_eq_true, if_false, Nat.add_zero] at counts
        exact balanced.covered_append (counts ▸ induction behind)

theorem counts_flatten {word : List Symbol} {parts : List (List Symbol)}
    (replaces : List.Forall₂ Replaces word parts) :
    closings parts.flatten + openings word = openings parts.flatten + closings word := by
  induction replaces with
  | nil => rfl
  | @cons symbol part word parts head _ induction =>
      rw [List.flatten_cons, openings_append, closings_append, openings_cons, closings_cons]
      rcases head with rfl | ⟨notOpens, notCloses, balanced⟩
      · rw [openings_singleton, closings_singleton]
        omega
      · rw [notOpens, notCloses, balanced.2]
        simp only [Bool.false_eq_true, if_false]
        omega

/-- Brackets still match when balanced words stand for the symbols between them. -/
theorem Balanced.flatten {word : List Symbol} {parts : List (List Symbol)}
    (balanced : Balanced word) (replaces : List.Forall₂ Replaces word parts) :
    Balanced parts.flatten := by
  refine ⟨covered_flatten replaces balanced.1, ?_⟩
  have counts := counts_flatten replaces
  rw [balanced.2] at counts
  exact Nat.add_right_cancel counts

end Word

end GrowthGrammar
