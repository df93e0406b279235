import GrowthGrammar.Proofs.Rewrite.Completion

/-!
# Descent of words

Passes rewrite the symbols of a word apart from each other. So what becomes of a word is put
together from what becomes of its parts, and every symbol of it has been there from the start or is
written by a rule.
-/

namespace GrowthGrammar

open Fallible

/-- The symbol stands for a template in the successor of a rule. -/
inductive RuleTable.Writes (rules : RuleTable) (source : Source σ) (symbol : Symbol) : Prop
  | intro {production : Production} {template : Template} {env : Env} :
      production ∈ rules.productions → template ∈ production.successor →
      template.HasInstance env source symbol → Writes rules source symbol

namespace Derivation

/-- The words that a number of passes may make of a word. -/
inductive Reaches (rules : RuleTable) (source : Source σ) :
    Nat → List Symbol → List Symbol → Prop
  | start {word : List Symbol} : Reaches rules source 0 word word
  | pass {passes : Nat} {word next last : List Symbol} : Follows rules source word next →
      Reaches rules source passes next last → Reaches rules source (passes + 1) word last

variable {rules : RuleTable} {source : Source σ}

/-! Derivations reach words. -/

theorem reaches_of_isChain {words : List (List Symbol)} {start last : List Symbol}
    (follows : (start :: words).IsChain (Follows rules source))
    (isLast : (start :: words).getLast? = some last) :
    Reaches rules source words.length start last := by
  induction words generalizing start with
  | nil =>
      cases isLast
      exact .start
  | cons next words induction =>
      rcases List.isChain_cons_cons.mp follows with ⟨first, others⟩
      rw [List.getLast?_cons_cons] at isLast
      exact .pass first (induction others isLast)

theorem Completed.reaches {passes : Nat} {start : List Symbol} {derivation : Derivation σ}
    (completed : derivation.Completed rules source passes start) :
    ∃ word, derivation.result = .ok word ∧ Reaches rules source passes start word := by
  rcases completed.result_eq with ⟨word, isLast, result⟩
  refine ⟨word, result, ?_⟩
  rcases words : derivation.generations with _ | ⟨first, others⟩
  · rw [words] at isLast
    cases isLast
  · have head := completed.head?
    have length_eq := completed.length
    have follows := completed.follows
    rw [words] at head length_eq follows isLast
    cases head
    cases Nat.succ.inj length_eq
    exact reaches_of_isChain follows isLast

theorem expand_reaches (inScope : rules.Scoped) (inRange : source.InRange) (iterations : Nat)
    (start : List Symbol) (state : σ) :
    ∃ word, (expand rules source none iterations start state).1 = .ok word ∧
      Reaches rules source iterations start word := by
  have completed := passesFrom_completed inScope inRange 0 iterations start state
  have run_eq : Derivation.run rules source none iterations start state =
      passesFrom rules source none 0 iterations start state :=
    if_neg (Int.not_lt.mpr (Int.natCast_nonneg iterations))
  rw [expand, run_eq]
  exact completed.reaches

/-! Parts of words. -/

theorem Follows.append {first second next : List Symbol}
    (follows : Follows rules source (first ++ second) next) :
    ∃ front back, next = front ++ back ∧ Follows rules source first front ∧
      Follows rules source second back := by
  rcases follows with ⟨parts, becomes, rfl⟩
  induction first generalizing parts with
  | nil => exact ⟨[], _, rfl, ⟨[], .nil, rfl⟩, ⟨parts, becomes, rfl⟩⟩
  | cons symbol first induction =>
      rcases List.forall₂_cons_left_iff.mp becomes with ⟨part, others, head, rest, rfl⟩
      rcases induction others rest with ⟨front, back, split, ⟨fronts, becomesFront, rfl⟩, behind⟩
      refine ⟨part ++ fronts.flatten, back, ?_, ⟨part :: fronts, .cons head becomesFront, rfl⟩,
        behind⟩
      rw [List.flatten_cons, split, List.append_assoc]

theorem Reaches.append {passes : Nat} {first second last : List Symbol}
    (reaches : Reaches rules source passes (first ++ second) last) :
    ∃ front back, last = front ++ back ∧ Reaches rules source passes first front ∧
      Reaches rules source passes second back := by
  induction passes generalizing first second with
  | zero =>
      cases reaches
      exact ⟨first, second, rfl, .start, .start⟩
  | succ passes induction =>
      rcases reaches with _ | ⟨follows, reaches⟩
      rcases follows.append with ⟨front, back, rfl, firstFollows, secondFollows⟩
      rcases induction reaches with ⟨lastFront, lastBack, split, frontReaches, backReaches⟩
      exact ⟨lastFront, lastBack, split, .pass firstFollows frontReaches,
        .pass secondFollows backReaches⟩

/-- A symbol that no rule fits stays as it is. -/
theorem Reaches.kept {passes : Nat} {symbol : Symbol} {last : List Symbol}
    (kept : rules.candidates symbol.name symbol.parameters.length = [])
    (reaches : Reaches rules source passes [symbol] last) : last = [symbol] := by
  induction passes with
  | zero =>
      cases reaches
      rfl
  | succ passes induction =>
      rcases reaches with _ | ⟨⟨parts, becomes, rfl⟩, reaches⟩
      rcases List.forall₂_cons_left_iff.mp becomes with ⟨part, others, head, rest, rfl⟩
      cases rest
      cases head with
      | kept => exact induction reaches
      | replaced choice =>
          rw [kept] at choice
          cases choice

/-! Symbols of words. -/

theorem Follows.origin {word next : List Symbol} (follows : Follows rules source word next)
    {symbol : Symbol} (member : symbol ∈ next) : symbol ∈ word ∨ rules.Writes source symbol := by
  rcases follows with ⟨parts, becomes, rfl⟩
  rcases List.mem_flatten.mp member with ⟨part, partMember, inside⟩
  rcases exists_mem_of_forall₂ becomes partMember with ⟨before, beforeMember, becomesPart⟩
  cases becomesPart with
  | kept => exact .inl (List.mem_singleton.mp inside ▸ beforeMember)
  | replaced choice instances =>
      rcases exists_mem_of_forall₂ instances inside with ⟨template, templateMember, stands⟩
      exact .inr (.intro (RuleTable.mem_candidates choice).1 templateMember stands)

/-- Every symbol has been there from the start or is written by a rule. -/
theorem Reaches.origin {passes : Nat} {start last : List Symbol}
    (reaches : Reaches rules source passes start last) {symbol : Symbol}
    (member : symbol ∈ last) : symbol ∈ start ∨ rules.Writes source symbol := by
  induction reaches with
  | start => exact .inl member
  | pass follows _ induction =>
      rcases induction member with before | written
      · exact follows.origin before
      · exact .inr written

/-! Names of symbols. -/

/-- Whichever rules are drawn, a fitting symbol is replaced by fitting symbols with names that are
told by its own name. -/
structure Substitutes (rules : RuleTable) (source : Source σ) (fits : Symbol → Prop)
    (change : String → List String) : Prop where
  names : ∀ {symbol part}, fits symbol → symbol.Becomes rules source part →
    part.map Symbol.name = change symbol.name
  fits : ∀ {symbol part}, fits symbol → symbol.Becomes rules source part →
    ∀ other ∈ part, fits other

/-- The names that a number of passes make of names. -/
def descend (change : String → List String) : Nat → List String → List String
  | 0, names => names
  | passes + 1, names => descend change passes (names.flatMap change)

section

variable {change : String → List String}

theorem descend_nil (passes : Nat) : descend change passes [] = [] := by
  induction passes with
  | zero => rfl
  | succ passes induction => exact induction

theorem descend_append (passes : Nat) (first second : List String) :
    descend change passes (first ++ second) =
      descend change passes first ++ descend change passes second := by
  induction passes generalizing first second with
  | zero => rfl
  | succ passes induction => rw [descend, List.flatMap_append, induction, descend, descend]

theorem descend_eq_flatMap (passes : Nat) (names : List String) :
    descend change passes names = names.flatMap fun name => descend change passes [name] := by
  induction names with
  | nil => exact descend_nil passes
  | cons name names induction =>
      rw [List.flatMap_cons, ← induction, ← descend_append, List.singleton_append]

theorem descend_of_fixed {name : String} (fixed : change name = [name]) (passes : Nat) :
    descend change passes [name] = [name] := by
  induction passes with
  | zero => rfl
  | succ passes induction => rw [descend, List.flatMap_singleton, fixed, induction]

variable {fits : Symbol → Prop} (substitutes : Substitutes rules source fits change)

include substitutes

theorem Follows.names {word next : List Symbol} (follows : Follows rules source word next)
    (fit : ∀ symbol ∈ word, fits symbol) :
    next.map Symbol.name = (word.map Symbol.name).flatMap change ∧
      ∀ symbol ∈ next, fits symbol := by
  rcases follows with ⟨parts, becomes, rfl⟩
  induction becomes with
  | nil => exact ⟨rfl, List.forall_mem_nil _⟩
  | cons head _ induction =>
      rcases List.forall_mem_cons.mp fit with ⟨first, others⟩
      rcases induction others with ⟨names, fitting⟩
      rw [List.flatten_cons, List.map_append, names, substitutes.names first head]
      exact ⟨rfl, List.forall_mem_append.mpr ⟨substitutes.fits first head, fitting⟩⟩

/-- What the rules make of the names of a word is the same whatever is drawn. -/
theorem Reaches.names {passes : Nat} {start last : List Symbol}
    (reaches : Reaches rules source passes start last) (fit : ∀ symbol ∈ start, fits symbol) :
    last.map Symbol.name = descend change passes (start.map Symbol.name) := by
  induction reaches with
  | start => rfl
  | pass follows _ induction =>
      rcases follows.names substitutes fit with ⟨names, fitting⟩
      rw [induction fitting, names]
      rfl

end

end Derivation

end GrowthGrammar
