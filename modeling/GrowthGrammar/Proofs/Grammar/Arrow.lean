import GrowthGrammar.Grammar.Parse
import Mathlib.Data.List.Infix

/-!
# The arrow of a rule

A rule is cut at its first arrow, and what stands in front of it has none.
-/

namespace GrowthGrammar

theorem splitAtArrow?_cons (c : Char) (rest : List Char) :
    splitAtArrow? (c :: rest) =
      if c = '-' ∧ rest.head? = some '>' then some ([], rest.tail)
      else (splitAtArrow? rest).map fun (left, right) => (c :: left, right) := by
  cases rest with
  | nil => simp [splitAtArrow?]
  | cons d rest =>
      by_cases arrow : c = '-' ∧ d = '>'
      · rcases arrow with ⟨rfl, rfl⟩
        simp [splitAtArrow?]
      · rw [if_neg (by simpa using arrow), splitAtArrow?]
        rintro _ rfl rest_eq
        exact arrow ⟨rfl, (List.cons.inj rest_eq).1⟩

/-- No arrow stands in the text. -/
def Arrowless (text : List Char) : Prop :=
  splitAtArrow? text = none

theorem Arrowless.tail {c : Char} {rest : List Char} (arrowless : Arrowless (c :: rest)) :
    Arrowless rest := by
  rw [Arrowless, splitAtArrow?_cons] at arrowless
  split at arrowless
  · cases arrowless
  · exact Option.map_eq_none_iff.mp arrowless

theorem Arrowless.not_arrow {c : Char} {rest : List Char} (arrowless : Arrowless (c :: rest)) :
    ¬(c = '-' ∧ rest.head? = some '>') := by
  intro arrow
  rw [Arrowless, splitAtArrow?_cons, if_pos arrow] at arrowless
  cases arrowless

theorem arrowless_cons {c : Char} {rest : List Char} (notArrow : ¬(c = '-' ∧ rest.head? = some '>'))
    (arrowless : Arrowless rest) : Arrowless (c :: rest) := by
  rw [Arrowless, splitAtArrow?_cons, if_neg notArrow]
  exact Option.map_eq_none_iff.mpr arrowless

theorem Arrowless.of_append {left right : List Char} (arrowless : Arrowless (left ++ right)) :
    Arrowless left := by
  induction left with
  | nil => rfl
  | cons c left induction =>
      refine arrowless_cons ?_ (induction arrowless.tail)
      intro arrow
      apply arrowless.not_arrow
      cases left with
      | nil => simp at arrow
      | cons d left => simpa using arrow

theorem Arrowless.of_within {part text : List Char} (arrowless : Arrowless text)
    (inside : part <:+: text) : Arrowless part := by
  rcases inside with ⟨before, after, rfl⟩
  have behind : Arrowless (before ++ part) := arrowless.of_append
  clear arrowless
  induction before with
  | nil => exact behind
  | cons c before induction => exact induction behind.tail

/-- The second half of an arrow does not stand in the part that is added. -/
theorem Arrowless.append {left right : List Char} (arrowless : Arrowless left)
    (unpointed : '>' ∉ right) : Arrowless (left ++ right) := by
  have blunt : ∀ {text : List Char}, '>' ∉ text → text.head? ≠ some '>' := by
    intro text unpointed first
    exact unpointed (List.mem_of_mem_head? first)
  induction left with
  | nil =>
      rw [List.nil_append]
      clear arrowless
      induction right with
      | nil => rfl
      | cons c right induction =>
          rcases not_or.mp (List.mem_cons.not.mp unpointed) with ⟨_, others⟩
          exact arrowless_cons (fun arrow => blunt others arrow.2) (induction others)
  | cons c left induction =>
      refine arrowless_cons ?_ (induction arrowless.tail)
      intro arrow
      cases left with
      | nil => exact blunt unpointed arrow.2
      | cons d left => exact arrowless.not_arrow (by simpa using arrow)

theorem splitAtArrow?_append {left : List Char} (arrowless : Arrowless left) (right : List Char) :
    splitAtArrow? (left ++ '-' :: '>' :: right) = some (left, right) := by
  induction left with
  | nil => rfl
  | cons c left induction =>
      have notArrow : ¬(c = '-' ∧ (left ++ '-' :: '>' :: right).head? = some '>') := by
        intro arrow
        cases left with
        | nil => simp at arrow
        | cons d left => exact arrowless.not_arrow (by simpa using arrow)
      rw [List.cons_append, splitAtArrow?_cons, if_neg notArrow, induction arrowless.tail]
      rfl

theorem eq_of_splitAtArrow? {text left right : List Char}
    (parts : splitAtArrow? text = some (left, right)) :
    text = left ++ '-' :: '>' :: right ∧ Arrowless left := by
  induction text generalizing left with
  | nil => cases parts
  | cons c rest induction =>
      rw [splitAtArrow?_cons] at parts
      split at parts
      · next arrow =>
          rcases arrow with ⟨rfl, pointed⟩
          cases parts
          rcases rest with _ | ⟨d, rest⟩ <;> cases pointed
          exact ⟨rfl, rfl⟩
      · next notArrow =>
          rcases Option.map_eq_some_iff.mp parts with ⟨⟨front, back⟩, partsRest, pair_eq⟩
          cases pair_eq
          rcases induction partsRest with ⟨rfl, arrowless⟩
          refine ⟨rfl, arrowless_cons ?_ arrowless⟩
          intro arrow
          apply notArrow
          cases front with
          | nil => cases arrow.2
          | cons d front => exact arrow

end GrowthGrammar
