import GrowthGrammar.Text.Blank
import Mathlib.Data.List.TakeWhile

/-!
# Longest parts of a kind

A text that goes on with a character of another kind splits exactly there. Trimming is the case in
which the kind is blank and the text is cut at both ends.
-/

namespace GrowthGrammar

namespace Text

/-- The text is empty or goes on with a character that is not of the kind. -/
def Stops (kind : Char → Bool) (text : List Char) : Prop :=
  ∀ c ∈ text.head?, kind c = false

variable {kind : Char → Bool} {part rest text : List Char}

theorem stops_nil : Stops kind [] := by
  simp [Stops]

theorem stops_cons {c : Char} : Stops kind (c :: rest) ↔ kind c = false := by
  simp [Stops]

/-- A text that does not start with the kind has no part of it in front. -/
theorem Stops.eq_nil (stops : Stops kind (part ++ rest)) (inside : ∀ c ∈ part, kind c = true) :
    part = [] := by
  cases part with
  | nil => rfl
  | cons c others =>
      have isKind := inside c List.mem_cons_self
      rw [stops_cons.mp stops] at isKind
      cases isKind

theorem Stops.takeWhile_eq_nil (stops : Stops kind text) : text.takeWhile kind = [] := by
  cases text with
  | nil => rfl
  | cons c rest => simp [stops_cons.mp stops]

theorem Stops.dropWhile_eq_self (stops : Stops kind text) : text.dropWhile kind = text := by
  cases text with
  | nil => rfl
  | cons c rest => simp [stops_cons.mp stops]

theorem stops_dropWhile (kind : Char → Bool) (text : List Char) :
    Stops kind (text.dropWhile kind) := by
  have first := List.head?_dropWhile_not kind text
  cases split : text.dropWhile kind with
  | nil => exact stops_nil
  | cons c rest =>
      rw [split] at first
      exact stops_cons.mpr first

theorem takeWhile_append (inside : ∀ c ∈ part, kind c = true) (stops : Stops kind rest) :
    (part ++ rest).takeWhile kind = part := by
  rw [List.takeWhile_append_of_pos inside, stops.takeWhile_eq_nil, List.append_nil]

theorem dropWhile_append (inside : ∀ c ∈ part, kind c = true) (stops : Stops kind rest) :
    (part ++ rest).dropWhile kind = rest := by
  rw [List.dropWhile_append_of_pos inside, stops.dropWhile_eq_self]

/-! ## Trimming -/

def AllBlank (text : List Char) : Prop :=
  ∀ c ∈ text, isBlank c = true

instance (text : List Char) : Decidable (AllBlank text) :=
  decidable_of_iff (text.all isBlank = true) List.all_eq_true

theorem allBlank_nil : AllBlank [] :=
  List.forall_mem_nil _

/-- No blank stands at either end. -/
structure Trimmed (text : List Char) : Prop where
  start : Stops isBlank text
  finish : Stops isBlank text.reverse

theorem isBlank_takeWhile (text : List Char) : AllBlank (text.takeWhile isBlank) :=
  fun _ member => List.mem_takeWhile_imp member

theorem trimEnd_append {after : List Char} (blankAfter : AllBlank after)
    (finish : Stops isBlank text.reverse) : trimEnd (text ++ after) = text := by
  have blankReversed : ∀ c ∈ after.reverse, isBlank c = true := fun c member =>
    blankAfter c (List.mem_reverse.mp member)
  rw [trimEnd, List.reverse_append, dropWhile_append blankReversed finish, List.reverse_reverse]

theorem trim_append {before after : List Char} (blankBefore : AllBlank before)
    (blankAfter : AllBlank after) (trimmed : Trimmed text) :
    trim (before ++ text ++ after) = text := by
  rw [trim, trimStart, List.append_assoc, List.dropWhile_append_of_pos blankBefore]
  cases text with
  | nil =>
      rw [List.nil_append, List.dropWhile_eq_nil_iff.mpr blankAfter]
      rfl
  | cons c rest =>
      have starts : Stops isBlank (c :: rest ++ after) :=
        stops_cons.mpr (stops_cons.mp trimmed.start)
      rw [starts.dropWhile_eq_self, trimEnd_append blankAfter trimmed.finish]

theorem Trimmed.trim_eq (trimmed : Trimmed text) : trim text = text := by
  simpa using trim_append allBlank_nil allBlank_nil trimmed

/-- Anything may stand between two trimmed texts. -/
theorem Trimmed.append {front back : List Char} (trimmedFront : Trimmed front)
    (trimmedBack : Trimmed back) (frontNonempty : front ≠ []) (backNonempty : back ≠ [])
    (between : List Char) : Trimmed (front ++ between ++ back) := by
  constructor
  · rcases List.exists_cons_of_ne_nil frontNonempty with ⟨c, rest, rfl⟩
    exact stops_cons.mpr (stops_cons.mp trimmedFront.start)
  · have finish := trimmedBack.finish
    rw [List.reverse_append]
    rcases List.exists_cons_of_ne_nil (List.reverse_ne_nil_iff.mpr backNonempty) with
      ⟨c, rest, reversed⟩
    rw [reversed] at finish ⊢
    exact stops_cons.mpr (stops_cons.mp finish)

theorem trimmed_of_visible (visible : ∀ c ∈ text, isBlank c = false) : Trimmed text := by
  constructor <;> intro c first
  · exact visible c (List.mem_of_mem_head? first)
  · exact visible c (List.mem_reverse.mp (List.mem_of_mem_head? first))

theorem exists_trim (text : List Char) :
    ∃ before after, AllBlank before ∧ AllBlank after ∧ text = before ++ trim text ++ after := by
  refine ⟨text.takeWhile isBlank, ((trimStart text).reverse.takeWhile isBlank).reverse,
    isBlank_takeWhile text, ?_, ?_⟩
  · intro c member
    exact isBlank_takeWhile _ c (List.mem_reverse.mp member)
  · rw [trim, trimEnd, List.append_assoc, ← List.reverse_append, List.takeWhile_append_dropWhile,
      List.reverse_reverse, trimStart, List.takeWhile_append_dropWhile]

theorem trimmed_trim (text : List Char) : Trimmed (trim text) := by
  have finish : Stops isBlank (trim text).reverse := by
    rw [trim, trimEnd, List.reverse_reverse]
    exact stops_dropWhile _ _
  refine ⟨?_, finish⟩
  -- What is cut off at the end does not change the first character, unless nothing is left.
  rcases trimmed : trim text with _ | ⟨c, rest⟩
  · exact stops_nil
  · have pieces : trimStart text =
        (c :: rest) ++ ((trimStart text).reverse.takeWhile isBlank).reverse := by
      rw [← trimmed, trim, trimEnd, ← List.reverse_append, List.takeWhile_append_dropWhile,
        List.reverse_reverse]
    have starts : Stops isBlank (trimStart text) := stops_dropWhile _ _
    rw [pieces] at starts
    exact stops_cons.mpr (stops_cons.mp starts)

/-- Nothing is left of a text that is blank. -/
theorem trim_eq_nil_iff {text : List Char} : trim text = [] ↔ AllBlank text := by
  constructor
  · intro nothing
    rcases exists_trim text with ⟨before, after, blankBefore, blankAfter, text_eq⟩
    rw [nothing, List.append_nil] at text_eq
    rw [text_eq]
    exact List.forall_mem_append.mpr ⟨blankBefore, blankAfter⟩
  · intro blank
    have cut := trim_append blank allBlank_nil ⟨stops_nil, stops_nil⟩
    rwa [List.append_nil, List.append_nil] at cut

end Text

end GrowthGrammar
