import GrowthGrammar.CommandLine.Run
import GrowthGrammar.Proofs.Text.Spelling

/-!
# Terminals

A terminal shows either all lines of a command or those in front of a line that it refuses.
-/

namespace GrowthGrammar.CommandLine.Terminal

variable {terminal : Terminal} {lines : List String} {error : Text.UnpairedError}

/-- No line is refused. -/
def Shows (terminal : Terminal) (lines : List String) : Prop :=
  ∀ line ∈ lines, terminal.refuses? line = none

/-- A line is refused, and none in front of it is. -/
def Refuses (terminal : Terminal) (lines : List String) (error : Text.UnpairedError) : Prop :=
  ∃ before line after, lines = before ++ line :: after ∧ terminal.Shows before ∧
    terminal.refuses? line = some error

theorem shows_nil (terminal : Terminal) : terminal.Shows [] :=
  List.forall_mem_nil _

theorem shows_cons {line : String} :
    terminal.Shows (line :: lines) ↔ terminal.refuses? line = none ∧ terminal.Shows lines :=
  List.forall_mem_cons

theorem shown_of_shows (shows : terminal.Shows lines) : terminal.shown lines = (lines, none) := by
  induction lines with
  | nil => rfl
  | cons line rest induction =>
      have ⟨first, others⟩ := shows_cons.mp shows
      rw [shown, first, induction others]

theorem shown_append {before : List String} {line : String} (shows : terminal.Shows before)
    (refused : terminal.refuses? line = some error) (after : List String) :
    terminal.shown (before ++ line :: after) = (before, some error) := by
  induction before with
  | nil => rw [List.nil_append, shown, refused]
  | cons first before induction =>
      have ⟨shownFirst, others⟩ := shows_cons.mp shows
      rw [List.cons_append, shown, shownFirst, induction others]

theorem shows_or_refuses (terminal : Terminal) (lines : List String) :
    terminal.Shows lines ∨ ∃ error, terminal.Refuses lines error := by
  induction lines with
  | nil => exact .inl terminal.shows_nil
  | cons line rest induction =>
      cases refused : terminal.refuses? line with
      | some error => exact .inr ⟨error, [], line, rest, rfl, terminal.shows_nil, refused⟩
      | none =>
          rcases induction with shows | ⟨error, before, last, after, rfl, shows, refusedLast⟩
          · exact .inl (shows_cons.mpr ⟨refused, shows⟩)
          · have shows := shows_cons.mpr ⟨refused, shows⟩
            exact .inr ⟨error, line :: before, last, after, rfl, shows, refusedLast⟩

theorem not_refuses_nil : ¬ terminal.Refuses [] error := by
  rintro ⟨before, line, after, lines_eq, _⟩
  cases before <;> cases lines_eq

theorem Shows.not_refuses (shows : terminal.Shows lines) : ¬ terminal.Refuses lines error := by
  rintro ⟨before, line, after, rfl, _, refused⟩
  cases refused.symm.trans (shows line (List.mem_append_right before List.mem_cons_self))

theorem Refuses.unique {other : Text.UnpairedError} (refuses : terminal.Refuses lines error)
    (otherRefuses : terminal.Refuses lines other) : error = other := by
  have ⟨before, line, after, lines_eq, shows, refused⟩ := refuses
  have ⟨before', line', after', lines_eq', shows', refused'⟩ := otherRefuses
  have first := congrArg Prod.snd (shown_append shows refused after)
  have second := congrArg Prod.snd (shown_append shows' refused' after')
  rw [← lines_eq] at first
  rw [← lines_eq', first] at second
  exact Option.some.inj second

/-- The terminal of the system refuses lines with a surrogate in them, and no others. -/
theorem system_shows_iff {texts : List (List Text.Item)} :
    system.Shows (texts.map Text.ofItems) ↔ ∀ text ∈ texts, ∀ item ∈ text, item.char?.isSome := by
  simp [Shows, system, Text.unpaired?_ofItems_eq_none_iff]

/-- A string that a file has without escapes is shown by the terminal of the system, and encoded as
it is in the file, whatever its characters are. -/
theorem system_shows_readString {opening text rest : List Char} {length : Nat}
    (fits : text.length < length) (plain : ∀ c ∈ text, c ≠ '"' ∧ c ≠ '\\' ∧ 0x20 ≤ c.toNat) :
    ∃ value, Json.readString opening length [] (text ++ '"' :: rest) = .ok (value, rest) ∧
      system.Shows [value] ∧ Text.encode value = (String.ofList text).toUTF8 := by
  have spelled_eq : Text.spelled (.ofList text) = Text.ofItems (text.map .char) := by
    rw [Text.spelled, String.toList_ofList]
  have encoded := Text.encode_spelled (.ofList text)
  rw [spelled_eq] at encoded
  have characters : ∀ item ∈ text.map Text.Item.char, item.char?.isSome :=
    List.forall_mem_map.mpr fun _ _ => rfl
  refine ⟨_, Json.readString_append [] fits plain, ?_, encoded⟩
  exact system_shows_iff.mpr (List.forall_mem_singleton.mpr characters)

end GrowthGrammar.CommandLine.Terminal
