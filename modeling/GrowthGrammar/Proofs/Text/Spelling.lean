import GrowthGrammar.Json.Read
import GrowthGrammar.Text.Utf8

/-!
# Spelled texts

Every list of characters and surrogates is spelled by one text, which says again what they are. So
no character is taken for a surrogate, neither when it is read from a file nor when it is written.
-/

namespace GrowthGrammar.Text

namespace Item

theorem ofChar_of_not_needsMark {c : Char} (plain : ¬needsMark c) : ofChar c = .char c := by
  have unplaced : ¬isSurrogate (c.toNat - surrogateShift) := by
    intro placed
    simp [needsMark, surrogate?, placed] at plain
  rw [ofChar, dif_neg unplaced]

theorem toNat_placeKeeper {code : Nat} (unpaired : isSurrogate code) :
    (Char.ofNat (code + surrogateShift)).toNat = code + surrogateShift := by
  simp only [isSurrogate, isHighSurrogate, isLowSurrogate, Bool.or_eq_true, Bool.and_eq_true,
    decide_eq_true_eq] at unpaired
  have valid : (code + surrogateShift).isValidChar := by
    right
    rw [surrogateShift]
    omega
  rw [Char.ofNat, dif_pos valid]
  rfl

theorem ofChar_placeKeeper {code : Nat} (unpaired : isSurrogate code) :
    ofChar (Char.ofNat (code + surrogateShift)) = .surrogate code unpaired := by
  have code_eq : (Char.ofNat (code + surrogateShift)).toNat - surrogateShift = code := by
    rw [toNat_placeKeeper unpaired, Nat.add_sub_cancel]
  simp only [ofChar, code_eq, unpaired, dite_true]

theorem placeKeeper_ne_spellMark {code : Nat} (unpaired : isSurrogate code) :
    Char.ofNat (code + surrogateShift) ≠ spellMark := by
  intro equal
  have code_eq := congrArg Char.toNat equal
  rw [toNat_placeKeeper unpaired] at code_eq
  simp only [isSurrogate, isHighSurrogate, isLowSurrogate, Bool.or_eq_true, Bool.and_eq_true,
    decide_eq_true_eq] at unpaired
  have mark_eq : spellMark.toNat = 0x10ffff := rfl
  rw [mark_eq, surrogateShift] at code_eq
  omega

end Item

theorem items_cons_of_ne {c : Char} (unmarked : c ≠ spellMark) (rest : List Char) :
    items (c :: rest) = .ofChar c :: items rest := by
  cases rest with
  | nil => rfl
  | cons next rest => rw [items, if_neg unmarked]

theorem items_spell_append (item : Item) (rest : List Char) :
    items (item.spell ++ rest) = item :: items rest := by
  cases item with
  | char c =>
      rw [Item.spell]
      split
      · rw [List.cons_append, List.singleton_append, items, if_pos rfl]
      · next plain =>
          have unmarked : c ≠ spellMark := by
            rintro rfl
            exact plain rfl
          rw [List.singleton_append, items_cons_of_ne unmarked, Item.ofChar_of_not_needsMark plain]
  | surrogate code unpaired =>
      rw [Item.spell, List.singleton_append,
        items_cons_of_ne (Item.placeKeeper_ne_spellMark unpaired),
        Item.ofChar_placeKeeper unpaired]

/-- What has been spelled is read again. -/
theorem items_ofItems (text : List Item) : items (ofItems text).toList = text := by
  rw [ofItems, String.toList_ofList]
  induction text with
  | nil => rfl
  | cons item rest induction => rw [List.flatMap_cons, items_spell_append, induction]

theorem unpairedFrom?_eq_none_iff (position : Nat) (text : List Item) :
    unpairedFrom? (fun _ => false) position text = none ↔ ∀ item ∈ text, item.char?.isSome := by
  induction text generalizing position with
  | nil => simp [unpairedFrom?]
  | cons item rest induction =>
      cases item with
      | char c => simp [unpairedFrom?, induction, Item.char?]
      | surrogate code unpaired => simp [unpairedFrom?, Item.char?]

/-- A text can be encoded just if it has no surrogate. -/
theorem unpaired?_ofItems_eq_none_iff (text : List Item) :
    unpaired? (ofItems text) = none ↔ ∀ item ∈ text, item.char?.isSome := by
  rw [unpaired?, items_ofItems, unpairedFrom?_eq_none_iff]

/-- Characters are encoded as themselves. -/
theorem encode_spelled (text : String) : encode (spelled text) = text.toUTF8 := by
  rw [encode, plain, spelled, items_ofItems, List.filterMap_map]
  exact congrArg String.toUTF8
    ((congrArg String.ofList (List.filterMap_some)).trans String.ofList_toList)

end GrowthGrammar.Text

namespace GrowthGrammar.Json

/-- Characters of a string that are not escaped stand for themselves. -/
theorem readString_append {opening rest : List Char} {length : Nat} (read : List Text.Item)
    {text : List Char} (fits : text.length < length)
    (plain : ∀ c ∈ text, c ≠ '"' ∧ c ≠ '\\' ∧ 0x20 ≤ c.toNat) :
    readString opening length read (text ++ '"' :: rest) =
      .ok (Text.ofItems (read.reverse ++ text.map .char), rest) := by
  induction text generalizing length read with
  | nil =>
      obtain ⟨length, rfl⟩ := Nat.exists_eq_add_one.mpr fits
      simp [readString]
  | cons c text induction =>
      obtain ⟨length, rfl⟩ := Nat.exists_eq_add_one.mpr (Nat.zero_lt_of_lt fits)
      have ⟨noQuote, noEscape, noControl⟩ := plain c List.mem_cons_self
      simp only [List.cons_append, readString, if_neg noQuote, if_neg noEscape,
        if_neg (Nat.not_lt.mpr noControl)]
      rw [induction _ (Nat.lt_of_succ_lt_succ fits) fun c member =>
        plain c (List.mem_cons_of_mem _ member)]
      simp

end GrowthGrammar.Json
