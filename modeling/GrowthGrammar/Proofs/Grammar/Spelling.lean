import GrowthGrammar.Proofs.Grammar.Scanning

/-!
# Texts that spell symbols

The scanner reads a text exactly when it spells symbols: names with or without a body in braces,
with blanks anywhere around them.
-/

namespace GrowthGrammar

namespace RawSymbol

open Fallible Text

/-! ## Slots -/

/-- How many more parentheses a text opens than it closes. -/
def nesting (text : List Char) : Int :=
  text.count '(' - text.count ')'

/-- The places of the commas that stand outside of parentheses, in a text in front of which `depth`
more are opened than closed. -/
def separators (depth : Int) (text : List Char) : List Nat :=
  (List.range text.length).filter fun place =>
    text[place]? = some ',' ∧ depth + nesting (text.take place) = 0

def slice (text : List Char) (start stop : Nat) : List Char :=
  (text.take stop).drop start

/-- What stands between the commas at some places, and in front of and behind them. -/
def between (places : List Nat) (text : List Char) : List (List Char) :=
  List.zipWith (slice text) (0 :: places.map (· + 1)) (places ++ [text.length])

/-- The slots of a body are cut at its commas outside of parentheses. -/
def slots (body : List Char) : List (List Char) :=
  between (separators 0 body) body

example : slots "a,(b,c),d".toList = ["a".toList, "(b,c)".toList, "d".toList] := by decide

/-- A parenthesis that is closed without being opened hides the commas behind it. -/
example : slots "a),b".toList = ["a),b".toList] := by decide

theorem length_slots (body : List Char) :
    (slots body).length = (separators 0 body).length + 1 := by
  simp [slots, between]

theorem nesting_cons (depth : Int) (c : Char) (text : List Char) :
    depth + nesting (c :: text) = depthAfter depth c + nesting text := by
  rw [nesting, nesting, depthAfter, List.count_cons, List.count_cons]
  by_cases opens : c = '('
  · simp [opens]
    omega
  · by_cases closes : c = ')'
    · simp [closes]
      omega
    · simp [opens, closes]

theorem separators_cons (depth : Int) (c : Char) (rest : List Char) :
    separators depth (c :: rest) =
      if c = ',' ∧ depth = 0 then 0 :: (separators (depthAfter depth c) rest).map (· + 1)
      else (separators (depthAfter depth c) rest).map (· + 1) := by
  have behind : ((List.range rest.length).map Nat.succ).filter (fun place =>
      (c :: rest)[place]? = some ',' ∧ depth + nesting ((c :: rest).take place) = 0) =
        (separators (depthAfter depth c) rest).map (· + 1) := by
    rw [List.filter_map, separators]
    congr 1
    apply List.filter_congr
    intro place _
    simp [nesting_cons]
  rw [separators, List.length_cons, List.range_succ_eq_map, List.filter_cons, behind]
  simp [nesting]

/-- A character more in front moves all places by one. -/
theorem zipWith_slice_cons (c : Char) (rest : List Char) (starts stops : List Nat) :
    List.zipWith (slice (c :: rest)) (starts.map (· + 1)) (stops.map (· + 1)) =
      List.zipWith (slice rest) starts stops := by
  rw [List.zipWith_map]
  rfl

/-- A comma at the start cuts off an empty slot. -/
theorem between_zero_cons (places : List Nat) (c : Char) (rest : List Char) :
    between (0 :: places.map (· + 1)) (c :: rest) = [] :: between places rest := by
  have shifted := zipWith_slice_cons c rest (0 :: places.map (· + 1)) (places ++ [rest.length])
  rw [List.map_append, List.map_singleton] at shifted
  rw [between, between, ← shifted]
  rfl

/-- Any other character at the start belongs to the first slot. -/
theorem between_map_succ (places : List Nat) (c : Char) (rest : List Char) :
    between (places.map (· + 1)) (c :: rest) = (between places rest).modifyHead (c :: ·) := by
  cases places with
  | nil => rfl
  | cons place places =>
      have shifted := zipWith_slice_cons c rest ((place :: places).map (· + 1))
        (places ++ [rest.length])
      rw [List.map_append, List.map_singleton] at shifted
      exact congrArg (List.cons (c :: rest.take place)) shifted

theorem splitAtCommas_eq_between (depth : Int) (text : List Char) :
    splitAtCommas depth text = between (separators depth text) text := by
  induction text generalizing depth with
  | nil => simp [splitAtCommas, between, separators, slice]
  | cons c rest induction =>
      rw [separators_cons, splitAtCommas]
      split
      · next outside =>
          rcases outside with ⟨rfl, rfl⟩
          rw [between_zero_cons, induction]
          rfl
      · rw [between_map_succ, ← induction]
        rcases List.exists_cons_of_ne_nil (splitAtCommas_ne_nil (depthAfter depth c) rest) with
          ⟨head, tail, parts_eq⟩
        rw [parts_eq]
        rfl

theorem splitParameters_eq (body : List Char) :
    splitParameters body =
      if AllBlank body then .ok []
      else if ∃ slot ∈ slots body, AllBlank slot then .error .emptyParameter
      else .ok ((slots body).map fun slot => .ofList (trim slot)) := by
  have blank_iff : isAllBlank body = true ↔ AllBlank body := List.all_eq_true
  have empty_iff : ((splitAtCommas 0 body).map trim).any List.isEmpty = true ↔
      ∃ slot ∈ slots body, AllBlank slot := by
    simp [splitAtCommas_eq_between, slots, trim_eq_nil_iff]
  simp only [splitParameters, blank_iff, empty_iff, List.map_map]
  rw [splitAtCommas_eq_between]
  rfl

/-- The parameters that a body stands for: none when it is blank, and else one for each slot, none of
which may be blank. -/
inductive Fills (body : List Char) : List String → Prop
  | blank : AllBlank body → Fills body []
  | filled : ¬AllBlank body → (∀ slot ∈ slots body, ¬AllBlank slot) →
      Fills body ((slots body).map fun slot => .ofList (trim slot))

theorem splitParameters_eq_ok_iff {body : List Char} {parameters : List String} :
    splitParameters body = .ok parameters ↔ Fills body parameters := by
  rw [splitParameters_eq]
  constructor
  · intro split_eq
    split at split_eq
    · next blank =>
        cases split_eq
        exact .blank blank
    · next visible =>
        split at split_eq
        · cases split_eq
        · next filled =>
            cases split_eq
            exact .filled visible fun slot member slotBlank => filled ⟨slot, member, slotBlank⟩
  · intro fills
    cases fills with
    | blank blank => rw [if_pos blank]
    | filled visible filled =>
        rw [if_neg visible, if_neg]
        rintro ⟨slot, member, slotBlank⟩
        exact filled slot member slotBlank

theorem Fills.length {body : List Char} {parameters : List String} (fills : Fills body parameters) :
    parameters.length = if AllBlank body then 0 else (separators 0 body).length + 1 := by
  cases fills with
  | blank blank => rw [if_pos blank]; rfl
  | filled visible _ => rw [if_neg visible, List.length_map, length_slots]

/-! ## Symbols -/

/-- The symbols that a text spells. A name goes as far as it can. -/
inductive Spelled : List Char → List RawSymbol → Prop
  | nil : Spelled [] []
  | blank {c : Char} {rest : List Char} {symbols : List RawSymbol} :
      isBlank c = true → Spelled rest symbols → Spelled (c :: rest) symbols
  | bare {name rest : List Char} {symbols : List RawSymbol} :
      IsName name → Stops isNameChar rest → Spelled rest symbols →
      Spelled (name ++ rest) ({ name := .ofList name, parameters := [] } :: symbols)
  | braced {name body rest : List Char} {parameters : List String} {symbols : List RawSymbol} :
      IsName name → (∀ c ∈ body, c ≠ '{' ∧ c ≠ '}') → Fills body parameters →
      Spelled rest symbols →
      Spelled (name ++ '{' :: body ++ '}' :: rest) ({ name := .ofList name, parameters } :: symbols)

theorem IsName.head?_append {name : List Char} (isName : IsName name) (rest : List Char) :
    (name ++ rest).head? ≠ some '{' := by
  rcases List.exists_cons_of_ne_nil isName.nonempty with ⟨c, others, rfl⟩
  intro first
  cases first
  exact absurd (isName.nameChar '{' List.mem_cons_self) (by decide)

/-- No symbol starts with a brace. -/
theorem Spelled.head? {text : List Char} {symbols : List RawSymbol} (spelled : Spelled text symbols) :
    text.head? ≠ some '{' := by
  cases spelled with
  | nil => simp
  | blank blank _ =>
      intro first
      cases first
      exact absurd blank (by decide)
  | bare isName _ _ => exact isName.head?_append _
  | braced isName _ _ _ =>
      rw [List.append_assoc]
      exact isName.head?_append _

theorem scan_of_spelled {text : List Char} {symbols : List RawSymbol}
    (spelled : Spelled text symbols) : scan text = .ok symbols := by
  induction spelled with
  | nil => exact scan_nil
  | blank blank _ induction => rw [scan_blank blank, induction]
  | bare isName stops spelled induction =>
      rw [scan_bare isName stops spelled.head?, induction]
      rfl
  | braced isName unbraced fills _ induction =>
      rw [scan_braced isName unbraced (splitParameters_eq_ok_iff.mpr fills), induction]
      rfl

/-- A symbol that is scanned is its name, or the name with a body that is closed behind it. -/
theorem cases_of_scan {c : Char} (nameChar : isNameChar c = true) {rest : List Char}
    {symbols : List RawSymbol} (scanned : scan (c :: rest) = .ok symbols) :
    let name := String.ofList (c :: rest.takeWhile isNameChar)
    (∃ others, scan (rest.dropWhile isNameChar) = .ok others ∧
      symbols = { name, parameters := [] } :: others) ∨
    ∃ body behind parameters others,
      rest.dropWhile isNameChar = '{' :: body ++ '}' :: behind ∧
        (∀ c ∈ body, c ≠ '{' ∧ c ≠ '}') ∧ splitParameters body = .ok parameters ∧
        scan behind = .ok others ∧ symbols = { name, parameters } :: others := by
  intro name
  rw [scan_isNameChar nameChar] at scanned
  dsimp only at scanned
  split at scanned
  · next inside opened =>
      split at scanned
      · cases scanned
      · next close behind closed =>
          split at scanned
          · cases scanned
          · next notNested =>
              rcases bind_eq_ok_iff.mp scanned with ⟨parameters, parameters_eq, scanned⟩
              rcases map_eq_ok_iff.mp scanned with ⟨others, scannedBehind, rfl⟩
              have stops := stops_dropWhile (· != '}') inside
              rw [closed, stops_cons, bne_eq_false_iff_eq] at stops
              subst stops
              have inside_eq : inside = inside.takeWhile (· != '}') ++ '}' :: behind := by
                rw [← closed, List.takeWhile_append_dropWhile]
              refine .inr ⟨_, behind, parameters, others, ?_, fun c member => ⟨?_, ?_⟩,
                parameters_eq, scannedBehind, rfl⟩
              · rw [opened, List.cons_append, ← inside_eq]
              · rintro rfl
                exact notNested (List.contains_iff_mem.mpr member)
              · simpa using List.mem_takeWhile_imp member
  · rcases map_eq_ok_iff.mp scanned with ⟨others, scannedBehind, rfl⟩
    exact .inl ⟨others, scannedBehind, rfl⟩

theorem spelled_of_scan {text : List Char} {symbols : List RawSymbol}
    (scanned : scan text = .ok symbols) : Spelled text symbols := by
  induction size : text.length using Nat.strongRecOn generalizing text symbols with
  | _ length induction =>
      rcases text with _ | ⟨c, rest⟩
      · rw [scan_nil] at scanned
        cases scanned
        exact .nil
      · have shorter : ∀ {behind : List Char} {others : List RawSymbol}, behind <:+ rest →
            scan behind = .ok others → Spelled behind others := by
          intro behind others isSuffix scanned
          refine induction behind.length ?_ scanned rfl
          rw [← size]
          exact Nat.lt_succ_of_le isSuffix.length_le
        by_cases blank : isBlank c = true
        · rw [scan_blank blank] at scanned
          exact .blank blank (shorter (List.suffix_refl rest) scanned)
        · by_cases nameChar : isNameChar c = true
          · have isName : IsName (c :: rest.takeWhile isNameChar) :=
              ⟨List.cons_ne_nil _ _, List.forall_mem_cons.mpr
                ⟨nameChar, fun _ member => List.mem_takeWhile_imp member⟩⟩
            have after : rest.dropWhile isNameChar <:+ rest := List.dropWhile_suffix isNameChar
            have text_eq : c :: rest =
                c :: rest.takeWhile isNameChar ++ rest.dropWhile isNameChar := by
              rw [List.cons_append, List.takeWhile_append_dropWhile]
            rcases cases_of_scan nameChar scanned with ⟨others, scannedBehind, rfl⟩ |
              ⟨body, behind, parameters, others, braced, unbraced, parameters_eq, scannedBehind,
                rfl⟩
            · rw [text_eq]
              exact .bare isName (stops_dropWhile isNameChar rest) (shorter after scannedBehind)
            · rw [text_eq, braced, ← List.append_assoc]
              rw [braced] at after
              have isSuffix : behind <:+ rest :=
                ((List.suffix_cons '}' behind).trans (List.suffix_append _ _)).trans after
              exact .braced isName unbraced (splitParameters_eq_ok_iff.mp parameters_eq)
                (shorter isSuffix scannedBehind)
          · exact absurd scanned (scan_ne_ok blank nameChar rest symbols)

theorem scanWithin_eq_ok_iff {location : Location} {text : List Char} {symbols : List RawSymbol} :
    scanWithin location text = .ok symbols ↔ scan text = .ok symbols :=
  mapError_eq_ok_iff

/-- The names of the symbols stand in the text. -/
theorem Spelled.names {text : List Char} {symbols : List RawSymbol}
    (spelled : Spelled text symbols) :
    ∀ symbol ∈ symbols, IsName symbol.name.toList ∧ symbol.name.toList <:+: text := by
  induction spelled with
  | nil => exact List.forall_mem_nil _
  | blank _ _ induction =>
      intro symbol member
      rcases induction symbol member with ⟨isName, inside⟩
      exact ⟨isName, inside.trans (List.suffix_cons _ _).isInfix⟩
  | @bare name rest _ isName _ _ induction =>
      refine List.forall_mem_cons.mpr ⟨?_, fun symbol member => ?_⟩
      · rw [String.toList_ofList]
        exact ⟨isName, (List.prefix_append name rest).isInfix⟩
      · rcases induction symbol member with ⟨isName, inside⟩
        exact ⟨isName, inside.trans (List.suffix_append name rest).isInfix⟩
  | @braced name body rest _ _ isName _ _ _ induction =>
      refine List.forall_mem_cons.mpr ⟨?_, fun symbol member => ?_⟩
      · rw [String.toList_ofList, List.append_assoc]
        exact ⟨isName, (List.prefix_append name _).isInfix⟩
      · rcases induction symbol member with ⟨isName, inside⟩
        have isSuffix : rest <:+ name ++ '{' :: body ++ '}' :: rest :=
          (List.suffix_cons '}' rest).trans (List.suffix_append _ _)
        exact ⟨isName, inside.trans isSuffix.isInfix⟩

/-- The symbols of a text are exactly those that it spells, and a text that spells none is refused. A
body that is not blank gives one parameter more than it has commas outside of parentheses. -/
theorem scan_exact (location : Location) (text : List Char) :
    (∀ symbols, scanWithin location text = .ok symbols ↔ Spelled text symbols) ∧
      ((¬∃ symbols, Spelled text symbols) →
        ∃ cause, scanWithin location text = .error { cause, location }) ∧
      ∀ body parameters, splitParameters body = .ok parameters →
        parameters.length = if AllBlank body then 0 else (separators 0 body).length + 1 := by
  have exact_iff : ∀ symbols, scanWithin location text = .ok symbols ↔ Spelled text symbols :=
    fun symbols => scanWithin_eq_ok_iff.trans ⟨spelled_of_scan, scan_of_spelled⟩
  refine ⟨exact_iff, fun unspelled => ?_, fun body parameters split_eq =>
    (splitParameters_eq_ok_iff.mp split_eq).length⟩
  cases scanned : scan text with
  | error cause => exact ⟨cause, by rw [scanWithin, scanned]; rfl⟩
  | ok symbols => exact absurd ⟨symbols, spelled_of_scan scanned⟩ unspelled

/-- Symbols without blanks between them, a comma inside of parentheses, a blank body, a parenthesis
that is closed only, and an empty slot. -/
theorem scan_exact_of_adjacent :
    let location : Location := { line := none, source := none }
    Spelled "A{f(x,y) , z}B{ } \u2003+[{)a,b}".toList
        [{ name := "A", parameters := ["f(x,y)", "z"] }, { name := "B", parameters := [] },
          { name := "+[", parameters := [")a,b"] }] ∧
      (¬∃ symbols, Spelled "A{1,}".toList symbols) ∧
      (∃ cause, scanWithin location "A{1,}".toList = .error { cause, location }) ∧
      splitParameters "f(x,y) , z".toList = .ok ["f(x,y)", "z"] ∧
      ["f(x,y)", "z"].length = (separators 0 "f(x,y) , z".toList).length + 1 := by
  intro location
  have refused : ∀ symbols, scanWithin location "A{1,}".toList ≠ .ok symbols := by
    intro symbols
    have error_eq : scanWithin location "A{1,}".toList =
        .error { cause := .emptyParameter, location } := by
      decide +kernel
    rw [error_eq]
    exact fun impossible => nomatch impossible
  have unspelled : ¬∃ symbols, Spelled "A{1,}".toList symbols := fun ⟨symbols, spelled⟩ =>
    refused symbols (((scan_exact location _).1 symbols).mpr spelled)
  have split_eq : splitParameters "f(x,y) , z".toList = .ok ["f(x,y)", "z"] := by decide +kernel
  exact ⟨((scan_exact location _).1 _).mp (by decide +kernel), unspelled,
    (scan_exact location _).2.1 unspelled, split_eq, (scan_exact location []).2.2 _ _ split_eq⟩

end RawSymbol

end GrowthGrammar
