import GrowthGrammar.Proofs.Number.Fixed
import GrowthGrammar.Wavefront

/-!
# Reading Wavefront files

A reader that knows nothing of the scene that a file was written from. It takes a text apart into
lines, the lines into sections, and the sections into the words of their lines.
-/

namespace GrowthGrammar

namespace Wavefront

/-! ## Lines and words -/

/-- The pieces of a text between separators. -/
def pieces (separator : Char) (text : String) : List String :=
  (text.toList.splitOn separator).map String.ofList

theorem pieces_intercalate {separator : Char} {glue : String} (glue_eq : glue.toList = [separator])
    {parts : List String} (nonempty : parts ≠ [])
    (unbroken : ∀ part ∈ parts, separator ∉ part.toList) :
    pieces separator (glue.intercalate parts) = parts := by
  have separated : ∀ part ∈ parts.map String.toList, separator ∉ part := by
    simpa using unbroken
  rw [pieces, String.toList_intercalate, glue_eq,
    List.splitOn_intercalate separator separated (by simpa using nonempty), List.map_map]
  simp

/-- The first word of a line. -/
def keyword (line : String) : String :=
  .ofList (line.toList.takeWhile (· != ' '))

/-- What stands behind the first word of a line. -/
def argument (line : String) : String :=
  .ofList ((line.toList.dropWhile (· != ' ')).drop 1)

example : keyword "f 1 2 3" = "f" ∧ argument "f 1 2 3" = "1 2 3" := by decide

section

variable {word : String} (single : ' ' ∉ word.toList) (rest : String)

include single

theorem keyword_append_blank : keyword (word ++ " " ++ rest) = word := by
  have letters : ∀ c ∈ word.toList, (c != ' ') = true := by
    intro c member
    simpa using fun equal : c = ' ' => single (equal ▸ member)
  simp [keyword, List.takeWhile_append_of_pos letters]

theorem argument_append_blank : argument (word ++ " " ++ rest) = rest := by
  have letters : ∀ c ∈ word.toList, (c != ' ') = true := by
    intro c member
    simpa using fun equal : c = ' ' => single (equal ▸ member)
  simp [argument, List.dropWhile_append_of_pos letters]

end

/-- What stands behind a keyword in each line that starts with it. -/
def argumentsOf (mark : String) (lines : List String) : List String :=
  (lines.filter fun line => keyword line = mark).map argument

@[simp] theorem argumentsOf_append (mark : String) (first second : List String) :
    argumentsOf mark (first ++ second) = argumentsOf mark first ++ argumentsOf mark second := by
  simp [argumentsOf]

theorem argumentsOf_eq_nil {mark : String} {lines : List String}
    (unmarked : ∀ line ∈ lines, keyword line ≠ mark) : argumentsOf mark lines = [] := by
  simpa [argumentsOf] using unmarked

/-- Lines that all start with one word have their arguments for this word only. -/
theorem argumentsOf_map {word : String} (single : ' ' ∉ word.toList) (mark : String)
    (rest : α → String) (items : List α) :
    argumentsOf mark (items.map fun item => word ++ " " ++ rest item) =
      if word = mark then items.map rest else [] := by
  split
  · next equal =>
      have marked : ∀ line ∈ items.map fun item => word ++ " " ++ rest item,
          decide (keyword line = mark) = true := by
        simp [keyword_append_blank single, ← equal]
      rw [argumentsOf, List.filter_eq_self.mpr marked, List.map_map]
      apply List.map_congr_left
      intro item _
      exact argument_append_blank single (rest item)
  · next different =>
      apply argumentsOf_eq_nil
      simpa [keyword_append_blank single] using fun _ _ => different

/-- Among lines that are words with their arguments, a word has the arguments of its own lines. -/
theorem argumentsOf_words {lines : List (String × String)}
    (single : ∀ line ∈ lines, ' ' ∉ line.1.toList) (mark : String) :
    argumentsOf mark (lines.map fun line => line.1 ++ " " ++ line.2) =
      (lines.filter fun line => line.1 = mark).map Prod.snd := by
  induction lines with
  | nil => rfl
  | cons line lines induction =>
      rcases List.forall_mem_cons.mp single with ⟨first, others⟩
      have one : argumentsOf mark [line.1 ++ " " ++ line.2] =
          if line.1 = mark then [line.2] else [] :=
        argumentsOf_map first mark (fun line : String × String => line.2) [line]
      rw [List.map_cons, ← List.singleton_append, argumentsOf_append, one, induction others]
      by_cases marked : line.1 = mark <;> simp [marked]

/-! ## Sections -/

/-- The lines in front of the first line with a keyword, and from there on what stands behind the
keyword together with the lines up to the next one. -/
def sections (mark : String) : List String → List String × List (String × List String)
  | [] => ([], [])
  | line :: lines =>
      let (front, behind) := sections mark lines
      if keyword line = mark then ([], (argument line, front) :: behind)
      else (line :: front, behind)

theorem sections_append {mark : String} {front : List String}
    (unmarked : ∀ line ∈ front, keyword line ≠ mark) (lines : List String) :
    sections mark (front ++ lines) =
      (front ++ (sections mark lines).1, (sections mark lines).2) := by
  induction front with
  | nil => rfl
  | cons line front induction =>
      rcases List.forall_mem_cons.mp unmarked with ⟨first, others⟩
      rw [List.cons_append, sections, induction others]
      simp [first]

/-- A line with the keyword starts a section, and the lines without it behind it belong to it. -/
theorem sections_block {mark head : String} (marked : keyword head = mark) {body : List String}
    (unmarked : ∀ line ∈ body, keyword line ≠ mark) (lines : List String) :
    sections mark (head :: body ++ lines) =
      ([], (argument head, body ++ (sections mark lines).1) :: (sections mark lines).2) := by
  rw [List.cons_append, sections, sections_append unmarked]
  simp [marked]

theorem sections_flatMap {mark : String} {head : α → String} {body : α → List String}
    {items : List α} (marked : ∀ item ∈ items, keyword (head item) = mark)
    (unmarked : ∀ item ∈ items, ∀ line ∈ body item, keyword line ≠ mark) :
    sections mark (items.flatMap fun item => head item :: body item) =
      ([], items.map fun item => (argument (head item), body item)) := by
  induction items with
  | nil => rfl
  | cons item items induction =>
      rcases List.forall_mem_cons.mp marked with ⟨firstMarked, othersMarked⟩
      rcases List.forall_mem_cons.mp unmarked with ⟨firstUnmarked, othersUnmarked⟩
      rw [List.flatMap_cons, sections_block firstMarked firstUnmarked,
        induction othersMarked othersUnmarked]
      simp

/-! ## Numbers -/

/-- A number in decimal digits. -/
def number? (text : String) : Option Nat :=
  if text.toList.isEmpty || text.toList.any (!·.isDigit) then none
  else some (Nat.ofDigitChars 10 text.toList 0)

theorem number?_toString (n : Nat) : number? (toString n) = some n := by
  have digits : (Nat.toDigits 10 n).any (!·.isDigit) = false := by
    simpa using fun c member => Nat.isDigit_of_mem_toDigits (by decide) (by decide) member
  simp [number?, digits, Nat.toDigits_ne_nil]

/-- A vertex number that counts through the file, as a place among the vertices of an object. The
numbers of vertices outside of the object are invalid. -/
def placeWithin? (before count : Nat) (text : String) : Option Nat := do
  let number ← number? text
  if before < number ∧ number ≤ before + count then some (number - 1 - before) else none

theorem placeWithin?_toString (before : Nat) {count place : Nat} (inside : place < count) :
    placeWithin? before count (toString (before + 1 + place)) = some place := by
  have within : before < before + 1 + place ∧ before + 1 + place ≤ before + count := by omega
  have place_eq : before + 1 + place - 1 - before = place := by omega
  rw [placeWithin?, number?_toString]
  dsimp only [bind, Option.bind]
  rw [if_pos within, place_eq]

/-! ## Files -/

/-- An object as a file has it: the texts of the coordinates of its vertices, and faces as places
among them. -/
structure Entry where
  name : String
  materials : List String
  vertices : List (List String)
  faces : List (List Nat)
  deriving Repr

/-- An object with `before` vertices in front of it. -/
def readSection? (before : Nat) (name : String) (body : List String) : Option Entry := do
  let vertices := (argumentsOf "v" body).map (pieces ' ')
  let faces ← (argumentsOf "f" body).mapM fun face =>
    (pieces ' ' face).mapM (placeWithin? before vertices.length)
  return { name, materials := argumentsOf "usemtl" body, vertices, faces }

def readSections? (before : Nat) : List (String × List String) → Option (List Entry)
  | [] => some []
  | (name, body) :: rest => do
      let entry ← readSection? before name body
      let entries ← readSections? (before + entry.vertices.length) rest
      return entry :: entries

/-- The objects of an object file. -/
def readObjects? (text : String) : Option (List Entry) :=
  let (front, objects) := sections "o" (pieces '\n' text)
  readSections? (argumentsOf "v" front).length objects

example : readObjects? "o a\no b\nusemtl m\nv 0 0 0\nv 1 0 0\nf 2 1 2\n" =
    some [{ name := "a", materials := [], vertices := [], faces := [] },
      { name := "b", materials := ["m"], vertices := [["0", "0", "0"], ["1", "0", "0"]],
        faces := [[1, 0, 1]] }] := by
  rfl

/-- The blocks of a material file, each with its name in front. -/
def readBlocks (text : String) : List (String × List String) :=
  (sections "newmtl" (pieces '\n' text)).2

/-- A material as a file has it: the texts of its numbers. -/
structure Swatch where
  diffuse : List String
  specular : List String
  exponent : String
  opacity : String
  illumination : String
  deriving Repr

/-- The one item of a list. -/
def only? : List α → Option α
  | [item] => some item
  | _ => none

/-- The material of a block. A block that leaves a number out, or has it twice, has none. -/
def readSwatch? (body : List String) : Option Swatch := do
  let diffuse ← only? (argumentsOf "Kd" body)
  let specular ← only? (argumentsOf "Ks" body)
  let exponent ← only? (argumentsOf "Ns" body)
  let opacity ← only? (argumentsOf "d" body)
  let illumination ← only? (argumentsOf "illum" body)
  return {
    diffuse := pieces ' ' diffuse
    specular := pieces ' ' specular
    exponent
    opacity
    illumination }

example : (readBlocks "newmtl red\nd 1\nKd 1 0 0\nKs 0 0 0\nNs 500\nillum 2").map
    (fun block => readSwatch? block.2) =
      [some {
        diffuse := ["1", "0", "0"]
        specular := ["0", "0", "0"]
        exponent := "500"
        opacity := "1"
        illumination := "2" }] := by
  rfl

/-! ## Texts that are written without spaces -/

theorem mem_of_mem_stripZeros {text : List Char} {c : Char} (member : c ∈ stripZeros text) :
    c ∈ text := by
  have kept {c : Char} (member : c ∈ text.reverse.dropWhile (· == '0')) : c ∈ text :=
    List.mem_reverse.mp ((List.dropWhile_sublist _).mem member)
  unfold stripZeros at member
  split at member
  · split at member
    · next pointed =>
        apply kept
        rw [pointed]
        exact List.mem_cons_of_mem _ (List.mem_reverse.mp member)
    · exact kept (List.mem_reverse.mp member)
  · exact member

theorem numberText_unspaced (precision : Nat) (x : Float) :
    ' ' ∉ (numberText precision x).toList ∧ '\n' ∉ (numberText precision x).toList := by
  have numeric : ∀ c ∈ (numberText precision x).toList, Number.IsNumeric c := by
    intro c member
    rw [numberText, String.toList_ofList] at member
    exact Number.isNumeric_of_mem_fixedChars c (mem_of_mem_stripZeros member)
  exact ⟨fun space => (numeric _ space).ne_space.1 rfl,
    fun lineEnd => (numeric _ lineEnd).ne_space.2 rfl⟩

theorem pieces_numberTexts (precision : Nat) {numbers : List Float} (nonempty : numbers ≠ []) :
    pieces ' ' (" ".intercalate (numbers.map (numberText precision))) =
      numbers.map (numberText precision) := by
  apply pieces_intercalate (by decide) (by simpa using nonempty)
  simpa using fun number _ => (numberText_unspaced precision number).1

theorem toDigits_unspaced (n : Nat) :
    ' ' ∉ Nat.toDigits 10 n ∧ '\n' ∉ Nat.toDigits 10 n := by
  have numeric : ∀ c ∈ Nat.toDigits 10 n, Number.IsNumeric c :=
    fun c member => Number.isNumeric_of_mem_decimalDigits member
  exact ⟨fun space => (numeric _ space).ne_space.1 rfl,
    fun lineEnd => (numeric _ lineEnd).ne_space.2 rfl⟩

end Wavefront

end GrowthGrammar
