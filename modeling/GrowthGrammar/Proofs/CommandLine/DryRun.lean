import GrowthGrammar.Proofs.CommandLine.Terminals
import GrowthGrammar.Proofs.CommandLine.Traces
import GrowthGrammar.Proofs.Number.Fixed
import GrowthGrammar.Proofs.Rewrite.Limit
import GrowthGrammar.Proofs.Rewrite.Names
import GrowthGrammar.Proofs.Text.Span

/-!
# Dry runs foretell runs

A dry run that tells how many symbols and meshes there are has derived the very word, and built the
very meshes, that every later run of the configuration comes to if it has a seed.
-/

namespace GrowthGrammar

open Fallible

namespace CommandLine

/-! What a dry run tells. -/

/-- The last lines of a dry run that comes to its end without a warning. -/
def countLines (symbols meshes : Nat) : List String :=
  ["symbols: " ++ toString symbols, "meshes: " ++ toString meshes]

def growthWarning : String :=
  "warning: expansion exceeds " ++ toString dryRunLimit ++ " symbols; skipping geometry check"

/-- The output ends with the two counts. -/
def Outcome.Counts (outcome : Outcome) (symbols meshes : Nat) : Prop :=
  ∃ front, outcome.output = front ++ linesText (countLines symbols meshes)

section

variable {front other : List Char} {mark last : Char} {first second : Nat}

theorem isDigit_of_mem_reverse_toDigits {c : Char}
    (member : c ∈ (Nat.toDigits 10 first).reverse) : c.isDigit = true :=
  Nat.isDigit_of_mem_toDigits (by decide) (by decide) (List.mem_reverse.mp member)

/-- A number at the end of a text can be told from what stands in front of it. -/
theorem eq_of_append_toDigits (noDigit : mark.isDigit = false)
    (equal : front ++ mark :: Nat.toDigits 10 first = other ++ mark :: Nat.toDigits 10 second) :
    front = other ∧ first = second := by
  have stops (rest : List Char) : Text.Stops Char.isDigit (mark :: rest) :=
    Text.stops_cons.mpr noDigit
  have reversed := congrArg List.reverse equal
  simp only [List.reverse_append, List.reverse_cons, List.append_assoc, List.singleton_append]
    at reversed
  have digits := congrArg (List.takeWhile Char.isDigit) reversed
  have rest := congrArg (List.dropWhile Char.isDigit) reversed
  rw [Text.takeWhile_append (fun _ => isDigit_of_mem_reverse_toDigits) (stops _),
    Text.takeWhile_append (fun _ => isDigit_of_mem_reverse_toDigits) (stops _)] at digits
  rw [Text.dropWhile_append (fun _ => isDigit_of_mem_reverse_toDigits) (stops _),
    Text.dropWhile_append (fun _ => isDigit_of_mem_reverse_toDigits) (stops _)] at rest
  exact ⟨List.reverse_inj.mp (List.cons.inj rest).2,
    Number.eq_of_toDigits_eq (List.reverse_inj.mp digits)⟩

theorem ne_append_toDigits (noDigit : last.isDigit = false) :
    front ++ [last] ≠ other ++ mark :: Nat.toDigits 10 second := by
  intro equal
  have ends := congrArg List.getLast? (equal.trans (List.append_cons _ _ _))
  rw [List.getLast?_concat, List.getLast?_append_of_ne_nil _ Nat.toDigits_ne_nil] at ends
  have isDigit := Nat.isDigit_of_mem_toDigits (b := 10) (by decide) (by decide)
    (List.mem_of_getLast? ends.symm)
  rw [noDigit] at isDigit
  cases isDigit

end

theorem toList_countLines (symbols meshes : Nat) :
    (Outcome.linesText (countLines symbols meshes)).toList =
      "symbols:".toList ++ ' ' :: Nat.toDigits 10 symbols ++
        "\nmeshes:".toList ++ ' ' :: Nat.toDigits 10 meshes ++ ['\n'] := by
  simp [Outcome.linesText, countLines]

theorem linesText_append (first second : List String) :
    Outcome.linesText (first ++ second) = Outcome.linesText first ++ Outcome.linesText second := by
  simp [Outcome.linesText, String.join_append]

theorem counts_unique {front other : String} {symbols meshes symbols' meshes' : Nat}
    (equal : front ++ Outcome.linesText (countLines symbols meshes) =
      other ++ Outcome.linesText (countLines symbols' meshes')) :
    symbols = symbols' ∧ meshes = meshes' := by
  have chars := congrArg String.toList equal
  simp only [String.toList_append, toList_countLines, ← List.append_assoc] at chars
  rcases eq_of_append_toDigits (by decide) (List.append_cancel_right chars) with ⟨rest, meshes_eq⟩
  rcases eq_of_append_toDigits (by decide) (List.append_cancel_right rest) with ⟨_, symbols_eq⟩
  exact ⟨symbols_eq, meshes_eq⟩

theorem growthWarning_ne_counts (front other : String) (symbols meshes : Nat) :
    front ++ Outcome.linesText [growthWarning] ≠
      other ++ Outcome.linesText (countLines symbols meshes) := by
  intro equal
  have warning : (Outcome.linesText [growthWarning]).toList =
      growthWarning.toList.dropLast ++ ['k'] ++ ['\n'] := by
    decide +kernel
  have chars := congrArg String.toList equal
  simp only [String.toList_append, toList_countLines, warning, ← List.append_assoc] at chars
  exact ne_append_toDigits (by decide) (List.append_cancel_right chars)

/-! What a dry run has done. -/

section

variable {config : Config} {grammar : Grammar} {entropy : Int} {delivery : Delivery}

/-- The word and the meshes that a dry run comes to, with the lines that it prints. -/
inductive Counted (config : Config) (grammar : Grammar) (entropy : Int) : List String → Prop
  | intro {word : List Symbol} {generation : Generation} {meshes : List Mesh} :
      derive config grammar .none (some dryRunLimit) entropy = .ok word →
      generate config word = .ok (generation, meshes) →
      Counted config grammar entropy (countLines word.length meshes.length)

theorem exists_of_meshReport {word : List Symbol}
    (result : (meshReport config word).result = .ok delivery) :
    ∃ generation meshes, generate config word = .ok (generation, meshes) ∧
      (meshReport config word).lines = ["meshes: " ++ toString meshes.length] := by
  rw [meshReport] at result ⊢
  cases built : generate config word with
  | error error =>
      rw [built] at result
      cases result
  | ok pair => exact ⟨pair.1, pair.2, rfl, rfl⟩

theorem counted_of_dryRun (result : (dryRun config grammar entropy).result = .ok delivery) :
    (dryRun config grammar entropy).lines = [growthWarning] ∨
      Counted config grammar entropy (dryRun config grammar entropy).lines := by
  rw [dryRun] at result ⊢
  split at result
  · exact .inl rfl
  · cases result
  · next word derived =>
      rcases exists_of_meshReport result with ⟨generation, meshes, built, lines_eq⟩
      refine .inr ?_
      dsimp only
      rw [lines_eq]
      exact .intro derived built

theorem counted_of_validateConfig
    (result : (validateConfig config entropy).result = .ok delivery) :
    ∃ grammar, config.grammar = .ok grammar ∧
      ∃ lines, (validateConfig config entropy).lines = summary config grammar ++ lines ∧
        (lines = [growthWarning] ∨ Counted config grammar entropy lines) := by
  rw [validateConfig] at result ⊢
  split at result
  · cases result
  · next grammar parsed =>
      rw [parsed]
      exact ⟨grammar, rfl, _, rfl, counted_of_dryRun result⟩

/-- The lines with the counts tell which counts they are. -/
theorem exists_of_counts {front : String} {lines : List String} {symbols meshes : Nat}
    (counted : lines = [growthWarning] ∨ Counted config grammar entropy lines)
    (printed : ∃ other, front ++ Outcome.linesText lines =
      other ++ Outcome.linesText (countLines symbols meshes)) :
    ∃ word generation scene,
      derive config grammar .none (some dryRunLimit) entropy = .ok word ∧
      generate config word = .ok (generation, scene) ∧
      word.length = symbols ∧ scene.length = meshes := by
  rcases printed with ⟨other, equal⟩
  rcases counted with rfl | counted
  · exact absurd equal (growthWarning_ne_counts front other symbols meshes)
  · cases counted with
    | intro derived built =>
        rcases counts_unique equal with ⟨symbols_eq, meshes_eq⟩
        exact ⟨_, _, _, derived, built, symbols_eq, meshes_eq⟩

/-! What other runs do. -/

theorem derive_of_limited {overrides : Overrides} {limit : Option Int} {word : List Symbol}
    (derived : derive config grammar overrides limit entropy = .ok word) :
    derive config grammar overrides none entropy = .ok word := by
  rcases bind_eq_ok_iff.mp derived with ⟨seed, seed_eq, derived⟩
  rcases bind_eq_ok_iff.mp derived with ⟨iterations, iterations_eq, derived⟩
  refine bind_eq_ok_iff.mpr ⟨seed, seed_eq, ?_⟩
  refine bind_eq_ok_iff.mpr ⟨iterations, iterations_eq, ?_⟩
  have expanded := mapError_eq_ok_iff.mp derived
  dsimp only
  rw [expand_of_limited expanded]
  exact derived

/-- With a seed of its own a configuration derives one word, whatever entropy there is. -/
theorem derive_of_seed {seed : Int} (seeded : config.seed = some seed) (limit : Option Int)
    (entropy other : Int) :
    derive config grammar .none limit entropy = derive config grammar .none limit other := by
  have state_eq (entropy : Int) : config.randomState none entropy = .ofSeed seed := by
    rw [Config.randomState, seeded]
    rfl
  have given (role : Role) : intOf? role none = .ok none := rfl
  rw [derive, derive, Overrides.none, given, given]
  simp only [ok_bind, state_eq]

end

/-- What the other commands come to on a configuration that derives the word, from which the turtle
makes the meshes. -/
structure Foretells (path : String) (content : ByteArray) (config : Config) (word : List Symbol)
    (generation : Generation) (meshes : List Mesh) : Prop where
  /-- Rendering has the files of these meshes to write. Nothing else can fail than this. -/
  render : ∀ {terminal : Terminal} {tree : FileTree} {entropy : Int} {arguments : List String}
    {verbose : Bool} {output : String}, tree.read path = .ok content →
    Invocation.read terminal.customs arguments =
      .ok { verbose, command := .render path (.value output) .none } →
    ∃ delivery, Delivery.ofMeshes meshes output config.precision config.name = .ok delivery ∧
      (terminal.run FileTree.storage entropy arguments).run tree =
        match (delivery.store FileTree.storage).run tree with
        | (.error reason, after) => (.ofError [] (.file reason), after)
        | (.ok _, after) =>
            (.success [] (if verbose then delivery.notices ++ [cameraNotice generation] else []),
              after)
  /-- Expanding prints the text of the word, unless the terminal has no encoding for it. -/
  expand : ∀ {terminal : Terminal} {tree : FileTree} {entropy : Int} {arguments : List String}
    {verbose : Bool}, tree.read path = .ok content →
    Invocation.read terminal.customs arguments = .ok { verbose, command := .expand path .none } →
    (terminal.run FileTree.storage entropy arguments).run tree =
      match terminal.refuses? (symbolsText word) with
      | none => (.success [symbolsText word] [], tree)
      | some error => (.ofError [] (.file (.unencodable error)), tree)
  /-- The text is cut into as many symbols again, with their names and the texts of their
  parameters. -/
  text : RawSymbol.scan (symbolsText word).toList = .ok (word.map Symbol.raw)

theorem run_of_given {terminal : Terminal} {tree : FileTree} {entropy : Int}
    {arguments : List String} {verbose : Bool} {command : Command} {path : String}
    {content : ByteArray}
    (given : Invocation.read terminal.customs arguments = .ok { verbose, command })
    (input : command.input? = some path) (opened : tree.read path = .ok content) :
    (terminal.run FileTree.storage entropy arguments).run tree =
      ((command.report content.data.toList entropy).conclude terminal verbose
        FileTree.storage).run tree := by
  rw [Terminal.run, given]
  exact run_of_read { verbose, command } input opened terminal entropy

/-- The text of a word that is derived can be cut into its symbols. -/
theorem scan_of_derive {config : Config} {grammar : Grammar} {overrides : Overrides}
    {limit : Option Int} {entropy : Int} {word : List Symbol}
    (parsed : config.grammar = .ok grammar)
    (derived : derive config grammar overrides limit entropy = .ok word) :
    RawSymbol.scan (symbolsText word).toList = .ok (word.map Symbol.raw) := by
  rcases bind_eq_ok_iff.mp derived with ⟨seed, _, derived⟩
  rcases bind_eq_ok_iff.mp derived with ⟨iterations, _, derived⟩
  exact scan_symbolsText ((Grammar.named_of_parse parsed).expand (mapError_eq_ok_iff.mp derived))

theorem foretells {path : String} {content : ByteArray} {config : Config} {grammar : Grammar}
    {word : List Symbol} {generation : Generation} {meshes : List Mesh}
    (read : readConfig path content.data.toList = .ok config)
    (parsed : config.grammar = .ok grammar)
    (derived : ∀ entropy, derive config grammar .none none entropy = .ok word)
    (built : generate config word = .ok (generation, meshes)) :
    Foretells path content config word generation meshes where
  render := by
    intro terminal tree entropy arguments verbose output opened given
    rcases readConfig_eq_ok_iff.mp read with ⟨value, _, accepted⟩
    obtain ⟨delivery, writable⟩ : ∃ delivery,
        Delivery.ofMeshes meshes output config.precision config.name = .ok delivery :=
      ⟨_, if_pos (Config.isPrecision_of_ofJson accepted)⟩
    refine ⟨delivery, writable, ?_⟩
    have rendered := renderConfig_eq_ok_iff.mpr
      ⟨grammar, parsed, word, derived entropy, _, built, output, rfl, delivery, writable, rfl⟩
    have report_eq : (Command.render path (.value output) .none).report content.data.toList
        entropy = .ofResult (.ok
          { delivery with notices := delivery.notices ++ [cameraNotice generation] }) := by
      rw [Command.report, read, ok_bind, rendered]
    rw [run_of_given given rfl opened, report_eq, run_conclude]
    dsimp only [Report.ofResult, Terminal.shown, Delivery.store]
    rcases (Delivery.storeFiles FileTree.storage delivery.files).run tree with ⟨ended, after⟩
    cases ended <;> rfl
  expand := by
    intro terminal tree entropy arguments verbose opened given
    have expanded : expandConfig config .none entropy = .ok word :=
      bind_eq_ok_iff.mpr ⟨grammar, mapError_eq_ok_iff.mpr parsed, derived entropy⟩
    have report_eq : (Command.expand path .none).report content.data.toList entropy =
        { lines := [symbolsText word], result := .ok .nothing } := by
      rw [Command.report, read, ok_bind, expanded]
    rw [run_of_given given rfl opened, report_eq, run_conclude]
    dsimp only [Terminal.shown]
    cases terminal.refuses? (symbolsText word) with
    | some error => rfl
    | none => cases verbose <;> rfl
  text := scan_of_derive parsed (derived 0)

/-- When a dry run has the exit code 0 and tells how many symbols and meshes there are, and the
configuration has a seed, then every later run of the configuration derives the very word of the dry
run, which has so many symbols, and the turtle makes the very meshes of it, which are so many. -/
theorem dryRun_foretells (terminal : Terminal) {tree : FileTree} {path : String}
    {content : ByteArray} {config : Config} {seed entropy : Int} {arguments : List String}
    {verbose : Bool} {symbols meshes : Nat}
    (opened : tree.read path = .ok content)
    (read : readConfig path content.data.toList = .ok config) (seeded : config.seed = some seed)
    (given : Invocation.read terminal.customs arguments =
      .ok { verbose, command := .validate path })
    (done : ((terminal.run FileTree.storage entropy arguments).run tree).1.status = .ok 0)
    (counts : ((terminal.run FileTree.storage entropy arguments).run tree).1.Counts symbols
      meshes) :
    ∃ grammar word generation scene,
      config.grammar = .ok grammar ∧
      derive config grammar .none (some dryRunLimit) entropy = .ok word ∧
      (∀ other, derive config grammar .none none other = .ok word) ∧
      generate config word = .ok (generation, scene) ∧
      word.length = symbols ∧ scene.length = meshes ∧
      Foretells path content config word generation scene := by
  have report_eq : (Command.validate path).report content.data.toList entropy =
      validateConfig config entropy := by
    rw [Command.report, read]
  rw [Outcome.Counts, run_of_given given rfl opened, output_conclude, report_eq] at counts
  rw [run_of_given given rfl opened, report_eq, run_conclude] at done
  have shown : terminal.shown (validateConfig config entropy).lines =
      ((validateConfig config entropy).lines, none) := by
    rcases terminal.shows_or_refuses (validateConfig config entropy).lines with
      shows | ⟨error, before, line, after, lines_eq, shows, refused⟩
    · exact Terminal.shown_of_shows shows
    · rw [lines_eq, Terminal.shown_append shows refused] at done
      exact absurd done (Outcome.status_ofError_ne_ok_zero _ _)
  rw [shown] at counts done
  cases result : (validateConfig config entropy).result with
  | error error =>
      rw [result] at done
      exact absurd done (Outcome.status_ofError_ne_ok_zero _ _)
  | ok delivery =>
      rcases counted_of_validateConfig result with ⟨grammar, parsed, lines, lines_eq, counted⟩
      rw [lines_eq, linesText_append] at counts
      rcases exists_of_counts counted counts with
        ⟨word, generation, scene, derived, built, symbols_eq, meshes_eq⟩
      have unlimited (other : Int) : derive config grammar .none none other = .ok word :=
        (derive_of_seed seeded none other entropy).trans (derive_of_limited derived)
      exact ⟨grammar, word, generation, scene, parsed, derived, unlimited, built, symbols_eq,
        meshes_eq, foretells read parsed unlimited built⟩

/-- A file tree with a configuration that lets a plant grow twice. -/
def growingTree : FileTree :=
  (FileTree.empty ["w"]).put ["w", "c.json"] (.file
    ("\x7b\"axiom\": \"A\", \"rules\": \"A -> cube A\", \"iterations\": 2, " ++
      "\"seed\": 7\x7d").toUTF8)

theorem dryRun_foretells_of_growing :
    ∃ content config grammar word generation scene,
      growingTree.read "c.json" = .ok content ∧
      readConfig "c.json" content.data.toList = .ok config ∧
      config.seed = some 7 ∧
      Invocation.read .early ["validate", "c.json"] =
        .ok { verbose := false, command := .validate "c.json" } ∧
      ((run FileTree.storage 0 ["validate", "c.json"]).run growingTree).1.status = .ok 0 ∧
      ((run FileTree.storage 0 ["validate", "c.json"]).run growingTree).1.Counts 3 2 ∧
      config.grammar = .ok grammar ∧
      (∀ other, derive config grammar .none none other = .ok word) ∧
      word.length = 3 ∧ scene.length = 2 ∧
      Foretells "c.json" content config word generation scene := by
  obtain ⟨content, opened⟩ : ∃ content, growingTree.read "c.json" = .ok content :=
    exists_ok_of_isOk (by decide +kernel)
  obtain ⟨config, read, seeded⟩ : ∃ config,
      readConfig "c.json" content.data.toList = .ok config ∧ config.seed = some 7 := by
    have checked : (growingTree.read "c.json").toOption.bind (fun content =>
        (readConfig "c.json" content.data.toList).toOption.bind Config.seed) = some 7 := by
      decide +kernel
    rw [opened] at checked
    cases read : readConfig "c.json" content.data.toList with
    | error error =>
        simp only [Except.toOption, Option.bind_some] at checked
        rw [read] at checked
        cases checked
    | ok config =>
        simp only [Except.toOption, Option.bind_some] at checked
        rw [read] at checked
        exact ⟨config, rfl, checked⟩
  have given : Invocation.read .early ["validate", "c.json"] =
      .ok { verbose := false, command := .validate "c.json" } := by
    decide +kernel
  have done : ((run FileTree.storage 0 ["validate", "c.json"]).run growingTree).1.status =
      .ok 0 := by
    decide +kernel
  have counts : ((run FileTree.storage 0 ["validate", "c.json"]).run growingTree).1.Counts 3 2 :=
    ⟨"name: L-System\naxiom symbols: 1\niterations: 2\nproductions: 1\n" ++
      "seed: 7\n", by decide +kernel⟩
  rcases dryRun_foretells .recorded opened read seeded given done counts with
    ⟨grammar, word, generation, scene, parsed, _, derived, _, symbols, meshes, foretold⟩
  exact ⟨content, config, grammar, word, generation, scene, opened, read, seeded, given, done,
    counts, parsed, derived, symbols, meshes, foretold⟩

end CommandLine

end GrowthGrammar
