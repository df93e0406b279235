import GrowthGrammar.CommandLine.Option
import GrowthGrammar.Preset

/-!
# Usage

The texts that explain the command line: the usage of the program and of each command, and the help
that goes with it.
-/

namespace GrowthGrammar

namespace CommandLine

def braces (content : String) : String :=
  "\x7b" ++ content ++ "\x7d"

/-- A switch as it is typed: its name, and the name of its value in capitals. -/
def Switch.forms (switch : Switch) : List String :=
  match switch with
  | .help | .verbose => switch.names
  | .seed => ["--seed SEED"]
  | .iterations => ["--iterations ITERATIONS"]

def Switch.about (scope : Scope) : Switch → String
  | .help => "show this help message and exit"
  | .verbose => "Log progress to stderr."
  | .iterations => "Override config iterations."
  | .seed => if scope = .command .random then "Seed for repeatable randomness."
      else "Override config seed."

def CommandName.about : CommandName → String
  | .render => "Generate a config and write an OBJ file."
  | .expand => "Print the derived symbol sequence."
  | .validate => "Validate a JSON config and print a brief summary."
  | .random => "Generate a random JSON config for experimentation."

def operandAbout (name : CommandName) (operand : String) : String :=
  if operand = "config" then "Path to the input JSON config."
  else if name = .render then "Path to write the OBJ output (.mtl alongside)."
  else "Where to write the generated JSON file."

namespace Usage

def blanks (count : Nat) : String :=
  .ofList (List.replicate count ' ')

def commandChoice : String :=
  braces (",".intercalate (CommandName.all.map CommandName.text))

def operands : Scope → List String
  | .program => [commandChoice, "..."]
  | .command name => name.operands

def width : Nat := 78

/-- Usage that is too long for one line has its operands on a second one, below the options. -/
def text (scope : Scope) : String :=
  let start := "usage: " ++ scope.title ++ " "
  let switches := " ".intercalate (scope.switches.map fun switch =>
    "[" ++ switch.forms.headD "" ++ "]")
  let operands := " ".intercalate (operands scope)
  let line := start ++ switches ++ " " ++ operands
  if line.length ≤ width then line ++ "\n"
  else
    start ++ switches ++ "\n" ++ blanks start.length ++ operands ++ "\n"

/-! Help. -/

/-- A term, indented, and what it means, unless the entries below it tell that. -/
structure Entry where
  indent : Nat
  term : String
  about? : Option String

def Entry.start (entry : Entry) : String :=
  blanks entry.indent ++ entry.term

/-- Explanations stand in a column of their own, or below terms that are too long for it. -/
def Entry.text (column : Nat) (entry : Entry) : String :=
  match entry.about? with
  | none => entry.start ++ "\n"
  | some about =>
      let length := entry.start.length
      if length + 2 ≤ column then entry.start ++ blanks (column - length) ++ about ++ "\n"
      else entry.start ++ "\n" ++ blanks column ++ about ++ "\n"

def operandEntries : Scope → List Entry
  | .program =>
      { indent := 2, term := commandChoice, about? := none } ::
        CommandName.all.map fun name => { indent := 4, term := name.text, about? := name.about }
  | .command name =>
      name.operands.map fun operand =>
        { indent := 2, term := operand, about? := operandAbout name operand }

def switchEntries (scope : Scope) : List Entry :=
  scope.switches.map fun switch =>
    { indent := 2, term := ", ".intercalate switch.forms, about? := switch.about scope }

def widestColumn : Nat := 24

/-- The column of the explanations leaves room for the longest term, within limits. -/
def column (scope : Scope) : Nat :=
  let lengths := (operandEntries scope ++ switchEntries scope).map fun entry => entry.start.length
  min widestColumn (lengths.foldl max 0 + 2)

def description : Scope → String
  | .program => "\nParametric stochastic L-system to 3D mesh generator.\n"
  | .command _ => ""

/-- What a configuration may hold, and what the turtle understands. -/
def manual : List String :=
  ["",
    "INPUT JSON SYNTAX",
    "",
    "  name: string (optional)",
    "      Written as a comment at the top of the OBJ file.",
    "",
    "  preset: string (optional)",
    "      Start from a named grammar (axiom, rules, iterations). Known: " ++ Preset.known,
    "",
    "  axiom: string",
    "      Initial symbols, e.g. \"m" ++ braces "0x594d30, 0.9, 0" ++ " A" ++ braces "0.2" ++ "\".",
    "      Parameters must be constants (numbers, hex colors, true/false).",
    "",
    "  rules: string or list of strings",
    "      One production per line: \"A" ++ braces "r" ++ " -> f" ++ braces "r" ++ " A" ++
      braces "r/2" ++ "\".",
    "      Several lines with the same left-hand side are picked at random.",
    "      Parameter expressions support + - * / ( ), hex literals and random().",
    "",
    "  iterations: integer >= 0 (default 0)",
    "      Number of rewriting passes.",
    "",
    "  seed: integer (optional)",
    "      Seed for the random source. Without one, output differs per run.",
    "",
    "  defaults: object (optional)",
    "      Turtle defaults: length (0.2), angle (25), radius (0.05), size (0.3).",
    "",
    "  export.precision: integer 0..10 (default 5)",
    "      Decimal places for OBJ coordinates.",
    "",
    "TURTLE COMMANDS",
    "",
    "  +x -x +y -y +z -z " ++ braces "angle" ++ "   rotate about local axis (degrees)",
    "  f" ++ braces "length" ++ "                   move forward",
    "  s / e                       start / end a smoothed tube",
    "  l" ++ braces "length, r0, r1" ++ "           tapered segment",
    "  [ / ]                       push / pop turtle state",
    "  sphere box cube cone        primitives",
    "  r" ++ braces "radius" ++ " t" ++ braces "tension" ++
      "        line radius / spline tension",
    "  m" ++ braces "color, roughness, metalness, ..." ++ "  material",
    "",
    "Unknown symbols are ignored.",
    ""]

def remarks : Scope → String
  | .program => "\n".intercalate manual
  | .command _ => ""

def help (scope : Scope) : String :=
  let entries (entries : List Entry) : String := .join (entries.map (Entry.text (column scope)))
  text scope ++ description scope ++ "\npositional arguments:\n" ++
    entries (operandEntries scope) ++ "\noptions:\n" ++ entries (switchEntries scope) ++
    remarks scope

/-- What is told of a command line that is refused. -/
def complaint (scope : Scope) (refusal : Refusal) : String :=
  text scope ++ scope.title ++ ": error: " ++ refusal.message ++ "\n"

end Usage

end CommandLine

end GrowthGrammar
