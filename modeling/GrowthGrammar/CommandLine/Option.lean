import GrowthGrammar.Text.Quoted

/-!
# Options and commands

The vocabulary of the command line: the commands, the options that each of them has, and what can
be wrong with the words that a user gives.
-/

namespace GrowthGrammar

namespace CommandLine

inductive Switch
  | help
  | verbose
  | seed
  | iterations
  deriving DecidableEq, Repr

namespace Switch

/-- A switch may have a short name; it stands in front of the long one. -/
def names : Switch → List String
  | help => ["-h", "--help"]
  | verbose => ["-v", "--verbose"]
  | seed => ["--seed"]
  | iterations => ["--iterations"]

/-- A switch either is a flag or takes an integer. -/
def isFlag : Switch → Bool
  | help | verbose => true
  | seed | iterations => false

def label (switch : Switch) : String :=
  "argument " ++ "/".intercalate switch.names

end Switch

inductive CommandName
  | render
  | expand
  | validate
  | random
  deriving DecidableEq, Repr

namespace CommandName

def all : List CommandName :=
  [render, expand, validate, random]

def text : CommandName → String
  | render => "render"
  | expand => "expand"
  | validate => "validate"
  | random => "random"

def ofText? (text : String) : Option CommandName :=
  all.find? fun name => name.text = text

/-- The paths that a command is given, in order. -/
def operands : CommandName → List String
  | render => ["config", "output"]
  | expand | validate => ["config"]
  | random => ["output"]

def switches : CommandName → List Switch
  | render | expand => [.help, .seed, .iterations]
  | validate => [.help]
  | random => [.help, .seed]

end CommandName

/-- The part of a command line that words belong to: that of the program, up to the name of a
command, and that of the command. -/
inductive Scope
  | program
  | command (name : CommandName)
  deriving DecidableEq, Repr

namespace Scope

def title : Scope → String
  | program => "lsystem3d"
  | command name => "lsystem3d " ++ name.text

def switches : Scope → List Switch
  | program => [.help, .verbose]
  | command name => name.switches

def operands : Scope → List String
  | program => ["cmd"]
  | command name => name.operands

end Scope

/-- Command lines are read by customs that have changed. A separator that is the value of an option
was dropped by the early ones, and is no integer by the late ones. Characters behind a flag that are
no flags were refused together with it, and now are a word of their own that is not recognized. -/
inductive Customs
  | early
  | late
  deriving DecidableEq, Repr

/-- Why a command line is refused. -/
inductive Refusal
  | ambiguous (word : String) (names : List String)
  | ignoredValue (switch : Switch) (value : String)
  | missingValue (switch : Switch)
  | invalidInteger (switch : Switch) (value : String)
  | unknownCommand (name : String)
  | missingOperands (names : List String)
  | unrecognized (words : List String)
  deriving DecidableEq, Repr

def Refusal.message : Refusal → String
  | ambiguous word names =>
      "ambiguous option: " ++ word ++ " could match " ++ ", ".intercalate names
  | ignoredValue switch value =>
      switch.label ++ ": ignored explicit argument " ++ Text.quote value
  | missingValue switch => switch.label ++ ": expected one argument"
  | invalidInteger switch value => switch.label ++ ": invalid int value: " ++ Text.quote value
  | unknownCommand name =>
      "argument cmd: invalid choice: " ++ Text.quote name ++ " (choose from " ++
        ", ".intercalate (CommandName.all.map fun name => Text.quote name.text) ++ ")"
  | missingOperands names => "the following arguments are required: " ++ ", ".intercalate names
  | unrecognized words => "unrecognized arguments: " ++ " ".intercalate words

/-- A command line that leads to no run: its help is shown, or it is refused. -/
inductive Stop
  | help (scope : Scope)
  | refused (scope : Scope) (refusal : Refusal)
  deriving DecidableEq, Repr

end CommandLine

end GrowthGrammar
