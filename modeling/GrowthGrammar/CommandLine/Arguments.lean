import GrowthGrammar.CommandLine.Word
import GrowthGrammar.Number.Integer

/-!
# Arguments

Reading a command line as a command with its paths and overrides. Words are taken from left to
right, and the first one that is wrong decides, but every option is recognized before any is taken.
-/

namespace GrowthGrammar

namespace CommandLine

/-- An argument as it is given. A separator in the place of the value is dropped, which leaves the
argument void. -/
inductive Argument (α : Type)
  | value (value : α)
  | void
  deriving DecidableEq, Repr

/-- The arguments that may be void, by what they are for. -/
inductive Role
  | seed
  | iterations
  | path
  deriving DecidableEq, Repr

def Role.message : Role → String
  | seed => "The only supported seed types are: None,\nint, float, str, bytes, and bytearray."
  | iterations => "'<' not supported between instances of 'list' and 'int'"
  | path => "expected str, bytes or os.PathLike object, not list"

namespace Argument

def get (role : Role) : Argument α → Except Role α
  | value given => .ok given
  | void => .error role

def getD (standard : α) : Argument α → α
  | value given => given
  | void => standard

end Argument

/-- Values from the command line that go before those of a configuration. -/
structure Overrides where
  seed : Option (Argument Int)
  iterations : Option (Argument Int)
  deriving DecidableEq, Repr

def Overrides.none : Overrides :=
  { seed := .none, iterations := .none }

inductive Command
  | render (config : String) (output : Argument String) (overrides : Overrides)
  | expand (config : String) (overrides : Overrides)
  | validate (config : String)
  | random (output : String) (seed : Option (Argument Int))
  deriving DecidableEq, Repr

structure Invocation where
  verbose : Bool
  command : Command
  deriving DecidableEq, Repr

/-- What the words of a scope have given so far. -/
structure Given where
  verbose : Bool
  overrides : Overrides
  operands : List (Argument String)
  unrecognized : List String
  deriving DecidableEq, Repr

namespace Given

def nothing : Given :=
  { verbose := false, overrides := .none, operands := [], unrecognized := [] }

def addOperand (given : Given) (operand : Argument String) : Given :=
  { given with operands := given.operands ++ [operand] }

def addUnrecognized (given : Given) (texts : List String) : Given :=
  { given with unrecognized := given.unrecognized ++ texts }

def setVerbose (given : Given) : Given :=
  { given with verbose := true }

def setValue (given : Given) (switch : Switch) (value : Argument Int) : Given :=
  match switch with
  | .seed => { given with overrides := { given.overrides with seed := some value } }
  | .iterations => { given with overrides := { given.overrides with iterations := some value } }
  | .help | .verbose => given

end Given

/-! Options. -/

/-- Flags with short names may share one dash: the characters behind a flag stand for more flags.
With them comes the word that is left over, if any is. -/
def sharedFlags (customs : Customs) (scope : Scope) (flag : Switch) :
    List Char → Except Refusal (List Switch × Option String)
  | [] => .ok ([flag], none)
  | c :: rest =>
      match (Word.known scope).lookup (.ofList ['-', c]), customs with
      | some next, _ =>
          (sharedFlags customs scope next rest).map fun (flags, left?) => (flag :: flags, left?)
      | none, .early => .error (.ignoredValue flag (.ofList (c :: rest)))
      | none, .late =>
          if c = '=' then .error (.ignoredValue flag (.ofList rest))
          else if c = '-' then .error (.ignoredValue flag (.ofList (c :: rest)))
          else .ok ([flag], some (.ofList ('-' :: c :: rest)))

/-- The flags of a word that starts with a flag, by short or long name. -/
def flagsOf (customs : Customs) (scope : Scope) (flag : Switch) (name : String) (tail : Tail) :
    Except Refusal (List Switch × Option String) :=
  match tail with
  | .nothing => .ok ([flag], none)
  | .behindFlag text => sharedFlags customs scope flag text
  | .behindEquals text =>
      if customs = .early && name.length = 2 && !text.isEmpty then
        sharedFlags customs scope flag text
      else .error (.ignoredValue flag (.ofList text))

/-- The flag for help ends the reading. -/
def takeFlags (scope : Scope) (given : Given) : List Switch → Except Stop Given
  | [] => .ok given
  | flag :: flags =>
      if flag = .help then .error (.help scope) else takeFlags scope given.setVerbose flags

def takeFlagWord (customs : Customs) (scope : Scope) (given : Given) (flag : Switch)
    (name : String) (tail : Tail) : Except Stop Given := do
  let (flags, left?) ← (flagsOf customs scope flag name tail).mapError (.refused scope)
  takeFlags scope (given.addUnrecognized left?.toList) flags

def takeValue (customs : Customs) (scope : Scope) (given : Given) (switch : Switch)
    (text : String) : Except Stop Given :=
  if customs = .early && text = "--" then .ok (given.setValue switch .void)
  else
    match Number.readInteger? text.toList with
    | some value => .ok (given.setValue switch (.value value))
    | none => .error (.refused scope (.invalidInteger switch text))

/-! The words of a command. -/

/-- What stands directly in front of a word: an operand, a separator that goes with the operand
behind it, or anything else. -/
inductive Before
  | operand
  | separator
  | other
  deriving DecidableEq, Repr

/-- A separator goes with an operand: with one right in front of it, or with one behind it that is
still wanted. -/
def Before.ofSeparator? (scope : Scope) (given : Given) (before : Before) (rest : List Word) :
    Option Before :=
  if before = .operand then some .other
  else if given.operands.length < scope.operands.length && !rest.isEmpty then some .separator
  else none

/-- Of the separators that go with an operand, or stand in its place, the first is dropped. -/
def operandOf (before : Before) (text : String) : Argument String :=
  if text = "--" && before ≠ .separator then .void else .value text

def takeWords (customs : Customs) (scope : Scope) (given : Given) (before : Before) :
    List Word → Except Stop Given
  | [] => .ok given
  | .plain text :: rest =>
      if given.operands.length < scope.operands.length then
        takeWords customs scope (given.addOperand (operandOf before text)) .operand rest
      else takeWords customs scope (given.addUnrecognized [text]) .other rest
  | .separator :: rest =>
      match before.ofSeparator? scope given rest with
      | some before => takeWords customs scope given before rest
      | none => takeWords customs scope (given.addUnrecognized ["--"]) .other rest
  | .unknown text :: rest => takeWords customs scope (given.addUnrecognized [text]) .other rest
  | .option switch name tail :: rest =>
      if switch.isFlag then do
        takeWords customs scope (← takeFlagWord customs scope given switch name tail) .other rest
      else
        match tail.text?, rest with
        | some value, rest => do
            takeWords customs scope (← takeValue customs scope given switch (.ofList value)) .other
              rest
        | none, .plain text :: rest => do
            takeWords customs scope (← takeValue customs scope given switch text) .other rest
        | none, _ => .error (.refused scope (.missingValue switch))

/-- The command of a name with what was given for it, unless a path is missing. A first operand is
never void, since it goes with the separator in front of it. -/
def Command.ofGiven (name : CommandName) (given : Given) : Except Stop Command :=
  match name, given.operands with
  | .render, [config, output] => .ok (.render (config.getD "--") output given.overrides)
  | .expand, [config] => .ok (.expand (config.getD "--") given.overrides)
  | .validate, [config] => .ok (.validate (config.getD "--"))
  | .random, [output] => .ok (.random (output.getD "--") given.overrides.seed)
  | name, operands =>
      .error (.refused (.command name) (.missingOperands (name.operands.drop operands.length)))

def readCommand (customs : Customs) (name : CommandName) (texts : List String) :
    Except Stop (Command × List String) := do
  let scope := Scope.command name
  let words ← (Word.readAll scope texts).mapError (.refused scope)
  let given ← takeWords customs scope .nothing .other words
  return (← Command.ofGiven name given, given.unrecognized)

/-! The words of the program: options up to the first plain word, which names the command that all
others belong to. -/

def takeProgram (customs : Customs) (given : Given) :
    List Word → List String → Except Stop Invocation
  | .option switch name tail :: words, _ :: texts => do
      takeProgram customs (← takeFlagWord customs .program given switch name tail) words texts
  | .unknown text :: words, _ :: texts =>
      takeProgram customs (given.addUnrecognized [text]) words texts
  | .plain text :: _, _ :: texts =>
      match CommandName.ofText? text with
      | none => .error (.refused .program (.unknownCommand text))
      | some name => do
          let (command, others) ← readCommand customs name texts
          match given.unrecognized ++ others with
          | [] => return { verbose := given.verbose, command }
          | words => throw (.refused .program (.unrecognized words))
  | .separator :: _ :: _, _ => .error (.refused .program (.unknownCommand "--"))
  | _, _ => .error (.refused .program (.missingOperands Scope.program.operands))

def Invocation.read (customs : Customs) (texts : List String) : Except Stop Invocation := do
  let words ← (Word.readAll .program texts).mapError (.refused .program)
  takeProgram customs .nothing words texts

end CommandLine

end GrowthGrammar
