import CommandFactory.FileTree.Path

/-!
# Arguments of the command line

What a user asks for (`Request`), read from the arguments of the program. A command has flags,
options with a value, and a fixed number of operands in order. Options and operands may be mixed;
after `--` there are operands only. The value of an option stands in the same argument, with or
without `=`, or in the next one, unless that looks like an option itself.
-/

set_option autoImplicit false

namespace CommandFactory

/-! ## Requests -/

/-- What a user asks for. -/
inductive Request where
  /-- The version of the program. -/
  | version
  /-- The modules of a manifest, written below a directory or only shown. -/
  | generate (manifest output : FilePath) (settings : Option FilePath) (dryRun rustfmt : Bool)
  /-- The declarations of a manifest. -/
  | inspect (manifest : FilePath) (json : Bool) (settings : Option FilePath)
  /-- The specification of a command, made by its factory. -/
  | replay (manifest : FilePath) (element : String) (settings : Option FilePath)
  deriving DecidableEq, Repr, Inhabited

/-- Why arguments are refused. -/
inductive UsageError where
  | noCommand
  | unknownCommand (name : String)
  | unknownOption (text : String)
  | missingValue (option : String)
  | emptyValue (name : String)
  | unexpectedValue (option : String)
  | repeatedOption (option : String)
  | missingOperand (name : String)
  | unexpectedOperand (text : String)
  deriving DecidableEq, Repr, Inhabited

/-- The message for refused arguments. -/
def UsageError.message : UsageError → String
  | .noCommand => "a command is needed: generate, inspect or replay"
  | .unknownCommand name => "unknown command " ++ name
  | .unknownOption text => "unknown option " ++ text
  | .missingValue option => "a value is needed for --" ++ option
  | .emptyValue name => "the value of " ++ name ++ " is empty"
  | .unexpectedValue option => "no value is allowed for --" ++ option
  | .repeatedOption option => "--" ++ option ++ " is given more than once"
  | .missingOperand name => "missing " ++ name
  | .unexpectedOperand text => "unexpected " ++ text

/-! ## Reading arguments -/

/-- An option of a command. -/
structure OptionRule where
  name : String
  letter : Option Char
  takesValue : Bool
  deriving DecidableEq, Repr, Inhabited

/-- What the arguments of a command hold so far. -/
structure Arguments where
  flags : List String
  values : List (String × String)
  operands : List String
  deriving DecidableEq, Repr, Inhabited

namespace Arguments

/-- The value of an option. -/
def value? (arguments : Arguments) (name : String) : Option String :=
  (arguments.values.find? fun value => value.1 = name).map Prod.snd

/-- Whether a flag is given. -/
def has (arguments : Arguments) (name : String) : Bool := arguments.flags.contains name

/-- Adds a flag, unless it is there. -/
def addFlag (arguments : Arguments) (name : String) : Except UsageError Arguments :=
  if arguments.has name then .error (.repeatedOption name)
  else .ok { arguments with flags := arguments.flags ++ [name] }

/-- Adds the value of an option, unless it has one. -/
def addValue (arguments : Arguments) (name value : String) : Except UsageError Arguments :=
  if (arguments.value? name).isSome then .error (.repeatedOption name)
  else if value.isEmpty then .error (.emptyValue name)
  else .ok { arguments with values := arguments.values ++ [(name, value)] }

/-- Whether an argument looks like an option. -/
def looksLikeOption (text : String) : Bool := text.startsWith "-" && text != "-"

/-- The name and the value of an argument after its two dashes. -/
def splitLong (text : List Char) : String × Option String :=
  match text.dropWhile (· != '=') with
  | [] => (String.ofList text, none)
  | _ :: value => (String.ofList (text.takeWhile (· != '=')), some (String.ofList value))

/-- Reads letters after a dash. An option that still needs its value is given back. -/
def readLetters (rules : List OptionRule) (arguments : Arguments) :
    List Char → Except UsageError (Arguments × Option String)
  | [] => .ok (arguments, none)
  | c :: rest =>
      match rules.find? fun rule => rule.letter = some c with
      | none => .error (.unknownOption (String.ofList ['-', c]))
      | some rule =>
          if rule.takesValue then
            match rest with
            | [] => .ok (arguments, some rule.name)
            | '=' :: value =>
                (arguments.addValue rule.name (String.ofList value)).map fun a => (a, none)
            | value => (arguments.addValue rule.name (String.ofList value)).map fun a => (a, none)
          else
            match arguments.addFlag rule.name with
            | .ok arguments => readLetters rules arguments rest
            | .error e => .error e

/-- Reads one argument that looks like an option. An option that still needs its value is given
back. -/
def readOption (rules : List OptionRule) (arguments : Arguments) (text : List Char) :
    Except UsageError (Arguments × Option String) :=
  match text with
  | '-' :: '-' :: long =>
      let (name, value) := splitLong long
      match rules.find? fun rule => rule.name = name with
      | none => .error (.unknownOption (String.ofList text))
      | some rule =>
          match rule.takesValue, value with
          | true, some value => (arguments.addValue name value).map fun a => (a, none)
          | true, none => .ok (arguments, some name)
          | false, some _ => .error (.unexpectedValue name)
          | false, none => (arguments.addFlag name).map fun a => (a, none)
  | _ => readLetters rules arguments text.tail

/-- Reads arguments after others. -/
def readFrom (rules : List OptionRule) :
    Arguments → List String → Except UsageError Arguments
  | arguments, [] => .ok arguments
  | arguments, text :: rest =>
      if text = "--" then .ok { arguments with operands := arguments.operands ++ rest }
      else if looksLikeOption text then
        match readOption rules arguments text.toList with
        | .error e => .error e
        | .ok (arguments, none) => readFrom rules arguments rest
        | .ok (arguments, some name) =>
            match rest with
            | [] => .error (.missingValue name)
            | value :: rest =>
                if looksLikeOption value then .error (.missingValue name)
                else
                  match arguments.addValue name value with
                  | .error e => .error e
                  | .ok arguments => readFrom rules arguments rest
      else readFrom rules { arguments with operands := arguments.operands ++ [text] } rest

/-- Reads arguments. -/
def read (rules : List OptionRule) (texts : List String) : Except UsageError Arguments :=
  readFrom rules ⟨[], [], []⟩ texts

/-- An operand that is a path. -/
def pathOperand (name text : String) : Except UsageError FilePath :=
  if text.isEmpty then .error (.emptyValue name) else .ok ⟨text⟩

/-- The path of an option. -/
def path? (arguments : Arguments) (name : String) : Option FilePath :=
  (arguments.value? name).map FilePath.mk

end Arguments

/-! ## Commands -/

namespace Request

/-- The option that names a file with settings. -/
def settingsRule : OptionRule := ⟨"config", some 'c', true⟩

/-- The options of the command that generates. -/
def generateRules : List OptionRule :=
  [⟨"output", some 'o', true⟩, settingsRule, ⟨"dry-run", some 'd', false⟩,
    ⟨"rustfmt", none, false⟩]

/-- The directory for modules when none is named. -/
def defaultOutput : FilePath := ⟨"generated"⟩

/-- The operands of a command that has only a manifest. -/
def manifestOnly : List String → Except UsageError FilePath
  | [] => .error (.missingOperand "manifest")
  | [manifest] => Arguments.pathOperand "manifest" manifest
  | _ :: extra :: _ => .error (.unexpectedOperand extra)

/-- Reads the arguments of the command that generates. -/
def readGenerate (texts : List String) : Except UsageError Request := do
  let arguments ← Arguments.read generateRules texts
  let manifest ← manifestOnly arguments.operands
  return .generate manifest ((arguments.path? "output").getD defaultOutput)
    (arguments.path? "config") (arguments.has "dry-run") (arguments.has "rustfmt")

/-- Reads the arguments of the command that inspects. -/
def readInspect (texts : List String) : Except UsageError Request := do
  let arguments ← Arguments.read [⟨"json", none, false⟩, settingsRule] texts
  let manifest ← manifestOnly arguments.operands
  return .inspect manifest (arguments.has "json") (arguments.path? "config")

/-- Reads the arguments of the command that replays. -/
def readReplay (texts : List String) : Except UsageError Request := do
  let arguments ← Arguments.read [settingsRule] texts
  match arguments.operands with
  | [] => .error (.missingOperand "manifest")
  | [_] => .error (.missingOperand "element")
  | [manifest, element] => do
      let manifest ← Arguments.pathOperand "manifest" manifest
      return .replay manifest element (arguments.path? "config")
  | _ :: _ :: extra :: _ => .error (.unexpectedOperand extra)

/-- Reads the arguments of the program. -/
def ofArguments : List String → Except UsageError Request
  | [] => .error .noCommand
  | first :: rest =>
      if first = "--version" || first.startsWith "-V" then .ok .version
      else if first = "generate" || first = "g" then readGenerate rest
      else if first = "inspect" || first = "i" then readInspect rest
      else if first = "replay" || first = "r" then readReplay rest
      else if Arguments.looksLikeOption first then .error (.unknownOption first)
      else .error (.unknownCommand first)

end Request

end CommandFactory
