import CommandFactory.Json.Decoder
import CommandFactory.Symbol.Basic

/-!
# Failures

Everything that can go wrong, as causes. `Failure.message` is the only place where a cause gets its
wording, and `Failure.chain` lists a cause with the causes below it, outermost first.
-/

set_option autoImplicit false

namespace CommandFactory

/-! ## Files -/

/-- Why an operation on files fails. -/
inductive IoError where
  | notFound
  | alreadyExists
  | notDirectory
  | isDirectory
  | nameTooLong
  | nullInPath
  | other (text : String)
  deriving DecidableEq, Repr, Inhabited

/-- The message for a failed file operation. -/
def IoError.message : IoError → String
  | .notFound => "No such file or directory (os error 2)"
  | .alreadyExists => "File exists (os error 17)"
  | .notDirectory => "Not a directory (os error 20)"
  | .isDirectory => "Is a directory (os error 21)"
  | .nameTooLong => "File name too long (os error 36)"
  | .nullInPath => "file name contained an unexpected NUL byte"
  | .other text => text

/-! ## Declarations -/

/-- Why an element or one of its subcommands cannot be used. -/
inductive ElementFault where
  | kind (word : String)
  | methodOutsideClass
  | subcommandWithoutCommand (name : String)
  | subcommandNotGenerated (name : String)
  deriving DecidableEq, Repr, Inhabited

/-- The words for an element that cannot be used. -/
def ElementFault.describe : ElementFault → String
  | .kind word => word
  | .methodOutsideClass => "method outside a class"
  | .subcommandWithoutCommand name => "subcommand `" ++ name ++ "` is not a command declaration"
  | .subcommandNotGenerated name => "subcommand `" ++ name ++ "` failed to synthesize"

/-- Why the specification of an argument cannot be used. -/
inductive ArgFault where
  | category (name : String)
  | optionWithoutNames
  deriving DecidableEq, Repr, Inhabited

/-- The words for an argument that cannot be used. -/
def ArgFault.describe : ArgFault → String
  | .category name => name
  | .optionWithoutNames => "option without names"

/-! ## Settings and replay -/

/-- Why settings are refused. -/
inductive SettingsFault where
  | unreadable (cause : Json.DecodeError)
  | suffix (text : String)
  | path (key : String) (text : String)
  deriving DecidableEq, Repr, Inhabited

/-- The message for refused settings. -/
def SettingsFault.message : SettingsFault → String
  | .unreadable cause => "Failed to parse config: " ++ cause.message
  | .suffix text =>
      "module_suffix `" ++ text ++ "` must only contain letters, digits and underscores"
  | .path key text => key ++ " `" ++ text ++ "` is not a valid Rust path"

/-- Why a replay ends early. -/
inductive ReplayFault where
  | noInstance
  | noSpec
  | unknownProcedure (path : String)
  | nothingReturned (name : String)
  | specDropped (name : String)
  | tooDeep (name : String)
  deriving DecidableEq, Repr, Inhabited

/-- The message for a replay that ends early. -/
def ReplayFault.message : ReplayFault → String
  | .noInstance => "no bound instance"
  | .noSpec => "no command spec in scope"
  | .unknownProcedure path => "unknown procedure " ++ path
  | .nothingReturned name => name ++ " returned no spec"
  | .specDropped name => name ++ " dropped its spec"
  | .tooDeep name => "call depth exceeded at " ++ name

/-! ## All failures -/

/-- Why a step of the compiler fails. -/
inductive Failure where
  | unsupportedElement (element : SymbolId) (fault : ElementFault)
  | unsupportedArg (element : SymbolId) (fault : ArgFault)
  | unknownSymbol (id : SymbolId)
  | methodNotFound (owner : SymbolId) (name : String) (params : List String)
  | unresolvableMethod (element : SymbolId) (cause : Failure)
  | invalidIdentifier (name : String)
  | invalidTypePath (path : String)
  | artifactWrite (element : SymbolId) (cause : IoError)
  | io (cause : IoError)
  | decoding (cause : Json.DecodeError)
  | settings (fault : SettingsFault)
  | replay (fault : ReplayFault)
  deriving DecidableEq, Repr, Inhabited

namespace Failure

/-- The message for a failure. -/
def message : Failure → String
  | .unsupportedElement element fault =>
      "Unsupported symbol type for " ++ element.text ++ ": " ++ fault.describe
  | .unsupportedArg element fault =>
      "Unsupported arg spec type for " ++ element.text ++ ": " ++ fault.describe
  | .unknownSymbol id => "Unknown symbol: " ++ id.text
  | .methodNotFound owner name params =>
      "No method " ++ name ++ "(" ++ ", ".intercalate params ++ ") declared on " ++ owner.text
  | .unresolvableMethod element cause =>
      "Cannot bind method-rooted command " ++ element.text ++ ": " ++ cause.message
  | .invalidIdentifier name => "Invalid identifier `" ++ name ++ "`"
  | .invalidTypePath path => "Invalid type path `" ++ path ++ "`"
  | .artifactWrite element cause =>
      "Could not generate code for " ++ element.text ++ ": " ++ cause.message
  | .io cause => "IO error: " ++ cause.message
  | .decoding cause => "Serialization error: " ++ cause.message
  | .settings fault => "Configuration error: " ++ fault.message
  | .replay fault => "Replay error: " ++ fault.message

/-- The messages of a failure and of the causes below it, outermost first. -/
def chain : Failure → List String
  | .unresolvableMethod element cause =>
      (Failure.unresolvableMethod element cause).message :: cause.chain
  | .artifactWrite element cause => [(Failure.artifactWrite element cause).message, cause.message]
  | .io cause => [(Failure.io cause).message, cause.message]
  | .decoding cause => [(Failure.decoding cause).message, cause.message]
  | failure => [failure.message]

end Failure

end CommandFactory
