import CommandFactory.Symbol.Table

/-!
# Manifests

What a host knows about its annotated elements: its symbols, and one specification for each element
with everything already resolved. The compiler checks only the shape of a specification.
-/

set_option autoImplicit false

namespace CommandFactory

/-- Whether an option is seen by the subcommands too. -/
inductive ArgScope where
  | ofCommand
  | inherited
  deriving DecidableEq, Repr, Inhabited

/-- The annotation of a command; a holder of mixin or group members has none. -/
structure CommandMeta where
  name : String
  description : List String
  deriving DecidableEq, Repr, Inhabited

/-- An element under a name. -/
structure NamedElement where
  name : String
  element : SymbolId
  deriving DecidableEq, Repr, Inhabited

/-- The kind of an argument; every kind the compiler does not know is unsupported. -/
inductive ArgCategory where
  | option
  | positional
  | unsupported
  deriving DecidableEq, Repr, Inhabited

namespace ArgCategory

/-- The name of the kind. -/
def name : ArgCategory → String
  | .option => "option"
  | .positional => "positional"
  | .unsupported => "unsupported"

end ArgCategory

/-- The specification of an option or of a positional parameter. -/
structure ArgInput where
  /-- The field, accessor method or method parameter that carries the annotation. -/
  element : SymbolId
  category : ArgCategory
  names : List String
  index : Option String
  arity : String
  description : List String
  typeName : String
  auxTypes : List String
  defaultValue : Option String
  hasInitialValue : Bool
  hidden : Bool
  scope : ArgScope
  fallbackValue : String
  mapFallbackValue : Option String
  negatable : Bool
  usageHelp : Bool
  preprocessor : Option String
  parameterConsumer : Option String
  getter : Option String
  setter : Option String
  inherited : Bool
  deriving DecidableEq, Repr, Inhabited

/-- The specification of a group of arguments. -/
structure ArgGroupInput where
  args : List ArgInput
  exclusive : Bool
  multiplicity : Option String
  heading : Option String
  deriving DecidableEq, Repr, Inhabited

/-- The specification of an annotated element. -/
structure CommandInput where
  element : SymbolId
  command : Option CommandMeta
  subcommands : List NamedElement
  mixins : List NamedElement
  options : List ArgInput
  positionals : List ArgInput
  argGroups : List ArgGroupInput
  /-- Fields that receive the specification of the command. -/
  specElements : List String
  /-- Fields that receive the specification of the parent command. -/
  parentCommandElements : List String
  /-- Fields that receive the arguments nobody asked for. -/
  unmatched : List String
  deriving DecidableEq, Repr, Inhabited

/-- The specification of an element without any member. -/
def CommandInput.bare (element : SymbolId) : CommandInput :=
  ⟨element, none, [], [], [], [], [], [], [], []⟩

/-- The symbols of a host and its annotated elements in their order. -/
structure Manifest where
  symbols : SymbolTable
  elements : List CommandInput
  deriving Inhabited

end CommandFactory
