import CommandFactory.Manifest.Basic

/-!
# Declarations

What the compiler knows of an element once its specification has been checked. A declaration is a
command, rooted in a class or in a method, or a container: the place holder of a class that has no
specification of its own and encloses one that has. Each declaration lives in another declaration or
at the root (`Scope`), and has a module of its own if it is class-shaped.
-/

set_option autoImplicit false

namespace CommandFactory

/-! ## Arguments -/

/-- How the value of an argument is reached. -/
inductive Binding where
  | field (name : String) (type : String)
  | accessor (method : String) (getter : Option String) (setter : Option String)
  /-- A parameter of the method of a method-rooted command. -/
  | parameter (name : String) (type : String)
  deriving DecidableEq, Repr, Inhabited

namespace Binding

/-- The name of the member that carries the annotation. -/
def memberName : Binding → String
  | .field name _ => name
  | .accessor method _ _ => method
  | .parameter name _ => name

/-- The names that generated text mentions for the binding. -/
def mentioned : Binding → List String
  | .accessor method getter setter => method :: (getter.toList ++ setter.toList)
  | binding => [binding.memberName]

end Binding

/-- What an option and a positional parameter do not share. -/
inductive ArgKind where
  | option (names : List String) (fallbackValue : String) (negatable : Bool) (usageHelp : Bool)
  | positional (index : String)
  deriving DecidableEq, Repr, Inhabited

/-- The type of an argument and the types it is built from. -/
structure ArgType where
  name : String
  aux : List String
  deriving DecidableEq, Repr, Inhabited

/-- An option or a positional parameter bound to a member. -/
structure ArgDeclaration where
  element : SymbolId
  /-- The symbol that declares the member. -/
  owner : SymbolId
  binding : Binding
  kind : ArgKind
  arity : String
  description : List String
  type : ArgType
  defaultValue : Option String
  hasInitialValue : Bool
  hidden : Bool
  scope : ArgScope
  mapFallbackValue : Option String
  preprocessor : Option String
  parameterConsumer : Option String
  inherited : Bool
  deriving DecidableEq, Repr, Inhabited

namespace ArgDeclaration

/-- Is an option. -/
def isOption (arg : ArgDeclaration) : Bool :=
  match arg.kind with
  | .option .. => true
  | .positional _ => false

/-- Is a member of the declaration itself and not inherited. -/
def isDirectMemberOf (arg : ArgDeclaration) (id : SymbolId) : Bool :=
  !arg.inherited && arg.owner = id

end ArgDeclaration

/-- A field whose value is a group of arguments. -/
structure ArgGroupDeclaration where
  field : String
  groupType : SymbolId
  exclusive : Bool
  multiplicity : Option String
  heading : Option String
  deriving DecidableEq, Repr, Inhabited

/-! ## Commands and containers -/

/-- What a command is rooted in. -/
inductive Rooting where
  | classRooted
  | methodRooted (classId : SymbolId) (method : String) (params : List String)
  deriving DecidableEq, Repr, Inhabited

/-- Where a declaration lives. -/
inductive Scope where
  | root (package : Option String)
  | declaration (id : SymbolId)
  deriving DecidableEq, Repr, Inhabited

/-- The declaration of a scope, unless it is the root. -/
def Scope.declaration? : Scope → Option SymbolId
  | .root _ => none
  | .declaration id => some id

/-- Who may see a module. -/
inductive Visibility where
  | everyone
  | withinCrate
  deriving DecidableEq, Repr, Inhabited

/-- The visibility of the module of a class. -/
def Symbol.visibility (symbol : Symbol) : Visibility :=
  if symbol.isPublic then .everyone else .withinCrate

/-- The declaration of a command, or of a holder of members that commands share. -/
structure CommandDeclaration where
  id : SymbolId
  rooting : Rooting
  /-- Holders have none. -/
  command : Option CommandMeta
  owner : Scope
  simpleName : String
  typePath : String
  visibility : Visibility
  superCommand : Option SymbolId
  subcommands : List NamedElement
  mixins : List NamedElement
  options : List ArgDeclaration
  positionals : List ArgDeclaration
  argGroups : List ArgGroupDeclaration
  /-- Fields that receive the specification of the command. -/
  specInjections : List String
  /-- Fields that receive the specification of the parent command. -/
  parentInjections : List String
  /-- Fields that receive the arguments nobody asked for. -/
  unmatched : List String
  deriving DecidableEq, Repr, Inhabited

namespace CommandDeclaration

/-- Is a command and not only a holder. -/
def isCommand (d : CommandDeclaration) : Bool := d.command.isSome

/-- Is rooted in a method. -/
def isMethodRooted (d : CommandDeclaration) : Bool :=
  match d.rooting with
  | .classRooted => false
  | .methodRooted .. => true

/-- The class whose module holds the procedures of the declaration. -/
def classId (d : CommandDeclaration) : SymbolId :=
  match d.rooting with
  | .classRooted => d.id
  | .methodRooted classId _ _ => classId

/-- The name under which the command is known. -/
def displayName (d : CommandDeclaration) : String :=
  match d.command with
  | some command => command.name
  | none => d.simpleName

/-- The options among the members of the declaration itself. -/
def directOptions (d : CommandDeclaration) : List ArgDeclaration :=
  d.options.filter fun arg => arg.isDirectMemberOf d.id

/-- The positional parameters among the members of the declaration itself. -/
def directPositionals (d : CommandDeclaration) : List ArgDeclaration :=
  d.positionals.filter fun arg => arg.isDirectMemberOf d.id

end CommandDeclaration

/-- The place holder of a class without a specification. -/
structure Container where
  id : SymbolId
  owner : Scope
  simpleName : String
  typePath : String
  visibility : Visibility
  deriving DecidableEq, Repr, Inhabited

/-- A command or a container. -/
inductive Declaration where
  | command (d : CommandDeclaration)
  | container (c : Container)
  deriving DecidableEq, Repr, Inhabited

namespace Declaration

/-- The identity of a declaration. -/
def id : Declaration → SymbolId
  | .command d => d.id
  | .container c => c.id

/-- Where a declaration lives. -/
def owner : Declaration → Scope
  | .command d => d.owner
  | .container c => c.owner

/-- The command, if the declaration is one. -/
def command? : Declaration → Option CommandDeclaration
  | .command d => some d
  | .container _ => none

/-- Is a container. -/
def isContainer : Declaration → Bool
  | .command _ => false
  | .container _ => true

/-- Has a module of its own. -/
def isClassShaped : Declaration → Bool
  | .command d => !d.isMethodRooted
  | .container _ => true

/-- The name of the symbol of a declaration. -/
def simpleName : Declaration → String
  | .command d => d.simpleName
  | .container c => c.simpleName

/-- The type path of the class of a declaration. -/
def typePath : Declaration → String
  | .command d => d.typePath
  | .container c => c.typePath

/-- The visibility of the class of a declaration. -/
def visibility : Declaration → Visibility
  | .command d => d.visibility
  | .container c => c.visibility

end Declaration

end CommandFactory
