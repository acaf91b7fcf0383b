import CommandFactory.Declaration.Basic

/-!
# Generated modules

The code of a factory as data: modules with procedures, and procedures with statements. The same data
is printed as text and replayed against specifications in memory, so both agree on what it means.

A procedure is referred to by the path of its module and its name (`ProcedureRef`). Modules form
trees; `GeneratedModule.walk` lists a tree from its root down, each module before its children.
-/

set_option autoImplicit false

namespace CommandFactory

/-- The path of a module below the module root. -/
structure ModulePath where
  segments : List String
  deriving DecidableEq, Repr, Inhabited

namespace ModulePath

/-- The path of a module inside the module. -/
def child (path : ModulePath) (name : String) : ModulePath := ⟨path.segments ++ [name]⟩

/-- The path as text. -/
def text (path : ModulePath) : String := "::".intercalate path.segments

end ModulePath

/-- A procedure by module and name. -/
structure ProcedureRef where
  module : ModulePath
  name : String
  deriving DecidableEq, Repr, Inhabited

/-- What a procedure is for. -/
inductive ProcedureKind where
  | createSpec (methodRooted : Bool)
  | configureAll
  | configureMixins
  | configureOptions
  | configureParameters
  | configureArgGroups
  | configureSpecs
  | configureParentCommands
  | configureUnmatcheds
  deriving DecidableEq, Repr, Inhabited

namespace ProcedureKind

/-- The name of a procedure of the kind, without any suffix. -/
def baseName : ProcedureKind → String
  | .createSpec _ => "create_cmd_spec"
  | .configureAll => "configure_all"
  | .configureMixins => "configure_mixins"
  | .configureOptions => "configure_options"
  | .configureParameters => "configure_parameters"
  | .configureArgGroups => "configure_arg_groups"
  | .configureSpecs => "configure_specs"
  | .configureParentCommands => "configure_parent_commands"
  | .configureUnmatcheds => "configure_unmatcheds"

/-- Whether procedures of the kind append to a sink and have no specification. -/
def takesSink : ProcedureKind → Bool
  | .configureOptions => true
  | .configureParameters => true
  | _ => false

/-- Whether procedures of the kind make a specification. -/
def isCreate : ProcedureKind → Bool
  | .createSpec _ => true
  | _ => false

end ProcedureKind

/-! ## Statements -/

/-- What a call of a configuring procedure passes on first. -/
inductive SpecArg where
  | spec
  | optionSink
  | positionalSink
  deriving DecidableEq, Repr, Inhabited

/-- The instance that a call of a configuring procedure passes on. -/
inductive InstanceArg where
  | this
  /-- The instance seen as its superclass of the type. -/
  | upcast (type : String)
  deriving DecidableEq, Repr, Inhabited

/-- What a new specification wraps. -/
inductive WrapSource where
  | ofInstance
  | ofMethod
  deriving DecidableEq, Repr, Inhabited

/-- The instance on which the factory of a subcommand runs. -/
inductive SubcommandOwner where
  | none
  | this
  | new (type : String)
  deriving DecidableEq, Repr, Inhabited

/-- What an argument is made from. -/
inductive ArgSeed where
  | names (names : List String)
  | index (index : String)
  deriving DecidableEq, Repr, Inhabited

/-- A member through which a value is read or written. -/
inductive Accessor where
  | field (name : String)
  | method (name : String)
  deriving DecidableEq, Repr, Inhabited

/-- A call on the builder of an argument. -/
inductive BuilderCall where
  | fallbackValue (value : String)
  | negatable (value : Bool)
  | usageHelp (value : Bool)
  | arity (value : String)
  | description (lines : List String)
  | hasInitialValue (value : Bool)
  | hidden (value : Bool)
  | scope (value : ArgScope)
  | type (name : String)
  | auxiliaryTypes (names : List String)
  | defaultValue (value : String)
  | mapFallbackValue (value : String)
  | preprocessor (type : String)
  | parameterConsumer (type : String)
  | getter (source : Accessor)
  /-- `previous` reads the value that is replaced. -/
  | setter (target : Accessor) (previous : Option Accessor)
  deriving DecidableEq, Repr, Inhabited

/-- The making of an argument in a local variable. -/
structure ArgBuild where
  varName : String
  seed : ArgSeed
  calls : List BuilderCall
  deriving DecidableEq, Repr, Inhabited

/-- A call on the builder of a group. -/
inductive GroupCall where
  | exclusive (value : Bool)
  | multiplicity (value : String)
  | heading (value : String)
  deriving DecidableEq, Repr, Inhabited

/-- The making of a group in a local variable, and of its value in another. -/
structure GroupBuild where
  varName : String
  valueName : String
  field : String
  groupType : String
  calls : List GroupCall
  options : ProcedureRef
  parameters : ProcedureRef
  deriving DecidableEq, Repr, Inhabited

/-- A statement of a procedure. -/
inductive Statement where
  | newInstance
  /-- Finds the method to bind by its name and parameter types. -/
  | resolveMethod (name : String) (params : List String)
  | wrapSpec (source : WrapSource)
  | setName (name : String)
  | setDescription (lines : List String)
  | addSubcommand (name : String) (factory : ProcedureRef) (owner : SubcommandOwner)
  | configure (target : ProcedureRef) (first : SpecArg) (second : InstanceArg)
  | addMixin (name : String) (type : String) (configure : Option ProcedureRef)
  | addArg (build : ArgBuild)
  | addArgGroup (build : GroupBuild)
  | bindSpec (field : String)
  | bindParent (field : String)
  | returnSpec
  deriving DecidableEq, Repr, Inhabited

/-! ## Procedures and modules -/

/-- A procedure. -/
structure Procedure where
  /-- The declaration it is made for. -/
  element : SymbolId
  name : String
  kind : ProcedureKind
  /-- The type of the instance it works on. -/
  instanceType : String
  body : List Statement
  deriving DecidableEq, Repr, Inhabited

/-- A module with its procedures and the modules inside it. -/
structure GeneratedModule where
  declaration : SymbolId
  name : String
  path : ModulePath
  visibility : Visibility
  instanceType : String
  /-- The class has a container only. -/
  isContainer : Bool
  procedures : List Procedure
  children : List GeneratedModule
  deriving Repr, Inhabited

namespace GeneratedModule

/-- The first procedure of a name. -/
def procedure? (module : GeneratedModule) (name : String) : Option Procedure :=
  module.procedures.find? fun procedure => procedure.name = name

/-- The first module of a name inside the module. -/
def child? (module : GeneratedModule) (name : String) : Option GeneratedModule :=
  module.children.find? fun child => child.name = name

mutual

/-- The module and all modules inside it, each before the modules inside it. -/
def walk : GeneratedModule → List GeneratedModule
  | ⟨declaration, name, path, visibility, instanceType, isContainer, procedures, children⟩ =>
      ⟨declaration, name, path, visibility, instanceType, isContainer, procedures, children⟩ ::
        walkAll children

/-- The modules of several trees, one tree after the other. -/
def walkAll : List GeneratedModule → List GeneratedModule
  | [] => []
  | module :: rest => walk module ++ walkAll rest

end

end GeneratedModule

end CommandFactory
