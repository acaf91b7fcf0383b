import CommandFactory.Manifest.Coding
import CommandFactory.Replay.Store

/-!
# Specifications

What a factory makes: the specification of a command with its options, positional parameters, groups,
mixins and subcommands. Arguments are bound to members of objects (`ArgBinding`), so that reading and
writing an argument reads and writes a slot.

An option takes the place of the first one that shares a name with it (`CommandSpec.addOption`). A
subcommand that is added learns the name of its parent (`CommandSpec.addSubcommand`).
-/

set_option autoImplicit false

namespace CommandFactory

open Json

/-! ## Arguments -/

/-- The members through which an argument is read and written. -/
structure ArgBinding where
  object : ObjectRef
  getter : Option Accessor
  setter : Option Accessor
  /-- Reads the value that a write replaces. -/
  previous : Option Accessor
  deriving DecidableEq, Repr, Inhabited

namespace ArgBinding

/-- What an accessor reads from the object of a binding. -/
def reads (binding : ArgBinding) (store : Store) : Option Accessor → Json
  | none => .null
  | some accessor => store.value binding.object accessor.property

/-- The value of an argument. -/
def get (binding : ArgBinding) (store : Store) : Json := binding.reads store binding.getter

/-- Stores a value, and gives the one it replaces. -/
def set (binding : ArgBinding) (store : Store) (value : Json) : Json × Store :=
  (binding.reads store binding.previous,
    match binding.setter with
    | none => store
    | some accessor => store.setSlot binding.object accessor.property (.value value))

end ArgBinding

/-- The specification of an option or a positional parameter. -/
structure ArgSpec where
  names : List String := []
  index : Option String := none
  arity : String := ""
  description : List String := []
  typeName : String := ""
  auxiliaryTypes : List String := []
  defaultValue : Option String := none
  hasInitialValue : Bool := false
  hidden : Bool := false
  scope : ArgScope := .ofCommand
  fallbackValue : Option String := none
  negatable : Bool := false
  usageHelp : Bool := false
  mapFallbackValue : Option String := none
  preprocessor : Option String := none
  parameterConsumer : Option String := none
  binding : Option ArgBinding := none
  deriving DecidableEq, Repr, Inhabited

namespace ArgSpec

/-- Is an option. -/
def isOption (arg : ArgSpec) : Bool := !arg.names.isEmpty

/-- Whether two arguments have a name in common. -/
def sharesNameWith (a b : ArgSpec) : Bool := a.names.any b.names.contains

/-- An argument as an object. -/
def encode (arg : ArgSpec) : Json :=
  .object
    (memberIf "names" (if arg.names.isEmpty then none else some (texts arg.names)) ++
      memberIf "index" (arg.index.map .string) ++
      [("arity", .string arg.arity), ("description", texts arg.description),
        ("type_name", .string arg.typeName), ("auxiliary_types", texts arg.auxiliaryTypes),
        ("default_value", textOrNull arg.defaultValue),
        ("has_initial_value", .bool arg.hasInitialValue), ("hidden", .bool arg.hidden),
        ("scope", .string arg.scope.name)] ++
      memberIf "fallback_value" (arg.fallbackValue.map .string) ++
      [("negatable", .bool arg.negatable), ("usage_help", .bool arg.usageHelp),
        ("map_fallback_value", textOrNull arg.mapFallbackValue),
        ("preprocessor", textOrNull arg.preprocessor),
        ("parameter_consumer", textOrNull arg.parameterConsumer)])

end ArgSpec

/-- The specification of a group of arguments. -/
structure GroupSpec where
  exclusive : Bool := false
  multiplicity : Option String := none
  heading : Option String := none
  args : List ArgSpec := []
  deriving DecidableEq, Repr, Inhabited

/-- A group as an object. -/
def GroupSpec.encode (group : GroupSpec) : Json :=
  .object
    [("exclusive", .bool group.exclusive), ("multiplicity", textOrNull group.multiplicity),
      ("heading", textOrNull group.heading), ("args", .array (group.args.map ArgSpec.encode))]

/-! ## Commands -/

/-- A field of an object that receives the specification of the parent command. -/
structure ParentInjection where
  object : ObjectRef
  field : String
  deriving DecidableEq, Repr, Inhabited

/-- The specification of a command. -/
structure CommandSpec where
  name : String := ""
  description : List String := []
  method : Option String := none
  options : List ArgSpec := []
  positionals : List ArgSpec := []
  groups : List GroupSpec := []
  mixins : List (String × CommandSpec) := []
  subcommands : List (String × CommandSpec) := []
  target : Option ObjectRef := none
  parentInjections : List ParentInjection := []
  deriving Repr, Inhabited

namespace CommandSpec

/-- The specification of an instance, or of one of its methods. -/
def wrap (target : ObjectRef) (method : Option String) : CommandSpec :=
  { target := some target, method }

/-- Puts an option in place of the first that shares a name with it, or at the end. -/
def placeOption (option : ArgSpec) : List ArgSpec → List ArgSpec
  | [] => [option]
  | other :: rest =>
      if other.sharesNameWith option then option :: rest else other :: placeOption option rest

variable (spec : CommandSpec)

/-- Adds an option. -/
def addOption (option : ArgSpec) : CommandSpec :=
  { spec with options := placeOption option spec.options }

/-- Adds a positional parameter. -/
def addPositional (positional : ArgSpec) : CommandSpec :=
  { spec with positionals := spec.positionals ++ [positional] }

/-- Adds a group. -/
def addGroup (group : GroupSpec) : CommandSpec := { spec with groups := spec.groups ++ [group] }

/-- Adds a mixin. -/
def addMixin (name : String) (mixin : CommandSpec) : CommandSpec :=
  { spec with mixins := spec.mixins ++ [(name, mixin)] }

/-- Adds a field that receives the parent command. -/
def addParentInjection (object : ObjectRef) (field : String) : CommandSpec :=
  { spec with parentInjections := spec.parentInjections ++ [⟨object, field⟩] }

/-- The store after the fields that wait for the parent command have received it. -/
def resolveParent (parent : String) (store : Store) : Store :=
  spec.parentInjections.foldl
    (fun store injection => store.setSlot injection.object injection.field (.spec parent)) store

/-- Adds a subcommand; its fields that wait for the parent command receive the specification. -/
def addSubcommand (name : String) (subcommand : CommandSpec) (store : Store) :
    CommandSpec × Store :=
  ({ spec with subcommands := spec.subcommands ++ [(name, subcommand)] },
    subcommand.resolveParent spec.name store)

/-- The first option with a name. -/
def option? (name : String) : Option ArgSpec :=
  spec.options.find? fun option => option.names.contains name

/-- The first subcommand of a name. -/
def subcommand? (name : String) : Option CommandSpec :=
  (spec.subcommands.find? fun named => named.1 = name).map Prod.snd

/-- The first mixin of a name. -/
def mixin? (name : String) : Option CommandSpec :=
  (spec.mixins.find? fun named => named.1 = name).map Prod.snd

mutual

/-- A command as an object. -/
def encode : CommandSpec → Json
  | ⟨name, description, method, options, positionals, groups, mixins, subcommands, _, _⟩ =>
      .object
        ([("name", .string name)] ++
          memberIf "description"
            (if description.isEmpty then none else some (texts description)) ++
          memberIf "method" (method.map .string) ++
          [("options", .array (options.map ArgSpec.encode)),
            ("positionals", .array (positionals.map ArgSpec.encode)),
            ("groups", .array (groups.map GroupSpec.encode)),
            ("mixins", .array (encodeNamed mixins)),
            ("subcommands", .array (encodeNamed subcommands))])

/-- Named commands as pairs. -/
def encodeNamed : List (String × CommandSpec) → List Json
  | [] => []
  | (name, spec) :: rest => .array [.string name, encode spec] :: encodeNamed rest

end

end CommandSpec

end CommandFactory
