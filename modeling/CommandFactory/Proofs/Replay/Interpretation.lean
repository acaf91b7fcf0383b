import CommandFactory.Registry.Basic
import CommandFactory.Replay.Spec

/-!
# Interpretation of declarations

What a declaration means as a specification, told by recursion on the declarations alone: no module, no
procedure, no reference and no store. One object stands for all instances (`ObjectRef.anonymous`), and
`CommandSpec.erased` makes a specification of a replay comparable by putting it in the place of every
object, which changes nothing that is written of it (`CommandSpec.encode_erased`).

- `Registry.configured?` applies the configuration of a declaration to a specification;
- `Registry.created?` is the specification of a command.

Both follow at most a number of declarations from one to another, since ancestors, mixins and
subcommands may lead back to where they came from.
-/

set_option autoImplicit false

namespace CommandFactory

/-! ## Specifications without objects -/

/-- The object that stands for all objects. -/
def ObjectRef.anonymous : ObjectRef := ⟨0⟩

/-- A binding to the anonymous object. -/
def ArgBinding.erased (binding : ArgBinding) : ArgBinding := { binding with object := .anonymous }

/-- An argument bound to the anonymous object, if it is bound. -/
def ArgSpec.erased (arg : ArgSpec) : ArgSpec :=
  { arg with binding := arg.binding.map ArgBinding.erased }

/-- A group of such arguments. -/
def GroupSpec.erased (group : GroupSpec) : GroupSpec :=
  { group with args := group.args.map ArgSpec.erased }

/-- A field of the anonymous object. -/
def ParentInjection.erased (injection : ParentInjection) : ParentInjection :=
  { injection with object := .anonymous }

namespace CommandSpec

mutual

/-- A specification with the anonymous object in the place of every object. -/
def erased : CommandSpec → CommandSpec
  | ⟨name, description, method, options, positionals, groups, mixins, subcommands, target,
      parentInjections⟩ =>
      ⟨name, description, method, options.map ArgSpec.erased, positionals.map ArgSpec.erased,
        groups.map GroupSpec.erased, erasedNamed mixins, erasedNamed subcommands,
        target.map fun _ => .anonymous, parentInjections.map ParentInjection.erased⟩

/-- Named specifications, each with the anonymous object. -/
def erasedNamed : List (String × CommandSpec) → List (String × CommandSpec)
  | [] => []
  | (name, spec) :: rest => (name, erased spec) :: erasedNamed rest

end

mutual

/-- What is written of a specification does not tell its objects. -/
theorem encode_erased (spec : CommandSpec) : spec.erased.encode = spec.encode := by
  cases spec with
  | mk name description method options positionals groups mixins subcommands target injections =>
    have hargs : ArgSpec.encode ∘ ArgSpec.erased = ArgSpec.encode := rfl
    have hgroups : GroupSpec.encode ∘ GroupSpec.erased = GroupSpec.encode := by
      funext group
      simp only [Function.comp_apply, GroupSpec.erased, GroupSpec.encode, List.map_map, hargs]
    rw [erased, encode, encode, encodeNamed_erasedNamed mixins, encodeNamed_erasedNamed subcommands]
    simp only [List.map_map, hargs, hgroups]

theorem encodeNamed_erasedNamed (named : List (String × CommandSpec)) :
    encodeNamed (erasedNamed named) = encodeNamed named := by
  cases named with
  | nil => rfl
  | cons first rest =>
    obtain ⟨name, spec⟩ := first
    rw [erasedNamed, encodeNamed, encodeNamed, encode_erased spec, encodeNamed_erasedNamed rest]

end

/-! ### What is added to a specification -/

theorem erased_placeOption (option : ArgSpec) (options : List ArgSpec) :
    (placeOption option options).map ArgSpec.erased =
      placeOption option.erased (options.map ArgSpec.erased) := by
  have hshares : ∀ other : ArgSpec,
      other.erased.sharesNameWith option.erased = other.sharesNameWith option := fun _ => rfl
  induction options with
  | nil => rfl
  | cons other rest ih =>
    rw [placeOption, List.map_cons, placeOption, hshares]
    split
    · rfl
    · rw [List.map_cons, ih]

theorem erased_addOption (spec : CommandSpec) (option : ArgSpec) :
    (spec.addOption option).erased = spec.erased.addOption option.erased := by
  cases spec
  simp only [addOption, erased, erased_placeOption]

theorem erased_addPositional (spec : CommandSpec) (positional : ArgSpec) :
    (spec.addPositional positional).erased = spec.erased.addPositional positional.erased := by
  cases spec
  simp only [addPositional, erased, List.map_append, List.map_cons, List.map_nil]

theorem erased_addGroup (spec : CommandSpec) (group : GroupSpec) :
    (spec.addGroup group).erased = spec.erased.addGroup group.erased := by
  cases spec
  simp only [addGroup, erased, List.map_append, List.map_cons, List.map_nil]

theorem erased_addParentInjection (spec : CommandSpec) (object : ObjectRef) (field : String) :
    (spec.addParentInjection object field).erased =
      spec.erased.addParentInjection .anonymous field := by
  cases spec
  simp only [addParentInjection, erased, List.map_append, List.map_cons, List.map_nil]
  rfl

theorem erasedNamed_append (named others : List (String × CommandSpec)) :
    erasedNamed (named ++ others) = erasedNamed named ++ erasedNamed others := by
  induction named with
  | nil => rfl
  | cons first rest ih => rw [List.cons_append, erasedNamed, erasedNamed, ih, List.cons_append]

theorem erased_addMixin (spec : CommandSpec) (name : String) (mixin : CommandSpec) :
    (spec.addMixin name mixin).erased = spec.erased.addMixin name mixin.erased := by
  cases spec
  simp only [addMixin, erased, erasedNamed_append, erasedNamed]

/-- A specification with one more subcommand. -/
def withSubcommand (spec : CommandSpec) (name : String) (subcommand : CommandSpec) : CommandSpec :=
  { spec with subcommands := spec.subcommands ++ [(name, subcommand)] }

theorem erased_withSubcommand (spec : CommandSpec) (name : String) (subcommand : CommandSpec) :
    (spec.withSubcommand name subcommand).erased =
      spec.erased.withSubcommand name subcommand.erased := by
  cases spec
  simp only [withSubcommand, erased, erasedNamed_append, erasedNamed]

/-- A specification of the anonymous object that has a name and nothing else. -/
def blank (name : String) : CommandSpec := { name, target := some .anonymous }

end CommandSpec

/-! ## Arguments -/

namespace ArgDeclaration

/-- The members of an object through which an argument is read and written. -/
def bindingTo (object : ObjectRef) (arg : ArgDeclaration) : Option ArgBinding :=
  match arg.binding with
  | .field name _ => some ⟨object, some (.field name), some (.field name), some (.field name)⟩
  | .accessor _ none none => none
  | .accessor _ (some getter) none => some ⟨object, some (.method getter), none, none⟩
  | .accessor _ getter (some setter) =>
      some ⟨object, getter.map .method, some (.method setter), getter.map .method⟩
  | .parameter _ _ => none

/-- The specification of an argument that is bound to its member of an object. -/
def specFor (object : ObjectRef) (arg : ArgDeclaration) : ArgSpec :=
  { (match arg.kind with
      | .option names fallbackValue negatable usageHelp =>
          { names, fallbackValue := some fallbackValue, negatable, usageHelp }
      | .positional index => { index := some index } : ArgSpec) with
    arity := arg.arity
    description := arg.description
    typeName := arg.type.name
    auxiliaryTypes := arg.type.aux
    defaultValue := arg.defaultValue
    hasInitialValue := arg.hasInitialValue
    hidden := arg.hidden
    scope := arg.scope
    mapFallbackValue := arg.mapFallbackValue
    preprocessor := arg.preprocessor
    parameterConsumer := arg.parameterConsumer
    binding := arg.bindingTo object }

theorem erased_specFor (object : ObjectRef) (arg : ArgDeclaration) :
    (arg.specFor object).erased = arg.specFor .anonymous := by
  have hbinding : (arg.bindingTo object).map ArgBinding.erased = arg.bindingTo .anonymous := by
    unfold bindingTo
    split <;> rfl
  unfold specFor ArgSpec.erased
  simp only [hbinding]

end ArgDeclaration

namespace CommandDeclaration

/-- The method of a method-rooted command. -/
def method? (d : CommandDeclaration) : Option String :=
  match d.rooting with
  | .classRooted => none
  | .methodRooted _ method _ => some method

/-- The direct options and positional parameters of a declaration, in this order. -/
def groupArgs (d : CommandDeclaration) : List ArgSpec :=
  d.directOptions.map (ArgDeclaration.specFor .anonymous) ++
    d.directPositionals.map (ArgDeclaration.specFor .anonymous)

/-- The specification of a command before anything is added: its annotation and its method. -/
def bareSpec (d : CommandDeclaration) : CommandSpec :=
  { name := d.displayName
    description := (d.command.map CommandMeta.description).getD []
    method := d.method?
    target := some .anonymous }

end CommandDeclaration

/-! ## Declarations -/

namespace Registry

variable (registry : Registry)

/-- A specification with the configuration of the ancestor of a declaration, if it has one. -/
def inherited? (configure : CommandDeclaration → CommandSpec → Option CommandSpec)
    (d : CommandDeclaration) (spec : CommandSpec) : Option CommandSpec :=
  match d.superCommand.bind registry.command? with
  | none => some spec
  | some ancestor => configure ancestor spec

/-- The specification of a mixin: blank, or configured by its declaration if it has one. -/
def mixin? (configure : CommandDeclaration → CommandSpec → Option CommandSpec)
    (named : NamedElement) : Option CommandSpec :=
  match registry.command? named.element with
  | none => some (.blank named.name)
  | some target => configure target (.blank named.name)

/-- A specification with one more mixin. -/
def withMixin? (configure : CommandDeclaration → CommandSpec → Option CommandSpec)
    (spec : CommandSpec) (named : NamedElement) : Option CommandSpec :=
  (registry.mixin? configure named).map (spec.addMixin named.name)

/-- A specification with one more group, which has the arguments of its holder. -/
def withGroup? (spec : CommandSpec) (group : ArgGroupDeclaration) : Option CommandSpec :=
  (registry.command? group.groupType).map fun holder =>
    spec.addGroup ⟨group.exclusive, group.multiplicity, group.heading, holder.groupArgs⟩

/-- A specification with the direct options and positional parameters of a declaration. -/
def withArgs (d : CommandDeclaration) (spec : CommandSpec) : CommandSpec :=
  (d.directPositionals.map (ArgDeclaration.specFor .anonymous)).foldl CommandSpec.addPositional
    ((d.directOptions.map (ArgDeclaration.specFor .anonymous)).foldl CommandSpec.addOption spec)

/-- A specification with the fields that receive the parent command. -/
def withParentInjections (d : CommandDeclaration) (spec : CommandSpec) : CommandSpec :=
  d.parentInjections.foldl (fun spec field => spec.addParentInjection .anonymous field) spec

/-- A specification after the configuration of a declaration: that of its ancestor, then mixins,
options, positional parameters, groups and fields for the parent command. -/
def configured? : Nat → CommandDeclaration → CommandSpec → Option CommandSpec
  | 0, _, _ => none
  | steps + 1, d, spec => do
      let spec ← registry.inherited? (configured? steps) d spec
      let spec ← d.mixins.foldlM (registry.withMixin? (configured? steps)) spec
      let spec ← d.argGroups.foldlM registry.withGroup? (withArgs d spec)
      return withParentInjections d spec

/-- A specification with one more subcommand, made from its declaration. -/
def withSubcommand? (create : CommandDeclaration → Option CommandSpec) (spec : CommandSpec)
    (sub : NamedElement) : Option CommandSpec :=
  ((registry.command? sub.element).bind create).map (spec.withSubcommand sub.name)

/-- The specification of a command: its annotation, its subcommands, then its configuration. -/
def created? : Nat → CommandDeclaration → Option CommandSpec
  | 0, _ => none
  | steps + 1, d => do
      let spec ← d.subcommands.foldlM (registry.withSubcommand? (created? steps)) d.bareSpec
      registry.configured? steps d spec

end Registry

end CommandFactory
