import CommandFactory.Module.Basic
import CommandFactory.Naming
import CommandFactory.Registry.Basic

/-!
# Synthesis of modules

The modules of all class-shaped declarations of a registry, each with the procedures of the commands
that its class roots. The modules are flat; they are nested later.

Before any procedure is made, the method-rooted commands are sorted out (`Plan`). One whose method is
not found among the methods of its class is dropped, and so is one whose procedures would have the
names of an earlier one in the same class. Each dropped command leaves an error, and nothing refers
to its procedures.

- `Registry.plan` sorts the commands out;
- `Plan.procedures` is the full sequence of procedures of a command that is kept;
- `Registry.synthesize` gives the modules, and the registry with the diagnostics of the synthesis.
-/

set_option autoImplicit false

namespace CommandFactory

/-! ## Arguments -/

namespace ArgDeclaration

/-- The calls that only options have. -/
def optionCalls (arg : ArgDeclaration) : List BuilderCall :=
  match arg.kind with
  | .option _ fallbackValue negatable usageHelp =>
      [.fallbackValue fallbackValue, .negatable negatable, .usageHelp usageHelp]
  | .positional _ => []

/-- The calls for the settings of an argument. -/
def settingCalls (arg : ArgDeclaration) : List BuilderCall :=
  [.arity arg.arity, .description arg.description, .hasInitialValue arg.hasInitialValue,
      .hidden arg.hidden, .scope arg.scope, .type arg.type.name, .auxiliaryTypes arg.type.aux] ++
    arg.defaultValue.toList.map .defaultValue ++
    arg.mapFallbackValue.toList.map .mapFallbackValue ++
    arg.preprocessor.toList.map .preprocessor ++
    arg.parameterConsumer.toList.map .parameterConsumer

/-- The calls that bind an argument to its member. A parameter is bound when its method is called. -/
def bindingCalls (arg : ArgDeclaration) : List BuilderCall :=
  match arg.binding with
  | .field name _ => [.getter (.field name), .setter (.field name) (some (.field name))]
  | .accessor _ getter setter =>
      getter.toList.map (fun name => .getter (.method name)) ++
        setter.toList.map fun name => .setter (.method name) (getter.map .method)
  | .parameter _ _ => []

/-- The making of an argument, the `index`-th of its procedure. -/
def build (index : Nat) (arg : ArgDeclaration) : ArgBuild :=
  { varName :=
      match arg.kind with
      | .option .. => "opt" ++ toString index
      | .positional _ => "pos" ++ toString index
    seed :=
      match arg.kind with
      | .option names _ _ _ => .names names
      | .positional index => .index index
    calls := arg.optionCalls ++ arg.settingCalls ++ arg.bindingCalls }

end ArgDeclaration

/-- The statements that make arguments, numbered from `index`. -/
def argStatements : Nat → List ArgDeclaration → List Statement
  | _, [] => []
  | index, arg :: rest => .addArg (arg.build index) :: argStatements (index + 1) rest

/-! ## Sorting out method-rooted commands -/

/-- The commands that are dropped, and the suffix of the procedures of each method-rooted command
that is kept. -/
structure Plan where
  registry : Registry
  dropped : List SymbolId
  suffixes : List (SymbolId × String)
  deriving Inhabited

namespace Registry

variable (registry : Registry)

/-- The failure of a command whose method is not found. -/
def bindingFailure? (d : CommandDeclaration) : Option (SymbolId × Failure) :=
  match d.rooting with
  | .classRooted => none
  | .methodRooted classId method params =>
      match registry.symbols.findMethod? classId method params with
      | some _ => none
      | none =>
          some (d.id,
            .unresolvableMethod d.id
              (.methodNotFound classId method (params.map erasure)))

/-- The failures of all commands whose methods are not found. -/
def bindingFailures : List (SymbolId × Failure) :=
  registry.commands.filterMap registry.bindingFailure?

/-- Is rooted in a method of the class with the name. -/
def isRootedIn (classId : SymbolId) (method : String) (d : CommandDeclaration) : Bool :=
  match d.rooting with
  | .classRooted => false
  | .methodRooted owner name _ => owner = classId && name = method

/-- Whether several commands are rooted in methods of one name in a class. -/
def isOverloaded (classId : SymbolId) (method : String) : Bool :=
  1 < registry.commands.countP (isRootedIn classId method)

/-- The suffix of the procedures of a method-rooted command, with its class. -/
def suffix? (d : CommandDeclaration) : Option (SymbolId × String) :=
  match d.rooting with
  | .classRooted => none
  | .methodRooted classId method params =>
      some (classId, Naming.methodSuffix method params (registry.isOverloaded classId method))

end Registry

/-- A suffix that a class has given away, and the command that has it. -/
structure TakenSuffix where
  classId : SymbolId
  suffix : String
  holder : SymbolId
  deriving DecidableEq, Repr, Inhabited

/-- A command whose suffix another command of its class has. -/
structure SuffixCollision where
  element : SymbolId
  holder : SymbolId
  suffix : String
  deriving DecidableEq, Repr, Inhabited

/-- The error for a collision. -/
def SuffixCollision.diagnostic (collision : SuffixCollision) : Diagnostic :=
  .errorAt collision.element
    ("Generated procedures `*_" ++ collision.suffix ++ "` collide with those of " ++
      collision.holder.text)

namespace Registry

variable (registry : Registry)

/-- Gives suffixes away in order: each to the first command of a class that asks for it. -/
def assignSuffixes (unbound : List SymbolId) :
    List CommandDeclaration → List TakenSuffix → List TakenSuffix × List SuffixCollision
  | [], taken => (taken, [])
  | d :: rest, taken =>
      match registry.suffix? d with
      | none => assignSuffixes unbound rest taken
      | some (classId, suffix) =>
          if d.id ∈ unbound then assignSuffixes unbound rest taken
          else
            match taken.find? fun t => t.classId = classId && t.suffix = suffix with
            | some t =>
                let (taken, collisions) := assignSuffixes unbound rest taken
                (taken, ⟨d.id, t.holder, suffix⟩ :: collisions)
            | none => assignSuffixes unbound rest (taken ++ [⟨classId, suffix, d.id⟩])

/-- Sorts the method-rooted commands out. The registry of the plan has the errors of those that are
dropped. -/
def plan : Plan :=
  let failures := registry.bindingFailures
  let unbound := failures.map Prod.fst
  let (taken, collisions) := registry.assignSuffixes unbound registry.commands []
  { registry :=
      registry.report
        (failures.map (fun f => .ofFailure f.1 f.2) ++ collisions.map SuffixCollision.diagnostic)
    dropped := unbound ++ collisions.map SuffixCollision.element
    suffixes := taken.map fun t => (t.holder, t.suffix) }

/-- The names of the modules from a declaration up to its root, and the package there, in at most
`steps` steps. -/
def modulesAbove : Nat → Option Declaration → List String × Option String
  | 0, _ => ([], none)
  | _ + 1, none => ([], none)
  | steps + 1, some declaration =>
      let name := Naming.moduleName declaration.simpleName registry.settings.moduleSuffix
      match declaration.owner with
      | .root package => ([name], package)
      | .declaration id =>
          let (names, package) := modulesAbove steps (registry.get? id)
          (name :: names, package)

/-- The path of the module of a class: its package, and the modules it lies in. -/
def modulePath (id : SymbolId) : ModulePath :=
  let (names, package) := registry.modulesAbove (registry.declarations.size + 1) (registry.get? id)
  ⟨Naming.packageSegments package ++ names.reverse⟩

end Registry

/-! ## Procedures -/

namespace Plan

variable (plan : Plan)

/-- Whether a command is dropped. -/
def drops (id : SymbolId) : Bool := plan.dropped.contains id

/-- The name of a procedure of a command. -/
def procedureName (d : CommandDeclaration) (kind : ProcedureKind) : String :=
  Naming.procedureName kind.baseName
    ((plan.suffixes.find? fun s => s.1 = d.id).map Prod.snd)

/-- The reference to a procedure of a command. -/
def reference (d : CommandDeclaration) (kind : ProcedureKind) : ProcedureRef :=
  ⟨plan.registry.modulePath d.classId, plan.procedureName d kind⟩

/-- A procedure of a command. -/
def procedure (d : CommandDeclaration) (kind : ProcedureKind) (body : List Statement) : Procedure :=
  ⟨d.id, plan.procedureName d kind, kind, d.typePath, body⟩

/-- The instance on which the factory of a subcommand runs. -/
def subcommandOwner (d target : CommandDeclaration) : SubcommandOwner :=
  match target.rooting with
  | .classRooted => .none
  | .methodRooted classId _ _ => if classId = d.classId then .this else .new target.typePath

/-- The statement that adds a subcommand. -/
def subcommand (d : CommandDeclaration) (sub : NamedElement) : Except Failure Statement :=
  match (plan.registry.command? sub.element).filter CommandDeclaration.isCommand with
  | none => .error (.unsupportedElement sub.element (.subcommandWithoutCommand sub.name))
  | some target =>
      if plan.drops sub.element then
        .error (.unsupportedElement sub.element (.subcommandNotGenerated sub.name))
      else
        .ok
          (.addSubcommand sub.name (plan.reference target (.createSpec target.isMethodRooted))
            (subcommandOwner d target))

/-- The statements that add subcommands; each that cannot be added is an error at the command. -/
def subcommands (d : CommandDeclaration) : List NamedElement → Noted (List Statement)
  | [] => ⟨[], []⟩
  | sub :: rest =>
      let added := subcommands d rest
      match plan.subcommand d sub with
      | .ok statement => ⟨statement :: added.value, added.diagnostics⟩
      | .error failure => ⟨added.value, .ofFailure d.id failure :: added.diagnostics⟩

/-- The statements that start a specification. -/
def opening (d : CommandDeclaration) : List Statement :=
  match d.rooting with
  | .classRooted => [.newInstance, .wrapSpec .ofInstance]
  | .methodRooted _ method params => [.resolveMethod method params, .wrapSpec .ofMethod]

/-- The statement that sets the description of a command, if it has any. -/
def describing (d : CommandDeclaration) : List Statement :=
  match d.command with
  | some command => if command.description.isEmpty then [] else [.setDescription command.description]
  | none => []

/-- The factory of a command. -/
def create (d : CommandDeclaration) : Noted Procedure :=
  let added := plan.subcommands d d.subcommands
  ⟨plan.procedure d (.createSpec d.isMethodRooted)
      (opening d ++ [.setName d.displayName] ++ describing d ++ added.value ++
        [.configure (plan.reference d .configureAll) .spec .this, .returnSpec]),
    added.diagnostics⟩

/-- The parts of a configuration, with what each gets first. -/
def parts : List (ProcedureKind × SpecArg) :=
  [(.configureMixins, .spec), (.configureOptions, .optionSink),
    (.configureParameters, .positionalSink), (.configureArgGroups, .spec),
    (.configureSpecs, .spec), (.configureParentCommands, .spec), (.configureUnmatcheds, .spec)]

/-- The call that applies the configuration of the ancestor of a command. -/
def inheriting (d : CommandDeclaration) : List Statement :=
  match d.superCommand.bind plan.registry.command? with
  | none => []
  | some ancestor =>
      [.configure (plan.reference ancestor .configureAll) .spec (.upcast ancestor.typePath)]

/-- The configuration of a command: that of its ancestor, then its own parts in order. -/
def configureAll (d : CommandDeclaration) : Procedure :=
  plan.procedure d .configureAll
    (plan.inheriting d ++
      parts.map fun part => .configure (plan.reference d part.1) part.2 .this)

/-- The statement that adds a mixin. A mixin without a declaration is added as it is. -/
def mixin (named : NamedElement) : Statement :=
  .addMixin named.name (Naming.typePath plan.registry.symbols named.element)
    (((plan.registry.command? named.element).filter fun target => !plan.drops target.id).map
      fun target => plan.reference target .configureAll)

/-- The calls on the builder of a group. -/
def groupCalls (group : ArgGroupDeclaration) : List GroupCall :=
  [.exclusive group.exclusive] ++ group.multiplicity.toList.map .multiplicity ++
    group.heading.toList.map .heading

/-- The statements that add groups, numbered from `index`; a group whose type has no declaration is
an error at the command. -/
def groups (d : CommandDeclaration) : Nat → List ArgGroupDeclaration → Noted (List Statement)
  | _, [] => ⟨[], []⟩
  | index, group :: rest =>
      let added := groups d (index + 1) rest
      match plan.registry.command? group.groupType with
      | none =>
          { added with
            diagnostics :=
              .errorAt d.id ("Arg group type " ++ group.groupType.text ++ " has no declaration") ::
                added.diagnostics }
      | some holder =>
          { added with
            value :=
              .addArgGroup
                { varName := "group" ++ toString index
                  valueName := "value" ++ toString index
                  field := group.field
                  groupType := holder.typePath
                  calls := groupCalls group
                  options := plan.reference holder .configureOptions
                  parameters := plan.reference holder .configureParameters } :: added.value }

/-- The warning for a field that would receive the arguments nobody asked for. -/
def unmatchedWarning (d : CommandDeclaration) (field : String) : Diagnostic :=
  .warningAt d.id ("Unmatched-argument binding `" ++ field ++ "` is not generated")

/-- The procedures of a command in order: its factory, if it is more than a holder, its configuration
and the parts of that. -/
def procedures (d : CommandDeclaration) : Noted (List Procedure) :=
  let created :=
    if d.isCommand then
      let factory := plan.create d
      ⟨[factory.value], factory.diagnostics⟩
    else
      Noted.mk [] []
  let added := plan.groups d 0 d.argGroups
  ⟨created.value ++
      [plan.configureAll d,
        plan.procedure d .configureMixins (d.mixins.map plan.mixin),
        plan.procedure d .configureOptions (argStatements 0 d.directOptions),
        plan.procedure d .configureParameters (argStatements 0 d.directPositionals),
        plan.procedure d .configureArgGroups added.value,
        plan.procedure d .configureSpecs (d.specInjections.map .bindSpec),
        plan.procedure d .configureParentCommands (d.parentInjections.map .bindParent),
        plan.procedure d .configureUnmatcheds []],
    created.diagnostics ++ added.diagnostics ++ d.unmatched.map (unmatchedWarning d)⟩

/-! ## Modules -/

/-- The commands that are kept, in order. -/
def kept : List CommandDeclaration := plan.registry.commands.filter fun d => !plan.drops d.id

/-- The module of a class-shaped declaration. -/
def moduleOf (declaration : Declaration) : GeneratedModule where
  declaration := declaration.id
  name := Naming.moduleName declaration.simpleName plan.registry.settings.moduleSuffix
  path := plan.registry.modulePath declaration.id
  visibility := declaration.visibility
  instanceType := declaration.typePath
  isContainer := declaration.isContainer
  procedures :=
    (plan.kept.filter fun d => d.classId = declaration.id).flatMap fun d =>
      (plan.procedures d).value
  children := []

/-- The class-shaped declarations in order. -/
def classShaped : List Declaration := plan.registry.all.filter Declaration.isClassShaped

/-- The diagnostics of a command that is kept: those of its procedures, and an error if the class
that roots it has no module. -/
def diagnosticsOf (d : CommandDeclaration) : List Diagnostic :=
  (plan.procedures d).diagnostics ++
    if plan.classShaped.any fun declaration => declaration.id = d.classId then []
    else [.errorAt d.id ("No module for class " ++ d.classId.text)]

end Plan

/-- The modules of all class-shaped declarations in order, and the registry with the diagnostics. -/
def Registry.synthesize (registry : Registry) : List GeneratedModule × Registry :=
  let plan := registry.plan
  (plan.classShaped.map plan.moduleOf,
    plan.registry.report (plan.kept.flatMap plan.diagnosticsOf))

end CommandFactory
