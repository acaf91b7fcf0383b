import CommandFactory.Declaration.Basic
import CommandFactory.Diagnostic
import CommandFactory.Naming

/-!
# Checking specifications

How the specification of an element becomes a declaration. Parts that cannot be used are left out,
and each of them leaves a diagnostic:

- `ArgDeclaration.ofInput` checks one argument, `checkArgs` a list of them;
- `checkGroups` ties each group of arguments to the fields of the class that hold it;
- `checkNames` keeps the names that generated text can mention;
- `CommandDeclaration.ofInput` puts a declaration together.

None of these looks at other declarations.
-/

set_option autoImplicit false

namespace CommandFactory

/-! ## Arguments -/

/-- The binding of an argument to the member that carries it. A method without parameters is the
getter; any other method is the setter. -/
def Binding.ofMember (symbol : Symbol) (input : ArgInput) : Except Failure Binding :=
  match symbol.kind with
  | .field type _ => .ok (.field symbol.name type)
  | .method [] => .ok (.accessor symbol.name (input.getter <|> some symbol.name) input.setter)
  | .method _ => .ok (.accessor symbol.name input.getter (input.setter <|> some symbol.name))
  | .parameter type => .ok (.parameter symbol.name type)
  | kind => .error (.unsupportedElement symbol.id (.kind kind.describe))

/-- What the category adds to an argument. -/
def ArgKind.ofInput (expected : ArgCategory) (input : ArgInput) : Except Failure ArgKind :=
  match expected with
  | .option =>
      if input.names.isEmpty then
        .error (.unsupportedArg input.element .optionWithoutNames)
      else
        .ok (.option input.names input.fallbackValue input.negatable input.usageHelp)
  | _ => .ok (.positional (input.index.getD "0..*"))

namespace ArgDeclaration

/-- The argument of a specification, which has to be of the expected category. -/
def ofInput (table : SymbolTable) (expected : ArgCategory) (input : ArgInput) :
    Except Failure ArgDeclaration :=
  if input.category ≠ expected then
    .error (.unsupportedArg input.element (.category input.category.name))
  else
    match table.get? input.element with
    | none => .error (.unknownSymbol input.element)
    | some symbol =>
        match symbol.owner with
        | none => .error (.unknownSymbol input.element)
        | some owner => do
            let binding ← Binding.ofMember symbol input
            match binding.mentioned.find? fun name => !Text.isMemberName name with
            | some name => .error (.invalidIdentifier name)
            | none =>
                let kind ← ArgKind.ofInput expected input
                .ok
                  { element := input.element
                    owner
                    binding
                    kind
                    arity := input.arity
                    description := input.description
                    type := ⟨input.typeName, input.auxTypes⟩
                    defaultValue := input.defaultValue
                    hasInitialValue := input.hasInitialValue
                    hidden := input.hidden
                    scope := input.scope
                    mapFallbackValue := input.mapFallbackValue
                    preprocessor := input.preprocessor
                    parameterConsumer := input.parameterConsumer
                    inherited := input.inherited }

end ArgDeclaration

/-- The arguments of a list that can be used; each of the others is an error at its element. -/
def checkArgs (table : SymbolTable) (expected : ArgCategory) :
    List ArgInput → Noted (List ArgDeclaration)
  | [] => ⟨[], []⟩
  | input :: rest =>
      let checked := checkArgs table expected rest
      match ArgDeclaration.ofInput table expected input with
      | .ok arg => ⟨arg :: checked.value, checked.diagnostics⟩
      | .error failure =>
          ⟨checked.value, .ofFailure input.element failure :: checked.diagnostics⟩

/-! ## Groups -/

/-- The type that holds the arguments of a group: the owner of its first argument. -/
def ArgGroupInput.holder? (table : SymbolTable) (first : ArgInput) : Option SymbolId :=
  (table.get? first.element).bind Symbol.owner

/-- Is a field for a group whose declared type is, up to erasure, the type. -/
def Symbol.holdsGroup (groupType : SymbolId) (symbol : Symbol) : Bool :=
  match symbol.kind with
  | .field type true => erasure type = groupType.text
  | _ => false

/-- A group in the field that holds it. -/
def ArgGroupDeclaration.ofField (group : ArgGroupInput) (groupType : SymbolId) (field : Symbol) :
    ArgGroupDeclaration :=
  ⟨field.name, groupType, group.exclusive, group.multiplicity, group.heading⟩

/-- The groups of a class in the fields that hold them, and, for each group that has a field, its
type with its specification. -/
structure Groups where
  declared : List ArgGroupDeclaration
  pending : List (SymbolId × ArgGroupInput)
  deriving Repr, Inhabited

/-- Ties each group to the group fields of a class whose type is the group's. -/
def checkGroups (table : SymbolTable) (classId : SymbolId) : List ArgGroupInput → Noted Groups
  | [] => ⟨⟨[], []⟩, []⟩
  | group :: rest =>
      let checked := checkGroups table classId rest
      match group.args with
      | [] =>
          { checked with
            diagnostics :=
              .warningAt classId "Skipping arg group without args" :: checked.diagnostics }
      | first :: _ =>
          match ArgGroupInput.holder? table first with
          | none =>
              { checked with
                diagnostics :=
                  .errorAt classId
                    ("Cannot determine the value type of the arg group containing " ++
                      first.element.text) :: checked.diagnostics }
          | some groupType =>
              match (table.fieldsOf classId).filter (Symbol.holdsGroup groupType) with
              | [] =>
                  { checked with
                    diagnostics :=
                      .warningAt classId ("No arg-group field of type " ++ groupType.text) ::
                        checked.diagnostics }
              | fields =>
                  { checked with
                    value :=
                      ⟨fields.map (.ofField group groupType) ++ checked.value.declared,
                        (groupType, group) :: checked.value.pending⟩ }

/-! ## Names -/

/-- The items whose names generated text can mention; each of the others is an error at an element. -/
def checkNames {α : Type} (element : SymbolId) (name : α → String) (items : List α) :
    Noted (List α) :=
  ⟨items.filter fun item => Text.isMemberName (name item),
    (items.filter fun item => !Text.isMemberName (name item)).map fun item =>
      .ofFailure element (.invalidIdentifier (name item))⟩

/-! ## Declarations -/

/-- The groups of a declaration. Only class-rooted declarations may have any. -/
def checkGroupsOf (table : SymbolTable) (symbol : Symbol) (input : CommandInput) :
    Rooting → Noted Groups
  | .classRooted => checkGroups table symbol.id input.argGroups
  | .methodRooted .. =>
      ⟨⟨[], []⟩,
        if input.argGroups.isEmpty then []
        else
          [.errorAt symbol.id "Arg groups on method-rooted commands are not supported"]⟩

namespace CommandDeclaration

/-- The declaration of a symbol, and its groups that need a declaration of their type. -/
def ofInput (table : SymbolTable) (symbol : Symbol) (input : CommandInput) (rooting : Rooting)
    (owner : Scope) : Noted (CommandDeclaration × List (SymbolId × ArgGroupInput)) :=
  let classId :=
    match rooting with
    | .classRooted => symbol.id
    | .methodRooted classId _ _ => classId
  let classSymbol := (table.get? classId).getD symbol
  let options := checkArgs table .option input.options
  let positionals := checkArgs table .positional input.positionals
  let groups := checkGroupsOf table symbol input rooting
  let mixins := checkNames symbol.id NamedElement.name input.mixins
  let specs := checkNames symbol.id (fun name => name) input.specElements
  let parents := checkNames symbol.id (fun name => name) input.parentCommandElements
  let unmatched := checkNames symbol.id (fun name => name) input.unmatched
  ⟨({ id := symbol.id
      rooting
      command := input.command
      owner
      simpleName := symbol.name
      typePath := Naming.typePath table classId
      visibility := classSymbol.visibility
      superCommand := none
      subcommands := input.subcommands
      mixins := mixins.value
      options := options.value
      positionals := positionals.value
      argGroups := groups.value.declared
      specInjections := specs.value
      parentInjections := parents.value
      unmatched := unmatched.value },
      groups.value.pending),
    options.diagnostics ++ positionals.diagnostics ++ groups.diagnostics ++ mixins.diagnostics ++
      specs.diagnostics ++ parents.diagnostics ++ unmatched.diagnostics⟩

end CommandDeclaration

end CommandFactory
