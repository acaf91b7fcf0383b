import CommandFactory.Declaration.Checking
import CommandFactory.Registry.Basic

/-!
# Extraction of declarations

`Registry.extract` turns the elements of a host into declarations, one after the other. An element
that cannot be used, or that comes a second time, leaves a diagnostic and nothing else.

Where a declaration lives follows the owners of its symbol (`enclosingScope`): in the nearest class,
which gets a container if it has no declaration yet, or at the root in the nearest package.
Owners are followed for at most `maxNesting` levels. At the end the types of argument groups get
declarations of their own, unless they are among the elements.
-/

set_option autoImplicit false

namespace CommandFactory

namespace Registry

/-- The number of owners after which a chain of owners counts as malformed. -/
def maxNesting : Nat := 64

/-- The container of a class. -/
def containerOf (table : SymbolTable) (symbol : Symbol) (owner : Scope) : Declaration :=
  .container
    ⟨symbol.id, owner, symbol.name, Naming.typePath table symbol.id, symbol.visibility⟩

/-- The scope that the owner of a symbol makes, and the registry with the containers it needs. At
most `levels` owners are followed. -/
def enclosingScope : Nat → Registry → Option SymbolId → Scope × Registry
  | levels, registry, owner =>
      match owner.bind fun id => registry.symbols.get? id with
      | none => (.root none, registry)
      | some symbol =>
          match levels with
          | 0 => (.root none, registry)
          | levels + 1 =>
              match symbol.kind with
              | .package => (.root (some symbol.id.text), registry)
              | .classType .. =>
                  if registry.declarations.contains symbol.id then
                    (.declaration symbol.id, registry)
                  else
                    let (scope, registry) := enclosingScope levels registry symbol.owner
                    (.declaration symbol.id,
                      registry.insert (containerOf registry.symbols symbol scope))
              | _ => enclosingScope levels registry symbol.owner

/-- The registry with a declaration for a class: a container, if it has none. -/
def ensureContainer (registry : Registry) (symbol : Symbol) : Registry :=
  if registry.declarations.contains symbol.id then registry
  else
    let (scope, registry) := enclosingScope (maxNesting + 1) registry symbol.owner
    registry.insert (containerOf registry.symbols symbol scope)

/-- What a command of a symbol is rooted in, its scope, and the registry with the containers it
needs. -/
def root (registry : Registry) (symbol : Symbol) :
    Except Failure (Rooting × Scope × Registry) :=
  match symbol.kind with
  | .classType .. =>
      let (scope, registry) := enclosingScope (maxNesting + 1) registry symbol.owner
      .ok (.classRooted, scope, registry)
  | .method params =>
      match (symbol.owner.bind fun id => registry.symbols.get? id).filter Symbol.isClass with
      | none => .error (.unsupportedElement symbol.id .methodOutsideClass)
      | some owner =>
          .ok (.methodRooted owner.id symbol.name (params.map erasure), .declaration owner.id,
            registry.ensureContainer owner)
  | kind => .error (.unsupportedElement symbol.id (.kind kind.describe))

end Registry

/-- An extraction under way: the registry, and the groups whose types may need declarations. -/
structure Extraction where
  registry : Registry
  pending : List (SymbolId × ArgGroupInput)
  deriving Inhabited

namespace Extraction

/-- Takes in one element. -/
def element (state : Extraction) (input : CommandInput) : Extraction :=
  let registry := state.registry
  match registry.symbols.get? input.element with
  | none =>
      { state with
        registry := registry.report [.ofFailure input.element (.unknownSymbol input.element)] }
  | some symbol =>
      if (registry.command? input.element).isSome then
        { state with
          registry :=
            registry.report
              [.warningAt input.element "Element declared more than once; keeping the first"] }
      else
        match registry.root symbol with
        | .error failure =>
            { state with registry := registry.report [.ofFailure input.element failure] }
        | .ok (rooting, scope, registry) =>
            let noted := CommandDeclaration.ofInput registry.symbols symbol input rooting scope
            let registry := registry.report noted.diagnostics
            { registry := registry.insert (.command noted.value.1)
              pending := state.pending ++ noted.value.2 }

/-- Takes in elements in order. -/
def elements (state : Extraction) (inputs : List CommandInput) : Extraction :=
  inputs.foldl element state

/-- The specification of the type of a group, made from the arguments of the group. -/
def holderInput (groupType : SymbolId) (group : ArgGroupInput) : CommandInput :=
  { CommandInput.bare groupType with
    options := group.args.filter fun arg => arg.category = .option
    positionals := group.args.filter fun arg => arg.category ≠ .option }

/-- Declares the type of a group, unless it has a declaration. -/
def holder (state : Extraction) (group : SymbolId × ArgGroupInput) : Extraction :=
  if (state.registry.command? group.1).isSome then state
  else state.element (holderInput group.1 group.2)

/-- Declares the types of all groups in order. -/
def holders (state : Extraction) : Extraction := state.pending.foldl holder state

end Extraction

/-- The registry with the declarations of the elements. -/
def Registry.extract (registry : Registry) (inputs : List CommandInput) : Registry :=
  ((Extraction.mk registry []).elements inputs).holders.registry

end CommandFactory
