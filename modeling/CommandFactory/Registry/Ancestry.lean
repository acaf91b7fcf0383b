import CommandFactory.Registry.Basic

/-!
# Inheritance between commands

A class-rooted declaration inherits the configuration of the nearest class above it that has a
command of its own (`nearestDeclared?`). Classes without one are passed over. A chain of superclasses
that comes back to a class it has left is cut there, and a declaration that finds no ancestor because
of that is warned (`hasSuperclassCycle`).
-/

set_option autoImplicit false

namespace CommandFactory

/-- The item with the same key but a new value, for every item. -/
def Keyed.mapItems {α κ : Type} {key : α → κ} (items : Keyed key) (f : α → α)
    (keeps : ∀ a, key (f a) = key a) : Keyed key :=
  ⟨items.toList.map f, by
    rw [List.map_map, show key ∘ f = key from funext keeps]
    exact items.distinct⟩

/-- A declaration with a new link to its ancestor, if it is class-rooted. -/
def Declaration.linked (link : SymbolId → Option SymbolId) : Declaration → Declaration
  | .command d =>
      if d.rooting = .classRooted then .command { d with superCommand := link d.id } else .command d
  | .container c => .container c

theorem Declaration.id_linked (link : SymbolId → Option SymbolId) (declaration : Declaration) :
    (declaration.linked link).id = declaration.id := by
  cases declaration with
  | command d => by_cases h : d.rooting = .classRooted <;> simp [linked, id, h]
  | container c => rfl

namespace Registry

variable (registry : Registry)

/-- The first class with a command on the way up from a superclass, in at most `steps` steps. The
classes in `visited` have been left. -/
def nearestFrom : Nat → List SymbolId → Option SymbolId → Option SymbolId
  | 0, _, _ => none
  | _ + 1, _, none => none
  | steps + 1, visited, some ancestor =>
      if ancestor ∈ visited then none
      else if (registry.command? ancestor).isSome then some ancestor
      else nearestFrom steps (ancestor :: visited) (registry.symbols.superclass? ancestor)

/-- Whether the way up from a superclass comes back to a visited class, in at most `steps` steps. -/
def repeatsFrom : Nat → List SymbolId → Option SymbolId → Bool
  | 0, _, _ => false
  | _ + 1, _, none => false
  | steps + 1, visited, some ancestor =>
      if ancestor ∈ visited then true
      else repeatsFrom steps (ancestor :: visited) (registry.symbols.superclass? ancestor)

/-- More steps than a way up without repetitions can have. -/
def ancestrySteps : Nat := registry.symbols.size + 2

/-- The nearest ancestor of a class that has a command. -/
def nearestDeclared? (id : SymbolId) : Option SymbolId :=
  registry.nearestFrom registry.ancestrySteps [id] (registry.symbols.superclass? id)

/-- Whether the superclasses of a class come back to a class on the way. -/
def hasSuperclassCycle (id : SymbolId) : Bool :=
  registry.repeatsFrom registry.ancestrySteps [id] (registry.symbols.superclass? id)

/-- The warning for a declaration whose ancestry is cut by a cycle. -/
def cycleWarning? (d : CommandDeclaration) : Option Diagnostic :=
  if d.rooting = .classRooted ∧ registry.nearestDeclared? d.id = none ∧
      registry.hasSuperclassCycle d.id = true then
    some (.warningAt d.id "Superclass chain contains a cycle; inheritance ignored")
  else
    none

/-- The registry with every class-rooted declaration linked to its nearest declared ancestor. -/
def linkAncestors : Registry :=
  { registry with
    declarations :=
      registry.declarations.mapItems (Declaration.linked registry.nearestDeclared?)
        (Declaration.id_linked _)
    diagnostics := registry.diagnostics ++ registry.commands.filterMap registry.cycleWarning? }

end Registry

end CommandFactory
