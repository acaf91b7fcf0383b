import CommandFactory.Module.Basic
import CommandFactory.Registry.Basic
import CommandFactory.Sorting

/-!
# Nesting of modules

Flat modules become trees: each module goes into the module of the declaration that owns its own, and
the modules of declarations at the root become units of output (`OutputUnit`). A module whose owner
has no module is an error. Trees without any procedure are left out.

`Registry.assemble` works from the deepest modules up, so that a module is complete before it goes
into its owner; at the end the children of each module are put in the order of discovery.
-/

set_option autoImplicit false

namespace CommandFactory

/-- A tree of modules at the root, and the package it belongs to. -/
structure OutputUnit where
  module : GeneratedModule
  package : Option String
  deriving Repr, Inhabited

namespace OutputUnit

/-- The declaration of the module at the root of the unit. -/
def element (unit : OutputUnit) : SymbolId := unit.module.declaration

end OutputUnit

namespace GeneratedModule

/-- Adds a module at the end of the children. -/
def adopt (module : GeneratedModule) (child : GeneratedModule) : GeneratedModule :=
  { module with children := module.children ++ [child] }

/-- Whether a place in an order comes no later than another. No place comes first. -/
def comesBefore : Option Nat → Option Nat → Bool
  | none, _ => true
  | some _, none => false
  | some a, some b => a ≤ b

/-- Modules in the order of their declarations. -/
def inOrder (position : SymbolId → Option Nat) (modules : List GeneratedModule) :
    List GeneratedModule :=
  sortBy (fun a b => comesBefore (position a.declaration) (position b.declaration)) modules

mutual

/-- The tree with the children of every module in the order of their declarations. -/
def arranged (position : SymbolId → Option Nat) : GeneratedModule → GeneratedModule
  | ⟨declaration, name, path, visibility, instanceType, isContainer, procedures, children⟩ =>
      ⟨declaration, name, path, visibility, instanceType, isContainer, procedures,
        inOrder position (arrangedAll position children)⟩

/-- Several trees, each arranged. -/
def arrangedAll (position : SymbolId → Option Nat) : List GeneratedModule → List GeneratedModule
  | [] => []
  | module :: rest => arranged position module :: arrangedAll position rest

end

/-- Whether there is a procedure anywhere in the tree. -/
def hasProcedures (module : GeneratedModule) : Bool :=
  module.walk.any fun m => !m.procedures.isEmpty

end GeneratedModule

/-! ## Assembly -/

/-- A module to be placed: how deep its declaration lies, and its place among the modules. -/
structure Placement where
  depth : Nat
  index : Nat
  declaration : SymbolId
  deriving DecidableEq, Repr, Inhabited

/-- A tree at the root: the place of its module among the modules, and its package. -/
structure RootTree where
  index : Nat
  package : Option String
  module : GeneratedModule
  deriving Repr, Inhabited

/-- An assembly under way: the modules that have no place yet, the trees at the root, and the
diagnostics. -/
structure Assembly where
  pending : Keyed GeneratedModule.declaration
  roots : List RootTree
  diagnostics : List Diagnostic
  deriving Inhabited

namespace Assembly

/-- Gives one module its place: in the module of its owner, or at the root. -/
def place (registry : Registry) (state : Assembly) (placement : Placement) : Assembly :=
  let id := placement.declaration
  match state.pending.get? id with
  | none => state
  | some module =>
      let pending := state.pending.erase id
      match registry.get? id with
      | none => { state with pending }
      | some declaration =>
          match declaration.owner with
          | .root package =>
              { state with pending, roots := state.roots ++ [⟨placement.index, package, module⟩] }
          | .declaration owner =>
              match pending.get? owner with
              | some parent => { state with pending := pending.put (parent.adopt module) }
              | none =>
                  { state with
                    pending
                    diagnostics :=
                      state.diagnostics ++
                        [.errorAt id ("Owner " ++ owner.text ++ " has no generated module")] }

end Assembly

namespace Registry

variable (registry : Registry)

/-- The modules with their depths, numbered from `index`. -/
def placements : Nat → List GeneratedModule → List Placement
  | _, [] => []
  | index, module :: rest =>
      ⟨registry.depth module.declaration, index, module.declaration⟩ :: placements (index + 1) rest

/-- The order of placement: the deepest first, and in order among those of one depth. -/
def placementOrder (modules : List GeneratedModule) : List Placement :=
  sortBy (fun a b => b.depth ≤ a.depth) (registry.placements 0 modules)

/-- The place of a declaration in the order of discovery. -/
def position? (id : SymbolId) : Option Nat := registry.declarations.index? id

/-- The units of modules, and the registry with the diagnostics. -/
def assemble (modules : List GeneratedModule) : List OutputUnit × Registry :=
  let placed :=
    (registry.placementOrder modules).foldl (Assembly.place registry)
      ⟨.ofList modules, [], []⟩
  let roots := sortBy (fun a b => a.index ≤ b.index) placed.roots
  let units := roots.map fun root =>
    OutputUnit.mk (root.module.arranged registry.position?) root.package
  (units.filter fun unit => unit.module.hasProcedures, registry.report placed.diagnostics)

end Registry

end CommandFactory
