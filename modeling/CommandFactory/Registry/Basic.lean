import CommandFactory.Declaration.Basic
import CommandFactory.Diagnostic
import CommandFactory.Settings.Basic

/-!
# The registry of declarations

All that one run of the compiler works on: the symbols of the host, the settings, the declarations in
the order in which they were found, and the diagnostics so far.

A class enters the registry once. A container gives its place to a command for the same class; no
other declaration is ever replaced (`accepts`, `insert`).
-/

set_option autoImplicit false

namespace CommandFactory

/-- The state of a run. -/
structure Registry where
  symbols : SymbolTable
  settings : Settings
  declarations : Keyed Declaration.id
  diagnostics : List Diagnostic
  deriving Inhabited

namespace Registry

/-- A registry without declarations. -/
def start (symbols : SymbolTable) (settings : Settings) : Registry :=
  ⟨symbols, settings, .empty, []⟩

variable (registry : Registry)

/-- The declaration of an identity. -/
def get? (id : SymbolId) : Option Declaration := registry.declarations.get? id

/-- The command of an identity. -/
def command? (id : SymbolId) : Option CommandDeclaration :=
  (registry.get? id).bind Declaration.command?

/-- The identities in the order of discovery. -/
def ids : List SymbolId := registry.declarations.keys

/-- The declarations in the order of discovery. -/
def all : List Declaration := registry.declarations.toList

/-- The commands in the order of discovery. -/
def commands : List CommandDeclaration := registry.all.filterMap Declaration.command?

/-- Whether a declaration may enter: its identity is new, or it is a command for a container. -/
def accepts (declaration : Declaration) : Bool :=
  match registry.get? declaration.id with
  | none => true
  | some (.container _) => !declaration.isContainer
  | some (.command _) => false

/-- Puts a declaration in, if the registry accepts it. -/
def insert (declaration : Declaration) : Registry :=
  if registry.accepts declaration then
    { registry with declarations := registry.declarations.put declaration }
  else
    registry

/-- Adds diagnostics at the end. -/
def report (diagnostics : List Diagnostic) : Registry :=
  { registry with diagnostics := registry.diagnostics ++ diagnostics }

/-- How many owners a declaration has above it, counted in at most `steps` steps. -/
def depthFrom : Nat → Option Declaration → Nat
  | 0, _ => 0
  | _ + 1, none => 0
  | steps + 1, some declaration =>
      match declaration.owner with
      | .root _ => 0
      | .declaration id => depthFrom steps (registry.get? id) + 1

/-- How deep a declaration lies below the root. A chain of owners that never ends counts one more
than there are declarations. -/
def depth (id : SymbolId) : Nat :=
  registry.depthFrom (registry.declarations.size + 1) (registry.get? id)

end Registry

end CommandFactory
