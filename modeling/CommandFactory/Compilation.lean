import CommandFactory.Declaration.Coding
import CommandFactory.Module.Nesting
import CommandFactory.Module.Synthesis
import CommandFactory.Registry.Ancestry
import CommandFactory.Registry.Extraction

/-!
# Compilation

The whole way from a manifest to output units, in memory.

- `Registry.ofManifest` holds the declarations of a manifest, linked to their ancestors;
- `Analysis.ofManifest` lists them with their depths;
- `Compilation.ofManifest` goes on to the output units. Without any command there is no output.
-/

set_option autoImplicit false

namespace CommandFactory

/-- The declarations of a manifest, linked to their ancestors. -/
def Registry.ofManifest (settings : Settings) (manifest : Manifest) : Registry :=
  ((Registry.start manifest.symbols settings).extract manifest.elements).linkAncestors

/-- A declaration with its depth. -/
structure AnalyzedDeclaration where
  depth : Nat
  declaration : Declaration
  deriving DecidableEq, Repr, Inhabited

/-- The declarations of a manifest, with what was reported on the way. -/
structure Analysis where
  declarations : List AnalyzedDeclaration
  diagnostics : List Diagnostic
  deriving Repr, Inhabited

namespace Analysis

/-- Analyzes a manifest. -/
def ofManifest (settings : Settings) (manifest : Manifest) : Analysis :=
  let registry := Registry.ofManifest settings manifest
  { declarations :=
      registry.all.map fun declaration => ⟨registry.depth declaration.id, declaration⟩
    diagnostics := registry.diagnostics }

/-- The declarations as an object. -/
def encode (analysis : Analysis) : Json :=
  .object
    [("declarations",
      .array
        (analysis.declarations.map fun analyzed =>
          .object (("depth", .number analyzed.depth) :: analyzed.declaration.encodeMembers)))]

end Analysis

/-- The output units of a manifest, with what was reported on the way. -/
structure Compilation where
  units : List OutputUnit
  diagnostics : List Diagnostic
  deriving Inhabited

namespace Compilation

/-- Compiles a manifest. -/
def ofManifest (settings : Settings) (manifest : Manifest) : Compilation :=
  let registry := Registry.ofManifest settings manifest
  if registry.commands.any CommandDeclaration.isCommand then
    let (modules, registry) := registry.synthesize
    let (units, registry) := registry.assemble modules
    ⟨units, registry.diagnostics⟩
  else
    ⟨[], registry.diagnostics⟩

/-- The modules at the roots of the units. -/
def modules (compilation : Compilation) : List GeneratedModule :=
  compilation.units.map OutputUnit.module

/-- The factory of an element in a module. -/
def factoryIn (element : SymbolId) (module : GeneratedModule) :
    Option (GeneratedModule × Procedure) :=
  (module.procedures.find? fun procedure =>
      procedure.element = element && procedure.kind.isCreate).map fun procedure =>
    (module, procedure)

/-- The factory of an element, with its module. -/
def factory? (compilation : Compilation) (element : SymbolId) :
    Option (GeneratedModule × Procedure) :=
  (GeneratedModule.walkAll compilation.modules).findSome? (factoryIn element)

end Compilation

end CommandFactory
