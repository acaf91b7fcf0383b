import CommandFactory.FileTree.Path
import CommandFactory.Module.Nesting

/-!
# Paths of artifacts

Where the text of an output unit goes, relative to the directory for all output: one directory for
each module name above the module of the unit, and a file named for the module.
-/

set_option autoImplicit false

namespace CommandFactory

/-- The path of the artifact of a unit. -/
def OutputUnit.relativePath (unit : OutputUnit) : FilePath :=
  (FilePath.ofNames unit.module.path.segments.dropLast).join ⟨unit.module.name ++ ".rs"⟩

end CommandFactory
