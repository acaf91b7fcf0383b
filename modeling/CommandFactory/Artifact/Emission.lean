import CommandFactory.Artifact.Path
import CommandFactory.Diagnostic
import CommandFactory.FileTree.Access
import CommandFactory.Module.Rendering

/-!
# Emission of artifacts

Every output unit is rendered and handed to a sink (`ArtifactSink`), one after the other. A unit that
does not render, and a text that the sink does not take, is an error at the element of the unit, and
the other units still go out. A name that no identifier stands for ends the emission.

Where the settings ask for it, a formatter lays the printed tokens out (`Formatter`). If it fails they
stay as they are printed, and nothing is reported.

Sinks are `FileAccess.sink`, which writes below a directory, and `MemorySink.sink`.
-/

set_option autoImplicit false

namespace CommandFactory

/-! ## Formatters -/

/-- A program that lays texts out. It has one answer to a text, and may fail on it. -/
structure Formatter where
  format : String → Except IoError String

namespace Formatter

/-- There is no such program. -/
def absent : Formatter := ⟨fun _ => .error .notFound⟩

instance : Inhabited Formatter := ⟨absent⟩

end Formatter

/-! ## Texts of units -/

/-- The settings of an emission with the renderer they give, and the formatter at hand. -/
structure Emitter where
  settings : Settings
  renderer : Renderer
  formatter : Formatter
  deriving Inhabited

namespace Emitter

/-- The first lines of an artifact. -/
def header : String := "// @generated by specgen. Do not edit.\n\n"

/-- The emitter of settings. -/
def ofSettings (settings : Settings) (formatter : Formatter := .absent) : Except Failure Emitter :=
  match Renderer.ofSettings settings with
  | .ok renderer => .ok ⟨settings, renderer, formatter⟩
  | .error text => .error (.invalidTypePath text)

/-- Printed tokens as the formatter lays them out, if the settings ask for it and it does not fail. -/
def layOut (emitter : Emitter) (printed : String) : String :=
  if emitter.settings.rustfmt then
    match emitter.formatter.format printed with
    | .ok text => text
    | .error _ => printed
  else printed

/-- A text that ends its last line. -/
def endLine (text : String) : String :=
  if text.toList.getLast? = some '\n' then text else text ++ "\n"

/-- The text of a unit. The formatter does not see the header. -/
def unitText (emitter : Emitter) (unit : OutputUnit) : Except RenderFault String := do
  let tokens ← emitter.renderer.moduleBody unit.module
  let start := if emitter.settings.emitHeader then header else ""
  return endLine (start ++ emitter.layOut (Token.print tokens))

end Emitter

/-! ## Emission -/

/-- Takes the texts of artifacts. -/
structure ArtifactSink (m : Type → Type) where
  write : FilePath → String → m (Except IoError Unit)

/-- The paths of the artifacts that went out and of those that did not, with the errors. -/
structure EmitReport where
  written : List FilePath
  failed : List FilePath
  diagnostics : List Diagnostic
  deriving Repr, Inhabited

namespace EmitReport

/-- Nothing emitted. -/
def empty : EmitReport := ⟨[], [], []⟩

/-- Notes that an artifact went out. -/
def wrote (report : EmitReport) (unit : OutputUnit) : EmitReport :=
  { report with written := report.written ++ [unit.relativePath] }

/-- Notes that an artifact did not go out. -/
def lost (report : EmitReport) (unit : OutputUnit) (failure : Failure) : EmitReport :=
  { report with
    failed := report.failed ++ [unit.relativePath]
    diagnostics := report.diagnostics ++ [.ofFailure unit.element failure] }

end EmitReport

namespace Emitter

variable {m : Type → Type} [Monad m] (emitter : Emitter) (sink : ArtifactSink m)

/-- Emits units after others. The error is the name that ends the emission. -/
def emitFrom : EmitReport → List OutputUnit → m (Except String EmitReport)
  | report, [] => return .ok report
  | report, unit :: rest => do
      match emitter.unitText unit with
      | .error (.unwritable name) => return .error name
      | .error (.typePath text) => emitFrom (report.lost unit (.invalidTypePath text)) rest
      | .ok text =>
          match ← sink.write unit.relativePath text with
          | .ok _ => emitFrom (report.wrote unit) rest
          | .error e => emitFrom (report.lost unit (.artifactWrite unit.element e)) rest

/-- Emits units in order. -/
def emit (units : List OutputUnit) : m (Except String EmitReport) :=
  emitter.emitFrom sink .empty units

end Emitter

/-! ## Sinks -/

/-- The sink that writes files below a directory, and makes the directories they need. -/
def FileAccess.sink {m : Type → Type} [Monad m] (files : FileAccess m) (root : FilePath) :
    ArtifactSink m where
  write path text := do
    let target := root.join path
    match target.parent? with
    | none => files.write target text
    | some above =>
        match ← files.createAll above with
        | .error e => return .error e
        | .ok _ => files.write target text

/-- Texts by path, in the order of the paths. -/
structure MemorySink where
  files : List (FilePath × String)
  deriving Repr, Inhabited

namespace MemorySink

/-- Puts a text under a path. The path keeps the spelling it came with first. -/
def insert (path : FilePath) (text : String) : List (FilePath × String) →
    List (FilePath × String)
  | [] => [(path, text)]
  | (other, content) :: rest =>
      if path.same other then (other, text) :: rest
      else if path.comesBefore other then (path, text) :: (other, content) :: rest
      else (other, content) :: insert path text rest

/-- The sink that keeps texts as the state. -/
def sink : ArtifactSink (StateM MemorySink) where
  write path text := do
    set (MemorySink.mk (insert path text (← get).files))
    return .ok ()

end MemorySink

end CommandFactory
