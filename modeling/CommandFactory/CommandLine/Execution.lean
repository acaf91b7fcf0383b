import CommandFactory.Artifact.Emission
import CommandFactory.CommandLine.Arguments
import CommandFactory.CommandLine.Report
import CommandFactory.Replay.Execution
import CommandFactory.Settings.File

/-!
# Carrying out requests

`Request.run` carries a request out on given files. It loads the manifest and the settings, does the
work, and gives the outcome. A run fails with status 1; where a name has no identifier it breaks off
with status 101.
-/

set_option autoImplicit false

namespace CommandFactory

namespace CommandLine

variable {m : Type → Type} [Monad m] (files : FileAccess m) (limits : Settings.SearchLimits)

/-! ## Inputs -/

/-- Loads a manifest, or gives the messages of the failure. -/
def loadManifest (path : FilePath) : m (Except (List String) Manifest) := do
  if (← files.kind? path).isNone then
    return .error ["Manifest not found: " ++ path.text]
  let loaded : Except Failure Manifest :=
    match ← files.read path with
    | .error e => .error (.io e)
    | .ok text => (Manifest.ofText text).mapError Failure.decoding
  return loaded.mapError fun failure => ("Failed to load manifest " ++ path.text) :: failure.chain

/-- The directory in which the search for settings starts. -/
def searchStart (manifest : FilePath) : FilePath :=
  match manifest.parent? with
  | some directory => if directory.text.isEmpty then ⟨"."⟩ else directory
  | none => ⟨"."⟩

/-- Loads settings: from the named file, or from the nearest one. -/
def loadSettings (manifest : FilePath) (named : Option FilePath) :
    m (Except (List String) Settings) := do
  match named with
  | some path =>
      let loaded ← Settings.load files path
      return loaded.mapError fun failure =>
        ("Failed to load config " ++ path.text) :: failure.chain
  | none =>
      let loaded ← Settings.discover files limits (searchStart manifest)
      return loaded.mapError fun failure => "Failed to load configuration" :: failure.chain

/-- Loads manifest and settings and goes on with them. -/
def withInputs (path : FilePath) (named : Option FilePath)
    (run : Manifest → Settings → m Outcome) : m Outcome := do
  match ← loadManifest files path with
  | .error messages => return .failed "" "" messages
  | .ok manifest =>
      match ← loadSettings files limits path named with
      | .error messages => return .failed "" "" messages
      | .ok settings => run manifest settings

/-! ## Generating -/

/-- The outcome of a run that breaks off. -/
def brokenOff : Outcome := ⟨101, "", ""⟩

/-- The last lines of a report on generated modules, and the outcome. -/
def finish (shown : List String) (before : List Diagnostic) (report : EmitReport) : Outcome :=
  let log := before ++ report.diagnostics
  let none :=
    if report.written.isEmpty && report.failed.isEmpty then
      ["ℹ️  No command declarations found; nothing generated."]
    else []
  let stdout := Report.lines (shown ++ Report.diagnostics log ++ none)
  if Diagnostics.hasErrors log then
    .failed stdout ""
      ["Generation finished with " ++ toString (Diagnostics.count .error log) ++ " error(s)"]
  else ⟨0, stdout, ""⟩

/-- The lines for the texts of modules that are only shown. -/
def shownFiles (output : FilePath) (memory : MemorySink) : List String :=
  memory.files.flatMap fun file =>
    ["📄 " ++ (output.join file.1).text, Report.rule, file.2]

/-- The lines for the artifacts that went out and those that did not. -/
def writtenFiles (output : FilePath) (report : EmitReport) : List String :=
  report.written.map (fun path => "✅ Wrote " ++ (output.join path).text) ++
    report.failed.map fun path => "❌ Failed " ++ (output.join path).text

/-- Generates the modules of a manifest. -/
def generate (formatter : Formatter) (output : FilePath) (dryRun : Bool) (manifest : Manifest)
    (settings : Settings) : m Outcome := do
  let compilation := Compilation.ofManifest settings manifest
  match Emitter.ofSettings settings formatter with
  | .error failure => return .failed "" "" failure.chain
  | .ok emitter =>
      if dryRun then
        match (emitter.emit MemorySink.sink compilation.units).run ⟨[]⟩ with
        | (.error _, _) => return brokenOff
        | (.ok report, memory) =>
            return finish (shownFiles output memory) compilation.diagnostics report
      else
        match ← emitter.emit (files.sink output) compilation.units with
        | .error _ => return brokenOff
        | .ok report => return finish (writtenFiles output report) compilation.diagnostics report

/-! ## Inspecting -/

/-- Shows the declarations of a manifest. -/
def inspect (path : FilePath) (json : Bool) (manifest : Manifest) (settings : Settings) :
    Outcome :=
  let analysis := Analysis.ofManifest settings manifest
  if json then ⟨0, Report.lines [analysis.encode.pretty], ""⟩
  else
    let found :=
      if analysis.declarations.isEmpty then ["\n❌ No declarations found."]
      else
        ("\n✅ Found " ++ toString analysis.declarations.length ++ " declaration(s):\n") ::
          Report.declarations 1 analysis.declarations
    ⟨0,
      Report.lines
        (["🔍 Inspecting: " ++ path.text, Report.rule] ++ found ++
          Report.diagnostics analysis.diagnostics ++ ["\n" ++ Report.rule]),
      ""⟩

/-! ## Replaying -/

/-- Shows the specification of a command. -/
def replay (element : String) (manifest : Manifest) (settings : Settings) : Outcome :=
  let compilation := Compilation.ofManifest settings manifest
  let log := Report.lines (compilation.diagnostics.map Diagnostic.display)
  match compilation.replay? ⟨element⟩ with
  | none => .failed "" log ["No command factory generated for " ++ element]
  | some replay =>
      match replay.run .empty with
      | .error fault =>
          .failed "" log (("Failed to replay " ++ element) :: (Failure.replay fault).chain)
      | .ok (spec, _) => ⟨0, Report.lines [spec.encode.pretty], log⟩

end CommandLine

/-! ## Requests -/

/-- The version of the program. -/
def programVersion : String := "specgen 0.1.0"

/-- Carries a request out. -/
def Request.run {m : Type → Type} [Monad m] (files : FileAccess m)
    (limits : Settings.SearchLimits) (formatter : Formatter) : Request → m Outcome
  | .version => return ⟨0, Report.lines [programVersion], ""⟩
  | .generate manifest output settings dryRun rustfmt =>
      CommandLine.withInputs files limits manifest settings fun manifest settings =>
        CommandLine.generate files formatter output dryRun manifest
          { settings with rustfmt := settings.rustfmt || rustfmt }
  | .inspect manifest json settings =>
      CommandLine.withInputs files limits manifest settings fun content settings =>
        return CommandLine.inspect manifest json content settings
  | .replay manifest element settings =>
      CommandLine.withInputs files limits manifest settings fun content settings =>
        return CommandLine.replay element content settings

/-- Carries out what the arguments of the program ask for. Refused arguments end with status 2. -/
def runArguments {m : Type → Type} [Monad m] (files : FileAccess m)
    (limits : Settings.SearchLimits) (arguments : List String)
    (formatter : Formatter := .absent) : m Outcome :=
  match Request.ofArguments arguments with
  | .error e => return ⟨2, "", Report.lines ["error: " ++ e.message]⟩
  | .ok request => request.run files limits formatter

end CommandFactory
