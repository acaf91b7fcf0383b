import CommandFactory.FileTree.Access
import CommandFactory.Settings.Basic
import CommandFactory.Token.TypeGrammar

/-!
# Files with settings

Settings are read from a file, checked, and written back. Without a named file they come from the
nearest `.specgen.json`: in the directory where the search starts, or in one above it, but not above
the project root or the home directory (`nearestFile?`).
-/

set_option autoImplicit false

namespace CommandFactory

namespace Settings

/-! ## Checking -/

/-- A character that a module suffix may have. -/
def isSuffixChar (c : Char) : Bool := c.isAlphanum || c == '_'

/-- The fault of a text that should be a path. -/
def checkPath (key text : String) : Except SettingsFault Unit :=
  if (Token.path? text).isSome then .ok () else .error (.path key text)

/-- The settings, unless one of them is refused: the suffix, then the module root, then the crate. -/
def validate (settings : Settings) : Except SettingsFault Settings := do
  if !settings.moduleSuffix.toList.all isSuffixChar then
    .error (.suffix settings.moduleSuffix)
  checkPath "module_root" settings.moduleRoot
  checkPath "runtime_crate" settings.runtimeCrate
  return settings

/-- The settings that a text spells, if none is refused. -/
def ofText (text : String) : Except Failure Settings :=
  match Json.decodeText record.decode text with
  | .error e => .error (.settings (.unreadable e))
  | .ok settings => settings.validate.mapError Failure.settings

/-! ## Loading and saving -/

variable {m : Type → Type} [Monad m] (files : FileAccess m)

/-- Reads settings from a file. -/
def load (path : FilePath) : m (Except Failure Settings) := do
  match ← files.read path with
  | .error e => return .error (.io e)
  | .ok text => return ofText text

/-- Writes settings to a file. -/
def save (settings : Settings) (path : FilePath) : m (Except Failure Unit) := do
  match ← files.write path settings.encode.pretty with
  | .error e => return .error (.io e)
  | .ok _ => return .ok ()

/-! ## Discovery -/

/-- The name of the file that is searched for. -/
def fileName : FilePath := ⟨".specgen.json"⟩

/-- The directories above which no search goes. -/
structure SearchLimits where
  projectRoot : Option FilePath
  home : Option FilePath
  deriving DecidableEq, Repr, Inhabited

/-- Whether a search ends at a directory. -/
def SearchLimits.stopsAt (limits : SearchLimits) (directory : FilePath) : Bool :=
  limits.projectRoot.any directory.same || limits.home.any directory.same

/-- The nearest file, from a directory upwards through at most `levels` directories. -/
def nearestFrom (limits : SearchLimits) : Nat → FilePath → m (Option FilePath)
  | 0, _ => return none
  | levels + 1, directory => do
      let path := directory.join fileName
      if (← files.kind? path).isSome then return some path
      else if limits.stopsAt directory then return none
      else
        match directory.parent? with
        | none => return none
        | some above => nearestFrom limits levels above

/-- The nearest file for a path: where it leads if that is a directory, else where it lies. -/
def nearestFile? (limits : SearchLimits) (path : FilePath) : m (Option FilePath) := do
  let levels := path.components.length + 2
  if (← files.kind? path) = some .file then
    match path.parent? with
    | none => return none
    | some directory => nearestFrom files limits levels directory
  else nearestFrom files limits levels path

/-- The settings of the nearest file, or the defaults without one. -/
def discover (limits : SearchLimits) (path : FilePath) : m (Except Failure Settings) := do
  match ← nearestFile? files limits path with
  | none => return .ok {}
  | some file => load files file

end Settings

end CommandFactory
