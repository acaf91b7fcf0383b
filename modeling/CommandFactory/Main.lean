import CommandFactory.CommandLine.Execution

/-!
# The program

The command line on the files of the machine. Everything but the access to files, to the environment
and to the terminal is in `runArguments`. No formatter is started, so texts stay as they are printed.
-/

set_option autoImplicit false

namespace CommandFactory

/-- The error of a file operation as the machine reports it. -/
def IoError.ofSystem : IO.Error → IoError
  | .noFileOrDirectory .. => .notFound
  | .alreadyExists .. => .alreadyExists
  | .inappropriateType _ code _ => if code = 20 then .notDirectory else .isDirectory
  | .invalidArgument _ code details => if code = 36 then .nameTooLong else .other details
  | e => .other (toString e)

/-- The outcome of a file operation. -/
def attempt {α : Type} (action : IO α) : IO (Except IoError α) := do
  match ← action.toBaseIO with
  | .ok a => return .ok a
  | .error e => return .error (.ofSystem e)

/-- What a path of the machine leads to. A directory can be opened but not read. -/
def systemKind? (path : FilePath) : IO (Option FileKind) := do
  match ← attempt (IO.FS.Handle.mk path.text .read) with
  | .error _ => return none
  | .ok handle =>
      match ← attempt (handle.read 1) with
      | .ok _ => return some .file
      | .error _ => return some .directory

/-- The files of the machine. -/
def systemFiles : FileAccess IO where
  kind? := systemKind?
  read path := attempt (IO.FS.readFile path.text)
  makeDirectory path := attempt (IO.FS.createDir path.text)
  write path text := attempt (IO.FS.writeFile path.text text)

end CommandFactory

open CommandFactory in
/-- Runs the program and ends with the status of the run. -/
def main (arguments : List String) : IO UInt32 := do
  let projectRoot := (← IO.getEnv "PROJECT_ROOT").map FilePath.mk
  let home := (← IO.getEnv "HOME").map FilePath.mk
  let outcome ← runArguments systemFiles ⟨projectRoot, home⟩ arguments
  IO.print outcome.stdout
  IO.eprint outcome.stderr
  return outcome.exit.toUInt32
