import CommandFactory.Failure
import CommandFactory.FileTree.Path

/-!
# Access to files

What the compiler asks of the files around it, as operations in some monad (`FileAccess`): a tree of
files in memory gives one such access, the files of a machine another. `FileAccess.createAll` makes
a directory with all directories above it.
-/

set_option autoImplicit false

namespace CommandFactory

/-- What a path leads to. -/
inductive FileKind where
  | file
  | directory
  deriving DecidableEq, Repr, Inhabited

/-- Operations on files. -/
structure FileAccess (m : Type → Type) where
  /-- What a path leads to, if it leads anywhere. -/
  kind? : FilePath → m (Option FileKind)
  /-- The text of a file. -/
  read : FilePath → m (Except IoError String)
  /-- Makes a directory in a directory. -/
  makeDirectory : FilePath → m (Except IoError Unit)
  /-- Writes a file anew. -/
  write : FilePath → String → m (Except IoError Unit)

namespace FileAccess

variable {m : Type → Type} [Monad m] (files : FileAccess m)

/-- Makes a directory; it may be there already. -/
def ensureDirectory (path : FilePath) : m (Except IoError Unit) := do
  match ← files.makeDirectory path with
  | .ok _ => return .ok ()
  | .error e =>
      if (← files.kind? path) = some .directory then return .ok () else return .error e

/-- Makes a directory and the directories above it, at most `levels` of them. -/
def createFrom : Nat → FilePath → m (Except IoError Unit)
  | 0, _ => return .error (.other "failed to create whole tree")
  | levels + 1, path => do
      if path.components.isEmpty then return .ok ()
      match ← files.ensureDirectory path with
      | .ok _ => return .ok ()
      | .error e =>
          if e ≠ .notFound then return .error e
          match path.parent? with
          | none => return .error (.other "failed to create whole tree")
          | some above =>
              match ← createFrom levels above with
              | .error e => return .error e
              | .ok _ => files.ensureDirectory path

/-- Makes a directory and all directories above it. -/
def createAll (path : FilePath) : m (Except IoError Unit) :=
  files.createFrom (path.components.length + 1) path

end FileAccess

end CommandFactory
