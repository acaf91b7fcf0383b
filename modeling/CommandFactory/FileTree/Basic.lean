import CommandFactory.FileTree.Access
import CommandFactory.Keyed

/-!
# Trees of files in memory

Files and directories by their places. A place is the list of names on the way from the root, and
everything but the root lies in a directory of the tree. Paths that do not start at the root start at
the working directory of the tree; `..` leads to the directory above, and from the root to the root.

`FileTree.access` gives the operations on a tree that is the state.
-/

set_option autoImplicit false

namespace CommandFactory

/-- A file or a directory. -/
inductive FileNode where
  | file (text : String)
  | directory
  deriving DecidableEq, Repr, Inhabited

/-- A file or a directory at its place. -/
structure FileEntry where
  place : List String
  node : FileNode
  deriving DecidableEq, Repr, Inhabited

/-- A tree of files with a working directory. -/
structure FileTree where
  entries : Keyed FileEntry.place
  current : List String
  deriving Inhabited

namespace FileTree

/-- The largest number of bytes of a name. -/
def maxNameSize : Nat := 255

/-- What is at a place. The root is always there. -/
def node? (tree : FileTree) (place : List String) : Option FileNode :=
  if place = [] then some .directory else (tree.entries.get? place).map FileEntry.node

/-- Puts a node at a place. -/
def put (tree : FileTree) (place : List String) (node : FileNode) : FileTree :=
  { tree with entries := tree.entries.put ⟨place, node⟩ }

/-- Goes on only from a directory. -/
def expectDirectory (tree : FileTree) (place : List String) : Except IoError Unit :=
  match tree.node? place with
  | none => .error .notFound
  | some (.file _) => .error .notDirectory
  | some .directory => .ok ()

/-- One step on the way of a path. An empty part stays where it is. -/
def step (tree : FileTree) (place : List String) (part : List Char) :
    Except IoError (List String) := do
  tree.expectDirectory place
  if part = [] ∨ part = ['.'] then return place
  else if part = ['.', '.'] then return place.dropLast
  else if maxNameSize < (String.ofList part).utf8ByteSize then .error .nameTooLong
  else return place ++ [String.ofList part]

/-- The place to which a path leads, and the parts on the way to it. -/
def start (tree : FileTree) (path : FilePath) :
    Except IoError (List String × List (List Char)) :=
  if path.text = "" then .error .notFound
  else if path.text.toList.contains '\x00' then .error .nullInPath
  else
    .ok (if path.isAbsolute then [] else tree.current, FilePath.splitSlashes path.text.toList)

/-- What a path leads to. -/
def find (tree : FileTree) (path : FilePath) : Except IoError FileNode := do
  let (place, parts) ← tree.start path
  match tree.node? (← parts.foldlM tree.step place) with
  | none => .error .notFound
  | some node => .ok node

/-- The text of a file. -/
def read (tree : FileTree) (path : FilePath) : Except IoError String := do
  match ← tree.find path with
  | .file text => .ok text
  | .directory => .error .isDirectory

/-- What kind of node a path leads to. -/
def kind? (tree : FileTree) (path : FilePath) : Option FileKind :=
  match tree.find path with
  | .ok (.file _) => some .file
  | .ok .directory => some .directory
  | .error _ => none

/-- Whether a part is a name and no step that stays or goes up. -/
def isName (part : List Char) : Bool := part ≠ [] && part ≠ ['.'] && part ≠ ['.', '.']

/-- The tree with a new directory. -/
def makeDirectory (tree : FileTree) (path : FilePath) : Except IoError FileTree := do
  let (place, parts) ← tree.start path
  match parts.reverse.dropWhile List.isEmpty with
  | [] => .error .alreadyExists
  | last :: before => do
      let above ← before.reverse.foldlM tree.step place
      let target ← tree.step above last
      if isName last && (tree.node? target).isNone then return tree.put target .directory
      else .error .alreadyExists

/-- The tree with a file written anew. A path that ends in a slash names no file. -/
def write (tree : FileTree) (path : FilePath) (text : String) : Except IoError FileTree := do
  let (place, parts) ← tree.start path
  match parts.reverse.dropWhile List.isEmpty with
  | [] => .error .isDirectory
  | last :: before => do
      let above ← before.reverse.foldlM tree.step place
      let target ← tree.step above last
      if isName last && parts.getLast? ≠ some [] && tree.node? target ≠ some .directory then
        return tree.put target (.file text)
      else .error .isDirectory

/-- Applies a change that may fail to the tree. -/
def change (f : FileTree → Except IoError FileTree) : StateM FileTree (Except IoError Unit) := do
  match f (← get) with
  | .ok tree => do
      set tree
      return .ok ()
  | .error e => return .error e

/-- The operations on the tree that is the state. -/
def access : FileAccess (StateM FileTree) where
  kind? path := return (← get).kind? path
  read path := return (← get).read path
  makeDirectory path := change fun tree => tree.makeDirectory path
  write path text := change fun tree => tree.write path text

end FileTree

end CommandFactory
