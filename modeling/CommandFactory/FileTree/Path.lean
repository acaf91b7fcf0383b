/-!
# Paths of files

A path is the text that names a file, relative to some directory or absolute. Two texts name the same
path when their components are the same: separators may be repeated or stand at the end, and a `.`
counts only at the very start.

- `components` is the meaning of a path, `comesBefore` the order of paths by their components;
- `join` goes on from a path with another, `parent?` steps back by one component.
-/

set_option autoImplicit false

namespace CommandFactory

/-- A component of a path. -/
inductive PathPart where
  | root
  | here
  | up
  | name (text : String)
  deriving DecidableEq, Repr, Inhabited

namespace PathPart

/-- The place of a kind of component in the order. -/
def rank : PathPart → Nat
  | .root => 0
  | .here => 1
  | .up => 2
  | .name _ => 3

/-- Whether a component comes before another. -/
def lt : PathPart → PathPart → Bool
  | .name a, .name b => a < b
  | a, b => a.rank < b.rank

end PathPart

/-- The text of a path. -/
structure FilePath where
  text : String
  deriving DecidableEq, Repr, Inhabited

namespace FilePath

/-- The parts of a text between slashes, empty ones included. -/
def splitSlashes : List Char → List (List Char)
  | [] => [[]]
  | c :: rest =>
      match splitSlashes rest with
      | [] => [[c]]
      | part :: parts => if c = '/' then [] :: part :: parts else (c :: part) :: parts

/-- The components that parts after the first stand for. -/
def laterParts : List (List Char) → List PathPart
  | [] => []
  | part :: rest =>
      if part = [] ∨ part = ['.'] then laterParts rest
      else if part = ['.', '.'] then .up :: laterParts rest
      else .name (String.ofList part) :: laterParts rest

/-- The components of a path. -/
def components (path : FilePath) : List PathPart :=
  match path.text.toList with
  | [] => []
  | '/' :: rest => .root :: laterParts (splitSlashes rest)
  | chars =>
      match splitSlashes chars with
      | ['.'] :: rest => .here :: laterParts rest
      | parts => laterParts parts

/-- Names the same path. -/
def same (a b : FilePath) : Bool := a.components == b.components

/-- The order of lists of components, part by part. -/
def partsBefore : List PathPart → List PathPart → Bool
  | _, [] => false
  | [], _ :: _ => true
  | a :: as, b :: bs => a.lt b || (!b.lt a && partsBefore as bs)

/-- Whether a path comes before another. -/
def comesBefore (a b : FilePath) : Bool := partsBefore a.components b.components

/-- Starts at the root. -/
def isAbsolute (path : FilePath) : Bool := path.text.toList.head? = some '/'

/-- The path that another path names when it starts from this one. -/
def join (path next : FilePath) : FilePath :=
  if next.isAbsolute then next
  else if path.text = "" ∨ path.text.toList.getLast? = some '/' then ⟨path.text ++ next.text⟩
  else ⟨path.text ++ "/" ++ next.text⟩

/-- The path of several names, one inside the other. -/
def ofNames (names : List String) : FilePath :=
  names.foldl (fun path name => path.join ⟨name⟩) ⟨""⟩

/-- Parts, last first, from the first that counts as a component. -/
def dropSilent : List (List Char) → List (List Char)
  | [] => []
  | [part] => [part]
  | part :: rest => if part = [] ∨ part = ['.'] then dropSilent rest else part :: rest

/-- The path without its last component; none for the empty path and for the root. -/
def parent? (path : FilePath) : Option FilePath :=
  if path.components.isEmpty ∨ path.components = [.root] then none
  else
    match dropSilent (splitSlashes path.text.toList).reverse with
    | [] => none
    | _ :: before =>
        match dropSilent before with
        | [] => some ⟨""⟩
        | [[]] => some ⟨"/"⟩
        | parts => some ⟨String.ofList (['/'].intercalate parts.reverse)⟩

end FilePath

end CommandFactory
