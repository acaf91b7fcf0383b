import CommandFactory.Symbol.Table
import CommandFactory.Text.Identifier

/-!
# Names of generated items

How the names of modules, procedures and package directories follow from the names in a manifest.
`snakeCase` is the base of all of them: lower-case ASCII letters, digits and single underscores.
-/

set_option autoImplicit false

namespace CommandFactory.Naming

/-- Whether a word starts at an upper-case letter, seen from the characters on both sides. -/
def startsWord (before : Option Char) (after : List Char) : Bool :=
  match before with
  | none => false
  | some b =>
      b.isLower || b.isDigit ||
        (b.isUpper &&
          match after with
          | [] => false
          | a :: _ => a.isLower)

/-- The words of a name, in lower case and joined by underscores. `before` is the character just
read, and `onUnderscore` says that the output so far ends in an underscore. -/
def snakeChars (before : Option Char) (onUnderscore : Bool) : List Char → List Char
  | [] => []
  | c :: rest =>
      if c.isAlphanum then
        if c.isUpper && startsWord before rest then
          '_' :: c.toLower :: snakeChars (some c) false rest
        else
          c.toLower :: snakeChars (some c) false rest
      else if onUnderscore then
        snakeChars (some c) true rest
      else
        '_' :: snakeChars (some c) true rest

/-- Puts an underscore in front of a text that is empty or starts with a digit. -/
def guardStart : List Char → List Char
  | [] => ['_']
  | c :: rest => if c.isDigit then '_' :: c :: rest else c :: rest

/-- A name in lower case, with underscores between its words and in place of other characters. -/
def snakeCase (name : String) : String :=
  String.ofList (guardStart (snakeChars none false name.toList))

/-- The name of the module of a class. -/
def moduleName (simpleName suffix : String) : String := snakeCase simpleName ++ suffix

/-- The name of a procedure: its base, and the suffix of its method where it has one. -/
def procedureName (base : String) (suffix : Option String) : String :=
  match suffix with
  | none => base
  | some suffix => base ++ "_" ++ suffix

/-- The part of a type after its last `.` or `:`. -/
def lastPart (type : List Char) : List Char :=
  (type.reverse.takeWhile fun c => c != '.' && c != ':').reverse

/-- Spells every `[]` as `Array`. -/
def spellArrays : List Char → List Char
  | '[' :: ']' :: rest => ['A', 'r', 'r', 'a', 'y'] ++ spellArrays rest
  | c :: rest => c :: spellArrays rest
  | [] => []

/-- A text without the underscores at its ends. -/
def trimUnderscores (chars : List Char) : List Char :=
  ((chars.dropWhile (· == '_')).reverse.dropWhile (· == '_')).reverse

/-- The part of a procedure suffix that names a parameter type. -/
def typeSuffix (type : String) : String :=
  let simple := String.ofList (spellArrays (lastPart type.toList))
  String.ofList (trimUnderscores (snakeCase simple).toList)

/-- The procedure suffix of a method. Overloads append their parameter types. -/
def methodSuffix (method : String) (params : List String) (overloaded : Bool) : String :=
  if overloaded then
    params.foldl (fun suffix type => suffix ++ "_" ++ typeSuffix type) (snakeCase method)
  else
    snakeCase method

/-- The parts of a text between dots, empty ones included. -/
def splitDots : List Char → List (List Char)
  | [] => [[]]
  | c :: rest =>
      match splitDots rest with
      | [] => [[c]]
      | part :: parts => if c = '.' then [] :: part :: parts else (c :: part) :: parts

/-- The module names of a package, outermost first. -/
def packageSegments (package : Option String) : List String :=
  match package with
  | none => []
  | some package =>
      ((splitDots package.toList).filter fun part => !part.isEmpty).map fun part =>
        snakeCase (String.ofList part)

/-- Spells every dot of a text as a path separator. -/
def dotsToSeparators (chars : List Char) : List Char :=
  chars.flatMap fun c => if c = '.' then [':', ':'] else [c]

/-- The type path of a class: the one its symbol gives, or the path of its package and name. -/
def typePath (table : SymbolTable) (id : SymbolId) : String :=
  match table.get? id with
  | none => String.ofList (dotsToSeparators id.text.toList)
  | some symbol =>
      match symbol.kind with
      | .classType _ (some path) _ => path
      | _ =>
          let package := (table.packageOf? id).map fun package => package.id.text
          "::".intercalate (["crate"] ++ packageSegments package ++ [symbol.name])

end CommandFactory.Naming
