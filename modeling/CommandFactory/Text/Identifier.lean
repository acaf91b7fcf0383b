import CommandFactory.Text.IdentifierRanges

/-!
# Identifiers

Two classes of identifiers, kept apart:

- `isIdentifier`: the identifiers of the language the modules are written in. They start with `_`
  or a letter of any script and go on with letters, marks, digits and `_`.
- `isMemberName`: the member names a manifest may bind. They are ASCII, are not `_` alone and are
  none of the four words that stand for a path (`pathKeywords`).

`Identifier.ofName?` turns a name into an identifier: a keyword gets a raw spelling, a path keyword
an underscore at its end, and any other name is taken as it is if it is an identifier at all.
-/

set_option autoImplicit false

namespace CommandFactory.Text

/-- Whether a code point lies in one of the ranges. -/
def inRanges (ranges : List (Nat × Nat)) (n : Nat) : Bool :=
  ranges.any fun range => range.1 ≤ n && n ≤ range.2

/-- An ASCII letter, an ASCII digit or `_`. -/
def isWordChar (c : Char) : Bool := c.isAlphanum || c == '_'

/-- May stand at the start of an identifier. -/
def isIdentifierStart (c : Char) : Bool :=
  c.isAlpha || c == '_' || inRanges identifierStartRanges c.toNat

/-- May stand after the start of an identifier. -/
def isIdentifierContinue (c : Char) : Bool :=
  isWordChar c || inRanges identifierStartRanges c.toNat || inRanges identifierExtendRanges c.toNat

/-- The characters spell an identifier. -/
def isIdentifierChars : List Char → Bool
  | [] => false
  | c :: rest => isIdentifierStart c && rest.all isIdentifierContinue

/-- The text is an identifier. -/
def isIdentifier (name : String) : Bool := isIdentifierChars name.toList

/-- Words reserved by the language; as identifiers they need the raw spelling. -/
def keywords : List String :=
  ["abstract", "as", "async", "await", "become", "box", "break", "const", "continue", "do",
    "dyn", "else", "enum", "extern", "false", "final", "fn", "for", "gen", "if", "impl", "in",
    "let", "loop", "macro", "match", "mod", "move", "mut", "override", "priv", "pub", "ref",
    "return", "static", "struct", "trait", "true", "try", "type", "typeof", "unsafe", "unsized",
    "use", "virtual", "where", "while", "yield"]

/-- Words that stand for a place in the module tree and have no raw spelling. -/
def pathKeywords : List String := ["self", "Self", "super", "crate"]

/-- The characters spell an ASCII identifier. -/
def isAsciiIdentifierChars : List Char → Bool
  | [] => false
  | c :: rest => (c.isAlpha || c == '_') && rest.all isWordChar

/-- A member name that generated text can refer to. -/
def isMemberName (name : String) : Bool :=
  name != "_" && !pathKeywords.contains name && isAsciiIdentifierChars name.toList

/-- An identifier as it is printed: its name, and whether it carries the raw mark. -/
structure Identifier where
  name : String
  raw : Bool := false
  deriving DecidableEq, Repr, Inhabited

namespace Identifier

/-- The printed form. -/
def text (identifier : Identifier) : String :=
  if identifier.raw then "r#" ++ identifier.name else identifier.name

/-- The identifier that stands for a member, a local or a module of that name, if the name has one. -/
def ofName? (name : String) : Option Identifier :=
  if pathKeywords.contains name then
    some { name := name ++ "_" }
  else if keywords.contains name then
    some { name, raw := true }
  else if isIdentifier name then
    some { name }
  else
    none

end Identifier

end CommandFactory.Text
