import CommandFactory.Text.Blank

/-!
# Symbols

The program elements of a host: packages, classes, methods, fields and parameters. Each has an
identity, a name, the identity of its owner, and what its kind adds (`SymbolKind`).

`erasure` strips the generic arguments of a written type; methods are told apart by the erasures of
their parameter types.
-/

set_option autoImplicit false

namespace CommandFactory

/-- The identity of a program element. -/
structure SymbolId where
  text : String
  deriving DecidableEq, Repr, Inhabited, Hashable

/-- A declared modifier. -/
inductive Modifier where
  | isPublic
  | isProtected
  | isPrivate
  | isStatic
  | isFinal
  | isAbstract
  deriving DecidableEq, Repr, Inhabited

/-- What a symbol is, with the data of its kind. -/
inductive SymbolKind where
  | package
  /-- `members` is the authoritative member list where the host gives one. -/
  | classType (superclass : Option SymbolId) (typePath : Option String)
      (members : Option (List SymbolId))
  | method (params : List String)
  /-- `argGroup` marks a field whose value is a group of arguments. -/
  | field (type : String) (argGroup : Bool)
  | parameter (type : String)
  deriving DecidableEq, Repr, Inhabited

namespace SymbolKind

/-- The word for the kind. -/
def describe : SymbolKind → String
  | .package => "package"
  | .classType .. => "class"
  | .method .. => "method"
  | .field .. => "field"
  | .parameter .. => "parameter"

end SymbolKind

/-- A program element. -/
structure Symbol where
  id : SymbolId
  name : String
  owner : Option SymbolId
  modifiers : List Modifier
  kind : SymbolKind
  deriving DecidableEq, Repr, Inhabited

namespace Symbol

/-- Is a class. -/
def isClass (symbol : Symbol) : Bool :=
  match symbol.kind with
  | .classType .. => true
  | _ => false

/-- Is a method. -/
def isMethod (symbol : Symbol) : Bool :=
  match symbol.kind with
  | .method .. => true
  | _ => false

/-- Is a field. -/
def isField (symbol : Symbol) : Bool :=
  match symbol.kind with
  | .field .. => true
  | _ => false

/-- Is declared public. -/
def isPublic (symbol : Symbol) : Bool := symbol.modifiers.contains .isPublic

end Symbol

/-! ## Erasure -/

/-- The characters outside angle brackets, blanks left out; `depth` brackets are open. -/
def erasedChars : Nat → List Char → List Char
  | _, [] => []
  | depth, c :: rest =>
      if c = '<' then erasedChars (depth + 1) rest
      else if c = '>' then erasedChars (depth - 1) rest
      else if depth = 0 ∧ Text.isBlank c = false then c :: erasedChars depth rest
      else erasedChars depth rest

/-- A written type without its generic arguments; array suffixes stay. -/
def erasure (type : String) : String := String.ofList (erasedChars 0 type.toList)

end CommandFactory
