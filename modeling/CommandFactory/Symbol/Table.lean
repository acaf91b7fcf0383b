import CommandFactory.Keyed
import CommandFactory.Symbol.Basic

/-!
# Symbol tables

The symbols of a host by identity, in the order in which they were reported, and the questions the
compiler asks of them. The package of a symbol is the first package among its owners
(`packageOf?`); a method is found by its name and the erasures of its parameter types
(`findMethod?`).
-/

set_option autoImplicit false

namespace CommandFactory

/-- Symbols by identity, in report order. -/
abbrev SymbolTable := Keyed Symbol.id

namespace SymbolTable

variable (table : SymbolTable)

/-- The symbol that owns the symbol of an identity. -/
def owner? (id : SymbolId) : Option Symbol :=
  (table.get? id).bind fun symbol => symbol.owner.bind fun owner => table.get? owner

/-- The declared superclass of a class. -/
def superclass? (id : SymbolId) : Option SymbolId :=
  (table.get? id).bind fun symbol =>
    match symbol.kind with
    | .classType superclass _ _ => superclass
    | _ => none

/-- Follows the owners from a symbol up, over at most `steps` symbols: the first package on the way,
or no package where the way ends. There is no answer when the steps run out before. -/
def packageWithin? : Nat → Option Symbol → Option (Option Symbol)
  | 0, _ => none
  | _ + 1, none => some none
  | steps + 1, some symbol =>
      if symbol.kind = .package then some (some symbol)
      else packageWithin? steps (table.owner? symbol.id)

/-- More steps than any way up takes that ends, and more than are ever carried out. -/
def manySteps : Nat := table.size + Nat.pow 2 60

/-- The package that contains a symbol. Nothing but the steps stops the search, so on a cycle of owners
that has no package it goes on and on. -/
def packageOf? (id : SymbolId) : Option Symbol :=
  (table.packageWithin? table.manySteps (table.owner? id)).join

/-- The members of a class: those of its member list where it has one, else all it owns. -/
def membersOf (id : SymbolId) : List Symbol :=
  match (table.get? id).map Symbol.kind with
  | some (.classType _ _ (some members)) => members.filterMap table.get?
  | _ => table.toList.filter fun symbol => symbol.owner = some id

/-- The methods among the members of a class. -/
def methodsOf (id : SymbolId) : List Symbol := (table.membersOf id).filter Symbol.isMethod

/-- The fields among the members of a class. -/
def fieldsOf (id : SymbolId) : List Symbol := (table.membersOf id).filter Symbol.isField

/-- Has the name, and parameter types of these erasures. -/
def hasSignature (name : String) (erased : List String) (symbol : Symbol) : Bool :=
  symbol.name = name &&
    match symbol.kind with
    | .method params => params.map erasure = erased
    | _ => false

/-- The first method of a class with the name and, up to erasure, the parameter types. -/
def findMethod? (id : SymbolId) (name : String) (params : List String) : Option Symbol :=
  (table.methodsOf id).find? (hasSignature name (params.map erasure))

end SymbolTable

end CommandFactory
