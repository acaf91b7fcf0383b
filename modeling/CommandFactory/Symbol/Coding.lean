import CommandFactory.Json.Decoder
import CommandFactory.Symbol.Table

/-!
# Symbols as JSON

The JSON form of a symbol: one object with the members of the symbol and, beside them, a `kind` with
the members of that kind. `SymbolId.encode`, `Symbol.encode` write it and `Symbol.decode` reads it.

A symbol is read in two rounds. The first takes the members of the symbol and keeps the others; only
when the whole object has been read is the kind made out from those that were kept.
-/

set_option autoImplicit false

namespace CommandFactory

open Json

namespace SymbolId

/-- An identity is its text. -/
def encode (id : SymbolId) : Json := .string id.text

/-- Reads an identity. -/
def decode : Decoder SymbolId := fun medium draft => (Decoder.text medium draft).map SymbolId.mk

end SymbolId

namespace Modifier

/-- The modifiers by name. -/
def byName : List (String × Modifier) :=
  [("public", .isPublic), ("protected", .isProtected), ("private", .isPrivate),
    ("static", .isStatic), ("final", .isFinal), ("abstract", .isAbstract)]

/-- The name of a modifier. -/
def name : Modifier → String
  | .isPublic => "public"
  | .isProtected => "protected"
  | .isPrivate => "private"
  | .isStatic => "static"
  | .isFinal => "final"
  | .isAbstract => "abstract"

/-- Reads a modifier. -/
def decode : Decoder Modifier := Decoder.variantOf byName none

end Modifier

namespace SymbolKind

/-! ## Kinds -/

/-- The members that a kind adds, after its `kind` member. -/
def encodeMembers : SymbolKind → List (String × Json)
  | .package => []
  | .classType superclass typePath members =>
      memberIf "superclass" (superclass.map SymbolId.encode) ++
        memberIf "type_path" (typePath.map .string) ++
        memberIf "members" (members.map fun ids => .array (ids.map SymbolId.encode))
  | .method params => [("params", texts params)]
  | .field type argGroup => [("ty", .string type), ("arg_group", .bool argGroup)]
  | .parameter type => [("ty", .string type)]

/-- The members of a class. -/
def classRecord : Record SymbolKind where
  name := "SymbolKind"
  start := .classType none none none
  fields :=
    [.defaulted "superclass" (.optional SymbolId.decode) fun v kind =>
        match kind with
        | .classType _ path members => .classType v path members
        | kind => kind,
      .defaulted "type_path" (.optional .text) fun v kind =>
        match kind with
        | .classType superclass _ members => .classType superclass v members
        | kind => kind,
      .defaulted "members" (.optional (.listOf SymbolId.decode)) fun v kind =>
        match kind with
        | .classType superclass path _ => .classType superclass path v
        | kind => kind]

/-- The members of a method. -/
def methodRecord : Record SymbolKind where
  name := "SymbolKind"
  start := .method []
  fields := [.defaulted "params" (.listOf .text) fun v _ => .method v]

/-- The members of a field. -/
def fieldRecord : Record SymbolKind where
  name := "SymbolKind"
  start := .field "" false
  fields :=
    [.needed "ty" .text fun v kind =>
        match kind with
        | .field _ argGroup => .field v argGroup
        | kind => kind,
      .defaulted "arg_group" .flag fun v kind =>
        match kind with
        | .field type _ => .field type v
        | kind => kind]

/-- The members of a parameter. -/
def parameterRecord : Record SymbolKind where
  name := "SymbolKind"
  start := .parameter ""
  fields := [.needed "ty" .text fun v _ => .parameter v]

/-- The records of the kinds by name. A package adds no members. -/
def byName : List (String × Record SymbolKind) :=
  [("package", ⟨"SymbolKind", .package, []⟩), ("class", classRecord), ("method", methodRecord),
    ("field", fieldRecord), ("parameter", parameterRecord)]

/-- Picks the `kind` member out of the members that were kept. -/
def splitTag : List (String × Draft) → Option (Record SymbolKind) →
    Except DecodeError (Option (Record SymbolKind) × List (StringText × Draft))
  | [], tag => .ok (tag, [])
  | (key, draft) :: rest, tag =>
      if key = "kind" then
        match tag with
        | some _ => .error (.duplicateField "kind")
        | none => do
            let kind ← Decoder.shapeOf byName .kept draft
            splitTag rest (some kind)
      else do
        let (tag, members) ← splitTag rest tag
        .ok (tag, (.ofString key, draft) :: members)

/-- Reads a kind from the members that were kept. -/
def ofKept (kept : List (String × Draft)) : Except DecodeError SymbolKind := do
  let (tag, members) ← splitTag kept none
  match tag with
  | none => .error (.missingField "kind")
  | some kind => kind.ofMembers .kept members

end SymbolKind

namespace Symbol

/-! ## Symbols -/

/-- A symbol as one object. -/
def encode (symbol : Symbol) : Json :=
  .object
    ([("id", symbol.id.encode), ("name", .string symbol.name)] ++
      memberIf "owner" (symbol.owner.map SymbolId.encode) ++
      (if symbol.modifiers.isEmpty then []
        else [("modifiers", .array (symbol.modifiers.map fun m => .string m.name))]) ++
      [("kind", .string symbol.kind.describe)] ++ symbol.kind.encodeMembers)

/-- The members of a symbol of any kind. -/
def fields : List (FieldReader Symbol) :=
  [.needed "id" SymbolId.decode fun v symbol => { symbol with id := v },
    .needed "name" .text fun v symbol => { symbol with name := v },
    .defaulted "owner" (.optional SymbolId.decode) fun v symbol => { symbol with owner := v },
    .defaulted "modifiers" (.listOf Modifier.decode) fun v symbol => { symbol with modifiers := v }]

/-- Levels of lists and objects that a member of a symbol in a text may have: a text may have 127
levels, and a symbol stands in the third. -/
def keptLevels : Nat := 124

/-- Reads a member that is kept for the kind. -/
def settleKept (medium : Medium) (draft : Draft) : Except DecodeError Unit :=
  match medium with
  | .text => reading (draft.settle keptLevels)
  | _ => .ok ()

/-- Reads the members of a symbol and keeps the others in their order. -/
def members (medium : Medium) : List (StringText × Draft) → List String → Symbol →
    Except DecodeError (List String × Symbol × List (String × Draft))
  | [], seen, symbol => .ok (seen, symbol, [])
  | (key, draft) :: rest, seen, symbol => do
      let name ← reading key.read
      match fields.find? fun field => field.name = name with
      | none =>
          settleKept medium draft
          let (seen, symbol, kept) ← members medium rest seen symbol
          .ok (seen, symbol, (name, draft) :: kept)
      | some field =>
          if name ∈ seen then
            .error (.duplicateField name)
          let change ← field.read medium draft
          members medium rest (name :: seen) (change symbol)

/-- Reads a symbol. -/
def decode : Decoder Symbol := fun medium draft =>
  match draft with
  | .object drafts stop => do
      let (seen, symbol, kept) ← members medium drafts [] ⟨⟨""⟩, "", none, [], .package⟩
      unlessFault stop
      Record.unlessMissing fields seen
      let kind ← SymbolKind.ofKept kept
      .ok { symbol with kind }
  | draft => draft.mismatch "struct Symbol"

end Symbol

end CommandFactory
