import CommandFactory.Declaration.Basic
import CommandFactory.Manifest.Coding

/-!
# Declarations as JSON

The JSON form of declarations and of their parts. A value with several shapes carries the name of its
shape in a member of its own: `binding`, `category`, `kind`, `scope` or `origin`.
-/

set_option autoImplicit false

namespace CommandFactory

open Json

/-! ## Shapes -/

/-- An object whose shape is named by one of its members. -/
structure Tagged (α : Type) where
  /-- The member that names the shape. -/
  tag : String
  /-- The type as an error names it. -/
  name : String
  /-- The records of the shapes by name. -/
  shapes : List (String × Record α)

namespace Tagged

variable {α : Type}

/-- Takes the member that names the shape out of members. -/
def splitTag (tagged : Tagged α) (medium : Medium) :
    List (StringText × Draft) → Option (Record α) →
      Except DecodeError (Option (Record α) × List (StringText × Draft))
  | [], found => .ok (found, [])
  | (key, draft) :: rest, found => do
      let name ← reading key.read
      if name = tagged.tag then
        match found with
        | some _ => .error (.duplicateField tagged.tag)
        | none => do
            let shape ← Decoder.shapeOf tagged.shapes medium draft
            splitTag tagged medium rest (some shape)
      else do
        let (found, members) ← splitTag tagged medium rest found
        .ok (found, (key, draft) :: members)

/-- Reads a value by its shape, from an object, or from a list that starts with the shape. -/
def decode (tagged : Tagged α) : Decoder α := fun medium draft =>
  match draft with
  | .object drafts stop => do
      let (found, members) ← tagged.splitTag medium drafts none
      unlessFault stop
      match found with
      | none => .error (.missingField tagged.tag)
      | some shape => shape.ofMembers .kept members
  | .list [] _ => .error (.missingField tagged.tag)
  | .list (draft :: rest) stop => do
      let shape ← Decoder.shapeOf tagged.shapes medium draft
      unlessFault stop
      shape.decode .kept (.list rest none)
  | draft => draft.mismatch ("internally tagged enum " ++ tagged.name)

end Tagged

/-- A field that holds a value or null, and is null where it is missing. -/
def Json.FieldReader.nullable {α β : Type} (name : String) (inner : Decoder β)
    (set : Option β → α → α) : FieldReader α :=
  .defaulted name (.optional inner) set

/-! ## Arguments -/

namespace Binding

/-- A binding as an object. -/
def encode : Binding → Json
  | .field name type =>
      .object [("binding", .string "field"), ("name", .string name), ("ty", .string type)]
  | .accessor method getter setter =>
      .object
        [("binding", .string "accessor"), ("method", .string method),
          ("getter", textOrNull getter), ("setter", textOrNull setter)]
  | .parameter name type =>
      .object [("binding", .string "parameter"), ("name", .string name), ("ty", .string type)]

/-- The shapes of a binding. -/
def tagged : Tagged Binding where
  tag := "binding"
  name := "Binding"
  shapes :=
    [("field",
        { name := "variant Binding::Field"
          start := .field "" ""
          fields :=
            [.needed "name" .text fun v b =>
                match b with
                | .field _ type => .field v type
                | b => b,
              .needed "ty" .text fun v b =>
                match b with
                | .field name _ => .field name v
                | b => b] }),
      ("accessor",
        { name := "variant Binding::Accessor"
          start := .accessor "" none none
          fields :=
            [.needed "method" .text fun v b =>
                match b with
                | .accessor _ getter setter => .accessor v getter setter
                | b => b,
              .nullable "getter" .text fun v b =>
                match b with
                | .accessor method _ setter => .accessor method v setter
                | b => b,
              .nullable "setter" .text fun v b =>
                match b with
                | .accessor method getter _ => .accessor method getter v
                | b => b] }),
      ("parameter",
        { name := "variant Binding::Parameter"
          start := .parameter "" ""
          fields :=
            [.needed "name" .text fun v b =>
                match b with
                | .parameter _ type => .parameter v type
                | b => b,
              .needed "ty" .text fun v b =>
                match b with
                | .parameter name _ => .parameter name v
                | b => b] })]

end Binding

namespace ArgKind

/-- The kind of an argument as an object. -/
def encode : ArgKind → Json
  | .option names fallbackValue negatable usageHelp =>
      .object
        [("category", .string "option"), ("names", texts names),
          ("fallback_value", .string fallbackValue), ("negatable", .bool negatable),
          ("usage_help", .bool usageHelp)]
  | .positional index => .object [("category", .string "positional"), ("index", .string index)]

/-- The shapes of the kind of an argument. -/
def tagged : Tagged ArgKind where
  tag := "category"
  name := "ArgKind"
  shapes :=
    [("option",
        { name := "variant ArgKind::Option"
          start := .option [] "" false false
          fields :=
            [.needed "names" (.listOf .text) fun v k =>
                match k with
                | .option _ value negatable help => .option v value negatable help
                | k => k,
              .needed "fallback_value" .text fun v k =>
                match k with
                | .option names _ negatable help => .option names v negatable help
                | k => k,
              .needed "negatable" .flag fun v k =>
                match k with
                | .option names value _ help => .option names value v help
                | k => k,
              .needed "usage_help" .flag fun v k =>
                match k with
                | .option names value negatable _ => .option names value negatable v
                | k => k] }),
      ("positional",
        { name := "variant ArgKind::Positional"
          start := .positional ""
          fields := [.needed "index" .text fun v _ => .positional v] })]

end ArgKind

namespace ArgType

/-- The type of an argument as an object. -/
def encode (type : ArgType) : Json :=
  .object [("name", .string type.name), ("aux", texts type.aux)]

/-- The fields of the type of an argument. -/
def record : Record ArgType where
  name := "TypeInfo"
  start := ⟨"", []⟩
  fields :=
    [.needed "name" .text fun v a => { a with name := v },
      .needed "aux" (.listOf .text) fun v a => { a with aux := v }]

end ArgType

namespace ArgDeclaration

/-- An argument as an object. -/
def encode (arg : ArgDeclaration) : Json :=
  .object
    [("element", arg.element.encode), ("owner", arg.owner.encode),
      ("binding", arg.binding.encode), ("kind", arg.kind.encode), ("arity", .string arg.arity),
      ("description", texts arg.description), ("type_info", arg.type.encode),
      ("default_value", textOrNull arg.defaultValue),
      ("has_initial_value", .bool arg.hasInitialValue), ("hidden", .bool arg.hidden),
      ("scope", .string arg.scope.name), ("map_fallback_value", textOrNull arg.mapFallbackValue),
      ("preprocessor", textOrNull arg.preprocessor),
      ("parameter_consumer", textOrNull arg.parameterConsumer),
      ("inherited", .bool arg.inherited)]

/-- The fields of an argument. -/
def record : Record ArgDeclaration where
  name := "ArgDeclaration"
  start :=
    { element := ⟨""⟩, owner := ⟨""⟩, binding := .field "" "", kind := .positional "", arity := ""
      description := [], type := ⟨"", []⟩, defaultValue := none, hasInitialValue := false
      hidden := false, scope := .ofCommand, mapFallbackValue := none, preprocessor := none
      parameterConsumer := none, inherited := false }
  fields :=
    [.needed "element" SymbolId.decode fun v a => { a with element := v },
      .needed "owner" SymbolId.decode fun v a => { a with owner := v },
      .needed "binding" Binding.tagged.decode fun v a => { a with binding := v },
      .needed "kind" ArgKind.tagged.decode fun v a => { a with kind := v },
      .needed "arity" .text fun v a => { a with arity := v },
      .needed "description" (.listOf .text) fun v a => { a with description := v },
      .needed "type_info" ArgType.record.decode fun v a => { a with type := v },
      .nullable "default_value" .text fun v a => { a with defaultValue := v },
      .needed "has_initial_value" .flag fun v a => { a with hasInitialValue := v },
      .needed "hidden" .flag fun v a => { a with hidden := v },
      .needed "scope" ArgScope.decode fun v a => { a with scope := v },
      .nullable "map_fallback_value" .text fun v a => { a with mapFallbackValue := v },
      .nullable "preprocessor" .text fun v a => { a with preprocessor := v },
      .nullable "parameter_consumer" .text fun v a => { a with parameterConsumer := v },
      .needed "inherited" .flag fun v a => { a with inherited := v }]

end ArgDeclaration

namespace ArgGroupDeclaration

/-- A group as an object. -/
def encode (group : ArgGroupDeclaration) : Json :=
  .object
    [("field", .string group.field), ("group_type", group.groupType.encode),
      ("exclusive", .bool group.exclusive), ("multiplicity", textOrNull group.multiplicity),
      ("heading", textOrNull group.heading)]

/-- The fields of a group. -/
def record : Record ArgGroupDeclaration where
  name := "ArgGroupDeclaration"
  start := ⟨"", ⟨""⟩, false, none, none⟩
  fields :=
    [.needed "field" .text fun v a => { a with field := v },
      .needed "group_type" SymbolId.decode fun v a => { a with groupType := v },
      .needed "exclusive" .flag fun v a => { a with exclusive := v },
      .nullable "multiplicity" .text fun v a => { a with multiplicity := v },
      .nullable "heading" .text fun v a => { a with heading := v }]

end ArgGroupDeclaration

/-! ## Commands and containers -/

namespace Rooting

/-- What a command is rooted in, as an object. -/
def encode : Rooting → Json
  | .classRooted => .object [("kind", .string "class_rooted")]
  | .methodRooted classId method params =>
      .object
        [("kind", .string "method_rooted"), ("class", classId.encode),
          ("method", .string method), ("params", texts params)]

/-- The shapes of what a command is rooted in. -/
def tagged : Tagged Rooting where
  tag := "kind"
  name := "DeclarationKind"
  shapes :=
    [("class_rooted", ⟨"DeclarationKind", .classRooted, []⟩),
      ("method_rooted",
        { name := "variant DeclarationKind::MethodRooted"
          start := .methodRooted ⟨""⟩ "" []
          fields :=
            [.needed "class" SymbolId.decode fun v r =>
                match r with
                | .methodRooted _ method params => .methodRooted v method params
                | r => r,
              .needed "method" .text fun v r =>
                match r with
                | .methodRooted classId _ params => .methodRooted classId v params
                | r => r,
              .needed "params" (.listOf .text) fun v r =>
                match r with
                | .methodRooted classId method _ => .methodRooted classId method v
                | r => r] })]

end Rooting

namespace Scope

/-- A scope as an object. -/
def encode : Scope → Json
  | .root package => .object [("scope", .string "root"), ("package", textOrNull package)]
  | .declaration id => .object [("scope", .string "declaration"), ("id", id.encode)]

/-- The shapes of a scope. -/
def tagged : Tagged Scope where
  tag := "scope"
  name := "OwningScope"
  shapes :=
    [("root",
        { name := "variant OwningScope::Root"
          start := .root none
          fields := [.nullable "package" .text fun v _ => .root v] }),
      ("declaration",
        { name := "variant OwningScope::Declaration"
          start := .declaration ⟨""⟩
          fields := [.needed "id" SymbolId.decode fun v _ => .declaration v] })]

end Scope

namespace Visibility

/-- The name of a visibility. -/
def name : Visibility → String
  | .everyone => "public"
  | .withinCrate => "crate"

/-- Reads a visibility. -/
def decode : Decoder Visibility :=
  .variantOf [("public", .everyone), ("crate", .withinCrate)] none

end Visibility

/-- A named element as a pair. -/
def NamedElement.encodePair (named : NamedElement) : Json :=
  .array [.string named.name, named.element.encode]

/-- Reads a named element from a pair. -/
def NamedElement.decodePair : Decoder NamedElement := fun medium draft =>
  (Decoder.pairOf .text SymbolId.decode medium draft).map fun pair => ⟨pair.1, pair.2⟩

/-- A field name as an object. -/
def encodeFieldName (field : String) : Json := .object [("field", .string field)]

/-- Reads a field name from an object. -/
def decodeFieldName (name : String) : Decoder String :=
  (Record.mk name "" [.needed "field" .text fun v _ => v]).decode

namespace CommandDeclaration

/-- The members of a command. -/
def encodeMembers (d : CommandDeclaration) : List (String × Json) :=
  [("id", d.id.encode), ("kind", d.rooting.encode),
    ("command", (d.command.map CommandMeta.encode).getD .null), ("owner", d.owner.encode),
    ("simple_name", .string d.simpleName), ("type_path", .string d.typePath),
    ("visibility", .string d.visibility.name),
    ("super_command", (d.superCommand.map SymbolId.encode).getD .null),
    ("subcommands", .array (d.subcommands.map NamedElement.encodePair)),
    ("mixins", .array (d.mixins.map NamedElement.encodePair)),
    ("options", .array (d.options.map ArgDeclaration.encode)),
    ("positionals", .array (d.positionals.map ArgDeclaration.encode)),
    ("arg_groups", .array (d.argGroups.map ArgGroupDeclaration.encode)),
    ("spec_injections", .array (d.specInjections.map encodeFieldName)),
    ("parent_injections", .array (d.parentInjections.map encodeFieldName)),
    ("unmatched", .array (d.unmatched.map encodeFieldName))]

/-- The fields of a command. -/
def record : Record CommandDeclaration where
  name := "CommandDeclaration"
  start :=
    { id := ⟨""⟩, rooting := .classRooted, command := none, owner := .root none, simpleName := ""
      typePath := "", visibility := .withinCrate, superCommand := none, subcommands := []
      mixins := [], options := [], positionals := [], argGroups := [], specInjections := []
      parentInjections := [], unmatched := [] }
  fields :=
    [.needed "id" SymbolId.decode fun v a => { a with id := v },
      .needed "kind" Rooting.tagged.decode fun v a => { a with rooting := v },
      .nullable "command" CommandMeta.record.decode fun v a => { a with command := v },
      .needed "owner" Scope.tagged.decode fun v a => { a with owner := v },
      .needed "simple_name" .text fun v a => { a with simpleName := v },
      .needed "type_path" .text fun v a => { a with typePath := v },
      .needed "visibility" Visibility.decode fun v a => { a with visibility := v },
      .nullable "super_command" SymbolId.decode fun v a => { a with superCommand := v },
      .needed "subcommands" (.listOf NamedElement.decodePair) fun v a =>
        { a with subcommands := v },
      .needed "mixins" (.listOf NamedElement.decodePair) fun v a => { a with mixins := v },
      .needed "options" (.listOf ArgDeclaration.record.decode) fun v a => { a with options := v },
      .needed "positionals" (.listOf ArgDeclaration.record.decode) fun v a =>
        { a with positionals := v },
      .needed "arg_groups" (.listOf ArgGroupDeclaration.record.decode) fun v a =>
        { a with argGroups := v },
      .needed "spec_injections" (.listOf (decodeFieldName "InjectionPoint")) fun v a =>
        { a with specInjections := v },
      .needed "parent_injections" (.listOf (decodeFieldName "InjectionPoint")) fun v a =>
        { a with parentInjections := v },
      .needed "unmatched" (.listOf (decodeFieldName "UnmatchedBinding")) fun v a =>
        { a with unmatched := v }]

end CommandDeclaration

namespace Container

/-- The members of a container. -/
def encodeMembers (c : Container) : List (String × Json) :=
  [("id", c.id.encode), ("owner", c.owner.encode), ("simple_name", .string c.simpleName),
    ("type_path", .string c.typePath), ("visibility", .string c.visibility.name)]

/-- The fields of a container. -/
def record : Record Container where
  name := "SyntheticContainer"
  start := ⟨⟨""⟩, .root none, "", "", .withinCrate⟩
  fields :=
    [.needed "id" SymbolId.decode fun v a => { a with id := v },
      .needed "owner" Scope.tagged.decode fun v a => { a with owner := v },
      .needed "simple_name" .text fun v a => { a with simpleName := v },
      .needed "type_path" .text fun v a => { a with typePath := v },
      .needed "visibility" Visibility.decode fun v a => { a with visibility := v }]

end Container

namespace Declaration

/-- The members of a declaration. -/
def encodeMembers : Declaration → List (String × Json)
  | .command d => ("origin", .string "command") :: d.encodeMembers
  | .container c => ("origin", .string "synthetic_container") :: c.encodeMembers

/-- A declaration as an object. -/
def encode (declaration : Declaration) : Json := .object declaration.encodeMembers

/-- A field of a command as a field of a declaration. -/
def ofCommandField (field : FieldReader CommandDeclaration) : FieldReader Declaration where
  name := field.name
  required := field.required
  read := fun medium draft => (field.read medium draft).map fun change declaration =>
    match declaration with
    | .command d => .command (change d)
    | declaration => declaration

/-- A field of a container as a field of a declaration. -/
def ofContainerField (field : FieldReader Container) : FieldReader Declaration where
  name := field.name
  required := field.required
  read := fun medium draft => (field.read medium draft).map fun change declaration =>
    match declaration with
    | .container c => .container (change c)
    | declaration => declaration

/-- The shapes of a declaration. -/
def tagged : Tagged Declaration where
  tag := "origin"
  name := "Declaration"
  shapes :=
    [("command",
        { name := "CommandDeclaration"
          start := .command CommandDeclaration.record.start
          fields := CommandDeclaration.record.fields.map ofCommandField }),
      ("synthetic_container",
        { name := "SyntheticContainer"
          start := .container Container.record.start
          fields := Container.record.fields.map ofContainerField })]

/-- Reads a declaration. -/
def decode : Decoder Declaration := tagged.decode

end Declaration

end CommandFactory
