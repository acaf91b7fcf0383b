import CommandFactory.Manifest.Basic
import CommandFactory.Symbol.Coding

/-!
# Manifests as JSON

Each type of a manifest has an `encode`, which writes all its fields and leaves out those that hold
no value, and a `decode`, which takes the default for every field that is missing. What one writes,
the other reads back.
-/

set_option autoImplicit false

namespace CommandFactory

open Json

namespace ArgScope

/-- The scopes by name. -/
def byName : List (String × ArgScope) := [("local", .ofCommand), ("inherit", .inherited)]

/-- The name of a scope. -/
def name : ArgScope → String
  | .ofCommand => "local"
  | .inherited => "inherit"

/-- Reads a scope. -/
def decode : Decoder ArgScope := .variantOf byName none

end ArgScope

namespace CommandMeta

/-- An annotation as an object. -/
def encode (command : CommandMeta) : Json :=
  .object [("name", .string command.name), ("description", texts command.description)]

/-- The fields of an annotation. -/
def record : Record CommandMeta where
  name := "CommandMeta"
  start := ⟨"", []⟩
  fields :=
    [.needed "name" .text fun v a => { a with name := v },
      .defaulted "description" (.listOf .text) fun v a => { a with description := v }]

end CommandMeta

namespace NamedElement

/-- A named element as an object. -/
def encode (named : NamedElement) : Json :=
  .object [("name", .string named.name), ("element", named.element.encode)]

/-- The fields of a named element. -/
def record : Record NamedElement where
  name := "NamedRef"
  start := ⟨"", ⟨""⟩⟩
  fields :=
    [.needed "name" .text fun v a => { a with name := v },
      .needed "element" SymbolId.decode fun v a => { a with element := v }]

end NamedElement

namespace ArgInput

/-- Reads a category; every unknown name is the unsupported category. -/
def decodeCategory : Decoder ArgCategory :=
  .variantOf [("option", .option), ("positional", .positional)] (some .unsupported)

/-- An argument as an object. -/
def encode (arg : ArgInput) : Json :=
  .object
    ([("element", arg.element.encode), ("category", .string arg.category.name),
        ("names", texts arg.names)] ++
      memberIf "index" (arg.index.map .string) ++
      [("arity", .string arg.arity), ("description", texts arg.description),
        ("type_name", .string arg.typeName), ("aux_types", texts arg.auxTypes)] ++
      memberIf "default_value" (arg.defaultValue.map .string) ++
      [("has_initial_value", .bool arg.hasInitialValue), ("hidden", .bool arg.hidden),
        ("scope", .string arg.scope.name), ("fallback_value", .string arg.fallbackValue)] ++
      memberIf "map_fallback_value" (arg.mapFallbackValue.map .string) ++
      [("negatable", .bool arg.negatable), ("usage_help", .bool arg.usageHelp)] ++
      memberIf "preprocessor" (arg.preprocessor.map .string) ++
      memberIf "parameter_consumer" (arg.parameterConsumer.map .string) ++
      memberIf "getter" (arg.getter.map .string) ++
      memberIf "setter" (arg.setter.map .string) ++
      [("inherited", .bool arg.inherited)])

/-- An argument of which everything is left at its default. -/
def start : ArgInput where
  element := ⟨""⟩
  category := .option
  names := []
  index := none
  arity := "1"
  description := []
  typeName := ""
  auxTypes := []
  defaultValue := none
  hasInitialValue := false
  hidden := false
  scope := .ofCommand
  fallbackValue := ""
  mapFallbackValue := none
  negatable := false
  usageHelp := false
  preprocessor := none
  parameterConsumer := none
  getter := none
  setter := none
  inherited := false

/-- The fields of an argument. -/
def record : Record ArgInput where
  name := "ArgInput"
  start := start
  fields :=
    [.needed "element" SymbolId.decode fun v a => { a with element := v },
      .needed "category" decodeCategory fun v a => { a with category := v },
      .defaulted "names" (.listOf .text) fun v a => { a with names := v },
      .defaulted "index" (.optional .text) fun v a => { a with index := v },
      .defaulted "arity" .text fun v a => { a with arity := v },
      .defaulted "description" (.listOf .text) fun v a => { a with description := v },
      .needed "type_name" .text fun v a => { a with typeName := v },
      .defaulted "aux_types" (.listOf .text) fun v a => { a with auxTypes := v },
      .defaulted "default_value" (.optional .text) fun v a => { a with defaultValue := v },
      .defaulted "has_initial_value" .flag fun v a => { a with hasInitialValue := v },
      .defaulted "hidden" .flag fun v a => { a with hidden := v },
      .defaulted "scope" ArgScope.decode fun v a => { a with scope := v },
      .defaulted "fallback_value" .text fun v a => { a with fallbackValue := v },
      .defaulted "map_fallback_value" (.optional .text) fun v a => { a with mapFallbackValue := v },
      .defaulted "negatable" .flag fun v a => { a with negatable := v },
      .defaulted "usage_help" .flag fun v a => { a with usageHelp := v },
      .defaulted "preprocessor" (.optional .text) fun v a => { a with preprocessor := v },
      .defaulted "parameter_consumer" (.optional .text) fun v a => { a with parameterConsumer := v },
      .defaulted "getter" (.optional .text) fun v a => { a with getter := v },
      .defaulted "setter" (.optional .text) fun v a => { a with setter := v },
      .defaulted "inherited" .flag fun v a => { a with inherited := v }]

end ArgInput

namespace ArgGroupInput

/-- A group as an object. -/
def encode (group : ArgGroupInput) : Json :=
  .object
    ([("args", .array (group.args.map ArgInput.encode)), ("exclusive", .bool group.exclusive)] ++
      memberIf "multiplicity" (group.multiplicity.map .string) ++
      memberIf "heading" (group.heading.map .string))

/-- The fields of a group. -/
def record : Record ArgGroupInput where
  name := "ArgGroupInput"
  start := ⟨[], false, none, none⟩
  fields :=
    [.defaulted "args" (.listOf ArgInput.record.decode) fun v a => { a with args := v },
      .defaulted "exclusive" .flag fun v a => { a with exclusive := v },
      .defaulted "multiplicity" (.optional .text) fun v a => { a with multiplicity := v },
      .defaulted "heading" (.optional .text) fun v a => { a with heading := v }]

end ArgGroupInput

namespace CommandInput

/-- An element as an object. -/
def encode (input : CommandInput) : Json :=
  .object
    ([("element", input.element.encode)] ++
      memberIf "command" (input.command.map CommandMeta.encode) ++
      [("subcommands", .array (input.subcommands.map NamedElement.encode)),
        ("mixins", .array (input.mixins.map NamedElement.encode)),
        ("options", .array (input.options.map ArgInput.encode)),
        ("positionals", .array (input.positionals.map ArgInput.encode)),
        ("arg_groups", .array (input.argGroups.map ArgGroupInput.encode)),
        ("spec_elements", texts input.specElements),
        ("parent_command_elements", texts input.parentCommandElements),
        ("unmatched", texts input.unmatched)])

/-- The fields of an element. -/
def record : Record CommandInput where
  name := "CommandInput"
  start := bare ⟨""⟩
  fields :=
    [.needed "element" SymbolId.decode fun v a => { a with element := v },
      .defaulted "command" (.optional CommandMeta.record.decode) fun v a => { a with command := v },
      .defaulted "subcommands" (.listOf NamedElement.record.decode) fun v a =>
        { a with subcommands := v },
      .defaulted "mixins" (.listOf NamedElement.record.decode) fun v a => { a with mixins := v },
      .defaulted "options" (.listOf ArgInput.record.decode) fun v a => { a with options := v },
      .defaulted "positionals" (.listOf ArgInput.record.decode) fun v a =>
        { a with positionals := v },
      .defaulted "arg_groups" (.listOf ArgGroupInput.record.decode) fun v a =>
        { a with argGroups := v },
      .defaulted "spec_elements" (.listOf .text) fun v a => { a with specElements := v },
      .defaulted "parent_command_elements" (.listOf .text) fun v a =>
        { a with parentCommandElements := v },
      .defaulted "unmatched" (.listOf .text) fun v a => { a with unmatched := v }]

end CommandInput

namespace Manifest

/-- The fields of a manifest: the symbols in report order, and the elements. -/
def record : Record (List Symbol × List CommandInput) where
  name := "ManifestFile"
  start := ([], [])
  fields :=
    [.defaulted "symbols" (.listOf Symbol.decode) fun v a => (v, a.2),
      .defaulted "elements" (.listOf CommandInput.record.decode) fun v a => (a.1, v)]

/-- The manifest of symbols and elements. -/
def ofParts (parts : List Symbol × List CommandInput) : Manifest := ⟨.ofList parts.1, parts.2⟩

/-- Reads a manifest from its text. -/
def ofText (text : String) : Except DecodeError Manifest :=
  (decodeText record.decode text).map ofParts

/-- Reads a manifest from a value. -/
def ofValue (value : Json) : Except DecodeError Manifest :=
  (decodeValue record.decode value).map ofParts

/-- A manifest as an object. -/
def encode (symbols : List Symbol) (elements : List CommandInput) : Json :=
  .object
    [("symbols", .array (symbols.map Symbol.encode)),
      ("elements", .array (elements.map CommandInput.encode))]

end Manifest

end CommandFactory
