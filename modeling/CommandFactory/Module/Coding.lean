import CommandFactory.Artifact.Path
import CommandFactory.Declaration.Coding

/-!
# Modules as JSON

The JSON form of generated modules and of their parts. A value with several shapes is the name of its
shape, or an object with that name as its only key and the content of the shape under it.
-/

set_option autoImplicit false

namespace CommandFactory

open Json

/-- The content of a shape under the name of the shape. -/
def Json.shaped (name : String) (content : Json) : Json := .object [(name, content)]

/-! ## Names and references -/

/-- A path as the list of its names. -/
def ModulePath.encode (path : ModulePath) : Json := texts path.segments

/-- A reference as an object. -/
def ProcedureRef.encode (ref : ProcedureRef) : Json :=
  .object [("module", ref.module.encode), ("name", .string ref.name)]

/-- A kind of procedures. -/
def ProcedureKind.encode : ProcedureKind → Json
  | .createSpec methodRooted =>
      .shaped "create_spec" (.object [("method_rooted", .bool methodRooted)])
  | .configureAll => .string "configure_all"
  | .configureMixins => .string "configure_mixins"
  | .configureOptions => .string "configure_options"
  | .configureParameters => .string "configure_parameters"
  | .configureArgGroups => .string "configure_arg_groups"
  | .configureSpecs => .string "configure_specs"
  | .configureParentCommands => .string "configure_parent_commands"
  | .configureUnmatcheds => .string "configure_unmatcheds"

/-- An accessor. -/
def Accessor.encode : Accessor → Json
  | .field name => .shaped "field" (.object [("name", .string name)])
  | .method name => .shaped "method" (.object [("name", .string name)])

/-! ## Builders -/

/-- A call on the builder of an argument. -/
def BuilderCall.encode : BuilderCall → Json
  | .fallbackValue value => .shaped "fallback_value" (.string value)
  | .negatable value => .shaped "negatable" (.bool value)
  | .usageHelp value => .shaped "usage_help" (.bool value)
  | .arity value => .shaped "arity" (.string value)
  | .description lines => .shaped "description" (texts lines)
  | .hasInitialValue value => .shaped "has_initial_value" (.bool value)
  | .hidden value => .shaped "hidden" (.bool value)
  | .scope value => .shaped "scope" (.string value.name)
  | .type name => .shaped "type" (.string name)
  | .auxiliaryTypes names => .shaped "auxiliary_types" (texts names)
  | .defaultValue value => .shaped "default_value" (.string value)
  | .mapFallbackValue value => .shaped "map_fallback_value" (.string value)
  | .preprocessor name => .shaped "preprocessor" (.string name)
  | .parameterConsumer name => .shaped "parameter_consumer" (.string name)
  | .getter source => .shaped "getter" source.encode
  | .setter target previous =>
      .shaped "setter"
        (.object
          [("target", target.encode), ("previous", (previous.map Accessor.encode).getD .null)])

/-- The seed of an argument. -/
def ArgSeed.encode : ArgSeed → Json
  | .names list => .shaped "names" (texts list)
  | .index text => .shaped "index" (.string text)

/-- The making of an argument as an object. -/
def ArgBuild.encode (build : ArgBuild) : Json :=
  .object
    [("var", .string build.varName), ("seed", build.seed.encode),
      ("calls", .array (build.calls.map BuilderCall.encode))]

/-- A call on the builder of a group. -/
def GroupCall.encode : GroupCall → Json
  | .exclusive value => .shaped "exclusive" (.bool value)
  | .multiplicity value => .shaped "multiplicity" (.string value)
  | .heading value => .shaped "heading" (.string value)

/-- The making of a group as an object. -/
def GroupBuild.encode (build : GroupBuild) : Json :=
  .object
    [("var", .string build.varName), ("instance", .string build.valueName),
      ("field", .string build.field), ("group_type", .string build.groupType),
      ("calls", .array (build.calls.map GroupCall.encode)), ("options", build.options.encode),
      ("parameters", build.parameters.encode)]

/-! ## Statements -/

/-- What a call passes on first. -/
def SpecArg.encode : SpecArg → Json
  | .spec => .string "spec"
  | .optionSink => .string "option_sink"
  | .positionalSink => .string "positional_sink"

/-- The instance that a call passes on. -/
def InstanceArg.encode : InstanceArg → Json
  | .this => .string "this"
  | .upcast type => .shaped "upcast" (.string type)

/-- What a new specification wraps. -/
def WrapSource.encode : WrapSource → Json
  | .ofInstance => .string "instance"
  | .ofMethod => .string "method"

/-- The instance on which the factory of a subcommand runs. -/
def SubcommandOwner.encode : SubcommandOwner → Json
  | .none => .string "none"
  | .this => .string "this"
  | .new type => .shaped "new" (.string type)

/-- A statement. -/
def Statement.encode : Statement → Json
  | .newInstance => .string "new_instance"
  | .resolveMethod name params =>
      .shaped "resolve_method" (.object [("name", .string name), ("params", texts params)])
  | .wrapSpec source => .shaped "wrap_spec" source.encode
  | .setName name => .shaped "set_name" (.string name)
  | .setDescription lines => .shaped "set_description" (texts lines)
  | .addSubcommand name factory owner =>
      .shaped "add_subcommand"
        (.object [("name", .string name), ("factory", factory.encode), ("owner", owner.encode)])
  | .configure target first second =>
      .shaped "configure"
        (.object
          [("target", target.encode), ("spec", first.encode), ("instance", second.encode)])
  | .addMixin name type target =>
      .shaped "add_mixin"
        (.object
          [("name", .string name), ("mixin_type", .string type),
            ("configure", (target.map ProcedureRef.encode).getD .null)])
  | .addArg build => .shaped "add_arg" build.encode
  | .addArgGroup build => .shaped "add_arg_group" build.encode
  | .bindSpec field => .shaped "bind_spec" (.object [("field", .string field)])
  | .bindParent field => .shaped "bind_parent" (.object [("field", .string field)])
  | .returnSpec => .string "return_spec"

/-! ## Procedures, modules and units -/

/-- A procedure as an object. -/
def Procedure.encode (procedure : Procedure) : Json :=
  .object
    [("element", procedure.element.encode), ("name", .string procedure.name),
      ("kind", procedure.kind.encode), ("instance_type", .string procedure.instanceType),
      ("body", .array (procedure.body.map Statement.encode))]

namespace GeneratedModule

mutual

/-- A module as an object. -/
def encode : GeneratedModule → Json
  | ⟨declaration, name, path, visibility, instanceType, isContainer, procedures, children⟩ =>
      .object
        [("declaration", declaration.encode), ("name", .string name), ("path", path.encode),
          ("visibility", .string visibility.name), ("instance_type", .string instanceType),
          ("abstract_container", .bool isContainer),
          ("procedures", .array (procedures.map Procedure.encode)),
          ("children", .array (encodeAll children))]

/-- Modules as objects. -/
def encodeAll : List GeneratedModule → List Json
  | [] => []
  | module :: rest => encode module :: encodeAll rest

end

end GeneratedModule

/-- A unit as an object, with the path of its artifact. -/
def OutputUnit.encode (unit : OutputUnit) : Json :=
  .object
    [("module", unit.module.encode), ("package", textOrNull unit.package),
      ("artifact", .string unit.relativePath.text)]

end CommandFactory
