import CommandFactory.Module.Basic
import CommandFactory.Naming
import CommandFactory.Settings.Basic
import CommandFactory.Token.TypeGrammar

/-!
# Rendering of modules

The program text of a module as tokens. Texts of a manifest reach the tokens as string literals
(`Token.text`), as identifiers, or as the tokens of a type. A name for which no identifier stands, and
a text that is no type, end the rendering (`RenderFault`); the first of them that is met is the fault.

- `Renderer.ofSettings` fixes the two paths that all text shares;
- `Renderer.procedure` is the text of a procedure;
- `Renderer.moduleBody` is the text of a module with the modules inside it.
-/

set_option autoImplicit false

namespace CommandFactory

/-- Why a module has no text. -/
inductive RenderFault where
  /-- A text that should be a type is none. -/
  | typePath (text : String)
  /-- A name for which no identifier stands. -/
  | unwritable (name : String)
  deriving DecidableEq, Repr, Inhabited

/-- The tokens of a part of a module. -/
abbrev Rendered := Except RenderFault (List Token)

namespace Render

open Token

/-! ## Pieces -/

/-- The identifier for a name. -/
def identifier (name : String) : Except RenderFault Token :=
  match Text.Identifier.ofName? name with
  | some identifier => .ok (.identifier identifier)
  | none => .error (.unwritable name)

/-- The tokens of a type. -/
def type (text : String) : Rendered :=
  match type? text with
  | some tokens => .ok tokens
  | none => .error (.typePath text)

/-- The parts of a list one after the other. -/
def each {α : Type} (render : α → Rendered) : List α → Rendered
  | [] => .ok []
  | a :: rest => do
      let first ← render a
      let others ← each render rest
      return first ++ others

/-- Arguments in parentheses. -/
def arguments (items : List (List Token)) : List Token := [parens (commaSeparated items)]

/-- A call: the words before the parentheses, and the arguments. -/
def call (callee : String) (items : List (List Token)) : List Token :=
  words callee ++ arguments items

/-- A call that ends a statement. -/
def callStatement (callee : String) (items : List (List Token)) : List Token :=
  call callee items ++ words ";"

/-- A text as a string literal. -/
def literal (text : String) : List Token := [.text text]

/-- Texts as a list of string literals. -/
def literalList (texts : List String) : List Token := words "&" ++ [brackets (literals texts)]

/-- A truth value. -/
def flag (value : Bool) : List Token := [named (if value then "true" else "false")]

/-- A new instance of a type. -/
def newInstance (type : List Token) : List Token :=
  call "Bound :: new" [words "<" ++ type ++ call "> :: default" []]

/-- The type of an instance that is passed on. -/
def instanceType (type : List Token) : List Token := words "& Bound <" ++ type ++ words ">"

/-- The statement that puts a value into a member. -/
def assignment (member : Token) (value : List Token) : List Token :=
  call "obj . borrow_mut" [] ++ words "." ++ [member] ++ words "=" ++ value

/-! ## Arguments -/

/-- The text that reads a member. -/
def reading : Accessor → Rendered
  | .field name => do
      return call "obj . borrow" [] ++ words "." ++ [← identifier name] ++ call ". clone" []
  | .method name => do
      return call "obj . borrow" [] ++ words "." ++ [← identifier name] ++ [parens []]

/-- The statement that writes a member. -/
def writing : Accessor → Rendered
  | .field name => do
      return assignment (← identifier name) (callStatement "value . convert" [])
  | .method name => do
      return call "obj . borrow_mut" [] ++ words "." ++ [← identifier name] ++
        [parens (call "value . convert" [])] ++ words ";"

/-- The text for the value that a write replaces. -/
def replaced : Option Accessor → Rendered
  | none => .ok (words "Value :: Null")
  | some accessor => do return call "Value :: from" [← reading accessor]

/-- The statement that keeps the instance for later. -/
def keepInstance : List Token := words "let obj =" ++ callStatement "obj . clone" []

/-- The name of a scope. -/
def scopeName : ArgScope → String
  | .ofCommand => "ScopeType :: Local"
  | .inherited => "ScopeType :: Inherit"

/-- A call on the builder of an argument. -/
def builderCall : BuilderCall → Rendered
  | .fallbackValue value => .ok (call ". fallback_value" [literal value])
  | .negatable value => .ok (call ". negatable" [flag value])
  | .usageHelp value => .ok (call ". usage_help" [flag value])
  | .arity value => .ok (call ". arity" [literal value])
  | .description lines => .ok (call ". description" [literalList lines])
  | .hasInitialValue value => .ok (call ". has_initial_value" [flag value])
  | .hidden value => .ok (call ". hidden" [flag value])
  | .scope value => .ok (call ". scope_type" [words (scopeName value)])
  | .type name => .ok (call ". type_name" [literal name])
  | .auxiliaryTypes names => .ok (call ". auxiliary_types" [literalList names])
  | .defaultValue value => .ok (call ". default_value" [literal value])
  | .mapFallbackValue value => .ok (call ". map_fallback_value" [literal value])
  | .preprocessor name => .ok (call ". preprocessor_type" [literal name])
  | .parameterConsumer name => .ok (call ". parameter_consumer_type" [literal name])
  | .getter source => do
      let value ← reading source
      return call ". getter"
        [[braces (keepInstance ++ words "move ||" ++ call "Value :: from" [value])]]
  | .setter target previous => do
      let before ← replaced previous
      let change ← writing target
      return call ". setter"
        [[braces
            (keepInstance ++ words "move | value : Value |" ++
              [braces
                (words "let previous =" ++ before ++ words ";" ++ change ++ words "previous")])]]

/-- The builder of an argument. -/
def seed : ArgSeed → List Token
  | .names names => call "OptionSpec :: builder" [literalList names]
  | .index index => call "PositionalParamSpec :: builder" [] ++ call ". index" [literal index]

/-- The making of an argument. -/
def argument (build : ArgBuild) : Rendered := do
  let name ← identifier build.varName
  let calls ← each builderCall build.calls
  return words "let" ++ [name] ++ words "=" ++ seed build.seed ++ calls ++
    callStatement ". build" [] ++ callStatement "cons" [[name]]

/-- A call on the builder of a group. -/
def groupCall : GroupCall → List Token
  | .exclusive value => call ". exclusive" [flag value]
  | .multiplicity value => call ". multiplicity" [literal value]
  | .heading value => call ". heading" [literal value]

/-! ## Procedures -/

/-- What stands between the name and the body of a procedure. -/
def signature (kind : ProcedureKind) (type : List Token) : List Token :=
  let target := words "obj :" ++ instanceType type
  match kind with
  | .createSpec false => [parens []] ++ words "-> CommandSpec"
  | .createSpec true => [parens target] ++ words "-> CommandSpec"
  | .configureOptions => arguments [call "cons : & mut dyn FnMut" [words "OptionSpec"], target]
  | .configureParameters =>
      arguments [call "cons : & mut dyn FnMut" [words "PositionalParamSpec"], target]
  | _ => arguments [words "cs : & mut CommandSpec", target]

/-- What a configuring procedure gets first. The factory owns the specification; other procedures
have it lent to them. -/
def firstArgument (inFactory : Bool) : SpecArg → List Token
  | .spec => if inFactory then words "& mut cs" else words "cs"
  | .optionSink => words "& mut | option |" ++ call "cs . add_option" [words "option"]
  | .positionalSink =>
      words "& mut | positional |" ++ call "cs . add_positional" [words "positional"]

/-- The instance that a configuring procedure gets. -/
def secondArgument : InstanceArg → Rendered
  | .this => .ok (words "obj")
  | .upcast name => do
      let base ← type name
      return words "Upcast :: <" ++ base ++ call "> :: upcast" [words "obj"]

/-- What the factory of a subcommand gets. -/
def ownerArguments : SubcommandOwner → Except RenderFault (List (List Token))
  | .none => .ok []
  | .this => .ok [words "obj"]
  | .new name => do
      let owner ← type name
      return [words "&" ++ newInstance owner]

/-- The visibility of a module. -/
def visibility : Visibility → List Token
  | .everyone => words "pub"
  | .withinCrate => call "pub" [words "crate"]

/-- The names that every module takes from the crate of specifications. -/
def importedNames : List String :=
  ["ArgGroupSpec", "Bound", "CommandSpec", "MethodRef", "OptionSpec", "PositionalParamSpec",
    "ScopeType", "SpecHandle", "Upcast", "Value"]

/-- The line that quiets the checks a generated module does not care about. -/
def quiet : List Token :=
  words "# !" ++
    [brackets
      (call "allow"
        [words "unused_imports", words "unused_variables", words "unused_mut", words "dead_code",
          words "clippy :: all"])]

end Render

/-! ## Whole modules -/

/-- The paths that the text of all modules shares. -/
structure Renderer where
  runtime : List Token
  root : List Token
  deriving Inhabited

namespace Renderer

open Token Render

/-- The renderer of settings, or the text that is no path. -/
def ofSettings (settings : Settings) : Except String Renderer :=
  match path? settings.runtimeCrate with
  | none => .error settings.runtimeCrate
  | some runtime =>
      match path? settings.moduleRoot with
      | none => .error settings.moduleRoot
      | some root => .ok ⟨runtime, root⟩

variable (renderer : Renderer)

/-- The path of a procedure from the module root. The identifier of the procedure itself is the first
that is looked for. -/
def reference (ref : ProcedureRef) : Rendered := do
  let name ← identifier ref.name
  let modules ←
    each (fun segment => do return words "::" ++ [← identifier segment]) ref.module.segments
  return renderer.root ++ modules ++ words "::" ++ [name]

/-- A call of a procedure that ends a statement. -/
def procedureCall (callee : List Token) (items : List (List Token)) : List Token :=
  callee ++ arguments items ++ words ";"

/-- The making of a group. -/
def group (build : GroupBuild) : Rendered := do
  let name ← identifier build.varName
  let value ← identifier build.valueName
  let field ← identifier build.field
  let groupType ← type build.groupType
  let options ← renderer.reference build.options
  let parameters ← renderer.reference build.parameters
  let sink := words "& mut | arg |" ++ [name] ++ call ". add_arg" [words "arg"]
  return words "let" ++ [value] ++ words "=" ++ newInstance groupType ++ words ";" ++
    assignment field (value :: callStatement ". clone" []) ++
    words "let mut" ++ [name] ++ words "=" ++ call "ArgGroupSpec :: builder" [] ++
    build.calls.flatMap groupCall ++ words ";" ++
    procedureCall options [sink, words "&" ++ [value]] ++
    procedureCall parameters [sink, words "&" ++ [value]] ++
    callStatement "cs . add_arg_group" [name :: call ". build" []]

/-- The adding of a mixin. -/
def mixin (name typeName : String) (configure : Option ProcedureRef) : Rendered := do
  let mixinType ← type typeName
  let field ← identifier name
  let value := named ("mixin_" ++ Naming.snakeCase name)
  let spec := named ("mixin_spec_" ++ Naming.snakeCase name)
  let configuring ←
    match configure with
    | none => pure []
    | some target => do
        let callee ← renderer.reference target
        pure (procedureCall callee [words "& mut" ++ [spec], words "&" ++ [value]])
  return words "let" ++ [value] ++ words "=" ++ newInstance mixinType ++ words ";" ++
    assignment field (value :: callStatement ". clone" []) ++
    words "let mut" ++ [spec] ++ words "=" ++
    callStatement "CommandSpec :: wrap_without_inspection" [words "&" ++ [value]] ++
    configuring ++ callStatement "cs . add_mixin" [literal name, [spec]]

/-- A statement of a procedure that works on an instance of the type. -/
def statement (instanceType : List Token) (inFactory : Bool) : Statement → Rendered
  | .newInstance => .ok (words "let obj = &" ++ Render.newInstance instanceType ++ words ";")
  | .resolveMethod name params =>
      .ok
        (words "let method =" ++
          call "MethodRef :: declared" [words "obj", literal name, literalList params] ++
          callStatement ". unwrap_or_else"
            [words "| err |" ++ call "panic !" [literal "\x7b\x7d", words "err"]])
  | .wrapSpec .ofInstance =>
      .ok
        (words "let mut cs =" ++
          callStatement "CommandSpec :: wrap_without_inspection" [words "obj"])
  | .wrapSpec .ofMethod =>
      .ok
        (words "let mut cs =" ++
          callStatement "CommandSpec :: wrap_method_without_inspection"
            [words "obj", words "method"])
  | .setName name => .ok (callStatement "cs . set_name" [literal name])
  | .setDescription lines => .ok (callStatement "cs . set_description" [literalList lines])
  | .addSubcommand name factory owner => do
      let callee ← renderer.reference factory
      let items ← ownerArguments owner
      return callStatement "cs . add_subcommand" [literal name, callee ++ arguments items]
  | .configure target first second => do
      let callee ← renderer.reference target
      let target ← secondArgument second
      return procedureCall callee [firstArgument inFactory first, target]
  | .addMixin name mixinType configure => renderer.mixin name mixinType configure
  | .addArg build => argument build
  | .addArgGroup build => renderer.group build
  | .bindSpec field => do
      return assignment (← identifier field) (callStatement "cs . handle" [])
  | .bindParent field => do
      let member ← identifier field
      return callStatement "cs . add_parent_command_injection"
        [[braces
            (keepInstance ++ words "move | parent : SpecHandle |" ++
              assignment member (words "parent"))]]
  | .returnSpec => .ok (words "cs")

/-- A procedure. -/
def procedure (procedure : Procedure) : Rendered := do
  let name ← identifier procedure.name
  let instanceType ← type procedure.instanceType
  let body ← each (renderer.statement instanceType procedure.kind.isCreate) procedure.body
  return words "pub fn" ++ [name] ++ signature procedure.kind instanceType ++ [braces body]

mutual

/-- The text of a module, without a wrapper: its own procedures, then the modules inside it. -/
def moduleBody : GeneratedModule → Rendered
  | ⟨_, _, _, _, _, _, procedures, children⟩ => do
      let procedures ← each renderer.procedure procedures
      let children ← nestedModules children
      return quiet ++ words "use" ++ renderer.runtime ++ words "::" ++
        [braces (importedNames.flatMap fun name => words name ++ words ",")] ++ words ";" ++
        procedures ++ children

/-- The text of modules inside a module, each in its wrapper. -/
def nestedModules : List GeneratedModule → Rendered
  | [] => .ok []
  | module :: rest => do
      let name ← identifier module.name
      let body ← moduleBody module
      let others ← nestedModules rest
      return visibility module.visibility ++ words "mod" ++ [name] ++ [braces body] ++ others

end

end Renderer

end CommandFactory
