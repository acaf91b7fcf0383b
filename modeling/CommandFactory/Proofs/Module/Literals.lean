import CommandFactory.Proofs.Module.Tree
import CommandFactory.Proofs.Token.Blanking

/-!
# Texts in modules

Some of the strings in a module are only ever printed as string literals: names of commands and options,
descriptions, and what the builders of arguments and groups take (`GeneratedModule.literals`). Whatever
these strings are, the text of the module is the same but for these literals, which hold them in their
order, and it breaks off at the same fault (`Renderer.moduleBody_texts`).

The proof compares a part of a module with the same part without its strings (`blanked`). `Renders` says
that both have one text but for the strings; its rules follow the steps of a rendering.
-/

set_option autoImplicit false

namespace CommandFactory

open Token

/-! ## Strings of modules -/

/-- An empty string for each. -/
def blanks (values : List String) : List String := values.map fun _ => ""

namespace ArgSeed

def blanked : ArgSeed → ArgSeed
  | .names options => .names (blanks options)
  | .index _ => .index ""

def literals : ArgSeed → List String
  | .names options => options
  | .index position => [position]

end ArgSeed

namespace BuilderCall

/-- The members that are read and written stay. -/
def blanked : BuilderCall → BuilderCall
  | .fallbackValue _ => .fallbackValue ""
  | .arity _ => .arity ""
  | .description lines => .description (blanks lines)
  | .type _ => .type ""
  | .auxiliaryTypes names => .auxiliaryTypes (blanks names)
  | .defaultValue _ => .defaultValue ""
  | .mapFallbackValue _ => .mapFallbackValue ""
  | .preprocessor _ => .preprocessor ""
  | .parameterConsumer _ => .parameterConsumer ""
  | call => call

def literals : BuilderCall → List String
  | .fallbackValue value => [value]
  | .arity value => [value]
  | .description lines => lines
  | .type typeName => [typeName]
  | .auxiliaryTypes names => names
  | .defaultValue value => [value]
  | .mapFallbackValue value => [value]
  | .preprocessor typeName => [typeName]
  | .parameterConsumer typeName => [typeName]
  | _ => []

end BuilderCall

namespace ArgBuild

def blanked (build : ArgBuild) : ArgBuild :=
  { build with seed := build.seed.blanked, calls := build.calls.map BuilderCall.blanked }

def literals (build : ArgBuild) : List String :=
  build.seed.literals ++ build.calls.flatMap BuilderCall.literals

end ArgBuild

namespace GroupCall

def blanked : GroupCall → GroupCall
  | .exclusive value => .exclusive value
  | .multiplicity _ => .multiplicity ""
  | .heading _ => .heading ""

def literals : GroupCall → List String
  | .exclusive _ => []
  | .multiplicity value => [value]
  | .heading value => [value]

end GroupCall

namespace GroupBuild

def blanked (build : GroupBuild) : GroupBuild :=
  { build with calls := build.calls.map GroupCall.blanked }

def literals (build : GroupBuild) : List String := build.calls.flatMap GroupCall.literals

end GroupBuild

namespace Statement

/-- The name of a mixin is the name of a member as well, so it stays. -/
def blanked : Statement → Statement
  | .resolveMethod _ params => .resolveMethod "" (blanks params)
  | .setName _ => .setName ""
  | .setDescription lines => .setDescription (blanks lines)
  | .addSubcommand _ factory owner => .addSubcommand "" factory owner
  | .addArg build => .addArg build.blanked
  | .addArgGroup build => .addArgGroup build.blanked
  | statement => statement

/-- The strings in the order in which they are printed. A method that is not found is reported by a
format of the text itself. -/
def literals : Statement → List String
  | .resolveMethod name params => name :: (params ++ ["\x7b\x7d"])
  | .setName name => [name]
  | .setDescription lines => lines
  | .addSubcommand name _ _ => [name]
  | .addMixin name _ _ => [name]
  | .addArg build => build.literals
  | .addArgGroup build => build.literals
  | _ => []

end Statement

namespace Procedure

def blanked (procedure : Procedure) : Procedure :=
  { procedure with body := procedure.body.map Statement.blanked }

def literals (procedure : Procedure) : List String := procedure.body.flatMap Statement.literals

end Procedure

namespace GeneratedModule

mutual

/-- The module with an empty string for each that is printed as a literal only. -/
def blanked : GeneratedModule → GeneratedModule
  | ⟨declaration, name, path, visibility, instanceType, isContainer, procedures, children⟩ =>
      ⟨declaration, name, path, visibility, instanceType, isContainer,
        procedures.map Procedure.blanked, blankedAll children⟩

/-- Several modules, each without these strings. -/
def blankedAll : List GeneratedModule → List GeneratedModule
  | [] => []
  | module :: rest => blanked module :: blankedAll rest

end

/-- The strings that the text of the module has in its literals: those of its own procedures, then those
of the modules inside it. -/
def literals (module : GeneratedModule) : List String :=
  module.walk.flatMap fun node => node.procedures.flatMap Procedure.literals

theorem blanked_name (module : GeneratedModule) : module.blanked.name = module.name := by
  cases module
  rw [blanked]

theorem blanked_visibility (module : GeneratedModule) :
    module.blanked.visibility = module.visibility := by
  cases module
  rw [blanked]

theorem literals_eq (module : GeneratedModule) :
    module.literals = module.procedures.flatMap Procedure.literals ++
      module.children.flatMap literals := by
  rw [literals, walk_eq, List.flatMap_cons, List.flatMap_assoc]
  rfl

end GeneratedModule

/-! ## Steps -/

/-- Both renderings break off at one fault, or they are the same but for their texts, and those of the
first are the given ones. -/
inductive Renders (texts : List String) : Rendered → Rendered → Prop
  | error (fault : RenderFault) : Renders texts (.error fault) (.error fault)
  | ok {tokens others : List Token} (same : blanked tokens = blanked others)
      (listed : Token.texts tokens = texts) : Renders texts (.ok tokens) (.ok others)

namespace Renders

variable {α : Type} {texts more : List String} {first second : Rendered}

/-- A sequence of two steps. -/
theorem bind (h : Renders texts first second) {rest others : List Token → Rendered}
    (hrest : ∀ tokens tokens', blanked tokens = blanked tokens' → Token.texts tokens = texts →
      Renders more (rest tokens) (others tokens')) :
    Renders more (first >>= rest) (second >>= others) := by
  cases h with
  | error fault => exact error fault
  | ok hsame hlisted => exact hrest _ _ hsame hlisted

theorem identifier (name : String) {rest others : Token → Rendered}
    (h : ∀ found, Renders texts (rest (.identifier found)) (others (.identifier found))) :
    Renders texts (Render.identifier name >>= rest) (Render.identifier name >>= others) := by
  unfold Render.identifier
  split
  · exact h _
  · exact error _

/-- A type has no texts. -/
theorem type (text : String) : Renders [] (Render.type text) (Render.type text) := by
  unfold Render.type
  split
  · rename_i tokens htokens
    exact ok rfl (plain_of_type? htokens)
  · exact error _

theorem each {render render' : α → Rendered} {blank : α → α} {textsOf : α → List String}
    (h : ∀ item, Renders (textsOf item) (render item) (render' (blank item))) (items : List α) :
    Renders (items.flatMap textsOf) (Render.each render items)
      (Render.each render' (items.map blank)) := by
  induction items with
  | nil => exact ok rfl texts_nil
  | cons item rest ih =>
    refine bind (h item) fun start start' hstart hfirst => ?_
    refine bind ih fun others others' hothers hrest => ok ?_ ?_
    · rw [blanked_append, blanked_append, hstart, hothers]
    · rw [texts_append, hfirst, hrest, List.flatMap_cons]

end Renders

/-! ## Statements -/

namespace Render

theorem renders_reading (accessor : Accessor) : Renders [] (reading accessor) (reading accessor) := by
  cases accessor with
  | field name => exact .identifier _ fun found => .ok rfl (by simp [textsOne])
  | method name => exact .identifier _ fun found => .ok rfl (by simp [parens, textsOne])

theorem renders_writing (accessor : Accessor) : Renders [] (writing accessor) (writing accessor) := by
  cases accessor with
  | field name => exact .identifier _ fun found => .ok rfl (by simp [textsOne])
  | method name => exact .identifier _ fun found => .ok rfl (by simp [parens, textsOne])

theorem renders_replaced (previous : Option Accessor) :
    Renders [] (replaced previous) (replaced previous) := by
  cases previous with
  | none => exact .ok rfl (by simp)
  | some accessor =>
    refine .bind (renders_reading accessor) fun value value' hvalue htexts => .ok ?_ ?_
    · simp [hvalue]
    · simp [htexts]

theorem renders_builderCall (call : BuilderCall) :
    Renders call.literals (builderCall call) (builderCall call.blanked) := by
  cases call with
  | getter source =>
    refine .bind (renders_reading source) fun value value' hvalue htexts => .ok ?_ ?_
    · simp [braces, hvalue]
    · simp [keepInstance, braces, BuilderCall.literals, htexts]
  | setter target previous =>
    refine .bind (renders_replaced previous) fun before before' hbefore htexts => ?_
    refine .bind (renders_writing target) fun change change' hchange htexts' => .ok ?_ ?_
    · simp [braces, hbefore, hchange]
    · simp [keepInstance, braces, BuilderCall.literals, htexts, htexts']
  | _ => exact .ok (by simp [blanks]) (by simp [BuilderCall.literals, flag])

@[simp]
theorem texts_seed (seed : ArgSeed) : texts (Render.seed seed) = seed.literals := by
  cases seed <;> simp [Render.seed, ArgSeed.literals]

@[simp]
theorem blanked_seed (seed : ArgSeed) :
    blanked (Render.seed seed.blanked) = blanked (Render.seed seed) := by
  cases seed <;> simp [Render.seed, ArgSeed.blanked, blanks]

theorem renders_argument (build : ArgBuild) :
    Renders build.literals (argument build) (argument build.blanked) := by
  refine .identifier _ fun name => ?_
  refine .bind (.each renders_builderCall build.calls) fun calls calls' hcalls htexts => .ok ?_ ?_
  · simp [ArgBuild.blanked, hcalls]
  · simp [ArgBuild.literals, textsOne, htexts]

@[simp]
theorem texts_groupCalls (calls : List GroupCall) :
    texts (calls.flatMap groupCall) = calls.flatMap GroupCall.literals := by
  induction calls with
  | nil => simp
  | cons call rest ih => cases call <;> simp [groupCall, GroupCall.literals, flag, ih]

@[simp]
theorem blanked_groupCalls (calls : List GroupCall) :
    blanked ((calls.map GroupCall.blanked).flatMap groupCall) =
      blanked (calls.flatMap groupCall) := by
  induction calls with
  | nil => simp
  | cons call rest ih => cases call <;> simp [groupCall, GroupCall.blanked, ih]

theorem renders_secondArgument (argument : InstanceArg) :
    Renders [] (secondArgument argument) (secondArgument argument) := by
  cases argument with
  | this => exact .ok rfl (by simp)
  | upcast name =>
    refine .bind (.type name) fun base base' hbase htexts => .ok ?_ ?_
    · simp [hbase]
    · simp [htexts]

@[simp]
theorem texts_signature (kind : ProcedureKind) {type : List Token} (h : texts type = []) :
    texts (signature kind type) = [] := by
  cases kind with
  | createSpec methodRooted => cases methodRooted <;> simp [signature, parens, h]
  | _ => simp [signature, h]

theorem blanked_signature (kind : ProcedureKind) {type type' : List Token}
    (h : blanked type = blanked type') :
    blanked (signature kind type) = blanked (signature kind type') := by
  cases kind with
  | createSpec methodRooted => cases methodRooted <;> simp [signature, parens, h]
  | _ => simp [signature, h]

@[simp]
theorem texts_visibility (visibility : Visibility) :
    texts (Render.visibility visibility) = [] := by
  cases visibility <;> simp [Render.visibility]

@[simp]
theorem texts_imports (names : List String) :
    texts (names.flatMap fun name => words name ++ words ",") = [] := by
  induction names with
  | nil => exact texts_nil
  | cons name rest ih => simp [ih]

theorem renders_segments (names : List String) :
    Renders [] (Render.each (fun name => do return words "::" ++ [← identifier name]) names)
      (Render.each (fun name => do return words "::" ++ [← identifier name]) names) := by
  have hnames : Renders (names.flatMap fun _ => [])
      (Render.each (fun name => do return words "::" ++ [← identifier name]) names)
      (Render.each (fun name => do return words "::" ++ [← identifier name]) (names.map id)) :=
    .each (fun name => .identifier name fun found => .ok rfl (by simp [textsOne])) names
  rwa [List.map_id, List.flatMap_eq_nil_iff.2 fun _ _ => rfl] at hnames

end Render

namespace Renderer

open Render

variable {renderer : Renderer}

section Statements

variable (hroot : Plain renderer.root)

include hroot

theorem renders_reference (ref : ProcedureRef) :
    Renders [] (renderer.reference ref) (renderer.reference ref) := by
  refine .identifier _ fun name => ?_
  refine .bind (renders_segments ref.module.segments) fun modules modules' hmodules htexts => ?_
  refine .ok ?_ ?_
  · simp [hmodules]
  · simp [textsOne, hroot.texts_eq, htexts]

theorem renders_group (build : GroupBuild) :
    Renders build.literals (renderer.group build) (renderer.group build.blanked) := by
  refine .identifier _ fun name => .identifier _ fun value => .identifier _ fun field => ?_
  refine .bind (.type _) fun groupType groupType' htype htypeTexts => ?_
  refine .bind (renders_reference hroot _) fun options options' hoptions hoptionsTexts => ?_
  refine .bind (renders_reference hroot _) fun parameters parameters' hparameters htexts => ?_
  refine .ok ?_ ?_
  · simp [GroupBuild.blanked, htype, hoptions, hparameters]
  · simp [GroupBuild.literals, textsOne, htypeTexts,
      hoptionsTexts, htexts]

theorem renders_mixin (name typeName : String) (callee : Option ProcedureRef) :
    Renders [name] (renderer.mixin name typeName callee) (renderer.mixin name typeName callee) := by
  refine .bind (.type typeName) fun mixinType mixinType' htype htypeTexts => ?_
  refine .identifier _ fun field => ?_
  cases callee with
  | none =>
    refine .ok ?_ ?_
    · simp [htype]
    · simp [textsOne, htypeTexts]
  | some target =>
    refine .bind (renders_reference hroot target) fun callee callee' hcallee htexts => .ok ?_ ?_
    · simp [htype, hcallee]
    · simp [textsOne, htypeTexts, htexts]

theorem renders_addSubcommand (name : String) (factory : ProcedureRef) (owner : SubcommandOwner)
    (instanceType : List Token) (inFactory : Bool) :
    Renders [name] (renderer.statement instanceType inFactory (.addSubcommand name factory owner))
      (renderer.statement instanceType inFactory (.addSubcommand "" factory owner)) := by
  refine .bind (renders_reference hroot factory) fun callee callee' hcallee htexts => ?_
  cases owner with
  | none => exact .ok (by simp [hcallee]) (by simp [htexts])
  | this => exact .ok (by simp [hcallee]) (by simp [htexts])
  | new typeName =>
    unfold ownerArguments
    rw [bind_assoc, bind_assoc]
    refine .bind (.type typeName) fun type type' htype htypeTexts => .ok ?_ ?_
    · simp [hcallee, htype]
    · simp [htexts, htypeTexts]

theorem renders_statement {instanceType instanceType' : List Token}
    (htype : blanked instanceType = blanked instanceType') (htexts : Token.texts instanceType = [])
    (inFactory : Bool) (statement : Statement) :
    Renders statement.literals (renderer.statement instanceType inFactory statement)
      (renderer.statement instanceType' inFactory statement.blanked) := by
  cases statement with
  | newInstance =>
    refine .ok ?_ ?_
    · simp [htype]
    · simp [htexts, Statement.literals]
  | resolveMethod name params =>
    refine .ok ?_ ?_
    · simp [blanks]
    · simp [Statement.literals]
  | wrapSpec source => cases source <;> exact .ok rfl (by simp [Statement.literals])
  | setName name => exact .ok (by simp) (by simp [Statement.literals])
  | setDescription lines => exact .ok (by simp [blanks]) (by simp [Statement.literals])
  | addSubcommand name factory owner =>
    exact renders_addSubcommand hroot name factory owner instanceType inFactory
  | configure target first second =>
    refine .bind (renders_reference hroot target) fun callee callee' hcallee htexts => ?_
    refine .bind (renders_secondArgument second) fun passed passed' hpassed htexts' => .ok ?_ ?_
    · simp [hcallee, hpassed]
    · cases first <;> cases inFactory <;>
        simp [firstArgument, Statement.literals, htexts, htexts']
  | addMixin name typeName callee => exact renders_mixin hroot name typeName callee
  | addArg build => exact renders_argument build
  | addArgGroup build => exact renders_group hroot build
  | bindSpec field =>
    exact .identifier _ fun member =>
      .ok rfl (by simp [textsOne, Statement.literals])
  | bindParent field =>
    refine .identifier _ fun member => .ok rfl ?_
    simp [keepInstance, braces, textsOne, Statement.literals]
  | returnSpec => exact .ok rfl (by simp [Statement.literals])

/-! ## Procedures and modules -/

theorem renders_procedure (procedure : Procedure) :
    Renders procedure.literals (renderer.procedure procedure)
      (renderer.procedure procedure.blanked) := by
  refine .identifier _ fun name => ?_
  refine .bind (.type _) fun type type' htype htypeTexts => ?_
  have hstatement := renders_statement hroot htype htypeTexts procedure.kind.isCreate
  refine .bind (.each hstatement procedure.body) fun body body' hbody htexts => .ok ?_ ?_
  · simp [Procedure.blanked, braces, hbody, blanked_signature _ htype]
  · simp [Procedure.literals, braces, textsOne, htexts, htypeTexts]

end Statements

/-- The modules inside a module, if each of them is the same but for its texts. -/
theorem renders_nestedModules {modules : List GeneratedModule}
    (h : ∀ module ∈ modules,
      Renders module.literals (renderer.moduleBody module) (renderer.moduleBody module.blanked)) :
    Renders (modules.flatMap GeneratedModule.literals) (renderer.nestedModules modules)
      (renderer.nestedModules (GeneratedModule.blankedAll modules)) := by
  induction modules with
  | nil =>
    rw [GeneratedModule.blankedAll, nestedModules]
    exact .ok rfl texts_nil
  | cons module rest ih =>
    rw [List.forall_mem_cons] at h
    rw [GeneratedModule.blankedAll, nestedModules, nestedModules, module.blanked_name,
      module.blanked_visibility]
    refine .identifier _ fun name => ?_
    refine .bind h.1 fun body body' hbody hbodyTexts => ?_
    refine .bind (ih h.2) fun others others' hothers htexts => .ok ?_ ?_
    · simp [braces, hbody, hothers]
    · simp [braces, textsOne, hbodyTexts, htexts]

/-- The text of a module is the same without its strings, but for the literals that hold them. -/
theorem renders_moduleBody (hroot : Plain renderer.root) (hruntime : Plain renderer.runtime)
    (module : GeneratedModule) :
    Renders module.literals (renderer.moduleBody module) (renderer.moduleBody module.blanked) := by
  induction module using GeneratedModule.induction with
  | step module ih =>
    have hprocedures := Renders.each (renders_procedure hroot) module.procedures
    have hchildren := renders_nestedModules ih
    rw [module.literals_eq]
    cases module
    rw [GeneratedModule.blanked, moduleBody, moduleBody]
    refine .bind hprocedures fun procedures procedures' hsame htexts => ?_
    refine .bind hchildren fun children children' hchildren hnested => .ok ?_ ?_
    · simp [hsame, hchildren]
    · simp [quiet, braces, brackets, hruntime.texts_eq, htexts, hnested]

/-- The paths that all text shares have no texts. -/
theorem plain_of_ofSettings {settings : Settings} (h : ofSettings settings = .ok renderer) :
    Plain renderer.root ∧ Plain renderer.runtime := by
  unfold ofSettings at h
  split at h
  · cases h
  · rename_i runtime hruntime
    split at h
    · cases h
    · rename_i root hroot
      cases h
      exact ⟨plain_of_path? hroot, plain_of_path? hruntime⟩

/-- The strings of a module that are printed as literals reach nothing else: of two modules that are the
same but for them, either both break off at one fault, or both have a text, with the same tokens but for
the string literals, which hold the strings of each module in their order. -/
theorem moduleBody_texts {settings : Settings} (hrenderer : ofSettings settings = .ok renderer)
    {a b : GeneratedModule} (hsame : a.blanked = b.blanked) :
    (∃ fault, renderer.moduleBody a = .error fault ∧ renderer.moduleBody b = .error fault) ∨
      ∃ tokens tokens', renderer.moduleBody a = .ok tokens ∧ renderer.moduleBody b = .ok tokens' ∧
        Token.blanked tokens = Token.blanked tokens' ∧
        Token.texts tokens = a.literals ∧ Token.texts tokens' = b.literals := by
  obtain ⟨hroot, hruntime⟩ := plain_of_ofSettings hrenderer
  have ha := renders_moduleBody hroot hruntime a
  have hb := renders_moduleBody hroot hruntime b
  -- Both are compared with the one module that both are without their strings.
  rw [← hsame] at hb
  generalize renderer.moduleBody a.blanked = common at ha hb
  generalize renderer.moduleBody a = first at ha ⊢
  generalize renderer.moduleBody b = second at hb ⊢
  cases ha with
  | error fault =>
    cases hb
    exact Or.inl ⟨fault, rfl, rfl⟩
  | ok htokens hlisted =>
    cases hb with
    | ok htokens' hlisted' =>
      exact Or.inr ⟨_, _, rfl, rfl, htokens.trans htokens'.symm, hlisted, hlisted'⟩

/-- A module with a factory for a command of the name and the description. -/
def describedTool (name description : String) : GeneratedModule :=
  ⟨⟨"demo.Tool"⟩, "tool_cli_cfg", ⟨["demo", "tool_cli_cfg"]⟩, .everyone, "crate::demo::Tool", false,
    [⟨⟨"demo.Tool"⟩, "create_cmd_spec", .createSpec false, "crate::demo::Tool",
      [.newInstance, .wrapSpec .ofInstance, .setName name, .setDescription [description],
        .returnSpec]⟩], []⟩

/-- A name that closes the string literal and the call is still one literal. -/
theorem moduleBody_texts_describedTool :
    (describedTool "tool" "A tool.").blanked =
        (describedTool "\"); abort(); (\"" "*/ abort(); /*").blanked ∧
      ∃ renderer, ofSettings {} = .ok renderer ∧
        ∃ tokens tokens',
          renderer.moduleBody (describedTool "tool" "A tool.") = .ok tokens ∧
          renderer.moduleBody (describedTool "\"); abort(); (\"" "*/ abort(); /*") = .ok tokens' ∧
          Token.blanked tokens = Token.blanked tokens' ∧
          Token.texts tokens = ["tool", "A tool."] ∧
          Token.texts tokens' = ["\"); abort(); (\"", "*/ abort(); /*"] := by
  have hrendered : (ofSettings {}).map (fun renderer =>
      (renderer.moduleBody (describedTool "tool" "A tool.")).map fun _ => ()) = .ok (.ok ()) := by
    decide +kernel
  cases hrenderer : ofSettings {} with
  | error text =>
    rw [hrenderer] at hrendered
    cases hrendered
  | ok renderer =>
    refine ⟨rfl, renderer, rfl, ?_⟩
    have hsame : (describedTool "tool" "A tool.").blanked =
        (describedTool "\"); abort(); (\"" "*/ abort(); /*").blanked := rfl
    rcases moduleBody_texts hrenderer hsame with ⟨fault, hfault, -⟩ | h
    · rw [hrenderer, Except.map, hfault] at hrendered
      cases hrendered
    · exact h

end Renderer

end CommandFactory
