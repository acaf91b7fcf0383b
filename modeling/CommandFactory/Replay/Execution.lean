import CommandFactory.Compilation
import CommandFactory.Replay.Spec

/-!
# Replay of factories

The procedures of generated modules, carried out on objects in a store. What a procedure makes and
changes is in its frame; the objects are in the store. A replay ends with a fault where the code has
no instance or no specification to work on, where it calls a procedure that is not there, and where
calls go too deep.

- `Replayer.step` carries out one statement, with the calls of other procedures as a parameter;
- `Replayer.run` carries out a procedure with a number of calls inside one another;
- `Replayer.createSpec` gives the specification that a factory makes.
-/

set_option autoImplicit false

namespace CommandFactory

/-- The state of a call. -/
structure Frame where
  target : Option ObjectRef := none
  method : Option String := none
  spec : Option CommandSpec := none
  args : List ArgSpec := []
  deriving Repr, Inhabited

/-- A part of a replay: works on the store, and may end with a fault. -/
abbrev Replay := StateT Store (Except ReplayFault)

namespace Replay

/-- Ends with a fault. -/
def fail {α : Type} (fault : ReplayFault) : Replay α := fun _ => .error fault

/-- The value, or a fault. -/
def orFail {α : Type} (value : Option α) (fault : ReplayFault) : Replay α :=
  match value with
  | some a => return a
  | none => fail fault

/-- Makes an object. -/
def newObject (type : String) : Replay ObjectRef := fun store => .ok (store.new type)

/-- Sets a slot of an object. -/
def setSlot (ref : ObjectRef) (name : String) (slot : Slot) : Replay Unit :=
  modify fun store => store.setSlot ref name slot

end Replay

namespace Frame

/-- The instance of a call. -/
def needTarget (frame : Frame) : Replay ObjectRef := Replay.orFail frame.target .noInstance

/-- The specification of a call. -/
def needSpec (frame : Frame) : Replay CommandSpec := Replay.orFail frame.spec .noSpec

/-- The frame with a changed specification. -/
def changeSpec (frame : Frame) (change : CommandSpec → CommandSpec) : Replay Frame := do
  return { frame with spec := some (change (← frame.needSpec)) }

end Frame

/-! ## Builders -/

/-- An argument under way, with the accessors it has so far. -/
structure ArgDraft where
  arg : ArgSpec
  getter : Option Accessor
  setter : Option Accessor
  previous : Option Accessor
  deriving DecidableEq, Repr, Inhabited

namespace ArgBuild

/-- The argument that a seed starts. -/
def start : ArgSeed → ArgSpec
  | .names names => { names }
  | .index index => { index := some index }

/-- Changes the argument under way. -/
def onArg (draft : ArgDraft) (change : ArgSpec → ArgSpec) : ArgDraft :=
  { draft with arg := change draft.arg }

/-- Carries out one call on a builder. -/
def apply (draft : ArgDraft) : BuilderCall → ArgDraft
  | .fallbackValue v => onArg draft fun a => { a with fallbackValue := some v }
  | .negatable v => onArg draft fun a => { a with negatable := v }
  | .usageHelp v => onArg draft fun a => { a with usageHelp := v }
  | .arity v => onArg draft fun a => { a with arity := v }
  | .description v => onArg draft fun a => { a with description := v }
  | .hasInitialValue v => onArg draft fun a => { a with hasInitialValue := v }
  | .hidden v => onArg draft fun a => { a with hidden := v }
  | .scope v => onArg draft fun a => { a with scope := v }
  | .type v => onArg draft fun a => { a with typeName := v }
  | .auxiliaryTypes v => onArg draft fun a => { a with auxiliaryTypes := v }
  | .defaultValue v => onArg draft fun a => { a with defaultValue := some v }
  | .mapFallbackValue v => onArg draft fun a => { a with mapFallbackValue := some v }
  | .preprocessor v => onArg draft fun a => { a with preprocessor := some v }
  | .parameterConsumer v => onArg draft fun a => { a with parameterConsumer := some v }
  | .getter source => { draft with getter := some source }
  | .setter target previous => { draft with setter := some target, previous }

/-- The finished argument. It is bound if it has a getter or a setter. -/
def finish (draft : ArgDraft) (target : ObjectRef) : ArgSpec :=
  if draft.getter.isSome || draft.setter.isSome then
    { draft.arg with binding := some ⟨target, draft.getter, draft.setter, draft.previous⟩ }
  else draft.arg

/-- The argument that a builder makes for an instance. -/
def toSpec (build : ArgBuild) (target : ObjectRef) : ArgSpec :=
  finish (build.calls.foldl apply ⟨start build.seed, none, none, none⟩) target

end ArgBuild

namespace GroupBuild

/-- Carries out one call on the builder of a group. -/
def apply (group : GroupSpec) : GroupCall → GroupSpec
  | .exclusive v => { group with exclusive := v }
  | .multiplicity v => { group with multiplicity := some v }
  | .heading v => { group with heading := some v }

/-- The group that a builder makes of arguments. -/
def toSpec (build : GroupBuild) (args : List ArgSpec) : GroupSpec :=
  { build.calls.foldl apply {} with args }

end GroupBuild

/-! ## Calls -/

/-- A call of a procedure, with the frame it starts from. -/
abbrev Call := ProcedureRef → Frame → Replay Frame

namespace Call

variable (call : Call)

/-- The specification that a factory makes. -/
def create (target : ProcedureRef) (owner : Option ObjectRef) : Replay CommandSpec := do
  let frame ← call target { target := owner }
  Replay.orFail frame.spec (.nothingReturned target.name)

/-- A specification after a procedure has configured it. -/
def configure (target : ProcedureRef) (spec : CommandSpec) (object : ObjectRef) :
    Replay CommandSpec := do
  let frame ← call target { target := some object, spec := some spec }
  Replay.orFail frame.spec (.specDropped target.name)

/-- The arguments that a procedure appends. -/
def collect (target : ProcedureRef) (object : ObjectRef) : Replay (List ArgSpec) := do
  return (← call target { target := some object }).args

end Call

/-! ## Procedures -/

/-- Procedures by their references, the one that counts first. -/
structure Replayer where
  procedures : List (ProcedureRef × Procedure)
  deriving Inhabited

namespace Replayer

/-- The procedures of modules and of the modules inside them. Of several with one reference the last
counts. -/
def ofModules (modules : List GeneratedModule) : Replayer :=
  ⟨((GeneratedModule.walkAll modules).flatMap fun module =>
      module.procedures.map fun procedure => (⟨module.path, procedure.name⟩, procedure)).reverse⟩

/-- The procedure of a reference. -/
def procedure? (replayer : Replayer) (target : ProcedureRef) : Option Procedure :=
  (replayer.procedures.find? fun entry => entry.1 = target).map Prod.snd

/-- The reference as a fault names it. -/
def referenceText (target : ProcedureRef) : String := target.module.text ++ "::" ++ target.name

variable (call : Call)

/-- Adds a subcommand that its factory makes. -/
def addSubcommand (frame : Frame) (name : String) (factory : ProcedureRef)
    (owner : SubcommandOwner) : Replay Frame := do
  let target ←
    match owner with
    | .none => pure none
    | .this => some <$> frame.needTarget
    | .new type => some <$> Replay.newObject type
  let subcommand ← call.create factory target
  let spec ← frame.needSpec
  let (spec, store) := spec.addSubcommand name subcommand (← get)
  set store
  return { frame with spec := some spec }

/-- Has a procedure configure the specification, or adds the arguments it appends. -/
def configure (frame : Frame) (target : ProcedureRef) (first : SpecArg) : Replay Frame := do
  let object ← frame.needTarget
  match first with
  | .spec => do
      let spec ← frame.needSpec
      return { frame with spec := some (← call.configure target spec object) }
  | .optionSink => do
      let args ← call.collect target object
      args.foldlM (fun frame arg => frame.changeSpec fun spec => spec.addOption arg) frame
  | .positionalSink => do
      let args ← call.collect target object
      args.foldlM (fun frame arg => frame.changeSpec fun spec => spec.addPositional arg) frame

/-- Makes the object of a mixin, puts it into its slot, and adds its specification. -/
def addMixin (frame : Frame) (name type : String) (target : Option ProcedureRef) :
    Replay Frame := do
  let mixin ← Replay.newObject type
  Replay.setSlot (← frame.needTarget) name (.object mixin)
  let spec : CommandSpec := { CommandSpec.wrap mixin none with name }
  let spec ←
    match target with
    | none => pure spec
    | some target => call.configure target spec mixin
  frame.changeSpec fun owner => owner.addMixin name spec

/-- Makes the object of a group, puts it into its slot, and adds the group. -/
def addGroup (frame : Frame) (build : GroupBuild) : Replay Frame := do
  let owner ← frame.needTarget
  let value ← Replay.newObject build.groupType
  Replay.setSlot owner build.field (.object value)
  let options ← call.collect build.options value
  let parameters ← call.collect build.parameters value
  frame.changeSpec fun spec => spec.addGroup (build.toSpec (options ++ parameters))

/-- Carries out one statement of a procedure. -/
def step (procedure : Procedure) (frame : Frame) : Statement → Replay Frame
  | .newInstance => do
      return { frame with target := some (← Replay.newObject procedure.instanceType) }
  | .resolveMethod name _ => return { frame with method := some name }
  | .wrapSpec source => do
      let object ← frame.needTarget
      let method :=
        match source with
        | .ofInstance => none
        | .ofMethod => frame.method
      return { frame with spec := some (.wrap object method) }
  | .setName name => frame.changeSpec fun spec => { spec with name }
  | .setDescription lines => frame.changeSpec fun spec => { spec with description := lines }
  | .addSubcommand name factory owner => addSubcommand call frame name factory owner
  | .configure target first _ => configure call frame target first
  | .addMixin name type target => addMixin call frame name type target
  | .addArg build => do
      let object ← frame.needTarget
      return { frame with args := frame.args ++ [build.toSpec object] }
  | .addArgGroup build => addGroup call frame build
  | .bindSpec field => do
      let spec ← frame.needSpec
      Replay.setSlot (← frame.needTarget) field (.spec spec.name)
      return frame
  | .bindParent field => do
      let object ← frame.needTarget
      frame.changeSpec fun spec => spec.addParentInjection object field
  | .returnSpec => return frame

variable (replayer : Replayer)

/-- Carries out a procedure up to the statement that returns, with at most `levels` calls inside one
another. -/
def run : Nat → Call
  | 0 => fun target _ => Replay.fail (.tooDeep target.name)
  | levels + 1 => fun target frame => do
      let procedure ←
        Replay.orFail (replayer.procedure? target) (.unknownProcedure (referenceText target))
      (procedure.body.takeWhile fun statement => statement ≠ .returnSpec).foldlM
        (step (run levels) procedure) frame

/-- The number of calls that may go on inside one another. -/
def maxCalls : Nat := 257

/-- The specification that a factory makes, with an instance if its method needs one. -/
def createSpec (factory : ProcedureRef) (owner : Option ObjectRef) : Replay CommandSpec :=
  Call.create (replayer.run maxCalls) factory owner

end Replayer

/-- The specification of a command, made by its factory. A factory of a method gets a new instance.
There is none if the command has no factory. -/
def Compilation.replay? (compilation : Compilation) (element : SymbolId) :
    Option (Replay CommandSpec) :=
  (compilation.factory? element).map fun (module, factory) => do
    let owner ←
      match factory.kind with
      | .createSpec true => some <$> Replay.newObject module.instanceType
      | _ => pure none
    (Replayer.ofModules compilation.modules).createSpec ⟨module.path, factory.name⟩ owner

end CommandFactory
