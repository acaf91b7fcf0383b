import CommandFactory.Proofs.Module.Procedures
import CommandFactory.Proofs.Replay.Interpretation
import CommandFactory.Proofs.Replay.Outcome
import Mathlib.Data.List.Forall2

/-!
# Actions that realize meanings

`Replay.Realizes` relates an action on frames to a meaning on specifications. It has one rule for each
way to put actions together and one for each statement, so what a procedure means is put together in
the way its body is. Builders of arguments and groups make what their declarations mean
(`ArgDeclaration.toSpec_build`, `GroupBuild.toSpec_of_calls`).
-/

set_option autoImplicit false

namespace CommandFactory

/-! ## Builders -/

namespace ArgDeclaration

open ArgBuild

variable (arg : ArgDeclaration)

theorem foldl_optionCalls (index : Nat) :
    arg.optionCalls.foldl apply ⟨start (arg.build index).seed, none, none, none⟩ =
      ⟨match arg.kind with
        | .option names fallbackValue negatable usageHelp =>
            { names, fallbackValue := some fallbackValue, negatable, usageHelp }
        | .positional index => { index := some index }, none, none, none⟩ := by
  unfold optionCalls build
  cases arg.kind <;> rfl

/-- The calls for the settings make the settings; those that may be absent are absent before. -/
theorem foldl_settingCalls {draft : ArgDraft} (hdefault : draft.arg.defaultValue = none)
    (hmap : draft.arg.mapFallbackValue = none) (hpreprocessor : draft.arg.preprocessor = none)
    (hconsumer : draft.arg.parameterConsumer = none) :
    arg.settingCalls.foldl apply draft = onArg draft fun spec =>
      { spec with
        arity := arg.arity
        description := arg.description
        hasInitialValue := arg.hasInitialValue
        hidden := arg.hidden
        scope := arg.scope
        typeName := arg.type.name
        auxiliaryTypes := arg.type.aux
        defaultValue := arg.defaultValue
        mapFallbackValue := arg.mapFallbackValue
        preprocessor := arg.preprocessor
        parameterConsumer := arg.parameterConsumer } := by
  obtain ⟨spec, getter, setter, previous⟩ := draft
  simp only at hdefault hmap hpreprocessor hconsumer
  simp only [settingCalls, List.foldl_append]
  -- A setting that is absent has no call, and stays as it was.
  cases arg.defaultValue <;> cases arg.mapFallbackValue <;> cases arg.preprocessor <;>
    cases arg.parameterConsumer <;>
    simp [apply, onArg, hdefault, hmap, hpreprocessor, hconsumer]

/-- The calls for the binding bind the argument to the member of the object. -/
theorem finish_foldl_bindingCalls {spec : ArgSpec} (hbinding : spec.binding = none)
    (object : ObjectRef) :
    finish (arg.bindingCalls.foldl apply ⟨spec, none, none, none⟩) object =
      { spec with binding := arg.bindingTo object } := by
  have hunbound : { spec with binding := none } = spec := by
    cases spec
    simp only at hbinding
    rw [hbinding]
  unfold bindingCalls bindingTo
  -- An argument without a getter and without a setter stays unbound.
  cases arg.binding with
  | field name static => rfl
  | accessor anchor getter setter => cases getter <;> cases setter <;> first | rfl | exact hunbound.symm
  | parameter method index => exact hunbound.symm

/-- A builder makes the argument that its declaration means. -/
theorem toSpec_build (index : Nat) (object : ObjectRef) :
    (arg.build index).toSpec object = arg.specFor object := by
  have hcalls : (arg.build index).calls =
      arg.optionCalls ++ arg.settingCalls ++ arg.bindingCalls := rfl
  rw [toSpec, hcalls, List.foldl_append, List.foldl_append, foldl_optionCalls, foldl_settingCalls]
  · unfold onArg
    rw [finish_foldl_bindingCalls]
    · unfold specFor
      cases arg.kind <;> rfl
    · cases arg.kind <;> rfl
  all_goals cases arg.kind <;> rfl

end ArgDeclaration

/-- The calls on the builder of a group make the group. -/
theorem GroupBuild.toSpec_of_calls {build : GroupBuild} {group : ArgGroupDeclaration}
    (h : build.calls = Plan.groupCalls group) (args : List ArgSpec) :
    build.toSpec args = ⟨group.exclusive, group.multiplicity, group.heading, args⟩ := by
  unfold toSpec
  rw [h, Plan.groupCalls, List.foldl_append, List.foldl_append]
  cases group.multiplicity <;> cases group.heading <;> rfl

/-! ## Actions and meanings -/

/-- The frame is one of the object, with a specification that is the given one but for objects. -/
structure Frame.At (frame : Frame) (object : ObjectRef) (spec : CommandSpec) : Prop where
  target : frame.target = some object
  spec : ∃ found, frame.spec = some found ∧ found.erased = spec

theorem Frame.At.withSpec {frame : Frame} {object : ObjectRef} {spec after : CommandSpec}
    (h : frame.At object spec) {made : CommandSpec} (hmade : made.erased = after) :
    ({ frame with spec := some made } : Frame).At object after :=
  ⟨h.target, made, rfl, hmade⟩

namespace Replay

variable {α : Type}

/-- If the replay ends well, it ends with a result of the property. -/
abbrev Gives (replay : Replay α) (post : α → Prop) : Prop := replay.Meets (fun _ => True) post

theorem Gives.of_ok {replay : Replay α} {post : α → Prop} (h : replay.Gives post) :
    ∀ store result after, replay store = .ok (result, after) → post result := by
  intro store result after hrun
  have hstore := h store
  rw [hrun] at hstore
  exact hstore

/-- An action on frames does what the meaning says with at least the number of steps: it keeps the
object, and ends with the specification that the meaning gives. -/
def Realizes (steps : Nat) (action : Frame → Replay Frame)
    (meaning : Nat → CommandSpec → Option CommandSpec) : Prop :=
  ∀ frame object spec, frame.At object spec →
    (action frame).Gives fun next =>
      ∃ after, (∀ n ≥ steps, meaning n spec = some after) ∧ next.At object after

namespace Realizes

variable {steps : Nat} {action first second : Frame → Replay Frame}
  {meaning meaning' : Nat → CommandSpec → Option CommandSpec}

theorem pure : Realizes steps Pure.pure fun _ spec => some spec :=
  fun _ _ spec hframe => Meets.pure ⟨spec, fun _ _ => rfl, hframe⟩

/-- One action after another means one meaning after another. -/
theorem bind (hfirst : Realizes steps first meaning) (hsecond : Realizes steps second meaning') :
    Realizes steps (fun frame => first frame >>= second)
      fun n spec => (meaning n spec).bind (meaning' n) := by
  intro frame object spec hframe
  refine (hfirst frame object spec hframe).bind ?_
  rintro next ⟨between, hbetween, hnext⟩
  refine (hsecond next object between hnext).mono ?_
  rintro last ⟨after, hafter, hlast⟩
  refine ⟨after, fun n hn => ?_, hlast⟩
  simp only [hbetween n hn, Option.bind_some, hafter n hn]

theorem congr (h : Realizes steps action meaning)
    (heq : ∀ n ≥ steps, ∀ spec, meaning n spec = meaning' n spec) :
    Realizes steps action meaning' := by
  intro frame object spec hframe
  refine (h frame object spec hframe).mono ?_
  rintro next ⟨after, hafter, hnext⟩
  exact ⟨after, fun n hn => (heq n hn spec).symm.trans (hafter n hn), hnext⟩

theorem mono (h : Realizes steps action meaning) {more : Nat} (hle : steps ≤ more) :
    Realizes more action meaning := by
  intro frame object spec hframe
  refine (h frame object spec hframe).mono ?_
  rintro next ⟨after, hafter, hnext⟩
  exact ⟨after, fun n hn => hafter n (Nat.le_trans hle hn), hnext⟩

/-- What takes one step more than another takes one step more. -/
theorem succ (h : Realizes steps action fun n => meaning (n + 1)) :
    Realizes (steps + 1) action meaning := by
  intro frame object spec hframe
  refine (h frame object spec hframe).mono ?_
  rintro next ⟨after, hafter, hnext⟩
  refine ⟨after, fun n hn => ?_, hnext⟩
  -- At least one step more than `steps` is one more than at least `steps`.
  obtain ⟨fewer, rfl⟩ : ∃ fewer, n = fewer + 1 := ⟨n - 1, by omega⟩
  exact hafter fewer (by omega)

/-- If each statement does what one item means, the statements do what the items mean in order. -/
theorem foldlM {α β : Type} {items : List α} {statements : List β} {made : α → β → Prop}
    (hitems : List.Forall₂ made items statements) {round : Frame → β → Replay Frame}
    {meaning : Nat → CommandSpec → α → Option CommandSpec}
    (hround : ∀ item statement, made item statement →
      Realizes steps (fun frame => round frame statement) fun n spec => meaning n spec item) :
    Realizes steps (fun frame => statements.foldlM round frame)
      fun n spec => items.foldlM (meaning n) spec := by
  induction hitems with
  | nil => exact pure
  | cons hmade hrest ih =>
    simp only [List.foldlM_cons]
    exact (hround _ _ hmade).bind ih

theorem foldlM_map {α β : Type} {items : List α} {statement : α → β}
    {round : Frame → β → Replay Frame} {meaning : Nat → CommandSpec → α → Option CommandSpec}
    (hround : ∀ item,
      Realizes steps (fun frame => round frame (statement item)) fun n spec => meaning n spec item) :
    Realizes steps (fun frame => (items.map statement).foldlM round frame)
      fun n spec => items.foldlM (meaning n) spec := by
  have hitems : List.Forall₂ (fun item made => made = statement item) items
      (items.map statement) := List.forall₂_map_right_iff.2 (List.forall₂_same.2 fun _ _ => rfl)
  refine foldlM hitems ?_
  rintro item _ rfl
  exact hround item

/-- If each statement changes what one item means, the statements change what the items mean. -/
theorem foldl_map {α β : Type} {items : List α} {statement : α → β}
    {round : Frame → β → Replay Frame} {meaning : CommandSpec → α → CommandSpec}
    (hround : ∀ item,
      Realizes steps (fun frame => round frame (statement item))
        fun _ spec => some (meaning spec item)) :
    Realizes steps (fun frame => (items.map statement).foldlM round frame)
      fun _ spec => some (items.foldl meaning spec) :=
  (foldlM_map hround).congr fun _ _ _ => List.foldlM_pure

/-- A change of the specification that does not look at objects is its own meaning. -/
theorem changeSpec {change : CommandSpec → CommandSpec} {meaning : CommandSpec → CommandSpec}
    (hchange : ∀ spec, (change spec).erased = meaning spec.erased) :
    Realizes steps (fun frame => frame.changeSpec change) fun _ spec => some (meaning spec) := by
  intro frame object spec hframe
  obtain ⟨found, hfound, rfl⟩ := hframe.spec
  refine (Meets.changeSpec hfound change).mono ?_
  rintro next rfl
  exact ⟨meaning found.erased, fun _ _ => rfl, hframe.withSpec (hchange found)⟩

end Realizes

end Replay

/-! ## Statements -/

namespace Replayer

open Replay

variable {call : Call} {steps : Nat} {procedure : Procedure}
  {meaning : Nat → CommandSpec → Option CommandSpec}

/-- A call that configures gives the specification that the procedure means. -/
theorem gives_configure {target : ProcedureRef} (h : Realizes steps (call target) meaning)
    (spec : CommandSpec) (object : ObjectRef) :
    (call.configure target spec object).Gives fun after =>
      ∀ n ≥ steps, meaning n spec.erased = some after.erased := by
  have hstart : ({ target := some object, spec := some spec } : Frame).At object spec.erased :=
    ⟨rfl, spec, rfl, rfl⟩
  refine (h _ object _ hstart).bind ?_
  rintro next ⟨after, hafter, hnext⟩
  obtain ⟨found, hfound, rfl⟩ := hnext.spec
  refine Meets.orFail ?_ fun _ => trivial
  intro last hlast
  obtain rfl := Option.some.inj (hfound.symm.trans hlast)
  exact hafter

theorem realizes_configure {target : ProcedureRef} (h : Realizes steps (call target) meaning)
    (second : InstanceArg) :
    Realizes steps (fun frame => step call procedure frame (.configure target .spec second))
      meaning := by
  intro frame object spec hframe
  obtain ⟨found, hfound, rfl⟩ := hframe.spec
  refine (Meets.needTarget hframe.target).bind ?_
  rintro object rfl
  refine (Meets.needSpec hfound).bind ?_
  rintro _ rfl
  refine (gives_configure h _ _).bind fun made hmade => ?_
  exact Meets.pure ⟨made.erased, hmade, hframe.withSpec rfl⟩

theorem realizes_addAll {add : CommandSpec → ArgSpec → CommandSpec}
    (hadd : ∀ spec arg, (add spec arg).erased = add spec.erased arg.erased) (args : List ArgSpec) :
    Realizes steps
      (fun frame => args.foldlM (fun frame arg => frame.changeSpec fun spec => add spec arg) frame)
      fun _ spec => some ((args.map ArgSpec.erased).foldl add spec) := by
  induction args with
  | nil => exact Realizes.pure
  | cons arg rest ih =>
    have hfirst : Realizes steps (fun frame => frame.changeSpec fun spec => add spec arg)
        fun _ spec => some (add spec arg.erased) := Realizes.changeSpec fun spec => hadd spec arg
    simp only [List.foldlM_cons]
    exact hfirst.bind ih

/-- A sink adds the arguments that a procedure appends, one after another. -/
theorem realizes_sink {add : CommandSpec → ArgSpec → CommandSpec}
    (hadd : ∀ spec arg, (add spec arg).erased = add spec.erased arg.erased)
    {target : ProcedureRef} {args : List ArgDeclaration}
    (hcollect : ∀ object, (call.collect target object).Gives fun found =>
      found = args.map (ArgDeclaration.specFor object)) :
    Realizes steps
      (fun frame => do
        let object ← frame.needTarget
        let args ← call.collect target object
        args.foldlM (fun frame arg => frame.changeSpec fun spec => add spec arg) frame)
      fun _ spec => some ((args.map (ArgDeclaration.specFor .anonymous)).foldl add spec) := by
  intro frame object spec hframe
  refine (Meets.needTarget hframe.target).bind ?_
  rintro object rfl
  refine (hcollect _).bind ?_
  rintro _ rfl
  have herased : (args.map (ArgDeclaration.specFor object)).map ArgSpec.erased =
      args.map (ArgDeclaration.specFor .anonymous) := by
    rw [List.map_map]
    exact List.map_congr_left fun arg _ => ArgDeclaration.erased_specFor object arg
  rw [← herased]
  exact realizes_addAll hadd _ frame object spec hframe

/-- A mixin is a new object, configured by its procedure if it has one. -/
theorem realizes_addMixin {name type : String} {target : Option ProcedureRef}
    {mixin? : Nat → Option CommandSpec}
    (hnone : target = none → ∀ n ≥ steps, mixin? n = some (.blank name))
    (hsome : ∀ ref, target = some ref → ∃ meaning, Realizes steps (call ref) meaning ∧
      ∀ n ≥ steps, mixin? n = meaning n (.blank name)) :
    Realizes steps (fun frame => step call procedure frame (.addMixin name type target))
      fun n spec => (mixin? n).map (spec.addMixin name) := by
  intro frame object spec hframe
  obtain ⟨found, hfound, rfl⟩ := hframe.spec
  refine (Meets.newObject type).bind fun mixin _ => ?_
  refine (Meets.needTarget hframe.target).bind ?_
  rintro object rfl
  refine (Meets.setSlot _ _ _).bind fun _ _ => ?_
  -- Configured or not, what has been made of the mixin is added.
  have hadd : ∀ made : CommandSpec, (∀ n ≥ steps, mixin? n = some made.erased) →
      (frame.changeSpec fun owner => owner.addMixin name made).Gives fun next => ∃ after,
        (∀ n ≥ steps, (mixin? n).map (found.erased.addMixin name) = some after) ∧
          next.At object after := by
    intro made hmade
    refine (Meets.changeSpec hfound _).mono ?_
    rintro _ rfl
    refine ⟨_, fun n hn => ?_, hframe.withSpec (found.erased_addMixin name made)⟩
    rw [hmade n hn, Option.map_some]
  cases target with
  | none => exact hadd { CommandSpec.wrap mixin none with name } (hnone rfl)
  | some ref =>
    obtain ⟨meaning, hrealizes, hmeaning⟩ := hsome ref rfl
    refine (gives_configure hrealizes _ mixin).bind fun made hmade => hadd made fun n hn => ?_
    exact (hmeaning n hn).trans (hmade n hn)

/-- A group has the arguments that the procedures of its holder append for a new object. -/
theorem realizes_addGroup {build : GroupBuild} {group : ArgGroupDeclaration}
    {holder : CommandDeclaration} (hcalls : build.calls = Plan.groupCalls group)
    (hoptions : ∀ object, (call.collect build.options object).Gives fun found =>
      found = holder.directOptions.map (ArgDeclaration.specFor object))
    (hparameters : ∀ object, (call.collect build.parameters object).Gives fun found =>
      found = holder.directPositionals.map (ArgDeclaration.specFor object)) :
    Realizes steps (fun frame => step call procedure frame (.addArgGroup build))
      fun _ spec => some (spec.addGroup
        ⟨group.exclusive, group.multiplicity, group.heading, holder.groupArgs⟩) := by
  intro frame object spec hframe
  refine (Meets.needTarget hframe.target).bind ?_
  rintro object rfl
  refine (Meets.newObject _).bind fun value _ => ?_
  refine (Meets.setSlot _ _ _).bind fun _ _ => ?_
  refine (hoptions value).bind ?_
  rintro _ rfl
  refine (hparameters value).bind ?_
  rintro _ rfl
  rw [GroupBuild.toSpec_of_calls hcalls]
  -- The arguments are bound to the object of the group, which the meaning does not see.
  have herased : ArgSpec.erased ∘ ArgDeclaration.specFor value =
      ArgDeclaration.specFor .anonymous := funext (ArgDeclaration.erased_specFor value)
  have hadd : Realizes steps
      (fun frame => frame.changeSpec fun spec =>
        spec.addGroup ⟨group.exclusive, group.multiplicity, group.heading,
          holder.directOptions.map (ArgDeclaration.specFor value) ++
            holder.directPositionals.map (ArgDeclaration.specFor value)⟩)
      fun _ spec => some (spec.addGroup
        ⟨group.exclusive, group.multiplicity, group.heading, holder.groupArgs⟩) := by
    refine Realizes.changeSpec fun spec => ?_
    rw [CommandSpec.erased_addGroup, GroupSpec.erased, List.map_append, List.map_map, List.map_map,
      herased, CommandDeclaration.groupArgs]
  exact hadd frame object spec hframe

theorem realizes_bindSpec (field : String) :
    Realizes steps (fun frame => step call procedure frame (.bindSpec field))
      fun _ spec => some spec := by
  intro frame object spec hframe
  obtain ⟨found, hfound, rfl⟩ := hframe.spec
  refine (Meets.needSpec hfound).bind fun _ _ => ?_
  refine (Meets.needTarget hframe.target).bind fun _ _ => ?_
  exact (Meets.setSlot _ _ _).bind fun _ _ => Meets.pure ⟨_, fun _ _ => rfl, hframe⟩

theorem realizes_bindParent (field : String) :
    Realizes steps (fun frame => step call procedure frame (.bindParent field))
      fun _ spec => some (spec.addParentInjection .anonymous field) := by
  intro frame object spec hframe
  refine (Meets.needTarget hframe.target).bind ?_
  rintro object rfl
  have hadd : Realizes steps
      (fun frame => frame.changeSpec fun spec => spec.addParentInjection object field)
      fun _ spec => some (spec.addParentInjection .anonymous field) :=
    Realizes.changeSpec fun spec => spec.erased_addParentInjection object field
  exact hadd frame object spec hframe

/-- A subcommand is what its factory makes, whatever the object it makes it for. -/
theorem realizes_addSubcommand {name : String} {factory : ProcedureRef} {owner : SubcommandOwner}
    {made? : Nat → Option CommandSpec}
    (hcreate : ∀ object, (call.create factory object).Gives fun made =>
      ∀ n ≥ steps, made? n = some made.erased) :
    Realizes steps (fun frame => step call procedure frame (.addSubcommand name factory owner))
      fun n spec => (made? n).map (spec.withSubcommand name) := by
  intro frame object spec hframe
  obtain ⟨found, hfound, rfl⟩ := hframe.spec
  -- The owner decides on the object of the factory only.
  have hadd : ∀ target : Option ObjectRef,
      (do
        let subcommand ← call.create factory target
        let spec ← frame.needSpec
        let store ← get
        set (spec.addSubcommand name subcommand store).2
        return { frame with spec := some (spec.addSubcommand name subcommand store).1 } :
          Replay Frame).Gives fun next => ∃ after,
          (∀ n ≥ steps, (made? n).map (found.erased.withSubcommand name) = some after) ∧
            next.At object after := by
    intro target
    refine (hcreate target).bind fun made hmade => ?_
    refine (Meets.needSpec hfound).bind ?_
    rintro found rfl
    refine Meets.get.bind fun store _ => ?_
    refine (Meets.set _).bind fun _ _ => Meets.pure ⟨_, fun n hn => ?_,
      hframe.withSpec (found.erased_withSubcommand name made)⟩
    rw [hmade n hn, Option.map_some]
  cases owner with
  | none => exact hadd none
  | this => exact (Meets.needTarget hframe.target).map.bind fun target _ => hadd target
  | new type => exact (Meets.newObject type).map.bind fun target _ => hadd target

/-! ## Calls -/

/-- A call of a procedure goes too deep, finds none, or carries out what it finds with one call fewer. -/
theorem gives_run {replayer : Replayer} {levels : Nat} {target : ProcedureRef} {frame : Frame}
    {post : Frame → Prop}
    (hrun : ∀ fewer procedure, levels = fewer + 1 → replayer.procedure? target = some procedure →
      ((procedure.body.takeWhile fun statement => statement ≠ .returnSpec).foldlM
        (step (replayer.run fewer) procedure) frame).Gives post) :
    (replayer.run levels target frame).Gives post := by
  cases levels with
  | zero => exact Meets.fail trivial
  | succ fewer =>
    have hfound : (orFail (replayer.procedure? target)
        (.unknownProcedure (referenceText target))).Gives fun procedure =>
          replayer.procedure? target = some procedure :=
      Meets.orFail (fun _ hprocedure => hprocedure) fun _ => trivial
    exact hfound.bind fun procedure hprocedure => hrun fewer procedure rfl hprocedure

end Replayer

end CommandFactory
