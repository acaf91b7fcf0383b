import CommandFactory.Proofs.Replay.Reliability
import CommandFactory.Proofs.Replay.Safety

/-!
# What a configuration supplies

A configuration of a command adds its direct options, positional parameters and groups to a
specification (`Registry.Adds`), after its ancestor has added its own (`Registry.Supplies`). This
holds of every reliable replayer, whatever other commands have been dropped and whatever their
procedures lack: mixins, injected fields and groups without a holder do not touch arguments.

An option that is added is there in the end, or a later one that shares a name has displaced it
(`CommandSpec.mem_placeOptions`).
-/

set_option autoImplicit false

namespace CommandFactory

/-! ## Placing options -/

namespace CommandSpec

/-- Options after others have been placed among them in order. -/
def placeOptions (options added : List ArgSpec) : List ArgSpec :=
  added.foldl (fun options option => placeOption option options) options

theorem mem_placeOption_self (option : ArgSpec) (options : List ArgSpec) :
    option ∈ placeOption option options := by
  induction options with
  | nil => exact List.mem_singleton_self option
  | cons other rest ih =>
    rw [placeOption]
    split
    · exact List.mem_cons_self ..
    · exact List.mem_cons_of_mem _ ih

/-- An option stays, unless the one that is placed shares a name with it. -/
theorem mem_placeOption_of_mem {arg : ArgSpec} {options : List ArgSpec} (h : arg ∈ options)
    (option : ArgSpec) :
    arg ∈ placeOption option options ∨ arg.sharesNameWith option = true := by
  induction options with
  | nil => cases h
  | cons other rest ih =>
    rw [placeOption]
    split
    case isTrue hshares =>
      rcases List.mem_cons.1 h with rfl | hmem
      · exact Or.inr hshares
      · exact Or.inl (List.mem_cons_of_mem _ hmem)
    case isFalse =>
      rcases List.mem_cons.1 h with rfl | hmem
      · exact Or.inl (List.mem_cons_self ..)
      · exact (ih hmem).imp_left (List.mem_cons_of_mem _)

theorem mem_placeOptions_of_mem {arg : ArgSpec} {options : List ArgSpec} (h : arg ∈ options)
    (added : List ArgSpec) :
    arg ∈ placeOptions options added ∨ ∃ other ∈ added, arg.sharesNameWith other = true := by
  induction added generalizing options with
  | nil => exact Or.inl h
  | cons option rest ih =>
    rcases mem_placeOption_of_mem h option with hmem | hshares
    · refine (ih hmem).imp_right ?_
      rintro ⟨other, hother, hshares⟩
      exact ⟨other, List.mem_cons_of_mem _ hother, hshares⟩
    · exact Or.inr ⟨option, List.mem_cons_self .., hshares⟩

/-- An option that is placed is there in the end, or displaced by a later one that shares a name. -/
theorem mem_placeOptions (options earlier later : List ArgSpec) (arg : ArgSpec) :
    arg ∈ placeOptions options (earlier ++ arg :: later) ∨
      ∃ other ∈ later, arg.sharesNameWith other = true := by
  have hplaced : placeOptions options (earlier ++ arg :: later) =
      placeOptions (placeOption arg (placeOptions options earlier)) later := by
    rw [placeOptions, List.foldl_append, List.foldl_cons]
    rfl
  rw [hplaced]
  exact mem_placeOptions_of_mem (mem_placeOption_self _ _) later

theorem placeOptions_append (options a b : List ArgSpec) :
    placeOptions options (a ++ b) = placeOptions (placeOptions options a) b :=
  List.foldl_append

theorem foldl_addOption (spec : CommandSpec) (args : List ArgSpec) :
    args.foldl addOption spec = { spec with options := placeOptions spec.options args } := by
  induction args generalizing spec with
  | nil => cases spec; rfl
  | cons arg rest ih => rw [List.foldl_cons, ih]; rfl

theorem foldl_addPositional (spec : CommandSpec) (args : List ArgSpec) :
    args.foldl addPositional spec = { spec with positionals := spec.positionals ++ args } := by
  induction args generalizing spec with
  | nil =>
    cases spec
    simp only [List.foldl_nil, List.append_nil]
  | cons arg rest ih =>
    rw [List.foldl_cons, ih]
    simp only [addPositional, List.append_assoc, List.singleton_append]

/-- The arguments of the second specification are those of the first. -/
structure KeepsArgs (before after : CommandSpec) : Prop where
  options : after.options = before.options
  positionals : after.positionals = before.positionals
  groups : after.groups = before.groups

theorem KeepsArgs.refl (spec : CommandSpec) : KeepsArgs spec spec := ⟨rfl, rfl, rfl⟩

theorem KeepsArgs.trans {a b c : CommandSpec} (hab : KeepsArgs a b) (hbc : KeepsArgs b c) :
    KeepsArgs a c :=
  ⟨hbc.options.trans hab.options, hbc.positionals.trans hab.positionals,
    hbc.groups.trans hab.groups⟩

end CommandSpec

/-! ## Changes of specifications -/

namespace Replay

variable {α : Type}

/-- Nothing is asked of the result. -/
theorem Gives.trivial (replay : Replay α) : replay.Gives fun _ => True := by
  intro store
  split <;> exact True.intro

/-- If the action ends well, it keeps the object of the frame, and the relation holds between the
specifications before and after. -/
def Changes (action : Frame → Replay Frame)
    (rel : ObjectRef → CommandSpec → CommandSpec → Prop) : Prop :=
  ∀ frame object before, frame.target = some object → frame.spec = some before →
    (action frame).Gives fun next =>
      next.target = some object ∧ ∃ after, next.spec = some after ∧ rel object before after

namespace Changes

variable {action first second : Frame → Replay Frame}
  {rel rel' : ObjectRef → CommandSpec → CommandSpec → Prop}

theorem mono (h : Changes action rel)
    (himp : ∀ object before after, rel object before after → rel' object before after) :
    Changes action rel' := by
  intro frame object before htarget hspec
  refine (h frame object before htarget hspec).mono ?_
  rintro next ⟨hnext, after, hafter, hrel⟩
  exact ⟨hnext, after, hafter, himp _ _ _ hrel⟩

theorem pure (h : ∀ object spec, rel object spec spec) : Changes Pure.pure rel :=
  fun _ _ _ htarget hspec => Meets.pure ⟨htarget, _, hspec, h _ _⟩

/-- One change after another. -/
theorem bind (hfirst : Changes first rel) (hsecond : Changes second rel') :
    Changes (fun frame => first frame >>= second) fun object before after =>
      ∃ between, rel object before between ∧ rel' object between after := by
  intro frame object before htarget hspec
  refine (hfirst frame object before htarget hspec).bind ?_
  rintro next ⟨hnext, between, hbetween, hrel⟩
  refine (hsecond next object between hnext hbetween).mono ?_
  rintro last ⟨hlast, after, hafter, hrel'⟩
  exact ⟨hlast, after, hafter, between, hrel, hrel'⟩

theorem changeSpec {change : CommandSpec → CommandSpec}
    (h : ∀ object spec, rel object spec (change spec)) :
    Changes (fun frame => frame.changeSpec change) rel := by
  intro frame object before htarget hspec
  refine (Meets.changeSpec hspec change).mono ?_
  rintro _ rfl
  exact ⟨htarget, _, rfl, h _ _⟩

/-- Statements that keep arguments one by one keep them together. -/
theorem foldlM_keepsArgs {statements : List Statement} {round : Frame → Statement → Replay Frame}
    (h : ∀ statement ∈ statements,
      Changes (fun frame => round frame statement) fun _ => CommandSpec.KeepsArgs) :
    Changes (fun frame => statements.foldlM round frame) fun _ => CommandSpec.KeepsArgs := by
  induction statements with
  | nil => exact pure fun _ spec => .refl spec
  | cons statement rest ih =>
    simp only [List.foldlM_cons]
    refine ((h statement (List.mem_cons_self ..)).bind
      (ih fun other hother => h other (List.mem_cons_of_mem _ hother))).mono ?_
    rintro object before after ⟨between, hfirst, hrest⟩
    exact hfirst.trans hrest

/-- Adding arguments one after another. -/
theorem addAll (add : CommandSpec → ArgSpec → CommandSpec) (args : List ArgSpec) :
    Changes
      (fun frame => args.foldlM (fun frame arg => frame.changeSpec fun spec => add spec arg) frame)
      fun _ before after => after = args.foldl add before := by
  induction args with
  | nil => exact pure fun _ _ => rfl
  | cons arg rest ih =>
    simp only [List.foldlM_cons]
    have hfirst : Changes (fun frame => frame.changeSpec fun spec => add spec arg)
        fun _ before after => after = add before arg := changeSpec fun _ _ => rfl
    refine (hfirst.bind ih).mono ?_
    rintro _ before after ⟨between, rfl, rfl⟩
    rfl

end Changes

end Replay

/-! ## Statements -/

namespace Replayer

open Replay CommandSpec

variable {call : Call} {procedure : Procedure} {target : ProcedureRef}
  {rel : ObjectRef → CommandSpec → CommandSpec → Prop}

theorem gives_configure_of_changes (h : Changes (call target) rel) (spec : CommandSpec)
    (object : ObjectRef) :
    (call.configure target spec object).Gives fun after => rel object spec after := by
  refine (h _ object spec rfl rfl).bind ?_
  rintro next ⟨-, after, hafter, hrel⟩
  refine Meets.orFail ?_ fun _ => True.intro
  rintro last hlast
  obtain rfl := Option.some.inj (hafter.symm.trans hlast)
  exact hrel

theorem changes_configure (h : Changes (call target) rel) (second : InstanceArg) :
    Changes (fun frame => step call procedure frame (.configure target .spec second)) rel := by
  intro frame object before htarget hspec
  refine (Meets.needTarget htarget).bind ?_
  rintro object rfl
  refine (Meets.needSpec hspec).bind ?_
  rintro before rfl
  refine (gives_configure_of_changes h _ _).bind fun after hafter => ?_
  exact Meets.pure ⟨htarget, after, rfl, hafter⟩

/-- Whatever a procedure does, a call of it leaves some specification. -/
theorem changes_configure_any (second : InstanceArg) :
    Changes (fun frame => step call procedure frame (.configure target .spec second))
      fun _ _ _ => True := by
  intro frame object before htarget hspec
  refine (Meets.needTarget htarget).bind fun _ _ => ?_
  refine (Meets.needSpec hspec).bind fun _ _ => ?_
  exact (Gives.trivial _).bind fun after _ => Meets.pure ⟨htarget, after, rfl, True.intro⟩

theorem changes_sink (add : CommandSpec → ArgSpec → CommandSpec) {args : List ArgDeclaration}
    (hcollect : ∀ object, (call.collect target object).Gives fun found =>
      found = args.map (ArgDeclaration.specFor object)) :
    Changes
      (fun frame => do
        let object ← frame.needTarget
        let args ← call.collect target object
        args.foldlM (fun frame arg => frame.changeSpec fun spec => add spec arg) frame)
      fun object before after =>
        after = (args.map (ArgDeclaration.specFor object)).foldl add before := by
  intro frame object before htarget hspec
  refine (Meets.needTarget htarget).bind ?_
  rintro object rfl
  refine (hcollect _).bind ?_
  rintro _ rfl
  exact Changes.addAll add _ frame object before htarget hspec

theorem changes_addMixin (name type : String) (ref : Option ProcedureRef) :
    Changes (fun frame => step call procedure frame (.addMixin name type ref))
      fun _ => KeepsArgs := by
  intro frame object before htarget hspec
  have hadd : ∀ made : CommandSpec,
      Changes (fun frame => frame.changeSpec fun owner => owner.addMixin name made)
        fun _ => KeepsArgs := fun made => Changes.changeSpec fun _ spec => ⟨rfl, rfl, rfl⟩
  refine (Meets.newObject type).bind fun mixin _ => ?_
  refine (Meets.needTarget htarget).bind fun _ _ => ?_
  refine (Meets.setSlot _ _ _).bind fun _ _ => ?_
  cases ref with
  | none => exact hadd _ frame object before htarget hspec
  | some ref =>
    exact (Gives.trivial _).bind fun made _ => hadd made frame object before htarget hspec

theorem changes_bindSpec (field : String) :
    Changes (fun frame => step call procedure frame (.bindSpec field)) fun _ => KeepsArgs := by
  intro frame object before htarget hspec
  refine (Meets.needSpec hspec).bind fun _ _ => ?_
  refine (Meets.needTarget htarget).bind fun _ _ => ?_
  exact (Meets.setSlot _ _ _).bind fun _ _ => Meets.pure ⟨htarget, before, hspec, .refl before⟩

theorem changes_bindParent (field : String) :
    Changes (fun frame => step call procedure frame (.bindParent field)) fun _ => KeepsArgs := by
  intro frame object before htarget hspec
  refine (Meets.needTarget htarget).bind fun owner _ => ?_
  have hadd :
      Changes (fun frame => frame.changeSpec fun spec => spec.addParentInjection owner field)
        fun _ => KeepsArgs := Changes.changeSpec fun _ spec => ⟨rfl, rfl, rfl⟩
  exact hadd frame object before htarget hspec

/-- A group gets what the two procedures of its holder append for one object. -/
theorem changes_addGroup {build : GroupBuild} {group : ArgGroupDeclaration} (procedure : Procedure)
    (hcalls : build.calls = Plan.groupCalls group)
    {options parameters : ObjectRef → List ArgSpec → Prop}
    (hoptions : ∀ object, (call.collect build.options object).Gives (options object))
    (hparameters : ∀ object, (call.collect build.parameters object).Gives (parameters object)) :
    Changes (fun frame => step call procedure frame (.addArgGroup build)) fun _ before after =>
      ∃ object first second, options object first ∧ parameters object second ∧
        after = before.addGroup
          ⟨group.exclusive, group.multiplicity, group.heading, first ++ second⟩ := by
  intro frame object before htarget hspec
  refine (Meets.needTarget htarget).bind fun _ _ => ?_
  refine (Meets.newObject _).bind fun value _ => ?_
  refine (Meets.setSlot _ _ _).bind fun _ _ => ?_
  refine (hoptions value).bind fun first hfirst => ?_
  refine (hparameters value).bind fun second hsecond => ?_
  rw [GroupBuild.toSpec_of_calls hcalls]
  refine (Meets.changeSpec hspec _).mono ?_
  rintro _ rfl
  exact ⟨htarget, _, rfl, value, first, second, hfirst, hsecond, rfl⟩

/-- Mixins and injected fields keep the arguments. -/
theorem changes_work_keepsArgs {call : Call} {procedure : Procedure} {registry : Registry}
    {d : CommandDeclaration} {kind : ProcedureKind}
    (hkind : kind ∈ [.configureMixins, .configureSpecs, .configureParentCommands,
      .configureUnmatcheds]) :
    Changes (fun frame => (registry.plan.work d kind).foldlM (step call procedure) frame)
      fun _ => KeepsArgs := by
  refine Changes.foldlM_keepsArgs fun statement hstatement => ?_
  simp only [List.mem_cons, List.not_mem_nil, or_false] at hkind
  rcases hkind with rfl | rfl | rfl | rfl
  · obtain ⟨named, -, rfl⟩ := List.mem_map.1 hstatement
    exact changes_addMixin _ _ _
  · obtain ⟨field, -, rfl⟩ := List.mem_map.1 hstatement
    exact changes_bindSpec field
  · obtain ⟨field, -, rfl⟩ := List.mem_map.1 hstatement
    exact changes_bindParent field
  · cases hstatement

/-- No factory is among the procedures for mixins and injected fields. -/
theorem not_isCreate_of_mem {kind : ProcedureKind}
    (hkind : kind ∈ [.configureMixins, .configureSpecs, .configureParentCommands,
      .configureUnmatcheds]) : kind.isCreate = false := by
  simp only [List.mem_cons, List.not_mem_nil, or_false] at hkind
  rcases hkind with rfl | rfl | rfl | rfl <;> rfl

end Replayer

/-! ## Configurations -/

namespace Registry

open CommandSpec

variable {registry : Registry}

/-- The group has the settings of its declaration; if its holder is kept, it has the direct options
and positional parameters of the holder. -/
structure Fills (registry : Registry) (group : ArgGroupDeclaration) (made : GroupSpec) : Prop where
  exclusive : made.exclusive = group.exclusive
  multiplicity : made.multiplicity = group.multiplicity
  heading : made.heading = group.heading
  args : ∀ holder ∈ registry.plan.kept, holder.id = group.groupType → ∃ object,
    made.args = (holder.directOptions ++ holder.directPositionals).map
      (ArgDeclaration.specFor object)

/-- The groups of a declaration whose types have declarations. -/
def heldGroups (registry : Registry) (groups : List ArgGroupDeclaration) :
    List ArgGroupDeclaration :=
  groups.filter fun group => (registry.command? group.groupType).isSome

section

variable {group : ArgGroupDeclaration} (rest : List ArgGroupDeclaration)

theorem heldGroups_cons_of_none (h : registry.command? group.groupType = none) :
    registry.heldGroups (group :: rest) = registry.heldGroups rest :=
  List.filter_cons_of_neg (by simp [h])

theorem heldGroups_cons_of_some {holder : CommandDeclaration}
    (h : registry.command? group.groupType = some holder) :
    registry.heldGroups (group :: rest) = group :: registry.heldGroups rest :=
  List.filter_cons_of_pos (by simp [h])

end

/-- The groups whose types have declarations have their statements, in order. -/
theorem forall₂_heldGroups (d : CommandDeclaration) (index : Nat)
    (groups : List ArgGroupDeclaration) :
    List.Forall₂ registry.AddsGroup (registry.heldGroups groups)
      (registry.plan.groups d index groups).value := by
  induction groups generalizing index with
  | nil => exact .nil
  | cons group rest ih =>
    have hplan : registry.plan.registry.command? group.groupType =
        registry.command? group.groupType := rfl
    rw [Plan.groups, hplan]
    cases hholder : registry.command? group.groupType with
    | none =>
      rw [heldGroups_cons_of_none rest hholder]
      exact ih (index + 1)
    | some holder =>
      rw [heldGroups_cons_of_some rest hholder]
      exact .cons ⟨holder, hholder, _, rfl, rfl, rfl, rfl⟩ (ih (index + 1))

/-- What the configuration of a declaration adds by itself: its direct options and positional
parameters, and the groups whose types have declarations. -/
structure Adds (registry : Registry) (d : CommandDeclaration) (object : ObjectRef)
    (before after : CommandSpec) : Prop where
  options : after.options =
    placeOptions before.options (d.directOptions.map (ArgDeclaration.specFor object))
  positionals : after.positionals =
    before.positionals ++ d.directPositionals.map (ArgDeclaration.specFor object)
  groups : ∃ own, after.groups = before.groups ++ own ∧
    List.Forall₂ registry.Fills (registry.heldGroups d.argGroups) own

/-- Commands that are kept, each linked to the one before, down to the declaration. -/
inductive Lineage (registry : Registry) : List CommandDeclaration → CommandDeclaration → Prop
  | alone {d : CommandDeclaration} (kept : d ∈ registry.plan.kept) : Lineage registry [d] d
  | under {line : List CommandDeclaration} {ancestor d : CommandDeclaration}
      (above : Lineage registry line ancestor) (kept : d ∈ registry.plan.kept)
      (link : d.superCommand = some ancestor.id) : Lineage registry (line ++ [d]) d

theorem Lineage.kept {line : List CommandDeclaration} {d : CommandDeclaration}
    (h : registry.Lineage line d) : d ∈ registry.plan.kept := by
  cases h with
  | alone kept => exact kept
  | under above kept link => exact kept

/-- What a line of declarations has added in the end, and the last of them alone: all its direct
options and positional parameters in order. -/
structure Supplies (registry : Registry) (line : List CommandDeclaration) (d : CommandDeclaration)
    (object : ObjectRef) (after : CommandSpec) : Prop where
  options : ∃ base, after.options =
    placeOptions base
      ((line.flatMap CommandDeclaration.directOptions).map (ArgDeclaration.specFor object))
  positionals : ∃ base, after.positionals =
    base ++ (line.flatMap CommandDeclaration.directPositionals).map (ArgDeclaration.specFor object)
  groups : ∃ base own, after.groups = base ++ own ∧
    List.Forall₂ registry.Fills (registry.heldGroups d.argGroups) own

theorem Adds.supplies {d : CommandDeclaration} {object : ObjectRef} {before after : CommandSpec}
    (h : registry.Adds d object before after) : registry.Supplies [d] d object after where
  options := ⟨before.options, by rw [h.options, List.flatMap_singleton]⟩
  positionals := ⟨before.positionals, by rw [h.positionals, List.flatMap_singleton]⟩
  groups := ⟨before.groups, h.groups⟩

/-- What a declaration adds comes after what its ancestors have added. -/
theorem Supplies.adds {line : List CommandDeclaration} {ancestor d : CommandDeclaration}
    {object : ObjectRef} {before after : CommandSpec}
    (h : registry.Supplies line ancestor object before)
    (hadds : registry.Adds d object before after) :
    registry.Supplies (line ++ [d]) d object after where
  options := by
    obtain ⟨base, hbase⟩ := h.options
    refine ⟨base, ?_⟩
    rw [hadds.options, hbase, List.flatMap_append, List.flatMap_singleton, List.map_append,
      placeOptions_append]
  positionals := by
    obtain ⟨base, hbase⟩ := h.positionals
    refine ⟨base, ?_⟩
    rw [hadds.positionals, hbase, List.flatMap_append, List.flatMap_singleton, List.map_append,
      List.append_assoc]
  groups := ⟨before.groups, hadds.groups⟩

end Registry

/-! ## Procedures -/

/-- Groups are added in order if the statement of each adds its own. -/
theorem Replayer.changes_groups {registry : Registry} {call : Call} {procedure : Procedure}
    {R : ArgGroupDeclaration → GroupSpec → Prop} {groups : List ArgGroupDeclaration}
    {statements : List Statement}
    (hadds : ∀ group statement, registry.AddsGroup group statement →
      Replay.Changes (fun frame => step call procedure frame statement)
        fun _ before after => ∃ made, R group made ∧ after = before.addGroup made)
    (h : List.Forall₂ registry.AddsGroup groups statements) :
    Replay.Changes (fun frame => statements.foldlM (step call procedure) frame)
      fun _ before after => after.options = before.options ∧
        after.positionals = before.positionals ∧
        ∃ own, after.groups = before.groups ++ own ∧ List.Forall₂ R groups own := by
  induction h with
  | nil => exact Replay.Changes.pure fun _ spec => ⟨rfl, rfl, [], (List.append_nil _).symm, .nil⟩
  | cons hfirst _ ih =>
    simp only [List.foldlM_cons]
    refine ((hadds _ _ hfirst).bind ih).mono ?_
    rintro _ before after ⟨_, ⟨made, hmade, rfl⟩, hoptions, hpositionals, own, hgroups, hown⟩
    refine ⟨hoptions, hpositionals, made :: own, ?_, .cons hmade hown⟩
    rw [hgroups]
    simp only [CommandSpec.addGroup, List.append_assoc, List.singleton_append]

namespace Replayer.Reliable

open Replay CommandSpec

variable {replayer : Replayer} {registry : Registry} {d : CommandDeclaration} {levels : Nat}
  {rel : ObjectRef → CommandSpec → CommandSpec → Prop}

theorem changes_run (h : replayer.Reliable registry) (hd : d ∈ registry.plan.kept)
    {kind : ProcedureKind} (hcreate : kind.isCreate = false)
    (hwork : ∀ fewer, levels = fewer + 1 →
      Changes
        (fun frame => (registry.plan.work d kind).foldlM
          (step (replayer.run fewer) (registry.plan.procedureOf d kind)) frame) rel) :
    Changes (replayer.run levels (registry.plan.reference d kind)) rel := by
  intro frame object before htarget hspec
  refine h.gives_run hd (CommandDeclaration.mem_kinds_of_not_isCreate hcreate) ?_
  intro fewer hfewer
  exact hwork fewer hfewer frame object before htarget hspec

theorem changes_keepsArgs (h : replayer.Reliable registry) (hd : d ∈ registry.plan.kept)
    {kind : ProcedureKind}
    (hkind : kind ∈ [.configureMixins, .configureSpecs, .configureParentCommands,
      .configureUnmatcheds]) :
    Changes (replayer.run levels (registry.plan.reference d kind)) fun _ => KeepsArgs :=
  h.changes_run hd (not_isCreate_of_mem hkind) fun _ _ => changes_work_keepsArgs hkind

/-- A statement that adds a group adds one with the arguments of its holder, if that is kept. -/
theorem changes_addsGroup (h : replayer.Reliable registry) {procedure : Procedure}
    {group : ArgGroupDeclaration} {statement : Statement}
    (hadds : registry.AddsGroup group statement) :
    Changes (fun frame => step (replayer.run levels) procedure frame statement)
      fun _ before after => ∃ made, registry.Fills group made ∧ after = before.addGroup made := by
  obtain ⟨holder, hholder, build, rfl, hcalls, hoptions, hparameters⟩ := hadds
  obtain ⟨hmem, hid⟩ := Registry.command?_eq_some_iff.1 hholder
  -- The procedures of a holder that is dropped may be anything.
  have hcollect : ∀ kind : ProcedureKind, kind.isCreate = false → ∀ args : List ArgDeclaration,
      registry.plan.work holder kind = argStatements 0 args → ∀ object,
      ((replayer.run levels).collect (registry.plan.reference holder kind) object).Gives
        fun found => holder ∈ registry.plan.kept →
          found = args.map (ArgDeclaration.specFor object) := by
    intro kind hkind args hwork object
    by_cases hkept : holder ∈ registry.plan.kept
    · exact (h.gives_collect hkept hkind hwork object).mono fun _ hfound _ => hfound
    · exact (Gives.trivial _).mono fun _ _ hholder => absurd hholder hkept
  have hgroup := changes_addGroup procedure hcalls
    (hoptions ▸ hcollect .configureOptions rfl holder.directOptions rfl)
    (hparameters ▸ hcollect .configureParameters rfl holder.directPositionals rfl)
  refine hgroup.mono ?_
  rintro _ before after ⟨object, first, second, hfirst, hsecond, rfl⟩
  refine ⟨_, ⟨rfl, rfl, rfl, ?_⟩, rfl⟩
  intro other hother hotherId
  have hsame := Registry.eq_of_id_eq (Registry.mem_kept.1 hother).1 hmem (hotherId.trans hid.symm)
  rw [hsame] at hother ⊢
  exact ⟨object, by rw [hfirst hother, hsecond hother, List.map_append]⟩

/-- The parts of a configuration together add what the declaration adds by itself. -/
theorem changes_parts (h : replayer.Reliable registry) (hd : d ∈ registry.plan.kept)
    (procedure : Procedure) :
    Changes
      (fun frame => (Plan.parts.map fun part =>
          Statement.configure (registry.plan.reference d part.1) part.2 .this).foldlM
        (step (replayer.run levels) procedure) frame)
      (registry.Adds d) := by
  have hparts : (Plan.parts.map fun part =>
      Statement.configure (registry.plan.reference d part.1) part.2 .this) =
        [.configure (registry.plan.reference d .configureMixins) .spec .this,
          .configure (registry.plan.reference d .configureOptions) .optionSink .this,
          .configure (registry.plan.reference d .configureParameters) .positionalSink .this,
          .configure (registry.plan.reference d .configureArgGroups) .spec .this,
          .configure (registry.plan.reference d .configureSpecs) .spec .this,
          .configure (registry.plan.reference d .configureParentCommands) .spec .this,
          .configure (registry.plan.reference d .configureUnmatcheds) .spec .this] := rfl
  rw [hparts]
  simp only [List.foldlM_cons, List.foldlM_nil, bind_pure]
  have hkeeps : ∀ kind ∈ [.configureMixins, .configureSpecs, .configureParentCommands,
      ProcedureKind.configureUnmatcheds],
      Changes (fun frame => step (replayer.run levels) procedure frame
        (.configure (registry.plan.reference d kind) .spec .this)) fun _ => KeepsArgs :=
    fun kind hkind => changes_configure (h.changes_keepsArgs hd hkind) _
  have hfirst : ∀ object,
      ((replayer.run levels).collect (registry.plan.reference d .configureOptions) object).Gives
        fun found => found = d.directOptions.map (ArgDeclaration.specFor object) :=
    h.gives_collect hd rfl rfl
  have hsecond : ∀ object,
      ((replayer.run levels).collect (registry.plan.reference d .configureParameters) object).Gives
        fun found => found = d.directPositionals.map (ArgDeclaration.specFor object) :=
    h.gives_collect hd rfl rfl
  have hoptions := changes_sink CommandSpec.addOption hfirst
  have hpositionals := changes_sink CommandSpec.addPositional hsecond
  have hgroups : Changes (replayer.run levels (registry.plan.reference d .configureArgGroups)) _ :=
    h.changes_run hd rfl fun fewer _ =>
      changes_groups (fun _ _ => h.changes_addsGroup) (registry.forall₂_heldGroups d 0 d.argGroups)
  refine Changes.mono ((hkeeps .configureMixins (by simp)).bind (Changes.bind hoptions
    (Changes.bind hpositionals ((changes_configure hgroups _).bind
    ((hkeeps .configureSpecs (by simp)).bind ((hkeeps .configureParentCommands (by simp)).bind
    (hkeeps .configureUnmatcheds (by simp)))))))) ?_
  rintro object before after ⟨mixed, hmixed, _, rfl, _, rfl, grouped,
    ⟨hoptions, hpositionals, own, hown, hfills⟩, specs, hspecs, parents, hparents, hunmatched⟩
  have hlast := (hspecs.trans hparents).trans hunmatched
  rw [foldl_addOption, foldl_addPositional] at hoptions hpositionals hown
  refine ⟨?_, ?_, own, ?_, hfills⟩
  · rw [hlast.options, hoptions, ← hmixed.options]
  · rw [hlast.positionals, hpositionals, ← hmixed.positionals]
  · rw [hlast.groups, hown, ← hmixed.groups]

/-- A configuration supplies what the declaration adds by itself, after what its ancestors have
added: it begins with the configuration of the ancestor. -/
theorem changes_configureAll (h : replayer.Reliable registry) {line : List CommandDeclaration}
    (hline : registry.Lineage line d) (levels : Nat) :
    Changes (replayer.run levels (registry.plan.reference d .configureAll))
      fun object _ after => registry.Supplies line d object after := by
  induction hline generalizing levels with
  | @alone d kept =>
    refine h.changes_run kept rfl fun fewer _ => ?_
    have hwork : registry.plan.work d .configureAll = registry.plan.inheriting d ++
        Plan.parts.map fun part =>
          .configure (registry.plan.reference d part.1) part.2 .this := rfl
    rw [hwork]
    simp only [List.foldlM_append]
    -- Whatever the ancestor has done, the parts come after it.
    have hinheriting : Changes
        (fun frame => (registry.plan.inheriting d).foldlM (step (replayer.run fewer)
          (registry.plan.procedureOf d .configureAll)) frame) fun _ _ _ => True := by
      unfold Plan.inheriting
      split
      · exact Changes.pure fun _ _ => trivial
      · simp only [List.foldlM_cons, List.foldlM_nil, bind_pure]
        exact changes_configure_any _
    refine (hinheriting.bind (h.changes_parts kept _)).mono ?_
    rintro object before after ⟨_, -, hadds⟩
    exact hadds.supplies
  | @under line ancestor d above kept link ih =>
    refine h.changes_run kept rfl fun fewer _ => ?_
    have hancestor : registry.command? ancestor.id = some ancestor :=
      Registry.command?_of_mem (Registry.mem_kept.1 above.kept).1
    have hinherits : registry.plan.inheriting d =
        [.configure (registry.plan.reference ancestor .configureAll) .spec
          (.upcast ancestor.typePath)] := by
      have hbase : d.superCommand.bind registry.plan.registry.command? = some ancestor := by
        rw [link]
        exact hancestor
      rw [Plan.inheriting, hbase]
    have hwork : registry.plan.work d .configureAll = registry.plan.inheriting d ++
        Plan.parts.map fun part =>
          .configure (registry.plan.reference d part.1) part.2 .this := rfl
    rw [hwork, hinherits]
    simp only [List.foldlM_append, List.foldlM_cons, List.foldlM_nil, bind_pure]
    refine ((changes_configure (ih fewer) _).bind (h.changes_parts kept _)).mono ?_
    rintro object before after ⟨_, hsupplies, hadds⟩
    exact hsupplies.adds hadds

/-- A factory configures its specification last. -/
theorem gives_create (h : replayer.Reliable registry) {line : List CommandDeclaration}
    (hline : registry.Lineage line d) (hcommand : d.isCommand = true) (levels : Nat)
    (owner : Option ObjectRef) :
    ((replayer.run levels).create
      (registry.plan.reference d (.createSpec d.isMethodRooted)) owner).Gives fun spec =>
        ∃ object, registry.Supplies line d object spec := by
  have hcall : (replayer.run levels (registry.plan.reference d (.createSpec d.isMethodRooted))
      { target := owner }).Gives fun next =>
        ∃ object after, next.spec = some after ∧ registry.Supplies line d object after := by
    refine h.gives_run hline.kept
      (CommandDeclaration.createSpec_mem_kinds.2 ⟨hcommand, rfl⟩) fun fewer _ => ?_
    rw [Plan.work, ← List.append_assoc, List.foldlM_append]
    refine (Gives.trivial _).bind fun frame _ => ?_
    rw [List.foldlM_cons]
    simp only [List.foldlM_nil, bind_pure]
    have htarget : frame.needTarget.Gives fun object => frame.target = some object :=
      Meets.orFail (fun _ hobject => hobject) fun _ => trivial
    have hspec : frame.needSpec.Gives fun spec => frame.spec = some spec :=
      Meets.orFail (fun _ hspec => hspec) fun _ => trivial
    refine htarget.bind fun object _ => hspec.bind fun before _ => ?_
    refine (gives_configure_of_changes (h.changes_configureAll hline fewer) before object).bind
      fun after hafter => ?_
    exact Meets.pure ⟨object, after, rfl, hafter⟩
  refine hcall.bind ?_
  rintro next ⟨object, after, hafter, hsupplies⟩
  refine Meets.orFail ?_ fun _ => trivial
  rintro last hlast
  obtain rfl := Option.some.inj (hafter.symm.trans hlast)
  exact ⟨object, hsupplies⟩

end Replayer.Reliable

/-! ## Compilations -/

namespace Compilation

variable {settings : Settings} {manifest : Manifest}

/-- A replay is that of the factory of a command that is kept, for some owner. -/
theorem exists_create_of_replay? {element : SymbolId} {replay : Replay CommandSpec}
    (hreplay : (ofManifest settings manifest).replay? element = some replay) :
    ∃ d ∈ (Registry.ofManifest settings manifest).plan.kept, d.id = element ∧ d.isCommand = true ∧
      ∃ owner : Replay (Option ObjectRef), replay = owner >>=
        (Replayer.ofModules (ofManifest settings manifest).modules).createSpec
          ((Registry.ofManifest settings manifest).plan.reference d
            (.createSpec d.isMethodRooted)) := by
  obtain ⟨⟨module, factory⟩, hfactory, rfl⟩ := Option.map_eq_some_iff.1 hreplay
  obtain ⟨home, hhome, hfound⟩ := List.exists_of_findSome?_eq_some hfactory
  obtain ⟨procedure, hprocedure, heq⟩ := Option.map_eq_some_iff.1 hfound
  cases heq
  have hasked := List.find?_some hprocedure
  rw [Bool.and_eq_true, decide_eq_true_eq] at hasked
  obtain ⟨d, hd, kind, hkind, href, hmade⟩ := kept_of_mem_procedures
    (mem_procedures_of_mem_walkAll hhome (List.mem_of_find?_eq_some hprocedure))
  have hid : d.id = element := by rw [← hasked.1, hmade]; rfl
  have hcreates : kind.isCreate = true := by
    have := hasked.2
    rw [hmade] at this
    exact this
  cases kind with
  | createSpec methodRooted =>
    obtain ⟨hcommand, rfl⟩ := CommandDeclaration.createSpec_mem_kinds.1 hkind
    refine ⟨d, hd, hid, hcommand, ?_⟩
    rw [← href]
    simp only
    split
    · exact ⟨some <$> Replay.newObject module.instanceType, rfl⟩
    · exact ⟨pure none, rfl⟩
  | _ => cases hcreates

/-- If modules have different paths, what a factory makes has what the line of its declaration
supplies. -/
theorem supplies_of_replay (hpaths : (Registry.ofManifest settings manifest).DistinctPaths)
    {element : SymbolId} {replay : Replay CommandSpec}
    (hreplay : (ofManifest settings manifest).replay? element = some replay) :
    ∃ d ∈ (Registry.ofManifest settings manifest).plan.kept, d.id = element ∧
      ∀ line, (Registry.ofManifest settings manifest).Lineage line d →
        ∀ store spec after, replay store = .ok (spec, after) →
          ∃ object, (Registry.ofManifest settings manifest).Supplies line d object spec := by
  obtain ⟨d, hd, hid, hcommand, owner, rfl⟩ := exists_create_of_replay? hreplay
  refine ⟨d, hd, hid, fun line hline => Replay.Gives.of_ok ?_⟩
  refine (Replay.Gives.trivial owner).bind fun given _ => ?_
  exact (reliable hpaths).gives_create hline hcommand Replayer.maxCalls given

end Compilation

end CommandFactory
