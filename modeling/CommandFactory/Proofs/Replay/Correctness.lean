import CommandFactory.Proofs.Replay.Reliability
import CommandFactory.Proofs.Replay.Safety

/-!
# Correctness of replays

A replay of the factory of a command gives what the interpretation of its declaration gives
(`Compilation.replay_eq_created`), if no error was reported and modules have different paths.

- `Replayer.Faithful` says that a replayer finds the procedures of a registry under the references
  that other procedures use for them;
- `Faithful.configures` and `Faithful.gives_create` are the inductions on the calls that may go on
  inside one another, from the parts of a configuration and of a factory.
-/

set_option autoImplicit false

namespace CommandFactory

/-! ## Faithful replayers -/

namespace Replayer

/-- A replayer finds the procedures of all commands of a registry, of which no command is dropped and
no procedure lacks a statement. -/
structure Faithful (replayer : Replayer) (registry : Registry) : Prop where
  found : ∀ d ∈ registry.commands, ∀ kind ∈ d.kinds,
    replayer.procedure? (registry.plan.reference d kind) = some (registry.plan.procedureOf d kind)
  dropped : registry.plan.dropped = []
  clean : ∀ d ∈ registry.commands,
    Diagnostics.hasErrors (registry.plan.procedures d).diagnostics = false

end Replayer

namespace Registry.Delivered

variable {registry : Registry} {compilation : Compilation}

/-- If modules have different paths, a replay finds exactly the procedure that a reference is made
for. -/
theorem faithful (h : registry.Delivered compilation) (hpaths : registry.DistinctPaths) :
    (Replayer.ofModules compilation.modules).Faithful registry where
  found := by
    intro d hd kind hkind
    obtain ⟨found, hfound, -⟩ :=
      h.procedure?_of_mem (h.mem_procedures_iff.2 ⟨d, hd, kind, hkind, rfl, rfl⟩)
    obtain ⟨e, he, kind', hkind', href, rfl⟩ :=
      h.mem_procedures_iff.1 (Replayer.mem_of_procedure? hfound)
    obtain ⟨rfl, rfl⟩ := h.reference_inj hpaths hd he hkind hkind' href
    exact hfound
  dropped := h.dropped
  clean := h.clean

end Registry.Delivered

/-! ## Procedures -/

namespace Replayer

open Replay

namespace Faithful

variable {replayer : Replayer} {registry : Registry} {d : CommandDeclaration} {levels : Nat}

theorem reliable (h : replayer.Faithful registry) : replayer.Reliable registry := by
  intro d hd kind hkind procedure hfound
  rw [h.found d (Registry.mem_kept.1 hd).1 kind hkind] at hfound
  exact (Option.some.inj hfound).symm

theorem mem_kept (h : replayer.Faithful registry) (hd : d ∈ registry.commands) :
    d ∈ registry.plan.kept := by
  rwa [Registry.kept_eq_commands h.dropped]

theorem realizes_run (h : replayer.Faithful registry) (hd : d ∈ registry.commands)
    {kind : ProcedureKind} (hcreate : kind.isCreate = false)
    {meaning : Nat → CommandSpec → Option CommandSpec}
    (hwork : ∀ fewer, levels = fewer + 1 →
      Realizes levels
        (fun frame => (registry.plan.work d kind).foldlM
          (step (replayer.run fewer) (registry.plan.procedureOf d kind)) frame) meaning) :
    Realizes levels (replayer.run levels (registry.plan.reference d kind)) meaning := by
  intro frame object spec hframe
  refine h.reliable.gives_run (h.mem_kept hd)
    (CommandDeclaration.mem_kinds_of_not_isCreate hcreate) ?_
  intro fewer hfewer
  exact hwork fewer hfewer frame object spec hframe

/-! ### The parts of a configuration -/

/-- A replayer configures with a number of calls inside one another what declarations mean. -/
def Configures (replayer : Replayer) (registry : Registry) (levels : Nat) : Prop :=
  ∀ d ∈ registry.commands,
    Realizes levels (replayer.run levels (registry.plan.reference d .configureAll))
      fun n => registry.configured? n d

theorem realizes_inheriting (procedure : Procedure)
    (hconfigures : Configures replayer registry levels) :
    Realizes levels
      (fun frame => (registry.plan.inheriting d).foldlM (step (replayer.run levels) procedure) frame)
      fun n => registry.inherited? (registry.configured? n) d := by
  have hcommands : registry.plan.registry.command? = registry.command? := rfl
  unfold Plan.inheriting Registry.inherited?
  rw [hcommands]
  cases hsuper : d.superCommand.bind registry.command? with
  | none => exact Realizes.pure
  | some ancestor =>
    obtain ⟨id, -, hfound⟩ := Option.bind_eq_some_iff.1 hsuper
    simp only [List.foldlM_cons, List.foldlM_nil, bind_pure]
    exact realizes_configure
      (hconfigures ancestor (Registry.command?_eq_some_iff.1 hfound).1) _

/-- The mixin of a declaration is what its configuration makes of a blank specification. -/
theorem realizes_mixin (h : replayer.Faithful registry)
    (hconfigures : Configures replayer registry levels) (procedure : Procedure)
    (named : NamedElement) :
    Realizes levels
      (fun frame => step (replayer.run levels) procedure frame (registry.plan.mixin named))
      fun n spec => registry.withMixin? (registry.configured? n) spec named := by
  -- Nothing is dropped, so every mixin with a declaration is configured.
  have hkept : (registry.plan.registry.command? named.element).filter
      (fun target => !registry.plan.drops target.id) = registry.command? named.element := by
    change (registry.command? named.element).filter _ = _
    cases registry.command? named.element with
    | none => rfl
    | some target => rw [Option.filter_some_pos (by rw [Registry.drops_eq_false h.dropped]; rfl)]
  unfold Plan.mixin
  rw [hkept]
  have hblank : (registry.command? named.element).map
      (fun target => registry.plan.reference target .configureAll) = none →
        ∀ n ≥ levels, registry.mixin? (registry.configured? n) named = some (.blank named.name) := by
    intro hnone n _
    rw [Registry.mixin?, Option.map_eq_none_iff.1 hnone]
  refine realizes_addMixin hblank fun ref href => ?_
  obtain ⟨target, htarget, rfl⟩ := Option.map_eq_some_iff.1 href
  refine ⟨_, hconfigures target (Registry.command?_eq_some_iff.1 htarget).1, fun n _ => ?_⟩
  rw [Registry.mixin?, htarget]

theorem realizes_configureMixins (h : replayer.Faithful registry) (hd : d ∈ registry.commands)
    (hconfigures : ∀ fewer < levels, Configures replayer registry fewer) :
    Realizes levels (replayer.run levels (registry.plan.reference d .configureMixins))
      fun n spec => d.mixins.foldlM (registry.withMixin? (registry.configured? n)) spec := by
  refine h.realizes_run hd rfl fun fewer hfewer => ?_
  have hless : fewer < levels := by omega
  have hmixins : Realizes fewer
      (fun frame => (d.mixins.map registry.plan.mixin).foldlM
        (step (replayer.run fewer) (registry.plan.procedureOf d .configureMixins)) frame)
      fun n spec => d.mixins.foldlM (registry.withMixin? (registry.configured? n)) spec :=
    Realizes.foldlM_map fun named => h.realizes_mixin (hconfigures fewer hless) _ named
  exact hmixins.mono (Nat.le_of_lt hless)

/-- The groups are those of the declaration, since each has a holder. -/
theorem realizes_configureArgGroups (h : replayer.Faithful registry) (hd : d ∈ registry.commands)
    (levels : Nat) :
    Realizes levels (replayer.run levels (registry.plan.reference d .configureArgGroups))
      fun _ spec => d.argGroups.foldlM registry.withGroup? spec := by
  refine h.realizes_run hd rfl fun fewer _ => ?_
  -- The diagnostics of the groups are among those of the procedures, which have no errors.
  have hclean := (Diagnostics.hasErrors_append.1
    (Diagnostics.hasErrors_append.1 (h.clean d hd)).1).2
  refine Realizes.foldlM (Registry.forall₂_groups hclean) ?_
  rintro group _ ⟨holder, hholder, build, rfl, hcalls, hoptions, hparameters⟩
  have hmem := (Registry.command?_eq_some_iff.1 hholder).1
  have hcollectOptions : ∀ object, ((replayer.run fewer).collect build.options object).Gives
      fun found => found = holder.directOptions.map (ArgDeclaration.specFor object) := by
    rw [hoptions]
    exact h.reliable.gives_collect (h.mem_kept hmem) rfl rfl
  have hcollectParameters : ∀ object, ((replayer.run fewer).collect build.parameters object).Gives
      fun found => found = holder.directPositionals.map (ArgDeclaration.specFor object) := by
    rw [hparameters]
    exact h.reliable.gives_collect (h.mem_kept hmem) rfl rfl
  refine (realizes_addGroup hcalls hcollectOptions hcollectParameters).congr fun n _ spec => ?_
  rw [Registry.withGroup?, hholder, Option.map_some]

theorem realizes_configureSpecs (h : replayer.Faithful registry) (hd : d ∈ registry.commands)
    (levels : Nat) :
    Realizes levels (replayer.run levels (registry.plan.reference d .configureSpecs))
      fun _ spec => some spec := by
  refine h.realizes_run hd rfl fun fewer _ => ?_
  have hspecs : Realizes levels
      (fun frame => (d.specInjections.map Statement.bindSpec).foldlM
        (step (replayer.run fewer) (registry.plan.procedureOf d .configureSpecs)) frame)
      fun _ spec => some (d.specInjections.foldl (fun spec _ => spec) spec) :=
    Realizes.foldl_map realizes_bindSpec
  refine hspecs.congr fun n _ spec => ?_
  rw [List.foldl_fixed]

theorem realizes_configureParentCommands (h : replayer.Faithful registry)
    (hd : d ∈ registry.commands) (levels : Nat) :
    Realizes levels (replayer.run levels (registry.plan.reference d .configureParentCommands))
      fun _ spec => some (Registry.withParentInjections d spec) := by
  refine h.realizes_run hd rfl fun fewer _ => ?_
  have hparents : Realizes levels
      (fun frame => (d.parentInjections.map Statement.bindParent).foldlM
        (step (replayer.run fewer) (registry.plan.procedureOf d .configureParentCommands)) frame)
      fun _ spec => some (Registry.withParentInjections d spec) :=
    Realizes.foldl_map realizes_bindParent
  exact hparents

theorem realizes_configureUnmatcheds (h : replayer.Faithful registry)
    (hd : d ∈ registry.commands) (levels : Nat) :
    Realizes levels (replayer.run levels (registry.plan.reference d .configureUnmatcheds))
      fun _ spec => some spec :=
  h.realizes_run hd rfl fun _ _ => Realizes.pure

/-- A replayer configures what declarations mean, whatever the number of calls that may go on inside
one another: the ancestor is configured with one call fewer, and mixins with two. -/
theorem configures (h : replayer.Faithful registry) (levels : Nat) :
    Configures replayer registry levels := by
  induction levels using Nat.strongRecOn with
  | ind levels ih =>
    intro d hd
    refine h.realizes_run hd rfl fun fewer hfewer => ?_
    subst hfewer
    -- Mixins are configured inside the call of the procedure that adds them, so two calls are gone.
    have hfewer : ∀ most < fewer, Configures replayer registry most :=
      fun most hmost => ih most (Nat.lt_succ_of_lt hmost)
    have hwork : registry.plan.work d .configureAll = registry.plan.inheriting d ++
        [.configure (registry.plan.reference d .configureMixins) .spec .this,
          .configure (registry.plan.reference d .configureOptions) .optionSink .this,
          .configure (registry.plan.reference d .configureParameters) .positionalSink .this,
          .configure (registry.plan.reference d .configureArgGroups) .spec .this,
          .configure (registry.plan.reference d .configureSpecs) .spec .this,
          .configure (registry.plan.reference d .configureParentCommands) .spec .this,
          .configure (registry.plan.reference d .configureUnmatcheds) .spec .this] := rfl
    rw [hwork]
    simp only [List.foldlM_append, List.foldlM_cons, List.foldlM_nil, bind_pure]
    have hinheriting : Realizes fewer
        (fun frame => (registry.plan.inheriting d).foldlM (step (replayer.run fewer)
          (registry.plan.procedureOf d .configureAll)) frame)
        fun n => registry.inherited? (registry.configured? n) d :=
      realizes_inheriting _ (ih fewer (Nat.lt_succ_self fewer))
    have hmixins := h.realizes_configureMixins hd hfewer
    have hoptions : ∀ object,
        ((replayer.run fewer).collect (registry.plan.reference d .configureOptions) object).Gives
          fun found => found = d.directOptions.map (ArgDeclaration.specFor object) :=
      h.reliable.gives_collect (h.mem_kept hd) rfl rfl
    have hpositionals : ∀ object,
        ((replayer.run fewer).collect (registry.plan.reference d .configureParameters)
          object).Gives fun found => found = d.directPositionals.map (ArgDeclaration.specFor object) :=
      h.reliable.gives_collect (h.mem_kept hd) rfl rfl
    refine Realizes.succ (Realizes.congr (hinheriting.bind
      ((realizes_configure hmixins _).bind
      ((realizes_sink CommandSpec.erased_addOption hoptions).bind
      ((realizes_sink CommandSpec.erased_addPositional hpositionals).bind
      ((realizes_configure (h.realizes_configureArgGroups hd fewer) _).bind
      ((realizes_configure (h.realizes_configureSpecs hd fewer) _).bind
      ((realizes_configure (h.realizes_configureParentCommands hd fewer) _).bind
      (realizes_configure (h.realizes_configureUnmatcheds hd fewer) _)))))))) ?_)
    -- The meanings of the parts in order are what the interpretation does in one step.
    intro n _ spec
    rfl

/-! ### Factories -/

/-- A wrapped specification is blank but for its method. -/
theorem gives_wrapSpec (call : Call) (procedure : Procedure) (frame : Frame) (source : WrapSource) :
    (step call procedure frame (.wrapSpec source)).Gives fun next => ∃ object,
      next.At object
        { method := (match source with
            | .ofInstance => none
            | .ofMethod => frame.method), target := some .anonymous } := by
  have htarget : frame.needTarget.Gives fun object => frame.target = some object :=
    Meets.orFail (fun object hobject => hobject) fun _ => trivial
  refine htarget.bind fun object hobject => ?_
  cases source <;> exact Meets.pure ⟨object, hobject, _, rfl, rfl⟩

theorem gives_opening (call : Call) (procedure : Procedure) (owner : Option ObjectRef) :
    ((Plan.opening d).foldlM (step call procedure) { target := owner }).Gives fun next =>
      ∃ object, next.At object { method := d.method?, target := some .anonymous } := by
  unfold Plan.opening CommandDeclaration.method?
  cases d.rooting with
  | classRooted =>
    simp only [List.foldlM_cons, List.foldlM_nil, bind_pure]
    have hnew : (step call procedure { target := owner } .newInstance).Gives fun _ => True :=
      (Meets.newObject procedure.instanceType).bind fun object _ => Meets.pure trivial
    exact hnew.bind fun next _ => gives_wrapSpec call procedure next .ofInstance
  | methodRooted classId method params =>
    simp only [List.foldlM_cons, List.foldlM_nil, bind_pure]
    exact gives_wrapSpec call procedure { target := owner, method := some method } .ofMethod

/-- A factory starts with the annotation of its command. -/
theorem gives_bareSpec (call : Call) (procedure : Procedure) (owner : Option ObjectRef) :
    ((Plan.opening d ++ [Statement.setName d.displayName] ++ Plan.describing d).foldlM
      (step call procedure) { target := owner }).Gives fun next =>
        ∃ object, next.At object d.bareSpec := by
  simp only [List.foldlM_append, List.foldlM_cons, List.foldlM_nil, bind_assoc, pure_bind]
  refine (gives_opening call procedure owner).bind ?_
  rintro opened ⟨object, hopened⟩
  have hname : Realizes 0 (fun frame => step call procedure frame (.setName d.displayName))
      fun _ spec => some { spec with name := d.displayName } :=
    Realizes.changeSpec fun spec => by cases spec; rfl
  refine (hname opened object _ hopened).bind ?_
  rintro named ⟨after, hafter, hnamed⟩
  obtain rfl := Option.some.inj (hafter 0 (Nat.le_refl 0))
  unfold Plan.describing CommandDeclaration.bareSpec
  cases d.command with
  | none => exact Meets.pure ⟨object, hnamed⟩
  | some command =>
    obtain ⟨name, description⟩ := command
    cases description with
    | nil =>
      -- A specification starts without a description.
      exact Meets.pure ⟨object, hnamed⟩
    | cons line lines =>
      have hdescription : Realizes 0
          (fun frame => step call procedure frame (.setDescription (line :: lines)))
          fun _ spec => some { spec with description := line :: lines } :=
        Realizes.changeSpec fun spec => by cases spec; rfl
      refine (hdescription named object _ hnamed).bind ?_
      rintro described ⟨after, hafter, hdescribed⟩
      obtain rfl := Option.some.inj (hafter 0 (Nat.le_refl 0))
      exact Meets.pure ⟨object, hdescribed⟩

/-- The subcommands are those of the declaration, since each has a factory. -/
theorem realizes_subcommands (h : replayer.Faithful registry) (hd : d ∈ registry.commands)
    (hcommand : d.isCommand = true) (procedure : Procedure)
    (hcreate : ∀ target ∈ registry.commands, target.isCommand = true → ∀ owner,
      ((replayer.run levels).create
        (registry.plan.reference target (.createSpec target.isMethodRooted)) owner).Gives
          fun made => ∀ n ≥ levels, registry.created? n target = some made.erased) :
    Realizes levels
      (fun frame => (registry.plan.subcommands d d.subcommands).value.foldlM
        (step (replayer.run levels) procedure) frame)
      fun n spec => d.subcommands.foldlM (registry.withSubcommand? (registry.created? n)) spec := by
  have hclean : Diagnostics.hasErrors (registry.plan.subcommands d d.subcommands).diagnostics =
      false := by
    have hcreated := (Diagnostics.hasErrors_append.1
      (Diagnostics.hasErrors_append.1 (h.clean d hd)).1).1
    rw [if_pos hcommand] at hcreated
    exact hcreated
  refine Realizes.foldlM (Registry.forall₂_subcommands hclean) ?_
  intro sub statement hok
  obtain ⟨target, htarget, hid, htargetCommand, rfl⟩ := Registry.subcommand_eq_ok hok
  refine realizes_addSubcommand fun owner => (hcreate target htarget htargetCommand owner).mono ?_
  intro made hmade n hn
  rw [Registry.command?_eq_some_iff.2 ⟨htarget, hid⟩, Option.bind_some, hmade n hn]

/-- What a factory makes is what its command means, whatever the number of calls that may go on inside
one another: subcommands are made, and the command configured, with one call fewer. -/
theorem gives_create (h : replayer.Faithful registry) (levels : Nat) (hd : d ∈ registry.commands)
    (hcommand : d.isCommand = true) (owner : Option ObjectRef) :
    ((replayer.run levels).create
      (registry.plan.reference d (.createSpec d.isMethodRooted)) owner).Gives fun spec =>
        ∀ n ≥ levels, registry.created? n d = some spec.erased := by
  induction levels using Nat.strongRecOn generalizing d owner with
  | ind levels ih =>
    have hcall : (replayer.run levels (registry.plan.reference d (.createSpec d.isMethodRooted))
        { target := owner }).Gives fun next => ∃ object after,
          (∀ n ≥ levels, registry.created? n d = some after) ∧ next.At object after := by
      refine h.reliable.gives_run (h.mem_kept hd)
        (CommandDeclaration.createSpec_mem_kinds.2 ⟨hcommand, rfl⟩) ?_
      rintro fewer rfl
      have hsubcommands := h.realizes_subcommands hd hcommand
        (registry.plan.procedureOf d (.createSpec d.isMethodRooted))
        fun target htarget htargetCommand =>
          ih fewer (Nat.lt_succ_self fewer) htarget htargetCommand
      have hrest : Realizes fewer
          (fun frame => ((registry.plan.subcommands d d.subcommands).value ++
            [Statement.configure (registry.plan.reference d .configureAll) .spec .this]).foldlM
              (step (replayer.run fewer)
                (registry.plan.procedureOf d (.createSpec d.isMethodRooted))) frame)
          fun n spec =>
            (d.subcommands.foldlM (registry.withSubcommand? (registry.created? n)) spec).bind
              (registry.configured? n d) := by
        simp only [List.foldlM_append, List.foldlM_cons, List.foldlM_nil, bind_pure]
        exact hsubcommands.bind (realizes_configure (h.configures fewer d hd) .this)
      rw [Plan.work, List.foldlM_append]
      refine (gives_bareSpec _ _ owner).bind ?_
      rintro started ⟨object, hstarted⟩
      refine (hrest started object d.bareSpec hstarted).mono ?_
      rintro next ⟨after, hafter, hnext⟩
      -- The command takes one step more than what it is made of.
      refine ⟨object, after, fun n hn => ?_, hnext⟩
      obtain ⟨m, rfl⟩ : ∃ m, n = m + 1 := ⟨n - 1, by omega⟩
      exact hafter m (by omega)
    refine hcall.bind ?_
    rintro next ⟨object, after, hafter, hnext⟩
    obtain ⟨found, hfound, rfl⟩ := hnext.spec
    refine Meets.orFail ?_ fun _ => trivial
    intro spec hspec
    obtain rfl := Option.some.inj (hfound.symm.trans hspec)
    exact hafter

end Faithful

end Replayer

/-! ## Compilations -/

namespace Registry.Delivered

open GeneratedModule

variable {registry : Registry} {compilation : Compilation}

/-- A factory of a command is under the reference that other procedures use for it. -/
theorem reference_of_factoryIn (h : registry.Delivered compilation) {d : CommandDeclaration}
    (hd : d ∈ registry.commands) {module : GeneratedModule}
    (hmodule : module ∈ walkAll compilation.modules) {found : GeneratedModule × Procedure}
    (hfound : Compilation.factoryIn d.id module = some found) :
    (⟨found.1.path, found.2.name⟩ : ProcedureRef) =
      registry.plan.reference d (.createSpec d.isMethodRooted) := by
  obtain ⟨factory, hfactory, rfl⟩ := Option.map_eq_some_iff.1 hfound
  have hasked := List.find?_some hfactory
  rw [Bool.and_eq_true, decide_eq_true_eq] at hasked
  have hentry := Compilation.mem_procedures_of_mem_walkAll hmodule (List.mem_of_find?_eq_some hfactory)
  obtain ⟨e, he, kind, hkind, href, rfl⟩ := h.mem_procedures_iff.1 hentry
  obtain rfl := eq_of_id_eq he hd hasked.1
  cases kind with
  | createSpec methodRooted =>
    obtain ⟨-, rfl⟩ := CommandDeclaration.createSpec_mem_kinds.1 hkind
    exact href
  | _ => cases hasked.2

/-- The factory of a command is found, under the reference that other procedures use for it. -/
theorem exists_factory (h : registry.Delivered compilation) {d : CommandDeclaration}
    (hd : d ∈ registry.commands) (hcommand : d.isCommand = true) :
    ∃ found, compilation.factory? d.id = some found ∧
      (⟨found.1.path, found.2.name⟩ : ProcedureRef) =
        registry.plan.reference d (.createSpec d.isMethodRooted) := by
  unfold Compilation.factory?
  cases hfactory : (walkAll compilation.modules).findSome? (Compilation.factoryIn d.id) with
  | some found =>
    obtain ⟨module, hmodule, hfound⟩ := List.exists_of_findSome?_eq_some hfactory
    exact ⟨found, rfl, h.reference_of_factoryIn hd hmodule hfound⟩
  | none =>
    obtain ⟨declaration, hmem, -, hprocedures⟩ := h.moduleOf_mem hd
    obtain ⟨module, hmodule, hbare⟩ := List.mem_map.1 hmem
    have hprocedure := hprocedures _ (CommandDeclaration.createSpec_mem_kinds.2 ⟨hcommand, rfl⟩)
    rw [← hbare] at hprocedure
    -- The module of the class has the factory, so the search does not end without it.
    have hnone := List.findSome?_eq_none_iff.1 hfactory module hmodule
    have hnot := List.find?_eq_none.1 (Option.map_eq_none_iff.1 hnone) _ hprocedure
    exact absurd (by simp [Plan.procedureOf, Plan.procedure, ProcedureKind.isCreate]) hnot

end Registry.Delivered

namespace Compilation

/-- The replay of a command gives what the interpretation of its declaration gives, but for objects. -/
theorem replay_eq_created (settings : Settings) (manifest : Manifest)
    (hno : Diagnostics.hasErrors (ofManifest settings manifest).diagnostics = false)
    (hpaths : (Registry.ofManifest settings manifest).DistinctPaths) {d : CommandDeclaration}
    (hd : d ∈ (Registry.ofManifest settings manifest).commands) (hcommand : d.isCommand = true) :
    ∃ replay, (ofManifest settings manifest).replay? d.id = some replay ∧
      ∀ store spec after, replay store = .ok (spec, after) →
        ∀ n ≥ Replayer.maxCalls,
          (Registry.ofManifest settings manifest).created? n d = some spec.erased := by
  have hdelivered := delivered hno (List.any_eq_true.2 ⟨d, hd, hcommand⟩)
  obtain ⟨⟨module, factory⟩, hfactory, href⟩ := hdelivered.exists_factory hd hcommand
  have hcreate : ∀ owner : Option ObjectRef,
      (((Replayer.ofModules (ofManifest settings manifest).modules).createSpec
        ⟨module.path, factory.name⟩ owner).Gives fun spec => ∀ n ≥ Replayer.maxCalls,
          (Registry.ofManifest settings manifest).created? n d = some spec.erased) := by
    rw [href]
    exact (hdelivered.faithful hpaths).gives_create Replayer.maxCalls hd hcommand
  unfold replay?
  rw [hfactory]
  refine ⟨_, rfl, Replay.Gives.of_ok ?_⟩
  simp only
  split
  · -- The factory of a method gets a new instance of the class.
    exact (Replay.Meets.newObject module.instanceType).map.bind fun owner _ => hcreate owner
  · rw [pure_bind]
    exact hcreate none

/-- The replay of the tool ends well, and gives what the interpretation of its declaration gives. -/
theorem replay_eq_created_demoTool :
    ∃ d ∈ (Registry.ofManifest {} demoTool).commands, d.id = ⟨"demo.Tool"⟩ ∧
      ∃ replay, (ofManifest {} demoTool).replay? d.id = some replay ∧
        (∃ spec after, replay .empty = .ok (spec, after)) ∧
        ∀ store spec after, replay store = .ok (spec, after) → ∀ n ≥ Replayer.maxCalls,
          (Registry.ofManifest {} demoTool).created? n d = some spec.erased := by
  have hknown : ((Registry.ofManifest {} demoTool).commands.any fun d =>
      d.id = ⟨"demo.Tool"⟩ && d.isCommand) = true := by decide +kernel
  obtain ⟨d, hd, htool⟩ := List.any_eq_true.1 hknown
  rw [Bool.and_eq_true, decide_eq_true_eq] at htool
  obtain ⟨hid, hcommand⟩ := htool
  obtain ⟨replay, hreplay, hspec⟩ := replay_eq_created {} demoTool (by decide +kernel)
    (by decide +kernel) hd hcommand
  refine ⟨d, hd, hid, replay, hreplay, ?_, hspec⟩
  have hends : (((ofManifest {} demoTool).replay? ⟨"demo.Tool"⟩).any fun replay =>
      (replay .empty).isOk) = true := by decide +kernel
  rw [hid] at hreplay
  rw [hreplay, Option.any_some] at hends
  cases hrun : replay .empty with
  | error fault =>
    rw [hrun] at hends
    cases hends
  | ok result => exact ⟨result.1, result.2, rfl⟩

end Compilation

end CommandFactory
