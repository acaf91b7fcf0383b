import CommandFactory.Proofs.Module.Partition
import CommandFactory.Proofs.Replay.Registration

/-!
# Fields for parent commands

A subcommand that is added to a specification resolves the fields that were recorded on it: those that its
own configuration and the configurations of its ancestors bind. The fields that a mixin of it binds are
recorded on the specification of the mixin, which nothing resolves.

- `Made.moves` is the step that adds a subcommand, `KnownBy.orderly_run` the induction on the calls;
- `Compilation.resolvesParents` puts them together for what a factory has made when it returns;
- `Compilation.mixin_field_unresolved` shows a subcommand whose mixin waits for its parent in vain.
-/

set_option autoImplicit false

namespace CommandFactory

/-! ## Resolution -/

namespace CommandSpec

variable {spec : CommandSpec} {object : ObjectRef}

/-- A slot that holds the parent already goes on holding it. -/
theorem slot?_foldl_of_holds {parent : String} {injections : List ParentInjection} {store : Store}
    {ref : ObjectRef} {field : String} (h : store.slot? ref field = some (.spec parent)) :
    (injections.foldl
      (fun store injection => store.setSlot injection.object injection.field (.spec parent))
        store).slot? ref field = some (.spec parent) := by
  induction injections generalizing store with
  | nil => exact h
  | cons first rest ih =>
    refine ih ?_
    change (store.setSlot first.object first.field (.spec parent)).slot? ref field = _
    by_cases hhas : store.Has first.object
    · rw [Store.slot?_setSlot hhas, h, ite_self]
    · rw [Store.setSlot_of_not_has hhas, h]

theorem slot?_foldl_of_mem {parent : String} {injections : List ParentInjection} {store : Store}
    (hhas : ∀ injection ∈ injections, store.Has injection.object) {injection : ParentInjection}
    (h : injection ∈ injections) :
    (injections.foldl
      (fun store injection => store.setSlot injection.object injection.field (.spec parent))
        store).slot? injection.object injection.field = some (.spec parent) := by
  induction injections generalizing store with
  | nil => cases h
  | cons first rest ih =>
    rw [List.forall_mem_cons] at hhas
    rcases List.mem_cons.1 h with rfl | hrest
    · have hset : (store.setSlot injection.object injection.field (.spec parent)).slot?
          injection.object injection.field = some (.spec parent) := by
        rw [Store.slot?_setSlot hhas.1, if_pos ⟨rfl, rfl⟩]
      rw [List.foldl_cons]
      exact slot?_foldl_of_holds hset
    · exact ih (fun other hother => (Store.Keeps.setSlot ..).has (hhas.2 other hother)) hrest

/-- The recorded fields hold the parent once it is resolved. -/
theorem slot?_resolveParent {store : Store} (parent : String)
    (hhas : ∀ injection ∈ spec.parentInjections, store.Has injection.object)
    {injection : ParentInjection} (h : injection ∈ spec.parentInjections) :
    (spec.resolveParent parent store).slot? injection.object injection.field =
      some (.spec parent) :=
  slot?_foldl_of_mem hhas h

theorem keeps_foldl (parent : String) {injections : List ParentInjection} (store : Store)
    (h : ∀ injection ∈ injections, injection.object = object) :
    store.Keeps (· = object) (injections.foldl
      (fun store injection => store.setSlot injection.object injection.field (.spec parent))
        store) := by
  induction injections generalizing store with
  | nil => exact .refl _ _
  | cons first rest ih =>
    rw [List.forall_mem_cons] at h
    refine Store.Keeps.trans ?_ (ih _ h.2) fun _ _ heq => heq
    rw [← h.1]
    exact .setSlot ..

/-- Nothing but the object of the recorded fields changes. -/
theorem keeps_resolveParent (parent : String) (store : Store)
    (h : ∀ injection ∈ spec.parentInjections, injection.object = object) :
    store.Keeps (· = object) (spec.resolveParent parent store) :=
  keeps_foldl parent store h

end CommandSpec

namespace Replayer

open Replay CommandSpec

variable {replayer : Replayer} {call : Call} {procedure : Procedure} {frame : Frame}
  {object : ObjectRef} {spec : CommandSpec} {store : Store}

/-! ## Subcommands -/

/-- The instance of a factory is the instance of the frame or a new one, if there is one. -/
theorem ends_ownerOf (hframe : frame.Stands object spec) (hhas : store.Has object)
    (owner : SubcommandOwner) :
    (ownerOf frame owner).Ends store fun given after =>
      store.Keeps (fun _ => False) after ∧
        ∀ ref, given = some ref → after.Has ref ∧ (ref = object ∨ ¬ store.Has ref) := by
  cases owner with
  | none => exact Ends.pure ⟨.refl _ _, fun _ hnone => by cases hnone⟩
  | this =>
    refine (Ends.needTarget hframe.target).map.mono ?_
    rintro _ store ⟨object, ⟨rfl, rfl⟩, rfl⟩
    refine ⟨.refl _ _, ?_⟩
    rintro _ ⟨⟩
    exact ⟨hhas, Or.inl rfl⟩
  | new type =>
    refine (Ends.newObject type).map.mono ?_
    rintro _ _ ⟨_, ⟨rfl, rfl⟩, rfl⟩
    refine ⟨.new .., ?_⟩
    rintro _ ⟨⟩
    exact ⟨store.has_new type, Or.inr (store.not_has_new type)⟩

/-- A subcommand that its factory has made is added, and its recorded fields receive the name of the
specification. -/
theorem Made.moves {name : String} {factory : ProcedureRef} {owner : SubcommandOwner}
    {given : Option ObjectRef} {target : ObjectRef} {between after : Store} {sub : CommandSpec}
    (hmade : replayer.Made factory given target between sub after)
    (hmakes : replayer.Makes factory sub) (hkept : store.Keeps (fun _ => False) between)
    (hgiven : ∀ ref, given = some ref → between.Has ref ∧ (ref = object ∨ ¬ store.Has ref)) :
    replayer.Moves object [.addSubcommand name factory owner] store spec
      (sub.resolveParent spec.name after) (spec.withSubcommand name sub) := by
  have hresolved := keeps_resolveParent spec.name after hmade.ofObject
  -- Of the objects that were there before, the factory and the resolution know at most this one.
  have hmade' : store.Keeps (· = object) after := by
    refine (hkept.mono fun _ _ hfalse => hfalse.elim).trans hmade.keeps fun ref hold hsome => ?_
    exact (hgiven ref hsome).2.resolve_right (not_not.2 hold)
  have hkeeps : store.Keeps (· = object) (sub.resolveParent spec.name after) := by
    refine hmade'.trans hresolved ?_
    rintro ref hold rfl
    rcases hmade.owned with hsome | hnew
    · exact (hgiven ref hsome).2.resolve_right (not_not.2 hold)
    · exact absurd (hkept.has hold) hnew
  refine ⟨rfl, rfl, rfl, hkeeps, List.Subset.refl _, fun _ hinjection => Or.inl hinjection,
    List.forall_mem_singleton.2 fun _ hbinds => hbinds.elim, ?_, fun hconfigures => ?_⟩
  · intro bound hobject hle hsettled
    obtain ⟨limit, htarget, hsize, hsub⟩ := hmade.settled
    have hbound : bound ≤ between.size := Nat.le_trans hle hkept.size
    -- The resolution changes the object of the subcommand, and what is in it has later ones.
    have hsub' : replayer.Settled (sub.resolveParent spec.name after) bound sub :=
      (hsub.keeps hresolved htarget).lower (Nat.le_trans hbound hsize)
    refine (hsettled.keeps hkeeps hobject).withSubcommand hsub' ⟨factory, hmakes, hmade.records⟩
      (fun hmethod injection hinjection => ?_) name
    -- A class has a new instance, which nothing before the subcommand knows.
    have hnew : between.size ≤ target.index := Nat.not_lt.1 (hmade.new hmethod)
    refine ⟨?_, slot?_resolveParent spec.name (fun other hother => ?_) hinjection⟩
    · rw [hmade.ofObject injection hinjection]
      exact ⟨Nat.le_trans hbound hnew, hresolved.has hmade.has⟩
    · rw [hmade.ofObject other hother]
      exact hmade.has
  · rw [List.forall_mem_singleton] at hconfigures
    cases hconfigures

theorem Orderly.ends_step_addSubcommand (h : replayer.Orderly call) {name : String}
    {factory : ProcedureRef} {owner : SubcommandOwner}
    (hleads : replayer.Leads factory ProcedureKind.isCreate) (hframe : frame.Stands object spec)
    (hhas : store.Has object) :
    (step call procedure frame (.addSubcommand name factory owner)).Ends store
      (replayer.Leaves object [.addSubcommand name factory owner] store spec) := by
  rw [step, addSubcommand_eq]
  refine (ends_ownerOf hframe hhas owner).bind ?_
  rintro given between ⟨hkept, hgiven⟩
  refine (h.creates hleads fun ref href => (hgiven ref href).1).bind ?_
  rintro sub after ⟨hmakes, target, hmade⟩
  refine (Ends.needSpec hframe.spec).bind ?_
  rintro spec after ⟨rfl, rfl⟩
  refine Ends.get.bind ?_
  rintro after _ ⟨rfl, rfl⟩
  refine (Ends.set _).bind ?_
  rintro _ _ rfl
  exact Ends.pure ⟨_, hframe.withSpec _, hmade.moves hmakes hkept hgiven⟩

/-! ## Factories -/

/-- What a factory has before it adds anything: the specification of the owner or of a new object, with
nothing recorded and nothing in it. That of a class is one of a new object. -/
structure Started (owner : Option ObjectRef) (object : ObjectRef) (before : Store)
    (spec : CommandSpec) (after : Store) : Prop where
  target : spec.target = some object
  has : after.Has object
  keeps : before.Keeps (fun _ => False) after
  owned : owner = some object ∨ ¬ before.Has object
  new : spec.method = none → ¬ before.Has object
  blank : spec.parentInjections = [] ∧ spec.mixins = [] ∧ spec.subcommands = []

theorem ends_opening (d : CommandDeclaration) {owner : Option ObjectRef}
    (howner : ∀ ref, owner = some ref → store.Has ref) :
    ((Plan.opening d).foldlM (step call procedure) { target := owner }).Ends store
      fun next after => ∃ object spec, next.Stands object spec ∧
        Started owner object store spec after := by
  unfold Plan.opening
  cases d.rooting with
  | classRooted =>
    simp only [List.foldlM_cons, List.foldlM_nil, bind_pure]
    have hnew : (step call procedure { target := owner } .newInstance).Ends store fun next after =>
        next = { target := some (store.new procedure.instanceType).1 } ∧
          after = (store.new procedure.instanceType).2 := by
      refine (Ends.newObject _).bind ?_
      rintro _ _ ⟨rfl, rfl⟩
      exact Ends.pure ⟨rfl, rfl⟩
    refine hnew.bind ?_
    rintro _ _ ⟨rfl, rfl⟩
    refine (Ends.needTarget rfl).bind ?_
    rintro _ _ ⟨rfl, rfl⟩
    exact Ends.pure ⟨_, _, ⟨rfl, rfl⟩, rfl, store.has_new _, .new .., Or.inr (store.not_has_new _),
      fun _ => store.not_has_new _, rfl, rfl, rfl⟩
  | methodRooted classId method params =>
    simp only [List.foldlM_cons, List.foldlM_nil, bind_pure]
    have hresolved : (step call procedure { target := owner } (.resolveMethod method params)).Ends
        store fun next after =>
          next = { target := owner, method := some method } ∧ after = store := Ends.pure ⟨rfl, rfl⟩
    refine hresolved.bind ?_
    rintro _ store ⟨rfl, rfl⟩
    refine Ends.orFail.bind ?_
    rintro object store ⟨hobject, rfl⟩
    exact Ends.pure ⟨object, _, ⟨hobject, rfl⟩, rfl, howner object hobject, .refl _ _,
      Or.inl hobject, fun hmethod => (by cases hmethod), rfl, rfl, rfl⟩

theorem ends_start (d : CommandDeclaration) {owner : Option ObjectRef}
    (howner : ∀ ref, owner = some ref → store.Has ref) :
    ((Plan.opening d ++ [Statement.setName d.displayName] ++ Plan.describing d).foldlM
      (step call procedure) { target := owner }).Ends store
      fun next after => ∃ object spec, next.Stands object spec ∧
        Started owner object store spec after := by
  -- The name and the description change nothing that is asked for.
  have hchange : ∀ {next : Frame} {between : Store} (change : CommandSpec → CommandSpec),
      (∃ object spec, next.Stands object spec ∧ Started owner object store spec between) →
      (∀ spec, (change spec).target = spec.target ∧ (change spec).method = spec.method ∧
        (change spec).parentInjections = spec.parentInjections ∧
        (change spec).mixins = spec.mixins ∧ (change spec).subcommands = spec.subcommands) →
      (next.changeSpec change).Ends between fun last after => ∃ object spec,
        last.Stands object spec ∧ Started owner object store spec after := by
    rintro next between change ⟨object, spec, hnext, hstarted⟩ hkeeps
    refine (Ends.changeSpec hnext.spec _).mono ?_
    rintro _ between ⟨rfl, rfl⟩
    obtain ⟨htarget, hmethod, hinjections, hmixins, hsubcommands⟩ := hkeeps spec
    exact ⟨object, _, hnext.withSpec _,
      { hstarted with
        target := htarget.trans hstarted.target
        new := fun hnone => hstarted.new (hmethod.symm.trans hnone)
        blank := by
          rw [hinjections, hmixins, hsubcommands]
          exact hstarted.blank }⟩
  simp only [List.foldlM_append, List.foldlM_cons, List.foldlM_nil, bind_pure, bind_assoc]
  refine (ends_opening d howner).bind fun opened between hopened => ?_
  refine (hchange (fun spec => { spec with name := d.displayName }) hopened
    fun _ => ⟨rfl, rfl, rfl, rfl, rfl⟩).bind fun named after hnamed => ?_
  unfold Plan.describing
  cases d.command with
  | none => exact Ends.pure hnamed
  | some command =>
    simp only
    split
    · exact Ends.pure hnamed
    · simp only [List.foldlM_cons, List.foldlM_nil, bind_pure]
      exact hchange (fun spec => { spec with description := command.description }) hnamed
        fun _ => ⟨rfl, rfl, rfl, rfl, rfl⟩

/-! ## Runs -/

/-- Every procedure of the replayer is that of a command that is kept, under the reference that other
procedures use for it. -/
def KnownBy (replayer : Replayer) (registry : Registry) : Prop :=
  ∀ target procedure, (target, procedure) ∈ replayer.procedures →
    ∃ d ∈ registry.plan.kept, ∃ kind ∈ d.kinds,
      target = registry.plan.reference d kind ∧ procedure = registry.plan.procedureOf d kind

namespace KnownBy

variable {registry : Registry} {d : CommandDeclaration} {kind : ProcedureKind}
  {target : ProcedureRef} {levels : Nat}

/-- A reference leads to procedures of its kind, except that it may be lost whether a factory is one of
a method. -/
theorem leads (h : replayer.KnownBy registry) {accepts : ProcedureKind → Bool}
    (haccepts : accepts kind = true)
    (hfactory : kind.isCreate = true → ∀ methodRooted, accepts (.createSpec methodRooted) = true) :
    replayer.Leads (registry.plan.reference d kind) accepts := by
  intro found hfound
  obtain ⟨e, -, other, -, href, rfl⟩ := h _ _ (mem_of_procedure? hfound)
  have hname : registry.plan.procedureName d kind = registry.plan.procedureName e other :=
    congrArg ProcedureRef.name href
  rw [Plan.procedureName_eq, Plan.procedureName_eq] at hname
  change accepts other = true
  -- The name of a procedure gives its kind away, also where the module is not the one meant.
  rcases ProcedureKind.eq_of_baseName (Naming.procedureName_inj hname).1 with rfl | ⟨m, n, rfl, rfl⟩
  · exact haccepts
  · exact hfactory rfl n

theorem leads_of_not_isCreate (h : replayer.KnownBy registry) (hcreate : kind.isCreate = false)
    {accepts : ProcedureKind → Bool} (haccepts : accepts kind = true) :
    replayer.Leads (registry.plan.reference d kind) accepts := by
  refine h.leads haccepts fun hfactory => ?_
  rw [hcreate] at hfactory
  cases hfactory

/-- The calls of generated procedures lead to procedures of the kinds that they are made for. -/
theorem fits (h : replayer.KnownBy registry) {statement : Statement}
    (hwrites : registry.Writes d kind statement) : replayer.Fits statement := by
  cases hwrites with
  | addSubcommand known isCommand => exact h.leads rfl fun _ _ => rfl
  | configureAll => exact h.leads_of_not_isCreate rfl rfl
  | inherit known => exact h.leads_of_not_isCreate rfl rfl
  | @part part listed =>
    have hparts : ∀ part ∈ Plan.parts,
        part.2.accepts part.1 = true ∧ part.1.isCreate = false := by decide
    exact h.leads_of_not_isCreate (hparts part listed).2 (hparts part listed).1
  | addMixin listed known =>
    intro ref href
    obtain ⟨e, -, -, rfl⟩ := known ref href
    exact h.leads_of_not_isCreate rfl rfl
  | addArgGroup known listed makes =>
    refine ⟨?_, ?_⟩
    · rw [makes.options]
      exact h.leads_of_not_isCreate rfl rfl
    · rw [makes.parameters]
      exact h.leads_of_not_isCreate rfl rfl
  | newInstance | resolveMethod | wrapSpec | setName | setDescription | addArg | bindSpec |
    bindParent => trivial

/-- All but the factories configure only. -/
theorem configures_of_writes {statement : Statement} (hwrites : registry.Writes d kind statement)
    (hcreate : kind.isCreate = false) : statement.configures = true := by
  cases hwrites <;> first | rfl | cases hcreate

/-- What a procedure binds is bound by one of the statements that it carries out. -/
theorem exists_bindsBy
    (hfound : replayer.procedure? target = some (registry.plan.procedureOf d kind))
    {field : String} (h : replayer.Binds target field) :
    ∃ statement ∈ registry.plan.work d kind, replayer.BindsBy field statement := by
  obtain ⟨procedure, hprocedure, statement, hmem, hbinds⟩ := h.exists_statement
  obtain rfl := Option.some.inj (hfound.symm.trans hprocedure)
  refine ⟨statement, ?_, hbinds⟩
  rw [← Registry.takeWhile_procedureOf]
  exact hmem

/-- A call carries out the work of a command that is kept, or finds no procedure. -/
theorem ends_run (h : replayer.KnownBy registry) {post : Frame → Store → Prop}
    (hwork : ∀ d ∈ registry.plan.kept, ∀ kind ∈ d.kinds,
      replayer.procedure? target = some (registry.plan.procedureOf d kind) →
        ((registry.plan.work d kind).foldlM
          (step (replayer.run levels) (registry.plan.procedureOf d kind)) frame).Ends store post) :
    (replayer.run (levels + 1) target frame).Ends store post := by
  refine Ends.orFail.bind ?_
  rintro procedure store ⟨hfound, rfl⟩
  obtain ⟨d, hd, kind, hkind, -, rfl⟩ := h _ _ (mem_of_procedure? hfound)
  rw [Registry.takeWhile_procedureOf]
  exact hwork d hd kind hkind hfound

/-- Procedures that append work on their frame alone. -/
theorem ends_sink (hsink : kind.takesSink = true) :
    ((registry.plan.work d kind).foldlM (step call procedure) frame).Ends store
      fun _ after => after = store := by
  have hargs : ∀ statement ∈ registry.plan.work d kind, ∃ build, statement = .addArg build := by
    intro statement hmem
    -- Two kinds are left.
    cases kind <;> cases hsink <;> obtain ⟨arg, -, number, rfl⟩ := Registry.mem_argStatements hmem <;>
      exact ⟨_, rfl⟩
  refine Ends.foldlM (fun _ _ after => after = store) rfl ?_
  rintro done statement hmem next store rfl
  obtain ⟨build, rfl⟩ := hargs statement hmem
  refine Ends.orFail.bind ?_
  rintro object store ⟨-, rfl⟩
  exact Ends.pure rfl

/-- The statements that start a specification bind nothing. -/
theorem not_bindsBy_start {statement : Statement}
    (h : statement ∈ Plan.opening d ++ [Statement.setName d.displayName] ++ Plan.describing d)
    (field : String) : ¬ replayer.BindsBy field statement := by
  simp only [List.mem_append, List.mem_singleton] at h
  rcases h with (hopening | rfl) | hdescribing
  · unfold Plan.opening at hopening
    split at hopening <;> simp only [List.mem_cons, List.not_mem_nil, or_false] at hopening <;>
      rcases hopening with rfl | rfl <;> exact id
  · exact id
  · unfold Plan.describing at hdescribing
    split at hdescribing
    · split at hdescribing
      · cases hdescribing
      · obtain rfl := List.mem_singleton.1 hdescribing
        exact id
    · cases hdescribing

/-- After its start a factory adds the subcommands and has the specification configured. -/
theorem ends_added (h : replayer.KnownBy registry) (hcall : replayer.Orderly call)
    (hframe : frame.Stands object spec) (hhas : store.Has object) :
    (((registry.plan.subcommands d d.subcommands).value ++
      [Statement.configure (registry.plan.reference d .configureAll) .spec .this]).foldlM
        (step call procedure) frame).Ends store
      (replayer.Leaves object ((registry.plan.subcommands d d.subcommands).value ++
        [Statement.configure (registry.plan.reference d .configureAll) .spec .this]) store spec) := by
  refine ends_statements ?_ hframe hhas
  intro statement hmem frame spec store hframe hhas
  rcases List.mem_append.1 hmem with hsub | hall
  · obtain ⟨sub, -, hok⟩ := Registry.mem_subcommands hsub
    obtain ⟨e, -, -, -, rfl⟩ := Registry.subcommand_eq_ok hok
    exact hcall.ends_step_addSubcommand (h.leads rfl fun _ _ => rfl) hframe hhas
  · obtain rfl := List.mem_singleton.1 hall
    have hleads : replayer.Leads (registry.plan.reference d .configureAll) SpecArg.spec.accepts :=
      h.leads_of_not_isCreate rfl rfl
    exact hcall.ends_step rfl hleads hframe hhas

/-- A factory makes the specification that it starts, with all the fields that its statements bind. -/
theorem ends_factory (h : replayer.KnownBy registry) (hcall : replayer.Orderly call)
    {methodRooted : Bool}
    (hfound : replayer.procedure? target =
      some (registry.plan.procedureOf d (.createSpec methodRooted)))
    {owner : Option ObjectRef} (howner : ∀ ref, owner = some ref → store.Has ref) :
    ((registry.plan.work d (.createSpec methodRooted)).foldlM (step call procedure)
      { target := owner }).Ends store fun next after => ∃ object spec, next.Stands object spec ∧
        replayer.Made target owner object store spec after := by
  rw [Plan.work, List.foldlM_append]
  refine (ends_start d howner).bind ?_
  rintro next between ⟨object, spec, hnext, hstarted⟩
  refine (h.ends_added hcall hnext hstarted.has).mono ?_
  rintro last after ⟨changed, hlast, hmoves⟩
  obtain ⟨hinjections, hmixins, hsubcommands⟩ := hstarted.blank
  have htarget : changed.target = some object := hmoves.target.trans hstarted.target
  have hkeeps : store.Keeps (fun ref => owner = some ref) after := by
    refine (hstarted.keeps.mono fun _ _ hfalse => hfalse.elim).trans hmoves.keeps ?_
    rintro ref hold rfl
    exact hstarted.owned.resolve_right (not_not.2 hold)
  -- Everything that is put into the specification has later objects than its own.
  have hsettled := hmoves.settled (Nat.max (object.index + 1) store.size) (Nat.le_max_left ..)
    (Nat.max_le.2 ⟨hstarted.has, hstarted.keeps.size⟩) (settled_of_alone hmixins hsubcommands)
  refine ⟨object, changed, hlast, htarget, hmoves.keeps.has hstarted.has, hkeeps, hstarted.owned,
    fun hnone => hstarted.new (hmoves.method.symm.trans hnone), fun injection hinjection => ?_,
    fun field hbinds => ⟨object, htarget, ?_⟩,
    ⟨_, Nat.le_max_left .., Nat.le_max_right .., hsettled⟩⟩
  · refine (hmoves.ofObject injection hinjection).resolve_left ?_
    rw [hinjections]
    exact List.not_mem_nil
  · obtain ⟨statement, hmem, hby⟩ := exists_bindsBy hfound hbinds
    rw [Plan.work, List.mem_append] at hmem
    exact hmoves.binds statement (hmem.resolve_left fun hstart => not_bindsBy_start hstart field hby)
      field hby

/-- Runs of generated procedures are orderly, however many calls may go on inside one another. -/
theorem orderly_run (h : replayer.KnownBy registry) (levels : Nat) :
    replayer.Orderly (replayer.run levels) := by
  induction levels with
  | zero =>
    -- Without a call left every call fails.
    have hfails : ∀ {target : ProcedureRef} {frame : Frame} {store : Store}
        {post : Frame → Store → Prop}, (replayer.run 0 target frame).Ends store post := Ends.fail
    refine ⟨?_, ?_, ?_⟩
    · intro target _ frame store
      exact hfails
    · intro target _ frame object spec store _ _
      exact hfails
    · intro target _ owner store _
      exact hfails.bind fun _ _ hfalse => False.elim hfalse
  | succ levels ih =>
    -- The statements of a body call with one level fewer, which is orderly already.
    refine ⟨?_, ?_, ?_⟩
    · intro target hleads frame store
      exact h.ends_run fun d _ kind _ hfound => ends_sink (hleads _ hfound)
    · intro target hleads frame object spec store hframe hhas
      refine h.ends_run fun d _ kind _ hfound => ?_
      have hcreate : kind.isCreate = false := by
        have haccepts := hleads _ hfound
        simp only [SpecArg.accepts, Bool.and_eq_true, Bool.not_eq_true'] at haccepts
        exact haccepts.1
      have hconfigures : ∀ statement ∈ registry.plan.work d kind, statement.configures = true :=
        fun statement hmem => configures_of_writes (Registry.writes_of_mem_work hmem) hcreate
      have hwork : ((registry.plan.work d kind).foldlM (step (replayer.run levels)
          (registry.plan.procedureOf d kind)) frame).Ends store
            (replayer.Leaves object (registry.plan.work d kind) store spec) := by
        refine ends_statements ?_ hframe hhas
        intro statement hmem frame spec store hframe hhas
        exact ih.ends_step (hconfigures statement hmem) (h.fits (Registry.writes_of_mem_work hmem))
          hframe hhas
      refine hwork.mono ?_
      rintro next after ⟨changed, hnext, hmoves⟩
      refine ⟨changed, hnext, hmoves.forget hconfigures, fun field hbinds => ?_⟩
      obtain ⟨statement, hmem, hby⟩ := exists_bindsBy hfound hbinds
      exact hmoves.binds statement hmem field hby
    · intro target hleads owner store howner spec after hrun
      refine ⟨⟨levels + 1, owner, store, after, hrun⟩, ?_⟩
      have hcall : (replayer.run (levels + 1) target { target := owner }).Ends store
          fun next after => ∃ object spec, next.Stands object spec ∧
            replayer.Made target owner object store spec after := by
        refine h.ends_run fun d _ kind _ hfound => ?_
        have hcreate := hleads _ hfound
        change kind.isCreate = true at hcreate
        cases kind with
        | createSpec methodRooted => exact h.ends_factory ih hfound howner
        | _ => cases hcreate
      have hmakes : ((replayer.run (levels + 1)).create target owner).Ends store
          fun spec after => ∃ object, replayer.Made target owner object store spec after := by
        refine hcall.bind ?_
        rintro next between ⟨object, made, hnext, hmade⟩
        refine Ends.orFail.mono ?_
        rintro found _ ⟨hspec, rfl⟩
        obtain rfl := Option.some.inj (hnext.spec.symm.trans hspec)
        exact ⟨object, hmade⟩
      exact hmakes spec after hrun

end KnownBy

end Replayer

/-! ## Compilations -/

namespace Compilation

open GeneratedModule

/-- What every factory leaves. Each subcommand is made by a factory, and if this is the factory of a class,
all the fields that it binds hold the specification to which the subcommand was added. The fields that
a mixin has recorded hold no specification, except that of the mixin itself. -/
def ResolvesParents (compilation : Compilation) : Prop :=
  ∀ module ∈ walkAll compilation.modules, ∀ procedure ∈ module.procedures,
    procedure.kind.isCreate = true →
      ∀ (owner : Option ObjectRef) (store : Store), (∀ ref, owner = some ref → store.Has ref) →
        let replayer := Replayer.ofModules compilation.modules
        ∀ spec after,
          replayer.createSpec ⟨module.path, procedure.name⟩ owner store = .ok (spec, after) →
            ∀ parent : CommandSpec, parent.PartOf spec →
              (∀ name sub, (name, sub) ∈ parent.subcommands →
                ∃ factory, replayer.Makes factory sub ∧
                  (sub.method = none → ∀ field, replayer.Binds factory field →
                    ∃ object, sub.target = some object ∧
                      after.slot? object field = some (.spec parent.name))) ∧
              ∀ name mixin, (name, mixin) ∈ parent.mixins →
                ∀ injection ∈ mixin.parentInjections, ∀ held,
                  after.slot? injection.object injection.field = some (.spec held) →
                    held = mixin.name

/-- Whatever the manifest is and whatever has been reported, what a class-rooted subcommand binds for
itself and through its ancestors is resolved when the factory returns, and what its mixins bind is
not. -/
theorem resolvesParents (settings : Settings) (manifest : Manifest) :
    (ofManifest settings manifest).ResolvesParents := by
  intro module hmodule procedure hprocedure hcreate owner store howner replayer spec after hrun
    parent hpart
  have hknown : replayer.KnownBy (Registry.ofManifest settings manifest) :=
    fun _ _ => kept_of_mem_procedures
  obtain ⟨d, -, kind, -, href, rfl⟩ :=
    hknown _ _ (mem_procedures_of_mem_walkAll hmodule hprocedure)
  have hleads : replayer.Leads ⟨module.path, _⟩ ProcedureKind.isCreate :=
    href ▸ hknown.leads hcreate fun _ _ => rfl
  obtain ⟨-, object, hmade⟩ :=
    (hknown.orderly_run Replayer.maxCalls).creates hleads howner spec after hrun
  obtain ⟨bound, -, -, hsettled⟩ := hmade.settled
  have hconnected := hsettled parent hpart
  refine ⟨fun name sub hsub => ?_, fun name mixin hmixin injection hinjection held hheld => ?_⟩
  · obtain ⟨factory, hmakes, hrecords⟩ := hconnected.made _ hsub
    refine ⟨factory, hmakes, fun hmethod field hbinds => ?_⟩
    obtain ⟨target, htarget, hrecorded⟩ := hrecords field hbinds
    exact ⟨target, htarget, (hconnected.received _ hsub hmethod _ hrecorded).2⟩
  · exact (hconnected.unreceived _ hmixin injection hinjection).2 _ held hheld

/-- A subcommand with a field for the parent of its own, one of its ancestor and one of a mixin. -/
def loggedSub : Manifest where
  symbols :=
    .ofList
      [⟨⟨"demo"⟩, "demo", none, [], .package⟩,
        ⟨⟨"demo.App"⟩, "App", some ⟨"demo"⟩, [], .classType none none none⟩,
        ⟨⟨"demo.Base"⟩, "Base", some ⟨"demo"⟩, [], .classType none none none⟩,
        ⟨⟨"demo.Log"⟩, "Log", some ⟨"demo"⟩, [], .classType none none none⟩,
        ⟨⟨"demo.Sub"⟩, "Sub", some ⟨"demo"⟩, [], .classType (some ⟨"demo.Base"⟩) none none⟩]
  elements :=
    [{ CommandInput.bare ⟨"demo.App"⟩ with
        command := some ⟨"app", []⟩
        subcommands := [⟨"sub", ⟨"demo.Sub"⟩⟩] },
      { CommandInput.bare ⟨"demo.Base"⟩ with parentCommandElements := ["above"] },
      { CommandInput.bare ⟨"demo.Log"⟩ with parentCommandElements := ["up"] },
      { CommandInput.bare ⟨"demo.Sub"⟩ with
        command := some ⟨"sub", []⟩
        mixins := [⟨"log", ⟨"demo.Log"⟩⟩]
        parentCommandElements := ["parent"] }]

/-- The field of the mixin holds nothing when the factory of the application returns. -/
theorem mixin_field_unresolved :
    ∃ made app store, (ofManifest {} loggedSub).replay? ⟨"demo.App"⟩ = some made ∧
      made .empty = .ok (app, store) ∧ app.name = "app" ∧
      ∃ sub ∈ app.subcommands, sub.2.method = none ∧ ∃ mixin ∈ sub.2.mixins,
        ∃ injection ∈ mixin.2.parentInjections, injection.field = "up" ∧
          store.slot? injection.object "up" = none := by
  have hreplay : (((ofManifest {} loggedSub).replay? ⟨"demo.App"⟩).any fun made =>
      (made .empty).toOption.any fun result => result.1.name = "app" ∧
        ∃ sub ∈ result.1.subcommands, sub.2.method = none ∧ ∃ mixin ∈ sub.2.mixins,
          ∃ injection ∈ mixin.2.parentInjections, injection.field = "up" ∧
            (result.2.slot? injection.object "up").isNone = true) = true := by
    decide +kernel
  obtain ⟨made, hmade, hends⟩ := (Option.any_eq_true _ _).1 hreplay
  obtain ⟨⟨app, store⟩, hrun, hfound⟩ := (Option.any_eq_true _ _).1 hends
  have hok : made .empty = .ok (app, store) := by
    cases hcase : made .empty with
    | error fault =>
      rw [hcase] at hrun
      cases hrun
    | ok result =>
      rw [hcase] at hrun
      rw [Option.some.inj hrun]
  obtain ⟨hname, sub, hsub, hmethod, mixin, hmixin, injection, hinjection, hfield, hnone⟩ :=
    of_decide_eq_true hfound
  exact ⟨made, app, store, hmade, hok, hname, sub, hsub, hmethod, mixin, hmixin, injection,
    hinjection, hfield, Option.isNone_iff_eq_none.1 hnone⟩

end Compilation

end CommandFactory
