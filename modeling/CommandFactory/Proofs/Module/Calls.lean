import CommandFactory.Proofs.Module.Procedures

/-!
# Calls between procedures

What statements call (`Statement.callees`), and with instances of which type (`Statement.handed`).
Every call in a generated procedure is made to a procedure of a command (`exists_called`): to one of a
kind that the call accepts, and with an instance of the type that the calling and the called command
fix (`HandsTo`).
-/

set_option autoImplicit false

namespace CommandFactory

/-! ## What statements call -/

/-- A procedure that a statement calls, with the kinds that the call is made for. -/
structure Callee where
  target : ProcedureRef
  accepts : ProcedureKind → Bool

/-- The kinds of procedures that take the argument first. -/
def SpecArg.accepts : SpecArg → ProcedureKind → Bool
  | .spec, kind => !kind.isCreate && !kind.takesSink
  | .optionSink, kind => kind = .configureOptions
  | .positionalSink, kind => kind = .configureParameters

namespace Statement

/-- The procedures that a statement calls. A factory gets an owner exactly if it is one of a method. -/
def callees : Statement → List Callee
  | .addSubcommand _ factory owner => [⟨factory, fun kind => kind = .createSpec (owner ≠ .none)⟩]
  | .configure target first _ => [⟨target, first.accepts⟩]
  | .addMixin _ _ target =>
      target.toList.map fun target => ⟨target, fun kind => kind = .configureAll⟩
  | .addArgGroup build =>
      [⟨build.options, fun kind => kind = .configureOptions⟩,
        ⟨build.parameters, fun kind => kind = .configureParameters⟩]
  | _ => []

/-- The type of the instance that the calls of a statement pass on, in a procedure that itself works on
an instance of type `own`. The factory of a class gets no instance. -/
def handed (own : String) : Statement → Option String
  | .addSubcommand _ _ owner =>
      match owner with
      | .none => none
      | .this => some own
      | .new type => some type
  | .configure _ _ second =>
      match second with
      | .this => some own
      | .upcast type => some type
  | .addMixin _ type _ => some type
  | .addArgGroup build => some build.groupType
  | _ => none

end Statement

/-! ## Calls of commands -/

namespace Registry

variable {registry : Registry} {d : CommandDeclaration}

/-- The types of instances that statements of the command `d` pass on to procedures of `e`: the type of
`e` itself, their own where both have one class, and for a mixin the type path that its identity
spells. -/
inductive HandsTo (registry : Registry) (d e : CommandDeclaration) : Statement → String → Prop
  | ofCalled {statement : Statement} : HandsTo registry d e statement e.typePath
  | ofClass {statement : Statement} (same : e.classId = d.classId) :
      HandsTo registry d e statement d.typePath
  | ofMixin {named : NamedElement} {target : Option ProcedureRef} (listed : named ∈ d.mixins)
      (called : e.id = named.element) :
      HandsTo registry d e
        (.addMixin named.name (Naming.typePath registry.symbols named.element) target)
        (Naming.typePath registry.symbols named.element)

/-- The call goes to a procedure of a command, of a kind that it accepts, and passes on what statements
of `d` pass on to that command. -/
def Called (registry : Registry) (d : CommandDeclaration) (statement : Statement)
    (callee : Callee) : Prop :=
  ∃ e ∈ registry.commands, ∃ kind ∈ e.kinds,
    callee.target = registry.plan.reference e kind ∧ callee.accepts kind = true ∧
    ∀ type, statement.handed d.typePath = some type → registry.HandsTo d e statement type

/-- A call of a configuring procedure of a command. -/
theorem called_configurator {e : CommandDeclaration} (he : e ∈ registry.commands)
    {kind : ProcedureKind} (hcreate : kind.isCreate = false) {statement : Statement}
    {accepts : ProcedureKind → Bool} (haccepts : accepts kind = true)
    (hhands : ∀ type, statement.handed d.typePath = some type →
      registry.HandsTo d e statement type) :
    registry.Called d statement ⟨registry.plan.reference e kind, accepts⟩ :=
  ⟨e, he, kind, CommandDeclaration.mem_kinds_of_not_isCreate hcreate, rfl, haccepts, hhands⟩

/-- A call of the factory of a subcommand. -/
theorem called_factory {e : CommandDeclaration} (he : e ∈ registry.commands)
    (hcommand : e.isCommand = true) {name : String} {callee : Callee}
    (hcallee : callee ∈ (Statement.addSubcommand name
      (registry.plan.reference e (.createSpec e.isMethodRooted))
      (Plan.subcommandOwner d e)).callees) :
    registry.Called d (.addSubcommand name
      (registry.plan.reference e (.createSpec e.isMethodRooted)) (Plan.subcommandOwner d e))
      callee := by
  obtain rfl := List.mem_singleton.1 hcallee
  refine ⟨e, he, _, CommandDeclaration.createSpec_mem_kinds.2 ⟨hcommand, rfl⟩, rfl,
    decide_eq_true ?_, fun type htype => ?_⟩
  · -- An owner is passed on exactly if the subcommand is rooted in a method.
    unfold Plan.subcommandOwner CommandDeclaration.isMethodRooted
    cases e.rooting with
    | classRooted => rfl
    | methodRooted classId method params =>
      by_cases hclass : classId = d.classId <;> simp [hclass]
  · unfold Plan.subcommandOwner at htype
    cases hrooting : e.rooting with
    | classRooted =>
      rw [hrooting] at htype
      cases htype
    | methodRooted classId method params =>
      simp only [hrooting] at htype
      split at htype
      · -- The method lies in the class of the caller.
        rename_i hclass
        obtain rfl := Option.some.inj htype
        exact .ofClass (by simpa [CommandDeclaration.classId, hrooting] using hclass)
      · obtain rfl := Option.some.inj htype
        exact .ofCalled

/-- Every call in a generated procedure goes to a procedure of a command. -/
theorem exists_called (hd : d ∈ registry.commands) {kind : ProcedureKind} {statement : Statement}
    (hstatement : statement ∈ registry.plan.bodyOf d kind) {callee : Callee}
    (hcallee : callee ∈ statement.callees) : registry.Called d statement callee := by
  rw [Plan.bodyOf_eq_work, List.mem_append] at hstatement
  -- A body is the work of its kind, and the statement that returns, which calls nothing.
  rcases hstatement with hwork | hreturns
  · cases writes_of_mem_work hwork with
    | newInstance | resolveMethod | wrapSpec | setName | setDescription => cases hcallee
    | addArg | bindSpec | bindParent => cases hcallee
    | addSubcommand known isCommand => exact called_factory known isCommand hcallee
    | configureAll =>
      obtain rfl := List.mem_singleton.1 hcallee
      exact called_configurator hd rfl rfl fun type htype => Option.some.inj htype ▸ .ofCalled
    | inherit known =>
      obtain rfl := List.mem_singleton.1 hcallee
      exact called_configurator known rfl rfl fun type htype => Option.some.inj htype ▸ .ofCalled
    | part listed =>
      obtain rfl := List.mem_singleton.1 hcallee
      simp only [Plan.parts, List.mem_cons, List.not_mem_nil, or_false] at listed
      rcases listed with rfl | rfl | rfl | rfl | rfl | rfl | rfl <;>
        exact called_configurator hd rfl rfl fun type htype => Option.some.inj htype ▸ .ofCalled
    | addMixin listed known =>
      -- The one call whose type does not come from the declaration of what is called.
      obtain ⟨ref, href, rfl⟩ := List.mem_map.1 hcallee
      obtain ⟨target, htarget, hid, rfl⟩ := known ref (Option.mem_toList.1 href)
      exact called_configurator htarget rfl rfl fun type htype =>
        Option.some.inj htype ▸ .ofMixin listed hid
    | @addArgGroup holder group number build known listed makes =>
      have hhands : ∀ type, some build.groupType = some type →
          registry.HandsTo d holder (.addArgGroup build) type := by
        intro type htype
        rw [makes.groupType] at htype
        exact Option.some.inj htype ▸ .ofCalled
      simp only [Statement.callees, List.mem_cons, List.not_mem_nil, or_false] at hcallee
      rcases hcallee with rfl | rfl
      · rw [makes.options]
        exact called_configurator known rfl rfl hhands
      · rw [makes.parameters]
        exact called_configurator known rfl rfl hhands
  · split at hreturns
    · obtain rfl := List.mem_singleton.1 hreturns
      cases hcallee
    · cases hreturns

end Registry

end CommandFactory
