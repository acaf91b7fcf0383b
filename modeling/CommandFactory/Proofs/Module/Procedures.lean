import CommandFactory.Proofs.Module.Plan

/-!
# The procedures of a command

A command has one procedure of each kind that applies to it (`procedures_value`). The name of a
procedure gives its kind away, and the suffix of its command (`Naming.procedureName_inj`), so the
procedures in one module have distinct names (`nodup_names_moduleOf`).
-/

set_option autoImplicit false

namespace CommandFactory

/-! ## Names -/

namespace ProcedureKind

/-- The base names of all kinds. -/
def baseNames : List String :=
  ["create_cmd_spec", "configure_all", "configure_mixins", "configure_options",
    "configure_parameters", "configure_arg_groups", "configure_specs", "configure_parent_commands",
    "configure_unmatcheds"]

theorem baseName_mem_baseNames (kind : ProcedureKind) : kind.baseName ∈ baseNames := by
  cases kind <;> simp [baseName, baseNames]

theorem eq_of_prefix_of_mem_baseNames :
    ∀ a ∈ baseNames, ∀ b ∈ baseNames, a.toList <+: b.toList → a = b := by
  decide +kernel

/-- No base name begins another. -/
theorem baseName_eq_of_prefix {a b : ProcedureKind} (h : a.baseName.toList <+: b.baseName.toList) :
    a.baseName = b.baseName :=
  eq_of_prefix_of_mem_baseNames _ a.baseName_mem_baseNames _ b.baseName_mem_baseNames h

/-- The base name of a kind gives the kind away, except whether a factory is one of a method. -/
theorem eq_of_baseName {a b : ProcedureKind} (h : a.baseName = b.baseName) :
    a = b ∨ ∃ m n, a = .createSpec m ∧ b = .createSpec n := by
  cases a <;> cases b <;> simp [baseName] at h ⊢

end ProcedureKind

namespace Naming

/-- What a suffix adds to a base name. -/
def suffixChars : Option String → List Char
  | none => []
  | some suffix => '_' :: suffix.toList

theorem toList_procedureName (base : String) (suffix : Option String) :
    (procedureName base suffix).toList = base.toList ++ suffixChars suffix := by
  cases suffix <;> simp [procedureName, suffixChars]

theorem suffixChars_inj {s t : Option String} (h : suffixChars s = suffixChars t) : s = t := by
  cases s <;> cases t <;> simp_all [suffixChars, String.toList_inj]

/-- The name of a procedure gives away its base name and its suffix. -/
theorem procedureName_inj {a b : ProcedureKind} {s t : Option String}
    (h : procedureName a.baseName s = procedureName b.baseName t) :
    a.baseName = b.baseName ∧ s = t := by
  have hchars : a.baseName.toList ++ suffixChars s = b.baseName.toList ++ suffixChars t := by
    rw [← toList_procedureName, ← toList_procedureName, h]
  -- Both base names begin the one text, so one of them begins the other.
  have ha : a.baseName.toList <+: a.baseName.toList ++ suffixChars s := List.prefix_append _ _
  have hb : b.baseName.toList <+: a.baseName.toList ++ suffixChars s :=
    hchars ▸ List.prefix_append _ _
  have hbase : a.baseName = b.baseName := by
    rcases List.prefix_or_prefix_of_prefix ha hb with hab | hba
    · exact ProcedureKind.baseName_eq_of_prefix hab
    · exact (ProcedureKind.baseName_eq_of_prefix hba).symm
  rw [hbase] at hchars
  exact ⟨hbase, suffixChars_inj (List.append_cancel_left hchars)⟩

end Naming

/-! ## The kinds of a command -/

namespace CommandDeclaration

/-- The kinds of the procedures of a command, in order. -/
def kinds (d : CommandDeclaration) : List ProcedureKind :=
  (if d.isCommand then [.createSpec d.isMethodRooted] else []) ++
    [.configureAll, .configureMixins, .configureOptions, .configureParameters, .configureArgGroups,
      .configureSpecs, .configureParentCommands, .configureUnmatcheds]

theorem createSpec_mem_kinds {d : CommandDeclaration} {methodRooted : Bool} :
    .createSpec methodRooted ∈ d.kinds ↔ d.isCommand = true ∧ methodRooted = d.isMethodRooted := by
  unfold kinds
  split <;> simp_all

/-- Every kind but that of factories applies to every declaration. -/
theorem mem_kinds_of_not_isCreate {d : CommandDeclaration} {kind : ProcedureKind}
    (h : kind.isCreate = false) : kind ∈ d.kinds := by
  cases kind <;> simp_all [kinds, ProcedureKind.isCreate]

theorem nodup_kinds (d : CommandDeclaration) : d.kinds.Nodup := by
  unfold kinds
  split <;> simp

end CommandDeclaration

namespace Plan

variable (plan : Plan)

/-- The body of the procedure of a kind. -/
def bodyOf (d : CommandDeclaration) : ProcedureKind → List Statement
  | .createSpec _ => (plan.create d).value.body
  | .configureAll => (plan.configureAll d).body
  | .configureMixins => d.mixins.map plan.mixin
  | .configureOptions => argStatements 0 d.directOptions
  | .configureParameters => argStatements 0 d.directPositionals
  | .configureArgGroups => (plan.groups d 0 d.argGroups).value
  | .configureSpecs => d.specInjections.map .bindSpec
  | .configureParentCommands => d.parentInjections.map .bindParent
  | .configureUnmatcheds => []

/-- What the procedure of a kind does until it returns. -/
def work (d : CommandDeclaration) : ProcedureKind → List Statement
  | .createSpec _ =>
      opening d ++ [.setName d.displayName] ++ describing d ++
        ((plan.subcommands d d.subcommands).value ++
          [.configure (plan.reference d .configureAll) .spec .this])
  | kind => plan.bodyOf d kind

/-- Only factories return. -/
theorem bodyOf_eq_work (d : CommandDeclaration) (kind : ProcedureKind) :
    plan.bodyOf d kind = plan.work d kind ++ if kind.isCreate then [.returnSpec] else [] := by
  cases kind <;> simp [bodyOf, work, create, procedure, ProcedureKind.isCreate]

/-- The procedure of a kind, with its body. -/
def procedureOf (d : CommandDeclaration) (kind : ProcedureKind) : Procedure :=
  plan.procedure d kind (plan.bodyOf d kind)

/-- A command has one procedure of each of its kinds. -/
theorem procedures_value (d : CommandDeclaration) :
    (plan.procedures d).value = d.kinds.map (plan.procedureOf d) := by
  unfold procedures CommandDeclaration.kinds
  split <;> rfl

/-- The procedures in the module of a class. -/
theorem mem_procedures_moduleOf {declaration : Declaration} {procedure : Procedure} :
    procedure ∈ (plan.moduleOf declaration).procedures ↔
      ∃ d ∈ plan.kept, d.classId = declaration.id ∧
        ∃ kind ∈ d.kinds, procedure = plan.procedureOf d kind := by
  simp only [moduleOf, procedures_value, List.mem_flatMap, List.mem_filter, decide_eq_true_eq,
    List.mem_map]
  constructor
  · rintro ⟨d, ⟨hd, hclass⟩, kind, hkind, rfl⟩
    exact ⟨d, hd, hclass, kind, hkind, rfl⟩
  · rintro ⟨d, hd, hclass, kind, hkind, rfl⟩
    exact ⟨d, ⟨hd, hclass⟩, kind, hkind, rfl⟩

end Plan

/-! ## Calls -/

namespace Registry

variable {registry : Registry} {d : CommandDeclaration}

/-- A subcommand that is added has a declaration, and its factory is called. -/
theorem subcommand_eq_ok {sub : NamedElement} {statement : Statement}
    (h : registry.plan.subcommand d sub = .ok statement) :
    ∃ target ∈ registry.commands, target.id = sub.element ∧ target.isCommand = true ∧
      statement = .addSubcommand sub.name
        (registry.plan.reference target (.createSpec target.isMethodRooted))
        (Plan.subcommandOwner d target) := by
  unfold Plan.subcommand at h
  split at h
  · cases h
  · rename_i target htarget
    obtain ⟨hfound, hcommand⟩ := Option.filter_eq_some_iff.1 htarget
    obtain ⟨hmem, hid⟩ := command?_eq_some_iff.1 hfound
    split at h
    · cases h
    · cases h
      exact ⟨target, hmem, hid, hcommand, rfl⟩

theorem mem_subcommands {subs : List NamedElement} {statement : Statement}
    (h : statement ∈ (registry.plan.subcommands d subs).value) :
    ∃ sub ∈ subs, registry.plan.subcommand d sub = .ok statement := by
  induction subs with
  | nil => cases h
  | cons sub rest ih =>
    have hrest : statement ∈ (registry.plan.subcommands d rest).value →
        ∃ sub' ∈ sub :: rest, registry.plan.subcommand d sub' = .ok statement := by
      intro hmem
      obtain ⟨found, hfound, hok⟩ := ih hmem
      exact ⟨found, List.mem_cons_of_mem _ hfound, hok⟩
    rw [Plan.subcommands] at h
    cases hsub : registry.plan.subcommand d sub with
    | error failure =>
      simp only [hsub] at h
      exact hrest h
    | ok added =>
      simp only [hsub] at h
      rcases List.mem_cons.1 h with rfl | hmem
      · exact ⟨sub, List.mem_cons_self .., hsub⟩
      · exact hrest hmem

/-- The making of a group takes the arguments of a holder and a value of its type, and works on numbered
local variables and on the field of the group. -/
structure MakesGroup (registry : Registry) (holder : CommandDeclaration) (group : ArgGroupDeclaration)
    (number : Nat) (build : GroupBuild) : Prop where
  options : build.options = registry.plan.reference holder .configureOptions
  parameters : build.parameters = registry.plan.reference holder .configureParameters
  varName : build.varName = "group" ++ toString number
  valueName : build.valueName = "value" ++ toString number
  field : build.field = group.field
  groupType : build.groupType = holder.typePath

theorem mem_groups {groups : List ArgGroupDeclaration} {index : Nat} {statement : Statement}
    (h : statement ∈ (registry.plan.groups d index groups).value) :
    ∃ holder ∈ registry.commands, ∃ group ∈ groups, ∃ number build,
      statement = .addArgGroup build ∧ registry.MakesGroup holder group number build := by
  induction groups generalizing index with
  | nil => cases h
  | cons group rest ih =>
    rw [Plan.groups] at h
    cases hholder : registry.plan.registry.command? group.groupType with
    | none =>
      simp only [hholder] at h
      obtain ⟨holder, hholder, found, hfound, hmakes⟩ := ih h
      exact ⟨holder, hholder, found, List.mem_cons_of_mem _ hfound, hmakes⟩
    | some holder =>
      simp only [hholder] at h
      rcases List.mem_cons.1 h with rfl | hmem
      · exact ⟨holder, (command?_eq_some_iff.1 hholder).1, group, List.mem_cons_self .., index, _,
          rfl, ⟨rfl, rfl, rfl, rfl, rfl, rfl⟩⟩
      · obtain ⟨holder, hholder, found, hfound, hmakes⟩ := ih hmem
        exact ⟨holder, hholder, found, List.mem_cons_of_mem _ hfound, hmakes⟩

/-- The statement adds the group, with the arguments of its holder. -/
def AddsGroup (registry : Registry) (group : ArgGroupDeclaration) (statement : Statement) : Prop :=
  ∃ holder, registry.command? group.groupType = some holder ∧
    ∃ build : GroupBuild, statement = .addArgGroup build ∧
      build.calls = Plan.groupCalls group ∧
      build.options = registry.plan.reference holder .configureOptions ∧
      build.parameters = registry.plan.reference holder .configureParameters

/-- Without errors each group has its statement. -/
theorem forall₂_groups {groups : List ArgGroupDeclaration} {index : Nat}
    (h : Diagnostics.hasErrors (registry.plan.groups d index groups).diagnostics = false) :
    List.Forall₂ registry.AddsGroup groups (registry.plan.groups d index groups).value := by
  induction groups generalizing index with
  | nil => exact .nil
  | cons group rest ih =>
    rw [Plan.groups] at h ⊢
    cases hholder : registry.plan.registry.command? group.groupType with
    | none =>
      -- A group without a holder is an error at the command.
      simp only [hholder] at h
      exact absurd rfl (Diagnostics.hasErrors_eq_false_iff.1 h _ (List.mem_cons_self ..))
    | some holder =>
      simp only [hholder] at h ⊢
      exact .cons ⟨holder, hholder, _, rfl, rfl, rfl, rfl⟩ (ih h)

/-- Without errors each subcommand has its statement. -/
theorem forall₂_subcommands {subs : List NamedElement}
    (h : Diagnostics.hasErrors (registry.plan.subcommands d subs).diagnostics = false) :
    List.Forall₂ (fun sub statement => registry.plan.subcommand d sub = .ok statement) subs
      (registry.plan.subcommands d subs).value := by
  induction subs with
  | nil => exact .nil
  | cons sub rest ih =>
    rw [Plan.subcommands] at h ⊢
    cases hsub : registry.plan.subcommand d sub with
    | error failure =>
      -- So is a subcommand that cannot be added.
      simp only [hsub] at h
      exact absurd rfl (Diagnostics.hasErrors_eq_false_iff.1 h _ (List.mem_cons_self ..))
    | ok statement =>
      simp only [hsub] at h ⊢
      exact .cons hsub (ih h)

/-! ## What procedures do -/

/-- What a procedure of a kind may do, other than return. -/
inductive Writes (registry : Registry) (d : CommandDeclaration) : ProcedureKind → Statement → Prop
  | newInstance {methodRooted : Bool} : Writes registry d (.createSpec methodRooted) .newInstance
  | resolveMethod {methodRooted : Bool} {method : String} {params : List String} :
      Writes registry d (.createSpec methodRooted) (.resolveMethod method params)
  | wrapSpec {methodRooted : Bool} {source : WrapSource} :
      Writes registry d (.createSpec methodRooted) (.wrapSpec source)
  | setName {methodRooted : Bool} {name : String} :
      Writes registry d (.createSpec methodRooted) (.setName name)
  | setDescription {methodRooted : Bool} {lines : List String} :
      Writes registry d (.createSpec methodRooted) (.setDescription lines)
  | addSubcommand {methodRooted : Bool} {name : String} {target : CommandDeclaration}
      (known : target ∈ registry.commands) (isCommand : target.isCommand = true) :
      Writes registry d (.createSpec methodRooted)
        (.addSubcommand name (registry.plan.reference target (.createSpec target.isMethodRooted))
          (Plan.subcommandOwner d target))
  | configureAll {methodRooted : Bool} :
      Writes registry d (.createSpec methodRooted)
        (.configure (registry.plan.reference d .configureAll) .spec .this)
  | inherit {ancestor : CommandDeclaration} (known : ancestor ∈ registry.commands) :
      Writes registry d .configureAll
        (.configure (registry.plan.reference ancestor .configureAll) .spec
          (.upcast ancestor.typePath))
  | part {part : ProcedureKind × SpecArg} (listed : part ∈ Plan.parts) :
      Writes registry d .configureAll
        (.configure (registry.plan.reference d part.1) part.2 .this)
  | addMixin {named : NamedElement} {target : Option ProcedureRef} (listed : named ∈ d.mixins)
      (known : ∀ ref, target = some ref → ∃ e ∈ registry.commands, e.id = named.element ∧
        ref = registry.plan.reference e .configureAll) :
      Writes registry d .configureMixins
        (.addMixin named.name (Naming.typePath registry.symbols named.element) target)
  | addArg {kind : ProcedureKind} {index : Nat} {arg : ArgDeclaration}
      (listed : arg ∈ d.options ∨ arg ∈ d.positionals) :
      Writes registry d kind (.addArg (arg.build index))
  | addArgGroup {holder : CommandDeclaration} {group : ArgGroupDeclaration} {number : Nat}
      {build : GroupBuild} (known : holder ∈ registry.commands) (listed : group ∈ d.argGroups)
      (makes : registry.MakesGroup holder group number build) :
      Writes registry d .configureArgGroups (.addArgGroup build)
  | bindSpec {field : String} (listed : field ∈ d.specInjections) :
      Writes registry d .configureSpecs (.bindSpec field)
  | bindParent {field : String} (listed : field ∈ d.parentInjections) :
      Writes registry d .configureParentCommands (.bindParent field)

theorem Writes.ne_returnSpec {kind : ProcedureKind} {statement : Statement}
    (h : registry.Writes d kind statement) : statement ≠ .returnSpec := by
  cases h <;> simp

theorem mem_argStatements {args : List ArgDeclaration} {index : Nat} {statement : Statement}
    (h : statement ∈ argStatements index args) :
    ∃ arg ∈ args, ∃ number, statement = .addArg (arg.build number) := by
  induction args generalizing index with
  | nil => cases h
  | cons arg rest ih =>
    rcases List.mem_cons.1 h with rfl | hmem
    · exact ⟨arg, List.mem_cons_self .., index, rfl⟩
    · obtain ⟨found, hfound, number, heq⟩ := ih hmem
      exact ⟨found, List.mem_cons_of_mem _ hfound, number, heq⟩

/-- Each statement of a factory but the last is one that factories may have. -/
theorem writes_createSpec {methodRooted : Bool} {statement : Statement}
    (h : statement ∈ registry.plan.work d (.createSpec methodRooted)) :
    registry.Writes d (.createSpec methodRooted) statement := by
  simp only [Plan.work, List.mem_append, List.mem_singleton] at h
  rcases h with ((hopening | rfl) | hdescribing) | hadded | rfl
  · unfold Plan.opening at hopening
    split at hopening <;> simp only [List.mem_cons, List.not_mem_nil, or_false] at hopening
    · rcases hopening with rfl | rfl
      · exact .newInstance
      · exact .wrapSpec
    · rcases hopening with rfl | rfl
      · exact .resolveMethod
      · exact .wrapSpec
  · exact .setName
  · unfold Plan.describing at hdescribing
    split at hdescribing
    · split at hdescribing
      · cases hdescribing
      · obtain rfl := List.mem_singleton.1 hdescribing
        exact .setDescription
    · cases hdescribing
  · obtain ⟨sub, -, hok⟩ := mem_subcommands hadded
    obtain ⟨target, htarget, -, hcommand, rfl⟩ := subcommand_eq_ok hok
    exact .addSubcommand htarget hcommand
  · exact .configureAll

theorem writes_configureAll {statement : Statement}
    (h : statement ∈ registry.plan.work d .configureAll) :
    registry.Writes d .configureAll statement := by
  change statement ∈ registry.plan.inheriting d ++ _ at h
  rcases List.mem_append.1 h with hinherits | hpart
  · unfold Plan.inheriting at hinherits
    split at hinherits
    · cases hinherits
    · rename_i ancestor hancestor
      obtain ⟨id, -, hfound⟩ := Option.bind_eq_some_iff.1 hancestor
      obtain rfl := List.mem_singleton.1 hinherits
      exact .inherit (command?_eq_some_iff.1 hfound).1
  · obtain ⟨part, hlisted, rfl⟩ := List.mem_map.1 hpart
    exact .part hlisted

/-- A procedure does nothing but what one of its kind may do. -/
theorem writes_of_mem_work {kind : ProcedureKind} {statement : Statement}
    (h : statement ∈ registry.plan.work d kind) : registry.Writes d kind statement := by
  cases kind with
  | createSpec methodRooted => exact writes_createSpec h
  | configureAll => exact writes_configureAll h
  | configureMixins =>
    obtain ⟨named, hnamed, rfl⟩ := List.mem_map.1 h
    refine .addMixin hnamed fun ref href => ?_
    obtain ⟨target, htarget, rfl⟩ := Option.map_eq_some_iff.1 href
    obtain ⟨hfound, -⟩ := Option.filter_eq_some_iff.1 htarget
    obtain ⟨hmem, hid⟩ := command?_eq_some_iff.1 hfound
    exact ⟨target, hmem, hid, rfl⟩
  | configureOptions =>
    obtain ⟨arg, harg, number, rfl⟩ := mem_argStatements h
    exact .addArg (Or.inl (List.mem_filter.1 harg).1)
  | configureParameters =>
    obtain ⟨arg, harg, number, rfl⟩ := mem_argStatements h
    exact .addArg (Or.inr (List.mem_filter.1 harg).1)
  | configureArgGroups =>
    obtain ⟨holder, hholder, group, hgroup, number, build, rfl, hmakes⟩ := mem_groups h
    exact .addArgGroup hholder hgroup hmakes
  | configureSpecs =>
    obtain ⟨field, hfield, rfl⟩ := List.mem_map.1 h
    exact .bindSpec hfield
  | configureParentCommands =>
    obtain ⟨field, hfield, rfl⟩ := List.mem_map.1 h
    exact .bindParent hfield
  | configureUnmatcheds => cases h

/-- A procedure is carried out up to the statement that returns, which is the last one of a factory. -/
theorem takeWhile_procedureOf (kind : ProcedureKind) :
    ((registry.plan.procedureOf d kind).body.takeWhile fun statement => statement ≠ .returnSpec) =
      registry.plan.work d kind := by
  have hbody : (registry.plan.procedureOf d kind).body = registry.plan.bodyOf d kind := rfl
  have hwork : ∀ statement ∈ registry.plan.work d kind,
      decide (statement ≠ .returnSpec) = true := fun statement hmem =>
    decide_eq_true (writes_of_mem_work hmem).ne_returnSpec
  rw [hbody, Plan.bodyOf_eq_work, List.takeWhile_append_of_pos hwork]
  cases kind <;> simp [ProcedureKind.isCreate]

end Registry

/-! ## Distinct names -/

namespace Registry

variable {registry : Registry}

theorem mem_kept {d : CommandDeclaration} :
    d ∈ registry.plan.kept ↔ d ∈ registry.commands ∧ registry.plan.drops d.id = false := by
  simp [Plan.kept, commands_plan]

/-- A command that is kept has a suffix exactly if it is rooted in a method. -/
theorem suffixOf_isSome {d : CommandDeclaration} (hd : d ∈ registry.plan.kept) :
    (registry.plan.suffixOf d).isSome = d.isMethodRooted := by
  obtain ⟨hcommands, hkept⟩ := mem_kept.1 hd
  cases hrooted : d.isMethodRooted with
  | false => rw [suffixOf_classRooted hcommands hrooted, Option.isSome_none]
  | true =>
    obtain ⟨suffix, hsuffix⟩ := suffixOf_methodRooted hcommands hkept hrooted
    rw [hsuffix, Option.isSome_some]

/-- Procedures of one name have one kind, whatever their modules are. -/
theorem kind_eq_of_name {d e : CommandDeclaration} {kind kind' : ProcedureKind}
    (hd : d ∈ registry.plan.kept) (he : e ∈ registry.plan.kept) (hkind : kind ∈ d.kinds)
    (hkind' : kind' ∈ e.kinds)
    (h : registry.plan.procedureName d kind = registry.plan.procedureName e kind') :
    kind = kind' := by
  rw [Plan.procedureName_eq, Plan.procedureName_eq] at h
  obtain ⟨hbase, hsuffix⟩ := Naming.procedureName_inj h
  rcases ProcedureKind.eq_of_baseName hbase with rfl | ⟨m, n, rfl, rfl⟩
  · rfl
  · -- Factories of methods have suffixes, and those of classes have none.
    obtain ⟨-, rfl⟩ := CommandDeclaration.createSpec_mem_kinds.1 hkind
    obtain ⟨-, rfl⟩ := CommandDeclaration.createSpec_mem_kinds.1 hkind'
    rw [← suffixOf_isSome hd, ← suffixOf_isSome he, hsuffix]

/-- Commands of one class have no procedures of one name. -/
theorem eq_of_name {d e : CommandDeclaration} {kind kind' : ProcedureKind}
    (hd : d ∈ registry.plan.kept) (he : e ∈ registry.plan.kept) (hclass : d.classId = e.classId)
    (h : registry.plan.procedureName d kind = registry.plan.procedureName e kind') : d = e := by
  rw [Plan.procedureName_eq, Plan.procedureName_eq] at h
  obtain ⟨-, hsuffix⟩ := Naming.procedureName_inj h
  have hdcommands := (mem_kept.1 hd).1
  have hecommands := (mem_kept.1 he).1
  have hrooted : d.isMethodRooted = e.isMethodRooted := by
    rw [← suffixOf_isSome hd, ← suffixOf_isSome he, hsuffix]
  cases hof : registry.plan.suffixOf d with
  | some suffix => exact suffixOf_inj hdcommands hecommands hclass hof (hsuffix ▸ hof)
  | none =>
    -- Both are rooted in the class itself.
    have hnot : d.isMethodRooted = false := by rw [← suffixOf_isSome hd, hof, Option.isSome_none]
    refine eq_of_id_eq hdcommands hecommands ?_
    rw [hnot] at hrooted
    unfold CommandDeclaration.isMethodRooted at hnot hrooted
    unfold CommandDeclaration.classId at hclass
    cases hdrooting : d.rooting <;> cases herooting : e.rooting <;> simp_all

/-- The procedures in one module have distinct names. -/
theorem nodup_names_moduleOf (declaration : Declaration) :
    ((registry.plan.moduleOf declaration).procedures.map Procedure.name).Nodup := by
  simp only [Plan.moduleOf, Plan.procedures_value, List.map_flatMap, List.map_map]
  rw [List.nodup_flatMap]
  have hkept : ∀ d ∈ registry.plan.kept.filter fun d => d.classId = declaration.id,
      d ∈ registry.plan.kept ∧ d.classId = declaration.id := by
    intro d hd
    simpa using List.mem_filter.1 hd
  constructor
  · -- Within one command, names tell the kinds apart.
    intro d hd
    refine (List.nodup_map_iff_inj_on d.nodup_kinds).2 ?_
    intro kind hkind kind' hkind' hname
    exact kind_eq_of_name (hkept d hd).1 (hkept d hd).1 hkind hkind' hname
  · -- Between two commands of the class, names tell the commands apart.
    have hdistinct : (registry.plan.kept.filter fun d => d.classId = declaration.id).Nodup := by
      apply List.Nodup.filter
      apply List.Nodup.filter
      exact (registry.declarations.distinct.of_map _).filterMap (by
        intro a b d ha hb
        cases a <;> cases b <;> simp_all [Declaration.command?])
    refine hdistinct.imp_of_mem ?_
    intro d e hd he hne name hname hname'
    obtain ⟨kind, -, rfl⟩ := List.mem_map.1 hname
    obtain ⟨kind', -, heq⟩ := List.mem_map.1 hname'
    obtain ⟨hdkept, hdclass⟩ := hkept d hd
    obtain ⟨hekept, heclass⟩ := hkept e he
    exact hne (eq_of_name hdkept hekept (hdclass.trans heclass.symm) heq.symm)

end Registry

end CommandFactory
