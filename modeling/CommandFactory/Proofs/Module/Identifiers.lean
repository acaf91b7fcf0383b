import CommandFactory.Proofs.Declaration.Checking
import CommandFactory.Proofs.Module.Delivery
import CommandFactory.Proofs.Text.Identifier

/-!
# Identifiers of modules

The names that the text of a module needs identifiers for (`GeneratedModule.identifiers`): those of
modules, procedures and local variables, the parts of paths, and the members of instances. Under
checked settings identifiers stand for all of them, except for some that fields with groups of
arguments have (`Compilation.writable_or_holdsGroup`).

- A name that is made up is an ASCII identifier from the start.
- The name of a member comes from the manifest, and the extraction has checked it.
- A name that refers to a procedure is one that a command of the registry gives to its own.
-/

set_option autoImplicit false

namespace CommandFactory

open GeneratedModule Text

/-! ## Names in modules -/

/-- The name of the member. -/
def Accessor.name : Accessor → String
  | .field name => name
  | .method name => name

/-- The members that a call reads or writes. -/
def BuilderCall.identifiers : BuilderCall → List String
  | .getter source => [source.name]
  | .setter target previous => target.name :: previous.toList.map Accessor.name
  | _ => []

/-- The local variable, and the members that are read or written. -/
def ArgBuild.identifiers (build : ArgBuild) : List String :=
  build.varName :: build.calls.flatMap BuilderCall.identifiers

/-- The name of the procedure and the parts of the path of its module. -/
def ProcedureRef.identifiers (ref : ProcedureRef) : List String := ref.name :: ref.module.segments

/-- The local variables, the field for the value, and the names of the procedures that are called. -/
def GroupBuild.identifiers (build : GroupBuild) : List String :=
  [build.varName, build.valueName, build.field] ++
    (build.options.identifiers ++ build.parameters.identifiers)

/-- The names in a statement. A mixin has two local variables beside its field. -/
def Statement.identifiers : Statement → List String
  | .addSubcommand _ factory _ => factory.identifiers
  | .configure target _ _ => target.identifiers
  | .addMixin name _ callee =>
      [name, "mixin_" ++ Naming.snakeCase name, "mixin_spec_" ++ Naming.snakeCase name] ++
        callee.toList.flatMap ProcedureRef.identifiers
  | .addArg build => build.identifiers
  | .addArgGroup build => build.identifiers
  | .bindSpec field => [field]
  | .bindParent field => [field]
  | _ => []

/-- The name of the procedure and the names in its statements. -/
def Procedure.identifiers (procedure : Procedure) : List String :=
  procedure.name :: procedure.body.flatMap Statement.identifiers

/-- The names of the modules of a tree and those in their procedures. -/
def GeneratedModule.identifiers (module : GeneratedModule) : List String :=
  module.walk.flatMap fun node => node.name :: node.procedures.flatMap Procedure.identifiers

/-! ## Arguments -/

namespace ArgDeclaration

theorem identifiers_optionCalls (arg : ArgDeclaration) :
    arg.optionCalls.flatMap BuilderCall.identifiers = [] := by
  unfold optionCalls
  cases arg.kind <;> rfl

theorem identifiers_settingCalls (arg : ArgDeclaration) :
    arg.settingCalls.flatMap BuilderCall.identifiers = [] := by
  simp [settingCalls, BuilderCall.identifiers]

/-- The calls that bind an argument are on the members that its binding mentions. -/
theorem mentioned_of_mem_bindingCalls {arg : ArgDeclaration} {name : String}
    (h : name ∈ arg.bindingCalls.flatMap BuilderCall.identifiers) :
    name ∈ arg.binding.mentioned := by
  unfold bindingCalls at h
  cases hbinding : arg.binding with
  | field member type =>
    simpa [hbinding, BuilderCall.identifiers, Accessor.name, Binding.mentioned,
      Binding.memberName] using h
  | accessor method getter setter =>
    rw [hbinding] at h
    cases getter <;> cases setter <;>
      simp [BuilderCall.identifiers, Accessor.name, Binding.mentioned] at h ⊢ <;> tauto
  | parameter member type =>
    rw [hbinding] at h
    cases h

theorem writable_of_mem_build {arg : ArgDeclaration} {number : Nat} {name : String}
    (hmentioned : ∀ name ∈ arg.binding.mentioned, isMemberName name = true)
    (h : name ∈ (arg.build number).identifiers) : Writable name := by
  rcases List.mem_cons.1 h with rfl | hcall
  · -- The local variable is numbered.
    unfold build
    cases arg.kind with
    | option names fallbackValue negatable usageHelp =>
      exact (IsAsciiIdentifier.numbered (by decide) number).writable
    | positional index => exact (IsAsciiIdentifier.numbered (by decide) number).writable
  · rw [build, List.flatMap_append, List.flatMap_append, identifiers_optionCalls,
      identifiers_settingCalls, List.nil_append, List.nil_append] at hcall
    have hmember := hmentioned name (mentioned_of_mem_bindingCalls hcall)
    exact (isAsciiIdentifier_of_isMemberName hmember).writable

end ArgDeclaration

/-! ## References -/

theorem ProcedureKind.isAsciiIdentifier_baseName (kind : ProcedureKind) :
    IsAsciiIdentifier kind.baseName := by
  have hall : ∀ name ∈ baseNames, IsAsciiIdentifier name := by decide +kernel
  exact hall _ kind.baseName_mem_baseNames

namespace Registry

variable {registry : Registry} {d : CommandDeclaration}

theorem mem_modulesAbove {steps : Nat} {declaration : Option Declaration} {name : String}
    (h : name ∈ (registry.modulesAbove steps declaration).1) :
    ∃ simpleName, name = Naming.moduleName simpleName registry.settings.moduleSuffix := by
  induction steps generalizing declaration with
  | zero => cases h
  | succ steps ih =>
    cases declaration with
    | none => cases h
    | some declaration =>
      rw [modulesAbove] at h
      cases howner : declaration.owner with
      | root package =>
        simp only [howner, List.mem_singleton] at h
        exact ⟨declaration.simpleName, h⟩
      | declaration id =>
        simp only [howner] at h
        rcases List.mem_cons.1 h with rfl | hmem
        · exact ⟨declaration.simpleName, rfl⟩
        · exact ih hmem

/-- Paths of modules consist of the parts of a package and the names of modules. -/
theorem writable_of_mem_modulePath (hvalid : registry.settings.validate = .ok registry.settings)
    {id : SymbolId} {segment : String} (h : segment ∈ (registry.modulePath id).segments) :
    Writable segment := by
  rcases List.mem_append.1 h with hpackage | hname
  · exact (Naming.isAsciiIdentifier_packageSegments hpackage).writable
  · obtain ⟨simpleName, rfl⟩ := mem_modulesAbove (List.mem_reverse.1 hname)
    exact (Naming.isAsciiIdentifier_moduleName hvalid simpleName).writable

/-- The name of a procedure is that of its kind, with the suffix of a method where it has one. -/
theorem writable_procedureName (hd : d ∈ registry.commands) (kind : ProcedureKind) :
    Writable (registry.plan.procedureName d kind) := by
  refine (Naming.isAsciiIdentifier_procedureName kind.isAsciiIdentifier_baseName ?_).writable
  intro suffix hsuffix
  have hasked := (suffixOf_eq_some hd hsuffix).1
  unfold suffix? at hasked
  split at hasked
  · cases hasked
  · cases hasked
    exact Naming.isWordChar_methodSuffix _ _ _

theorem writable_of_mem_reference (hvalid : registry.settings.validate = .ok registry.settings)
    (hd : d ∈ registry.commands) (kind : ProcedureKind) {name : String}
    (h : name ∈ (registry.plan.reference d kind).identifiers) : Writable name := by
  rcases List.mem_cons.1 h with rfl | hsegment
  · exact writable_procedureName hd kind
  · refine writable_of_mem_modulePath ?_ hsegment
    exact hvalid

/-! ## Statements and procedures -/

/-- A field of the name holds a group of arguments of a command. -/
def HoldsGroup (registry : Registry) (name : String) : Prop :=
  ∃ d ∈ registry.commands, ∃ group ∈ d.argGroups, group.field = name

theorem Writes.writable_or_holdsGroup {kind : ProcedureKind} {statement : Statement}
    (h : registry.Writes d kind statement)
    (hvalid : registry.settings.validate = .ok registry.settings) (hchecked : registry.AllChecked)
    (hd : d ∈ registry.commands) :
    ∀ name ∈ statement.identifiers, Writable name ∨ registry.HoldsGroup name := by
  have hmember {name : String} (hname : isMemberName name = true) : Writable name :=
    (isAsciiIdentifier_of_isMemberName hname).writable
  intro name hname
  cases h with
  | newInstance | resolveMethod | wrapSpec | setName | setDescription => cases hname
  | addSubcommand known isCommand =>
    exact Or.inl (writable_of_mem_reference hvalid known _ hname)
  | configureAll => exact Or.inl (writable_of_mem_reference hvalid hd _ hname)
  | inherit known => exact Or.inl (writable_of_mem_reference hvalid known _ hname)
  | part listed => exact Or.inl (writable_of_mem_reference hvalid hd _ hname)
  | @addMixin mixin target listed known =>
    have hsnake := (Naming.isWord_snakeCase mixin.name).chars
    rcases List.mem_append.1 hname with hlocal | hcallee
    · simp only [List.mem_cons, List.not_mem_nil, or_false] at hlocal
      rcases hlocal with rfl | rfl | rfl
      · exact Or.inl (hmember ((hchecked d hd).mixins mixin listed))
      · exact Or.inl (IsAsciiIdentifier.append (by decide) hsnake).writable
      · exact Or.inl (IsAsciiIdentifier.append (by decide) hsnake).writable
    · obtain ⟨ref, href, hname⟩ := List.mem_flatMap.1 hcallee
      obtain ⟨target, htarget, -, rfl⟩ := known ref (Option.mem_toList.1 href)
      exact Or.inl (writable_of_mem_reference hvalid htarget _ hname)
  | addArg listed =>
    refine Or.inl (ArgDeclaration.writable_of_mem_build ?_ hname)
    rcases listed with hoption | hpositional
    · exact (hchecked d hd).options _ hoption
    · exact (hchecked d hd).positionals _ hpositional
  | addArgGroup known listed makes =>
    rcases List.mem_append.1 hname with hlocal | hcallee
    · simp only [List.mem_cons, List.not_mem_nil, or_false] at hlocal
      rcases hlocal with rfl | rfl | rfl
      · rw [makes.varName]
        exact Or.inl (IsAsciiIdentifier.numbered (by decide) _).writable
      · rw [makes.valueName]
        exact Or.inl (IsAsciiIdentifier.numbered (by decide) _).writable
      · -- The field is taken as the manifest has it.
        exact Or.inr ⟨d, hd, _, listed, makes.field.symm⟩
    · rw [makes.options, makes.parameters, List.mem_append] at hcallee
      exact Or.inl (hcallee.elim (writable_of_mem_reference hvalid known _)
        (writable_of_mem_reference hvalid known _))
  | bindSpec listed =>
    obtain rfl := List.mem_singleton.1 hname
    exact Or.inl (hmember ((hchecked d hd).specInjections _ listed))
  | bindParent listed =>
    obtain rfl := List.mem_singleton.1 hname
    exact Or.inl (hmember ((hchecked d hd).parentInjections _ listed))

theorem writable_or_holdsGroup_procedureOf
    (hvalid : registry.settings.validate = .ok registry.settings) (hchecked : registry.AllChecked)
    (hd : d ∈ registry.commands) (kind : ProcedureKind) :
    ∀ name ∈ (registry.plan.procedureOf d kind).identifiers,
      Writable name ∨ registry.HoldsGroup name := by
  intro name hname
  rcases List.mem_cons.1 hname with rfl | hbody
  · exact Or.inl (writable_procedureName hd kind)
  · obtain ⟨statement, hstatement, hname⟩ := List.mem_flatMap.1 hbody
    rw [Plan.procedureOf, Plan.procedure, Plan.bodyOf_eq_work, List.mem_append] at hstatement
    rcases hstatement with hwork | hreturns
    · exact (writes_of_mem_work hwork).writable_or_holdsGroup hvalid hchecked hd name hname
    · split at hreturns
      · obtain rfl := List.mem_singleton.1 hreturns
        cases hname
      · cases hreturns

end Registry

/-! ## Compilations -/

/-- Under checked settings identifiers stand for all names in the units of a compilation, whatever it
reports, except for some that fields with groups have. -/
theorem Compilation.writable_or_holdsGroup {settings : Settings}
    (hvalid : settings.validate = .ok settings) {manifest : Manifest} {unit : OutputUnit}
    (hunit : unit ∈ (ofManifest settings manifest).units) :
    ∀ name ∈ unit.module.identifiers,
      Writable name ∨ (Registry.ofManifest settings manifest).HoldsGroup name := by
  intro name hname
  have hsettings : (Registry.ofManifest settings manifest).settings = settings :=
    Registry.settings_ofManifest settings manifest
  have hvalid' : (Registry.ofManifest settings manifest).settings.validate =
      .ok (Registry.ofManifest settings manifest).settings := by
    rw [hsettings, hvalid]
  obtain ⟨node, hnode, hname⟩ := List.mem_flatMap.1 hname
  -- A module has the name and the procedures of the one that the synthesis has made.
  have hbare : node.bare ∈ (walkAll (ofManifest settings manifest).modules).map bare := by
    rw [walkAll_eq_flatMap]
    exact List.mem_map_of_mem (List.mem_flatMap.2 ⟨unit.module, List.mem_map_of_mem hunit, hnode⟩)
  obtain ⟨declaration, -, hmade⟩ := exists_moduleOf hbare
  rcases List.mem_cons.1 hname with rfl | hprocedure
  · have hnodeName : node.name = Naming.moduleName declaration.simpleName
        (Registry.ofManifest settings manifest).settings.moduleSuffix :=
      congrArg GeneratedModule.name hmade
    rw [hnodeName]
    exact Or.inl (Naming.isAsciiIdentifier_moduleName hvalid' declaration.simpleName).writable
  · obtain ⟨procedure, hprocedure, hname⟩ := List.mem_flatMap.1 hprocedure
    have hmem : procedure ∈ node.bare.procedures := hprocedure
    rw [hmade] at hmem
    obtain ⟨d, hd, -, kind, -, rfl⟩ := (Plan.mem_procedures_moduleOf _).1 hmem
    exact Registry.writable_or_holdsGroup_procedureOf hvalid'
      (Registry.allChecked_ofManifest settings manifest) (Registry.mem_kept.1 hd).1 kind name hname

end CommandFactory
