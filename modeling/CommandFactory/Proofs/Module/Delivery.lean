import CommandFactory.Proofs.Module.Assembly
import CommandFactory.Proofs.Module.Procedures
import CommandFactory.Proofs.Registry.Growth
import CommandFactory.Replay.Execution

/-!
# What a compilation delivers

A compilation without errors drops no command, and its units have the procedures of every command
under the references that other procedures use for them (`mem_procedures_iff`). What a replay looks up
can so be told from the declarations alone.
-/

set_option autoImplicit false

namespace CommandFactory

open GeneratedModule

namespace Registry

variable {registry : Registry}

/-- The modules of a registry before they are nested. -/
def flatModules (registry : Registry) : List GeneratedModule :=
  registry.plan.classShaped.map registry.plan.moduleOf

theorem mem_classShaped {declaration : Declaration} :
    declaration ∈ registry.plan.classShaped ↔
      declaration ∈ registry.all ∧ declaration.isClassShaped = true := by
  rw [Plan.classShaped, List.mem_filter]
  rfl

theorem map_declaration_flatModules (registry : Registry) :
    registry.flatModules.map GeneratedModule.declaration =
      registry.plan.classShaped.map Declaration.id := by
  rw [flatModules, List.map_map]
  rfl

theorem flat_flatModules (registry : Registry) :
    registry.synthesize.2.Flat registry.flatModules where
  bare := by
    intro module hmem
    obtain ⟨declaration, -, rfl⟩ := List.mem_map.1 hmem
    rfl
  distinct := by
    rw [map_declaration_flatModules]
    exact registry.declarations.distinct.sublist (List.filter_sublist.map _)
  known := by
    intro module hmem
    obtain ⟨declaration, hdeclaration, rfl⟩ := List.mem_map.1 hmem
    exact ⟨declaration, Keyed.get?_of_mem (mem_classShaped.1 hdeclaration).1⟩

/-- The class of a command has a class-shaped declaration. -/
theorem WellRooted.exists_classShaped (h : registry.WellRooted) {d : CommandDeclaration}
    (hd : d ∈ registry.commands) : ∃ declaration ∈ registry.plan.classShaped,
      declaration.id = d.classId := by
  have hmem := mem_commands.1 hd
  cases h _ hmem with
  | inClass rooting symbol =>
    refine ⟨.command d, mem_classShaped.2 ⟨hmem, ?_⟩, ?_⟩
    · simp [Declaration.isClassShaped, CommandDeclaration.isMethodRooted, rooting]
    · simp [Declaration.id, CommandDeclaration.classId, rooting]
  | @inMethod _ classId method params rooting symbol classSymbol known =>
    -- The class of the method has a declaration, and not one that is itself rooted in a method.
    obtain ⟨declaration, hget⟩ := Keyed.contains_iff.1 known
    obtain ⟨hdeclaration, hid⟩ := Keyed.get?_eq_some_iff.1 hget
    refine ⟨declaration, mem_classShaped.2 ⟨hdeclaration, ?_⟩, ?_⟩
    · cases h _ hdeclaration with
      | container symbol => rfl
      | inClass rooting symbol =>
        simp [Declaration.isClassShaped, CommandDeclaration.isMethodRooted, rooting]
      | inMethod rooting symbol =>
        -- No symbol is both a class and a method.
        exact absurd symbol (hid ▸ classSymbol).not_hasMethod
    · rw [hid]
      simp [CommandDeclaration.classId, rooting]

/-- A procedure in a module is one of a command that is kept, under the reference that other procedures
use for it. -/
theorem exists_kept_of_mem_moduleOf {declaration : Declaration} {procedure : Procedure}
    (h : procedure ∈ (registry.plan.moduleOf declaration).procedures) :
    ∃ d ∈ registry.plan.kept, ∃ kind ∈ d.kinds,
      (⟨(registry.plan.moduleOf declaration).path, procedure.name⟩ : ProcedureRef) =
        registry.plan.reference d kind ∧ procedure = registry.plan.procedureOf d kind := by
  obtain ⟨d, hd, hclass, kind, hkind, rfl⟩ := (Plan.mem_procedures_moduleOf _).1 h
  refine ⟨d, hd, kind, hkind, ?_, rfl⟩
  rw [Plan.reference, hclass]
  rfl

/-- What a compilation without errors has made of a registry. -/
structure Delivered (registry : Registry) (compilation : Compilation) : Prop where
  dropped : registry.plan.dropped = []
  clean : ∀ d ∈ registry.commands,
    Diagnostics.hasErrors (registry.plan.procedures d).diagnostics = false
  rooted : registry.WellRooted
  assembled : registry.Assembled registry.flatModules compilation.units
  upward : ∃ order : List SymbolId,
    order.Perm (registry.plan.classShaped.map Declaration.id) ∧ registry.Upward order

theorem upward_report {order : List SymbolId} (diagnostics : List Diagnostic) :
    (registry.report diagnostics).Upward order ↔ registry.Upward order := by
  induction order with
  | nil => rfl
  | cons id rest ih => rw [Upward, Upward, ih]; rfl

theorem Assembled.of_report {modules : List GeneratedModule} {units : List OutputUnit}
    {diagnostics : List Diagnostic}
    (h : (registry.report diagnostics).Assembled modules units) : registry.Assembled modules units :=
  ⟨h.nodes, h.complete, h.linked, h.atRoot⟩

end Registry

namespace Compilation

variable {settings : Settings} {manifest : Manifest}

/-- Without any command there is no output. -/
theorem units_eq_nil
    (h : (Registry.ofManifest settings manifest).commands.any CommandDeclaration.isCommand = false) :
    (ofManifest settings manifest).units = [] := by
  simp [ofManifest, h]

/-- With a command, the units are those that the modules of the declarations are assembled to. -/
theorem ofManifest_eq
    (hany : (Registry.ofManifest settings manifest).commands.any CommandDeclaration.isCommand =
      true) :
    ofManifest settings manifest =
      ⟨((Registry.ofManifest settings manifest).synthesize.2.assemble
          (Registry.ofManifest settings manifest).flatModules).1,
        ((Registry.ofManifest settings manifest).synthesize.2.assemble
          (Registry.ofManifest settings manifest).flatModules).2.diagnostics⟩ := by
  unfold ofManifest
  rw [if_pos hany]
  rfl

/-- The modules of the units are modules of class-shaped declarations, whatever is reported. -/
theorem exists_moduleOf {node : GeneratedModule}
    (hnode : node ∈ (walkAll (ofManifest settings manifest).modules).map bare) :
    ∃ declaration ∈ (Registry.ofManifest settings manifest).plan.classShaped,
      node = (Registry.ofManifest settings manifest).plan.moduleOf declaration := by
  cases hany : (Registry.ofManifest settings manifest).commands.any CommandDeclaration.isCommand with
  | false =>
    rw [modules, units_eq_nil hany] at hnode
    cases hnode
  | true =>
    rw [modules, ofManifest_eq hany] at hnode
    have hmem := (Registry.flat_flatModules _).nodes_assemble_subset hnode
    obtain ⟨declaration, hdeclaration, rfl⟩ := List.mem_map.1 hmem
    exact ⟨declaration, hdeclaration, rfl⟩

/-- A compilation without errors that meets a command delivers. -/
theorem delivered
    (hno : Diagnostics.hasErrors (ofManifest settings manifest).diagnostics = false)
    (hany : (Registry.ofManifest settings manifest).commands.any CommandDeclaration.isCommand =
      true) :
    (Registry.ofManifest settings manifest).Delivered (ofManifest settings manifest) := by
  rw [ofManifest_eq hany] at hno ⊢
  generalize hregistry : Registry.ofManifest settings manifest = registry at hno
  -- The diagnostics are those of the plan, of the procedures and of the assembly, in order.
  have hsplit := Diagnostics.hasErrors_append.1 hno
  have hplan := Diagnostics.hasErrors_append.1 hsplit.1
  have hdropped := Registry.dropped_eq_nil hplan.1
  refine ⟨hdropped, ?_, hregistry ▸ Registry.wellRooted_ofManifest settings manifest, ?_, ?_⟩
  · intro d hd
    have hdiagnostics := Diagnostics.hasErrors_eq_false_iff.1 hplan.2
    refine Diagnostics.hasErrors_eq_false_iff.2 fun diagnostic hmem => ?_
    apply hdiagnostics diagnostic
    rw [List.mem_flatMap]
    exact ⟨d, Registry.kept_eq_commands hdropped ▸ hd, List.mem_append_left _ hmem⟩
  · exact (Registry.assembled registry.flat_flatModules hno).of_report.of_report
  · obtain ⟨order, hperm, hupward⟩ := Registry.upward_placements registry.flat_flatModules hno
    rw [Registry.map_declaration_flatModules] at hperm
    exact ⟨order, hperm, (Registry.upward_report _).1 ((Registry.upward_report _).1 hupward)⟩

end Compilation

/-! ## The procedures of a compilation -/

namespace Replayer

/-- The procedures of modules stand under the paths of the modules and their own names. -/
theorem mem_ofModules {modules : List GeneratedModule} {entry : ProcedureRef × Procedure} :
    entry ∈ (ofModules modules).procedures ↔
      ∃ node ∈ (walkAll modules).map bare, ∃ procedure ∈ node.procedures,
        entry = (⟨node.path, procedure.name⟩, procedure) := by
  simp only [ofModules, List.mem_reverse, List.mem_flatMap, List.mem_map]
  constructor
  · rintro ⟨module, hmodule, procedure, hprocedure, rfl⟩
    exact ⟨module.bare, ⟨module, hmodule, rfl⟩, procedure, hprocedure, rfl⟩
  · rintro ⟨_, ⟨module, hmodule, rfl⟩, procedure, hprocedure, rfl⟩
    exact ⟨module, hmodule, procedure, hprocedure, rfl⟩

theorem procedure?_eq_none {replayer : Replayer} {target : ProcedureRef}
    (h : replayer.procedure? target = none) (procedure : Procedure) :
    (target, procedure) ∉ replayer.procedures := by
  intro hmem
  have hnone := List.find?_eq_none.1 (Option.map_eq_none_iff.1 h) _ hmem
  simp at hnone

theorem mem_of_procedure? {replayer : Replayer} {target : ProcedureRef} {procedure : Procedure}
    (h : replayer.procedure? target = some procedure) :
    (target, procedure) ∈ replayer.procedures := by
  obtain ⟨entry, hfind, rfl⟩ := Option.map_eq_some_iff.1 h
  have htarget : entry.1 = target := by simpa using List.find?_some hfind
  rw [← htarget]
  exact List.mem_of_find?_eq_some hfind

end Replayer

/-- A replay knows the procedures of the units, each under the path of its module. -/
theorem Compilation.mem_procedures_iff_walkAll {compilation : Compilation} {target : ProcedureRef}
    {procedure : Procedure} :
    (target, procedure) ∈ (Replayer.ofModules compilation.modules).procedures ↔
      ∃ module ∈ walkAll compilation.modules,
        procedure ∈ module.procedures ∧ target = ⟨module.path, procedure.name⟩ := by
  rw [Replayer.mem_ofModules]
  constructor
  · rintro ⟨node, hnode, found, hfound, heq⟩
    obtain ⟨module, hmodule, rfl⟩ := List.mem_map.1 hnode
    rw [Prod.mk.injEq] at heq
    obtain ⟨rfl, rfl⟩ := heq
    exact ⟨module, hmodule, hfound, rfl⟩
  · rintro ⟨module, hmodule, hprocedure, rfl⟩
    exact ⟨module.bare, List.mem_map_of_mem hmodule, procedure, hprocedure, rfl⟩

theorem Compilation.mem_procedures_of_mem_walkAll {compilation : Compilation}
    {module : GeneratedModule} (hmodule : module ∈ walkAll compilation.modules)
    {procedure : Procedure} (hprocedure : procedure ∈ module.procedures) :
    (⟨module.path, procedure.name⟩, procedure) ∈
      (Replayer.ofModules compilation.modules).procedures :=
  mem_procedures_iff_walkAll.2 ⟨module, hmodule, hprocedure, rfl⟩

/-- A replay of a compilation, with errors or without, knows procedures of commands that are kept, each
under the reference that other procedures use for it, and nothing else. -/
theorem Compilation.kept_of_mem_procedures {settings : Settings} {manifest : Manifest}
    {target : ProcedureRef} {procedure : Procedure}
    (h : (target, procedure) ∈
      (Replayer.ofModules (ofManifest settings manifest).modules).procedures) :
    ∃ d ∈ (Registry.ofManifest settings manifest).plan.kept, ∃ kind ∈ d.kinds,
      target = (Registry.ofManifest settings manifest).plan.reference d kind ∧
      procedure = (Registry.ofManifest settings manifest).plan.procedureOf d kind := by
  obtain ⟨node, hnode, _, hprocedure, hentry⟩ := Replayer.mem_ofModules.1 h
  obtain ⟨declaration, -, rfl⟩ := exists_moduleOf hnode
  obtain ⟨d, hd, kind, hkind, href, rfl⟩ := Registry.exists_kept_of_mem_moduleOf hprocedure
  rw [Prod.mk.injEq] at hentry
  exact ⟨d, hd, kind, hkind, hentry.1.trans href, hentry.2⟩

namespace Registry.Delivered

variable {registry : Registry} {compilation : Compilation}

theorem mem_kept (h : registry.Delivered compilation) {d : CommandDeclaration} :
    d ∈ registry.plan.kept ↔ d ∈ registry.commands := by
  rw [kept_eq_commands h.dropped]

/-- The modules of the units are modules of class-shaped declarations. -/
theorem exists_moduleOf (h : registry.Delivered compilation) {node : GeneratedModule}
    (hnode : node ∈ (walkAll compilation.modules).map bare) :
    ∃ declaration ∈ registry.plan.classShaped, node = registry.plan.moduleOf declaration := by
  obtain ⟨declaration, hdeclaration, rfl⟩ := List.mem_map.1 (h.assembled.nodes.subset hnode)
  exact ⟨declaration, hdeclaration, rfl⟩

/-- The module of the class of a command is in the units, with the procedures of the command. -/
theorem moduleOf_mem (h : registry.Delivered compilation) {d : CommandDeclaration}
    (hd : d ∈ registry.commands) :
    ∃ declaration, registry.plan.moduleOf declaration ∈ (walkAll compilation.modules).map bare ∧
      declaration.id = d.classId ∧
      ∀ kind ∈ d.kinds, registry.plan.procedureOf d kind ∈
        (registry.plan.moduleOf declaration).procedures := by
  obtain ⟨declaration, hdeclaration, hid⟩ := h.rooted.exists_classShaped hd
  have hprocedures : ∀ kind ∈ d.kinds, registry.plan.procedureOf d kind ∈
      (registry.plan.moduleOf declaration).procedures := fun kind hkind =>
    (Plan.mem_procedures_moduleOf _).2 ⟨d, h.mem_kept.2 hd, hid.symm, kind, hkind, rfl⟩
  refine ⟨declaration, ?_, hid, hprocedures⟩
  refine h.assembled.complete _ (List.mem_map_of_mem hdeclaration) ?_
  -- Every command has a configuration, so its module is not left out.
  have hconfigure : ProcedureKind.configureAll ∈ d.kinds :=
    CommandDeclaration.mem_kinds_of_not_isCreate rfl
  exact List.ne_nil_of_mem (hprocedures _ hconfigure)

/-- A replay knows the procedures of the commands, each under the reference that other procedures use
for it, and nothing else. -/
theorem mem_procedures_iff (h : registry.Delivered compilation) {target : ProcedureRef}
    {procedure : Procedure} :
    (target, procedure) ∈ (Replayer.ofModules compilation.modules).procedures ↔
      ∃ d ∈ registry.commands, ∃ kind ∈ d.kinds,
        target = registry.plan.reference d kind ∧ procedure = registry.plan.procedureOf d kind := by
  rw [Replayer.mem_ofModules]
  constructor
  · rintro ⟨node, hnode, _, hprocedure, hentry⟩
    obtain ⟨declaration, -, rfl⟩ := h.exists_moduleOf hnode
    obtain ⟨d, hd, kind, hkind, href, rfl⟩ := exists_kept_of_mem_moduleOf hprocedure
    rw [Prod.mk.injEq] at hentry
    exact ⟨d, h.mem_kept.1 hd, kind, hkind, hentry.1.trans href, hentry.2⟩
  · rintro ⟨d, hd, kind, hkind, rfl, rfl⟩
    obtain ⟨declaration, hmem, hid, hprocedures⟩ := h.moduleOf_mem hd
    refine ⟨_, hmem, _, hprocedures kind hkind, ?_⟩
    rw [Plan.reference, ← hid]
    rfl

/-- Procedures under one reference are of one kind. -/
theorem kind_eq_of_mem (h : registry.Delivered compilation) {target : ProcedureRef}
    {a b : Procedure}
    (ha : (target, a) ∈ (Replayer.ofModules compilation.modules).procedures)
    (hb : (target, b) ∈ (Replayer.ofModules compilation.modules).procedures) : a.kind = b.kind := by
  obtain ⟨d, hd, kind, hkind, rfl, rfl⟩ := h.mem_procedures_iff.1 ha
  obtain ⟨e, he, kind', hkind', htarget, rfl⟩ := h.mem_procedures_iff.1 hb
  rw [Plan.reference, Plan.reference, ProcedureRef.mk.injEq] at htarget
  exact kind_eq_of_name (h.mem_kept.2 hd) (h.mem_kept.2 he) hkind hkind' htarget.2

/-- Where there is a procedure of a kind, a replay finds one of that kind. -/
theorem procedure?_of_mem (h : registry.Delivered compilation) {target : ProcedureRef}
    {procedure : Procedure}
    (hmem : (target, procedure) ∈ (Replayer.ofModules compilation.modules).procedures) :
    ∃ found, (Replayer.ofModules compilation.modules).procedure? target = some found ∧
      found.kind = procedure.kind := by
  cases hfound : (Replayer.ofModules compilation.modules).procedure? target with
  | none => exact absurd hmem (Replayer.procedure?_eq_none hfound _)
  | some found => exact ⟨found, rfl, h.kind_eq_of_mem (Replayer.mem_of_procedure? hfound) hmem⟩

end Registry.Delivered

end CommandFactory
