import CommandFactory.Artifact.Emission
import CommandFactory.Proofs.Module.Path

/-!
# Collisions

Where no two declarations clash, nothing that a compilation makes takes the place of anything else:
not a module the place of a module, not an artifact the file of an artifact, and not a procedure the
entry of a procedure. A clash is not reported (`distinct_iff_no_clash`): names that differ in case
only, or in characters that snake case drops, give modules of one path.
-/

set_option autoImplicit false

namespace CommandFactory

open GeneratedModule

namespace Compilation

/-- No artifact goes where another one goes. -/
def DistinctArtifacts (compilation : Compilation) : Prop :=
  compilation.units.Pairwise fun a b => a.relativePath.same b.relativePath = false

/-- No module has two modules of one name in it. -/
def DistinctChildren (compilation : Compilation) : Prop :=
  ∀ module ∈ walkAll compilation.modules,
    (module.children.map GeneratedModule.name).Nodup

/-- No procedure is entered under the reference of another. -/
def DistinctEntries (compilation : Compilation) : Prop :=
  ((Replayer.ofModules compilation.modules).procedures.map Prod.fst).Nodup

end Compilation

namespace Registry

variable {registry : Registry} {compilation : Compilation}

/-! ## Artifacts -/

/-- The settings with which a registry works have been checked. -/
def Valid (registry : Registry) : Prop := registry.settings.validate = .ok registry.settings

/-- The components of the path of an artifact give the path of its module away. -/
theorem components_relativePath (hvalid : registry.Valid) {unit : OutputUnit}
    {package : Option String} {declaration : Declaration}
    (hname : unit.module.name = registry.moduleNameOf declaration)
    (hpath : unit.module.path =
      (ModulePath.ofPackage package).child (registry.moduleNameOf declaration)) :
    unit.relativePath.components =
      (Naming.packageSegments package).map .name ++
        [.name (registry.moduleNameOf declaration ++ ".rs")] := by
  have hsegments : unit.module.path.segments.dropLast = Naming.packageSegments package := by
    rw [hpath, ModulePath.child, ModulePath.ofPackage, List.dropLast_concat]
  have hword : IsWord (registry.moduleNameOf declaration) := Naming.isWord_moduleName hvalid _
  rw [OutputUnit.relativePath, hsegments, hname,
    FilePath.components_join _ hword.isFileName_extension,
    FilePath.components_ofNames fun segment hmem => (Naming.isWord_packageSegments hmem).isFileName]

namespace Delivered

/-- A module of the units is that of a declaration; the modules inside it apart. -/
theorem exists_bare_eq (h : registry.Delivered compilation) {module : GeneratedModule}
    (hmodule : module ∈ walkAll compilation.modules) :
    ∃ declaration ∈ registry.plan.classShaped,
      module.bare = registry.plan.moduleOf declaration :=
  h.exists_moduleOf (List.mem_map_of_mem hmodule)

/-- What is distinct in the flat modules is distinct in the units. -/
theorem nodup_flatMap (h : registry.Delivered compilation) {α : Type}
    {items : GeneratedModule → List α} (hflat : (registry.flatModules.flatMap items).Nodup) :
    (((walkAll compilation.modules).map bare).flatMap items).Nodup := by
  -- The units have the flat modules in another order, less some of them.
  obtain ⟨nodes, hperm, hsublist⟩ := h.assembled.nodes
  exact (hperm.flatMap_right items).nodup_iff.1 (hflat.sublist (hsublist.flatMap items))

theorem nodup_declarations (h : registry.Delivered compilation) :
    (((walkAll compilation.modules).map bare).map GeneratedModule.declaration).Nodup := by
  have hflat := registry.flat_flatModules.distinct
  rw [List.map_eq_flatMap] at hflat ⊢
  exact h.nodup_flatMap hflat

theorem unit_module_mem {unit : OutputUnit} (hunit : unit ∈ compilation.units) :
    unit.module ∈ walkAll compilation.modules := by
  rw [walkAll_eq_flatMap, List.mem_flatMap]
  exact ⟨unit.module, List.mem_map_of_mem hunit, self_mem_walk _⟩

/-- The declaration of a unit, the package it lies in, and the path of its artifact. -/
theorem exists_components (h : registry.Delivered compilation) (hvalid : registry.Valid)
    {unit : OutputUnit} (hunit : unit ∈ compilation.units) :
    ∃ declaration ∈ registry.plan.classShaped, declaration.id = unit.module.declaration ∧
      registry.modulePath declaration.id =
        (ModulePath.ofPackage unit.package).child (registry.moduleNameOf declaration) ∧
      unit.relativePath.components =
        (Naming.packageSegments unit.package).map .name ++
          [.name (registry.moduleNameOf declaration ++ ".rs")] := by
  obtain ⟨declaration, hdeclaration, hbare⟩ := h.exists_bare_eq (unit_module_mem hunit)
  have hid : unit.module.declaration = declaration.id := congrArg GeneratedModule.declaration hbare
  have hname : unit.module.name = registry.moduleNameOf declaration :=
    congrArg GeneratedModule.name hbare
  have hpath : unit.module.path = registry.modulePath declaration.id :=
    (congrArg GeneratedModule.path hbare).trans (path_moduleOf declaration)
  -- The declaration at the root of the tree of a unit is the one its module is made for.
  obtain ⟨found, hget, howner⟩ := h.assembled.atRoot unit hunit
  have hsame : found = declaration := by
    rw [OutputUnit.element, hid, get?_classShaped hdeclaration] at hget
    exact (Option.some.inj hget).symm
  have hroot := modulePath_root (get?_classShaped hdeclaration) (hsame ▸ howner)
  exact ⟨declaration, hdeclaration, hid.symm, hroot,
    components_relativePath hvalid hname (hpath.trans hroot)⟩

theorem distinctArtifacts (h : registry.Delivered compilation) (hvalid : registry.Valid)
    (hpaths : registry.DistinctPaths) : compilation.DistinctArtifacts := by
  have hdistinct : (compilation.units.map fun unit => unit.module.declaration).Nodup := by
    have hsublist := (map_bare_sublist compilation.modules).map GeneratedModule.declaration
    rw [← map_bare_walkAll] at hsublist
    have hnodup := h.nodup_declarations.sublist hsublist
    rw [Compilation.modules, List.map_map, List.map_map] at hnodup
    exact hnodup
  refine (List.pairwise_map.1 hdistinct).imp_of_mem ?_
  intro a b ha hb hne
  -- Equal components are equal packages and equal names, and so one path of two modules.
  obtain ⟨d, hd, hdid, hdpath, hdcomponents⟩ := h.exists_components hvalid ha
  obtain ⟨e, he, heid, hepath, hecomponents⟩ := h.exists_components hvalid hb
  rw [FilePath.same, beq_eq_false_iff_ne, hdcomponents, hecomponents]
  intro heq
  obtain ⟨hsegments, hmodule⟩ := FilePath.sourceParts_inj.1 heq
  have hsame : registry.modulePath d.id = registry.modulePath e.id := by
    rw [hdpath, hepath, ModulePath.ofPackage, ModulePath.ofPackage, hsegments, hmodule]
  exact hne (hdid.symm.trans ((hpaths d hd e he hsame).trans heid))

/-! ## Modules inside a module -/

/-- The modules inside the modules of a unit are modules of the compilation. -/
theorem children_sublist_nodes {unit : OutputUnit} (hunit : unit ∈ compilation.units)
    {module : GeneratedModule} (hmodule : module ∈ walk unit.module) :
    (module.children.map bare).Sublist ((walkAll compilation.modules).map bare) := by
  refine (children_sublist hmodule).trans ?_
  rw [map_bare_walkAll]
  exact List.sublist_flatten_of_mem (List.mem_map_of_mem (List.mem_map_of_mem hunit))

/-- The path of a module inside another is that of the other and its own name. -/
theorem exists_child (h : registry.Delivered compilation) {unit : OutputUnit}
    (hunit : unit ∈ compilation.units) {module : GeneratedModule}
    (hmodule : module ∈ walk unit.module) {child : GeneratedModule}
    (hchild : child ∈ module.children) :
    ∃ declaration ∈ registry.plan.classShaped, declaration.id = child.declaration ∧
      registry.modulePath declaration.id =
        (registry.modulePath module.declaration).child child.name := by
  obtain ⟨declaration, hdeclaration, hbare⟩ := h.exists_moduleOf
    ((children_sublist_nodes hunit hmodule).subset (List.mem_map_of_mem hchild))
  have hid : child.declaration = declaration.id := congrArg GeneratedModule.declaration hbare
  have hname : child.name = registry.moduleNameOf declaration :=
    congrArg GeneratedModule.name hbare
  obtain ⟨found, hget, howner⟩ := h.assembled.linked unit hunit module hmodule child hchild
  rw [hid, get?_classShaped hdeclaration, Option.some.injEq] at hget
  refine ⟨declaration, hdeclaration, hid.symm, ?_⟩
  rw [hname]
  exact h.modulePath_nested hdeclaration (hget ▸ howner)

theorem distinctChildren (h : registry.Delivered compilation) (hpaths : registry.DistinctPaths) :
    compilation.DistinctChildren := by
  intro module hmodule
  rw [walkAll_eq_flatMap, List.mem_flatMap] at hmodule
  obtain ⟨root, hroot, hwalk⟩ := hmodule
  obtain ⟨unit, hunit, rfl⟩ := List.mem_map.1 hroot
  have hdistinct : (module.children.map GeneratedModule.declaration).Nodup := by
    have hnodup := h.nodup_declarations.sublist
      ((children_sublist_nodes hunit hwalk).map GeneratedModule.declaration)
    rwa [List.map_map] at hnodup
  refine (List.nodup_map_iff_inj_on hdistinct.of_map).2 ?_
  intro a ha b hb hname
  obtain ⟨d, hd, hdid, hdpath⟩ := h.exists_child hunit hwalk ha
  obtain ⟨e, he, heid, hepath⟩ := h.exists_child hunit hwalk hb
  -- Both lie directly in the module, so their paths differ by their names only.
  have hsame : d.id = e.id := by
    apply hpaths d hd e he
    rw [hdpath, hepath, hname]
  exact List.inj_on_of_nodup_map hdistinct ha hb (hdid.symm.trans (hsame.trans heid))

/-! ## Procedures -/

/-- The references of the procedures of a module. -/
def entries (module : GeneratedModule) : List ProcedureRef :=
  module.procedures.map fun procedure => ⟨module.path, procedure.name⟩

theorem mem_entries {module : GeneratedModule} {target : ProcedureRef}
    (h : target ∈ entries module) :
    target.module = module.path ∧ target.name ∈ module.procedures.map Procedure.name := by
  obtain ⟨procedure, hmem, rfl⟩ := List.mem_map.1 h
  exact ⟨rfl, List.mem_map_of_mem hmem⟩

theorem nodup_entries_flatModules (hpaths : registry.DistinctPaths) :
    (registry.flatModules.flatMap entries).Nodup := by
  rw [flatModules, List.flatMap_map, List.nodup_flatMap]
  refine ⟨?_, ?_⟩
  · intro declaration _
    have hnames := registry.nodup_names_moduleOf declaration
    refine List.Nodup.of_map ProcedureRef.name ?_
    rwa [entries, List.map_map]
  · have hids : (registry.plan.classShaped.map Declaration.id).Nodup := by
      rw [← map_declaration_flatModules]
      exact registry.flat_flatModules.distinct
    refine (List.pairwise_map.1 hids).imp_of_mem ?_
    intro a b ha hb hne target htarget htarget'
    -- An entry of both would give their modules one path.
    have hpath := (mem_entries htarget).1
    have hpath' := (mem_entries htarget').1
    rw [path_moduleOf] at hpath hpath'
    exact hne (hpaths a ha b hb (hpath.symm.trans hpath'))

theorem distinctEntries (h : registry.Delivered compilation) (hpaths : registry.DistinctPaths) :
    compilation.DistinctEntries := by
  have hentries := h.nodup_flatMap (nodup_entries_flatModules hpaths)
  rw [List.flatMap_map] at hentries
  unfold Compilation.DistinctEntries Replayer.ofModules
  rw [List.map_reverse, List.nodup_reverse, List.map_flatMap]
  simp only [List.map_map]
  exact hentries

end Delivered

end Registry

/-! ## Manifests -/

namespace Compilation

/-- A manifest has declarations that clash, and a command for which modules are made. -/
def Clashes (settings : Settings) (manifest : Manifest) : Prop :=
  (Registry.ofManifest settings manifest).commands.any CommandDeclaration.isCommand = true ∧
    ∃ a b, (Registry.ofManifest settings manifest).Clash a b

/-- Under checked settings, and without a reported error, everything that is generated has a place of
its own exactly if no declarations clash: modules have different paths, artifacts different files,
modules in one module different names, and procedures different references. -/
theorem distinct_iff_no_clash (settings : Settings) (manifest : Manifest)
    (hvalid : settings.validate = .ok settings)
    (hno : Diagnostics.hasErrors (ofManifest settings manifest).diagnostics = false) :
    (((Registry.ofManifest settings manifest).commands.any CommandDeclaration.isCommand = true →
          (Registry.ofManifest settings manifest).DistinctPaths) ∧
        (ofManifest settings manifest).DistinctArtifacts ∧
        (ofManifest settings manifest).DistinctChildren ∧
        (ofManifest settings manifest).DistinctEntries) ↔
      ¬ Clashes settings manifest := by
  cases hany : (Registry.ofManifest settings manifest).commands.any CommandDeclaration.isCommand with
  | false =>
    -- Without a command nothing is made, so nothing can clash.
    have hunits : (ofManifest settings manifest).units = [] := units_eq_nil hany
    have hmodules : walkAll (ofManifest settings manifest).modules = [] := by
      rw [modules, hunits, List.map_nil, walkAll]
    simp [Clashes, hany, DistinctArtifacts, DistinctChildren, DistinctEntries, Replayer.ofModules,
      hunits, hmodules]
  | true =>
    have h := delivered hno hany
    have hsettings : (Registry.ofManifest settings manifest).Valid := by
      rw [Registry.Valid, Registry.settings_ofManifest]
      exact hvalid
    have hclashes : ¬ Clashes settings manifest ↔
        ∀ a b, ¬ (Registry.ofManifest settings manifest).Clash a b := by
      simp [Clashes, hany]
    rw [hclashes, ← h.distinctPaths_iff]
    constructor
    · rintro ⟨hpaths, -⟩
      exact hpaths rfl
    · intro hpaths
      exact ⟨fun _ => hpaths, h.distinctArtifacts hsettings hpaths, h.distinctChildren hpaths,
        h.distinctEntries hpaths⟩

/-- Two commands of one package whose names differ in case only. -/
def foldedNames : Manifest where
  symbols :=
    .ofList
      [⟨⟨"demo"⟩, "demo", none, [], .package⟩,
        ⟨⟨"demo.Ab"⟩, "Ab", some ⟨"demo"⟩, [], .classType none none none⟩,
        ⟨⟨"demo.AB"⟩, "AB", some ⟨"demo"⟩, [], .classType none none none⟩]
  elements :=
    [{ CommandInput.bare ⟨"demo.Ab"⟩ with command := some ⟨"a", []⟩ },
      { CommandInput.bare ⟨"demo.AB"⟩ with command := some ⟨"b", []⟩ }]

/-- Both artifacts go to one file, and nothing is reported. -/
theorem not_distinctArtifacts_foldedNames :
    (ofManifest {} foldedNames).diagnostics = [] ∧
      (ofManifest {} foldedNames).units.map OutputUnit.relativePath =
        [⟨"demo/ab_cli_cfg.rs"⟩, ⟨"demo/ab_cli_cfg.rs"⟩] ∧
      ¬ (ofManifest {} foldedNames).DistinctArtifacts := by
  refine ⟨by decide +kernel, by decide +kernel, ?_⟩
  unfold DistinctArtifacts
  decide +kernel

/-- The names are a clash. -/
theorem clashes_foldedNames :
    Settings.validate {} = .ok {} ∧
      Diagnostics.hasErrors (ofManifest {} foldedNames).diagnostics = false ∧
      Clashes {} foldedNames := by
  have hno : Diagnostics.hasErrors (ofManifest {} foldedNames).diagnostics = false := by
    decide +kernel
  refine ⟨Naming.validate_default, hno, ?_⟩
  by_contra hfree
  have hartifacts :=
    ((distinct_iff_no_clash {} foldedNames Naming.validate_default hno).2 hfree).2.1
  revert hartifacts
  unfold DistinctArtifacts
  decide +kernel

end Compilation

end CommandFactory
