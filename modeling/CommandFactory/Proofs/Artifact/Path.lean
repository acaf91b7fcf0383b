import CommandFactory.Proofs.Artifact.Collision
import CommandFactory.Proofs.Module.Location

/-!
# Where artifacts go

The directories of an artifact are the parts of its package in snake case, and its file is named for
its class. Whatever text these names are in a manifest, the path leads from every directory further
down (`LeadsToSource`), and no artifact is a file where another one needs a directory (`Blocks`), since
no directory has the dot of an extension.
-/

set_option autoImplicit false

namespace CommandFactory

namespace FilePath

/-- The path leads through directories named in lower case down to a source file. -/
def LeadsToSource (path : FilePath) : Prop :=
  ∃ (directories : List String) (file : String),
    path.components = directories.map .name ++ [.name (file ++ ".rs")] ∧
    (∀ directory ∈ directories, Naming.IsSnakeWord directory) ∧ IsWord file

/-- The other path goes on from this one, which is then to be a directory. -/
def Blocks (path other : FilePath) : Prop :=
  ∃ rest, rest ≠ [] ∧ other.components = path.components ++ rest

namespace LeadsToSource

variable {path other : FilePath}

/-- Every component is a name of its own, neither that of the directory itself nor that of the one above,
and has no separator in it. -/
theorem isFileName (h : path.LeadsToSource) :
    ∀ part ∈ path.components, ∃ name, part = .name name ∧ IsFileName name := by
  obtain ⟨directories, file, hcomponents, hdirectories, hfile⟩ := h
  intro part hpart
  rw [hcomponents, List.mem_append, List.mem_map, List.mem_singleton] at hpart
  rcases hpart with ⟨directory, hmem, rfl⟩ | rfl
  · exact ⟨directory, rfl, (hdirectories _ hmem).isWord.isFileName⟩
  · exact ⟨file ++ ".rs", rfl, hfile.isFileName_extension⟩

theorem descends (h : path.LeadsToSource) : path.Descends := by
  intro part hpart
  obtain ⟨name, hname, -⟩ := h.isFileName part hpart
  exact ⟨name, hname⟩

/-- A file has a dot in its name, and no directory has. -/
theorem not_blocks (h : path.LeadsToSource) (hother : other.LeadsToSource) : ¬ path.Blocks other := by
  obtain ⟨above, name, hpath, -, -⟩ := h
  obtain ⟨directories, file, hcomponents, hdirectories, -⟩ := hother
  rintro ⟨rest, hrest, heq⟩
  rcases List.eq_nil_or_concat rest with rfl | ⟨between, last, rfl⟩
  · exact hrest rfl
  · -- The file of the first path is one of the directories of the other.
    rw [hcomponents, hpath, List.concat_eq_append, ← List.append_assoc] at heq
    have hmap := (List.append_inj' heq rfl).1
    have hmem : PathPart.name (name ++ ".rs") ∈ directories.map PathPart.name := by
      rw [hmap]
      simp
    obtain ⟨directory, hdirectory, hname⟩ := List.mem_map.1 hmem
    obtain rfl := PathPart.name.inj hname
    have hdot : '.' ∈ (name ++ ".rs").toList := by simp
    exact absurd ((hdirectories _ hdirectory).chars '.' hdot) (by decide)

end LeadsToSource

end FilePath

namespace Compilation

variable {settings : Settings} {manifest : Manifest}

/-- The components of the path of an artifact, with or without errors in the manifest. -/
theorem components_relativePath (hvalid : settings.validate = .ok settings) {unit : OutputUnit}
    (hunit : unit ∈ (ofManifest settings manifest).units) :
    unit.relativePath.components =
        (Naming.packageSegments unit.package).map .name ++ [.name (unit.module.name ++ ".rs")] ∧
      IsWord unit.module.name := by
  have hsettings : (Registry.ofManifest settings manifest).Valid := by
    rw [Registry.Valid, Registry.settings_ofManifest]
    exact hvalid
  have hgrown := grownFrom_of_mem_units hunit
  obtain ⟨declaration, -, -, -, hname, -⟩ :=
    hgrown.exists_declaration (GeneratedModule.self_mem_walk unit.module)
  have hpath := hgrown.path_eq .root
  rw [hname] at hpath ⊢
  exact ⟨Registry.components_relativePath hsettings hname hpath, Naming.isWord_moduleName hsettings _⟩

theorem leadsToSource (hvalid : settings.validate = .ok settings) {unit : OutputUnit}
    (hunit : unit ∈ (ofManifest settings manifest).units) : unit.relativePath.LeadsToSource := by
  obtain ⟨hcomponents, hname⟩ := components_relativePath hvalid hunit
  exact ⟨_, _, hcomponents, fun _ => Naming.isSnakeWord_packageSegments, hname⟩

/-- Under checked settings every artifact of every manifest goes below the directory it is emitted to,
through directories named in lower case to a source file, and none blocks another. -/
theorem artifacts_stay_below (settings : Settings) (manifest : Manifest)
    (hvalid : settings.validate = .ok settings) :
    (∀ unit ∈ (ofManifest settings manifest).units,
        unit.relativePath.LeadsToSource ∧ unit.relativePath.isAbsolute = false ∧
          (∀ part ∈ unit.relativePath.components, ∃ name, part = .name name ∧ IsFileName name) ∧
          ∀ root : FilePath, (root.join unit.relativePath).components =
            root.components ++ unit.relativePath.components) ∧
      ∀ a ∈ (ofManifest settings manifest).units, ∀ b ∈ (ofManifest settings manifest).units,
        ¬ a.relativePath.Blocks b.relativePath := by
  constructor
  · intro unit hunit
    have hleads := leadsToSource hvalid hunit
    exact ⟨hleads, hleads.descends.isAbsolute_eq, hleads.isFileName, fun root =>
      FilePath.components_join_of_descends root hleads.descends⟩
  · intro a ha b hb
    exact (leadsToSource hvalid ha).not_blocks (leadsToSource hvalid hb)

/-- Commands whose names and packages spell paths, a drive and nothing at all. -/
def pathNames : Manifest where
  symbols :=
    .ofList
      [⟨⟨"/etc/../C:\\.Über"⟩, "up", none, [], .package⟩,
        ⟨⟨"passwd"⟩, "/etc/passwd.rs", some ⟨"/etc/../C:\\.Über"⟩, [], .classType none none none⟩,
        ⟨⟨".."⟩, "..", none, [], .classType none none none⟩,
        ⟨⟨"..\\"⟩, "up", none, [], .package⟩,
        ⟨⟨""⟩, "", some ⟨"..\\"⟩, [], .classType none none none⟩]
  elements :=
    [{ CommandInput.bare ⟨"passwd"⟩ with command := some ⟨"passwd", []⟩ },
      { CommandInput.bare ⟨".."⟩ with command := some ⟨"up", []⟩ },
      { CommandInput.bare ⟨""⟩ with command := some ⟨"nothing", []⟩ }]

/-- Their artifacts stay below the directory all the same. -/
theorem artifacts_stay_below_pathNames :
    (ofManifest {} pathNames).units.map OutputUnit.relativePath =
        [⟨"_etc_/_c_/_ber/_etc_passwd_rs_cli_cfg.rs"⟩, ⟨"__cli_cfg.rs"⟩, ⟨"_/__cli_cfg.rs"⟩] ∧
      ∀ unit ∈ (ofManifest {} pathNames).units, unit.relativePath.LeadsToSource := by
  refine ⟨by decide +kernel, ?_⟩
  intro unit hunit
  exact ((artifacts_stay_below {} pathNames Naming.validate_default).1 unit hunit).1

end Compilation

end CommandFactory
