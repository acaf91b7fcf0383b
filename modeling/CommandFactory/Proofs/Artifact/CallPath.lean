import CommandFactory.Proofs.Artifact.Path
import CommandFactory.Proofs.Module.Rendering

/-!
# Printed paths and artifacts

A procedure is called by a path from the module root. Its first identifiers spell where the artifact of
the unit lies (`Renderer.PathsSpell`): each is the directory or the file of the same place, a keyword
with the raw mark. Only the four words that have no raw spelling differ. The directory of such a word
keeps it as it is, while the identifier has an underscore at its end, so it is also the identifier for a
directory that has this underscore itself (`SpelledAlike`).
-/

set_option autoImplicit false

namespace CommandFactory

open GeneratedModule Text

/-! ## Identifiers -/

namespace Text.Identifier

/-- The name of the identifier for a name. -/
def spelled (name : String) : String :=
  if pathKeywords.contains name then name ++ "_" else name

/-- The identifier for a name, if there is any. -/
def standingFor (name : String) : Identifier :=
  { name := spelled name, raw := keywords.contains (spelled name) }

theorem spelled_of_mem {name : String} (h : name ∈ pathKeywords) : spelled name = name ++ "_" :=
  if_pos (by simpa using h)

theorem spelled_of_not_mem {name : String} (h : name ∉ pathKeywords) : spelled name = name :=
  if_neg (by simpa using h)

theorem ofName?_eq {name : String} (h : Writable name) :
    ofName? name = some (standingFor name) := by
  have hlonger : ∀ name ∈ pathKeywords, keywords.contains (name ++ "_") = false := by decide
  unfold Writable at h
  unfold ofName? at h ⊢
  by_cases hpath : name ∈ pathKeywords
  · rw [standingFor, spelled_of_mem hpath, hlonger name hpath, if_pos (by simpa using hpath)]
  · rw [if_neg (by simpa using hpath)] at h ⊢
    rw [standingFor, spelled_of_not_mem hpath]
    cases hkeyword : keywords.contains name with
    | true => rfl
    | false =>
      cases hname : isIdentifier name with
      | true => rfl
      | false =>
        rw [hkeyword, hname] at h
        cases h

/-- An identifier has another name than the one it stands for only where that has no raw spelling. -/
theorem spelled_eq_self_iff {name : String} : spelled name = name ↔ name ∉ pathKeywords := by
  constructor
  · intro h hpath
    rw [spelled_of_mem hpath] at h
    have hlength := congrArg String.length h
    rw [String.length_append] at hlength
    exact absurd (Nat.add_eq_left.1 hlength) (by decide)
  · exact spelled_of_not_mem

/-- The names have one identifier: they are the same, or one is a word without a raw spelling, and the
other one is this word with an underscore at its end. -/
inductive SpelledAlike : String → String → Prop
  | same (name : String) : SpelledAlike name name
  | first {word : String} (h : word ∈ pathKeywords) : SpelledAlike word (word ++ "_")
  | second {word : String} (h : word ∈ pathKeywords) : SpelledAlike (word ++ "_") word

theorem spelled_eq_iff {a b : String} : spelled a = spelled b ↔ SpelledAlike a b := by
  have hlonger : ∀ name ∈ pathKeywords, name ++ "_" ∉ pathKeywords := by decide
  constructor
  · intro h
    by_cases ha : a ∈ pathKeywords
    · by_cases hb : b ∈ pathKeywords
      · rw [spelled_of_mem ha, spelled_of_mem hb, String.append_left_inj] at h
        exact h ▸ .same a
      · rw [spelled_of_mem ha, spelled_of_not_mem hb] at h
        exact h ▸ .first ha
    · by_cases hb : b ∈ pathKeywords
      · rw [spelled_of_not_mem ha, spelled_of_mem hb] at h
        exact h ▸ .second hb
      · rw [spelled_of_not_mem ha, spelled_of_not_mem hb] at h
        exact h ▸ .same a
  · intro h
    cases h with
    | same => rfl
    | first hword => rw [spelled_of_mem hword, spelled_of_not_mem (hlonger _ hword)]
    | second hword => rw [spelled_of_mem hword, spelled_of_not_mem (hlonger _ hword)]

theorem standingFor_inj {a b : String} :
    standingFor a = standingFor b ↔ SpelledAlike a b := by
  rw [← spelled_eq_iff]
  constructor
  · exact congrArg Identifier.name
  · intro h
    rw [standingFor, standingFor, h]

/-- The identifiers for names have these names exactly if none is a word without a raw spelling. -/
theorem map_name_eq_self_iff {names : List String} :
    (names.map standingFor).map Identifier.name = names ↔ ∀ name ∈ names, name ∉ pathKeywords := by
  induction names with
  | nil => simp
  | cons name rest ih =>
    rw [List.map_cons, List.map_cons, List.cons.injEq, ih, List.forall_mem_cons]
    exact and_congr_left fun _ => spelled_eq_self_iff

theorem map_standingFor_inj {names others : List String} :
    names.map standingFor = others.map standingFor ↔ List.Forall₂ SpelledAlike names others := by
  rw [← List.forall₂_eq_eq_eq, List.forall₂_map_left_iff, List.forall₂_map_right_iff]
  simp only [standingFor_inj]

end Text.Identifier

open Text.Identifier

/-! ## Printed paths -/

namespace Render

/-- The tokens of identifiers in a path, a separator before each. -/
def path (identifiers : List Text.Identifier) : List Token :=
  identifiers.flatMap fun identifier => Token.words "::" ++ [.identifier identifier]

theorem path_cons (identifier : Text.Identifier) (rest : List Text.Identifier) :
    path (identifier :: rest) = Token.words "::" ++ .identifier identifier :: path rest := by
  rw [path, List.flatMap_cons, List.append_assoc, List.singleton_append, path]

theorem path_append (front back : List Text.Identifier) :
    path (front ++ back) = path front ++ path back := List.flatMap_append

/-- A path gives its identifiers away. -/
theorem path_inj {a b : List Text.Identifier} : path a = path b ↔ a = b := by
  constructor
  · intro h
    induction a generalizing b with
    | nil =>
      cases b with
      | nil => rfl
      | cons other others =>
        rw [path_cons] at h
        exact absurd h.symm (by simp [path])
    | cons identifier rest ih =>
      cases b with
      | nil =>
        rw [path_cons] at h
        exact absurd h (by simp [path])
      | cons other others =>
        rw [path_cons, path_cons, List.append_cancel_left_eq, List.cons.injEq,
          Token.identifier.injEq] at h
        rw [h.1, ih h.2]
  · exact congrArg path

/-- The parts of a path have identifiers. -/
theorem each_segment {names : List String} (h : ∀ name ∈ names, Writable name) :
    each (fun name => do return Token.words "::" ++ [← identifier name]) names =
      .ok (path (names.map standingFor)) := by
  induction names with
  | nil => rfl
  | cons name rest ih =>
    rw [List.forall_mem_cons] at h
    rw [each, ih h.2, identifier, ofName?_eq h.1]
    simp only [bind, Except.bind, pure, Except.pure, List.map_cons, path_cons, List.append_assoc,
      List.singleton_append]

end Render

theorem Renderer.reference_eq (renderer : Renderer) {ref : ProcedureRef}
    (h : ∀ name ∈ ref.identifiers, Writable name) :
    renderer.reference ref = .ok (renderer.root ++
      Render.path (ref.module.segments.map standingFor) ++ Render.path [standingFor ref.name]) := by
  rw [ProcedureRef.identifiers, List.forall_mem_cons] at h
  rw [reference, Render.identifier, ofName?_eq h.1, Render.each_segment h.2]
  simp [Render.path, bind, Except.bind, pure, Except.pure]

/-! ## Locations -/

/-- The names are the components of the path, the last one without the extension of the file. -/
def FilePath.Locates (path : FilePath) (names : List String) : Prop :=
  ∃ (directories : List String) (file : String), names = directories ++ [file] ∧
    path.components = directories.map .name ++ [.name (file ++ ".rs")]

/-- Files are the same exactly if the names that locate them are. -/
theorem FilePath.Locates.same_iff {path other : FilePath} {names others : List String}
    (h : path.Locates names) (hother : other.Locates others) :
    path.same other = true ↔ names = others := by
  obtain ⟨directories, file, rfl, hcomponents⟩ := h
  obtain ⟨directories', file', rfl, hcomponents'⟩ := hother
  rw [same, beq_iff_eq, hcomponents, hcomponents', sourceParts_inj]
  constructor
  · rintro ⟨rfl, rfl⟩
    rfl
  · intro h
    obtain ⟨hdirectories, hfile⟩ := List.append_inj' h rfl
    exact ⟨hdirectories, by simpa using hfile⟩

/-- The directories of the package, and the file that is named for the module. -/
def OutputUnit.location (unit : OutputUnit) : List String :=
  Naming.packageSegments unit.package ++ [unit.module.name]

/-- The place of a module in a tree lies below that of the first one. -/
theorem OutputUnit.Puts.exists_nested {unit : OutputUnit} {module : GeneratedModule}
    {path : ModulePath} (h : unit.Puts module path) :
    ∃ nested, path.segments = unit.location ++ nested := by
  induction h with
  | root => exact ⟨[], (List.append_nil _).symm⟩
  | @child module child path above inside ih =>
    obtain ⟨nested, hnested⟩ := ih
    refine ⟨nested ++ [child.name], ?_⟩
    rw [ModulePath.child, hnested, List.append_assoc]

/-- The path to each procedure of the unit is printed with the location of the artifact first, then the
modules in it and the name of the procedure. -/
structure Renderer.PathsSpell (renderer : Renderer) (unit : OutputUnit) : Prop where
  located : unit.relativePath.Locates unit.location
  printed : ∀ module ∈ unit.module.walk, ∀ procedure ∈ module.procedures, ∃ nested : List String,
    module.path.segments = unit.location ++ nested ∧
      renderer.reference ⟨module.path, procedure.name⟩ =
        .ok (renderer.root ++ Render.path (unit.location.map standingFor) ++
          Render.path ((nested ++ [procedure.name]).map standingFor))

namespace Compilation

variable {settings : Settings} {manifest : Manifest}

/-- Identifiers stand for all names in the path to a procedure. -/
theorem writable_of_mem_walk (hvalid : settings.validate = .ok settings) {unit : OutputUnit}
    (hunit : unit ∈ (ofManifest settings manifest).units) {module : GeneratedModule}
    (hmodule : module ∈ unit.module.walk) {procedure : Procedure}
    (hprocedure : procedure ∈ module.procedures) :
    ∀ name ∈ ProcedureRef.identifiers ⟨module.path, procedure.name⟩, Writable name := by
  have hwalk : module ∈ walkAll (ofManifest settings manifest).modules := by
    rw [walkAll_eq_flatMap]
    exact List.mem_flatMap.2 ⟨unit.module, List.mem_map_of_mem hunit, hmodule⟩
  obtain ⟨d, hd, kind, -, href, -⟩ :=
    kept_of_mem_procedures (mem_procedures_of_mem_walkAll hwalk hprocedure)
  rw [href]
  intro name hname
  refine Registry.writable_of_mem_reference ?_ (Registry.mem_kept.1 hd).1 kind hname
  rw [Registry.settings_ofManifest]
  exact hvalid

theorem pathsSpell (hvalid : settings.validate = .ok settings) (renderer : Renderer)
    {unit : OutputUnit} (hunit : unit ∈ (ofManifest settings manifest).units) :
    renderer.PathsSpell unit where
  located := ⟨_, _, rfl, (components_relativePath hvalid hunit).1⟩
  printed := by
    intro module hmodule procedure hprocedure
    obtain ⟨place, hputs⟩ := OutputUnit.Puts.root.exists_of_mem_walk module hmodule
    obtain ⟨nested, hnested⟩ := hputs.exists_nested
    rw [← (grownFrom_of_mem_units hunit).path_eq hputs] at hnested
    refine ⟨nested, hnested, ?_⟩
    rw [renderer.reference_eq (writable_of_mem_walk hvalid hunit hmodule hprocedure), hnested]
    simp only [List.map_append, Render.path_append, List.map_cons, List.map_nil, List.append_assoc]

/-- Under checked settings every path to a procedure of a unit starts with identifiers for the location
of the artifact. Their names are those of the location exactly if none of these is a word without a raw
spelling. Two locations have one printed path exactly if their parts are spelled alike, so different
files have different paths where there is no such word in them. -/
theorem paths_spell_locations (settings : Settings) (manifest : Manifest)
    (hvalid : settings.validate = .ok settings) (renderer : Renderer) :
    (∀ unit ∈ (ofManifest settings manifest).units,
        renderer.PathsSpell unit ∧
          ((unit.location.map standingFor).map Identifier.name = unit.location ↔
            ∀ name ∈ unit.location, name ∉ pathKeywords)) ∧
      ∀ a ∈ (ofManifest settings manifest).units, ∀ b ∈ (ofManifest settings manifest).units,
        (Render.path (a.location.map standingFor) = Render.path (b.location.map standingFor) ↔
            List.Forall₂ SpelledAlike a.location b.location) ∧
          ((∀ name ∈ a.location ++ b.location, name ∉ pathKeywords) →
            (Render.path (a.location.map standingFor) = Render.path (b.location.map standingFor) ↔
              a.relativePath.same b.relativePath = true)) := by
  constructor
  · intro unit hunit
    exact ⟨pathsSpell hvalid renderer hunit, map_name_eq_self_iff⟩
  · intro a ha b hb
    rw [Render.path_inj]
    refine ⟨map_standingFor_inj, ?_⟩
    intro hplain
    rw [List.forall_mem_append] at hplain
    rw [(pathsSpell hvalid renderer ha).located.same_iff (pathsSpell hvalid renderer hb).located]
    constructor
    · intro h
      rw [← map_name_eq_self_iff.2 hplain.1, ← map_name_eq_self_iff.2 hplain.2, h]
    · exact congrArg _

/-- Two packages, the one with the name that the identifier for the name of the other has. -/
def pathKeywordPackages : Manifest where
  symbols :=
    .ofList
      [⟨⟨"super"⟩, "super", none, [], .package⟩,
        ⟨⟨"super.Tool"⟩, "Tool", some ⟨"super"⟩, [], .classType none (some "crate::Tool") none⟩,
        ⟨⟨"super_"⟩, "super_", none, [], .package⟩,
        ⟨⟨"super_.Tool"⟩, "Tool", some ⟨"super_"⟩, [], .classType none (some "crate::Tool") none⟩]
  elements :=
    [{ CommandInput.bare ⟨"super.Tool"⟩ with command := some ⟨"a", []⟩ },
      { CommandInput.bare ⟨"super_.Tool"⟩ with command := some ⟨"b", []⟩ }]

/-- Nothing is reported, and the factories of both packages are called by one path, which is not that of
the first artifact. -/
theorem same_path_pathKeywordPackages :
    (ofManifest {} pathKeywordPackages).diagnostics = [] ∧
      (ofManifest {} pathKeywordPackages).units.map OutputUnit.relativePath =
        [⟨"super/tool_cli_cfg.rs"⟩, ⟨"super_/tool_cli_cfg.rs"⟩] ∧
      (ofManifest {} pathKeywordPackages).units.map
          (fun unit => unit.module.procedures.head?.map fun procedure =>
            (⟨unit.module.path, procedure.name⟩ : ProcedureRef)) =
        [some ⟨⟨["super", "tool_cli_cfg"]⟩, "create_cmd_spec"⟩,
          some ⟨⟨["super_", "tool_cli_cfg"]⟩, "create_cmd_spec"⟩] ∧
      ∃ renderer, Renderer.ofSettings {} = .ok renderer ∧
        renderer.reference ⟨⟨["super", "tool_cli_cfg"]⟩, "create_cmd_spec"⟩ =
          .ok (renderer.root ++ Render.path [⟨"super_", false⟩, ⟨"tool_cli_cfg", false⟩] ++
            Render.path [⟨"create_cmd_spec", false⟩]) ∧
        renderer.reference ⟨⟨["super_", "tool_cli_cfg"]⟩, "create_cmd_spec"⟩ =
          .ok (renderer.root ++ Render.path [⟨"super_", false⟩, ⟨"tool_cli_cfg", false⟩] ++
            Render.path [⟨"create_cmd_spec", false⟩]) := by
  obtain ⟨renderer, hrenderer⟩ := Renderer.exists_ofSettings Naming.validate_default
  refine ⟨by decide +kernel, by decide +kernel, by decide +kernel, renderer, hrenderer, ?_, ?_⟩
  · have hwritable : ∀ name ∈ ProcedureRef.identifiers
        ⟨⟨["super", "tool_cli_cfg"]⟩, "create_cmd_spec"⟩, Writable name := by decide +kernel
    have hparts : ["super", "tool_cli_cfg"].map standingFor =
        [⟨"super_", false⟩, ⟨"tool_cli_cfg", false⟩] := by decide +kernel
    have hname : standingFor "create_cmd_spec" = ⟨"create_cmd_spec", false⟩ := by decide +kernel
    rw [renderer.reference_eq hwritable, hparts, hname]
  · have hwritable : ∀ name ∈ ProcedureRef.identifiers
        ⟨⟨["super_", "tool_cli_cfg"]⟩, "create_cmd_spec"⟩, Writable name := by decide +kernel
    have hparts : ["super_", "tool_cli_cfg"].map standingFor =
        [⟨"super_", false⟩, ⟨"tool_cli_cfg", false⟩] := by decide +kernel
    have hname : standingFor "create_cmd_spec" = ⟨"create_cmd_spec", false⟩ := by decide +kernel
    rw [renderer.reference_eq hwritable, hparts, hname]

/-- Every path to a procedure of the two still starts with the identifiers for the location, and these are
others than the parts of the location for the first one. -/
theorem pathsSpell_pathKeywordPackages :
    ∃ renderer, Renderer.ofSettings {} = .ok renderer ∧
      ∀ unit ∈ (ofManifest {} pathKeywordPackages).units, renderer.PathsSpell unit ∧
        ((unit.location.map standingFor).map Identifier.name = unit.location ↔
          unit.location ≠ ["super", "tool_cli_cfg"]) := by
  obtain ⟨renderer, hrenderer⟩ := Renderer.exists_ofSettings Naming.validate_default
  have hlocations : ∀ unit ∈ (ofManifest {} pathKeywordPackages).units,
      unit.location = ["super", "tool_cli_cfg"] ∨ unit.location = ["super_", "tool_cli_cfg"] := by
    decide +kernel
  refine ⟨renderer, hrenderer, ?_⟩
  intro unit hunit
  obtain ⟨hspell, hnames⟩ :=
    (paths_spell_locations {} pathKeywordPackages Naming.validate_default renderer).1 unit hunit
  refine ⟨hspell, hnames.trans ?_⟩
  rcases hlocations unit hunit with hlocation | hlocation <;> rw [hlocation] <;> decide

end Compilation

end CommandFactory
