import CommandFactory.CommandLine.Execution
import CommandFactory.Proofs.FileTree.Walk
import Mathlib.Data.List.Induction

/-!
# The search for settings

Without a named file, settings come from the nearest directory above the manifest that has some,
unless a limit is passed on the way. A search goes up by taking names off the text of a path. For the
path of a manifest from the root it goes through all directories above the manifest; for a path from
the working directory it ends there, and it spells the directories on the way differently, so other
limits stop it.

`FileTree.spellings_agree_iff` says what either search finds, and when both find the same.
-/

set_option autoImplicit false

namespace CommandFactory

/-! ## Going up -/

section

variable {P stops : List String → Prop} {names q : List String} {name : String}

/-- Of the directories from a place up, the first that has something. -/
structure NearestAbove (P : List String → Prop) (names q : List String) : Prop where
  above : q <+: names
  holds : P q
  first : ∀ p, q <+: p → p <+: names → P p → p = q

/-- Nothing stops on the way from a place up to another. -/
def FreeAbove (stops : List String → Prop) (names q : List String) : Prop :=
  ∀ p, q <+: p → p <+: names → stops p → p = q

/-- What is nearest is what others of its kind do not stop the way to. -/
theorem nearestAbove_iff : NearestAbove P names q ↔ q <+: names ∧ P q ∧ FreeAbove P names q :=
  ⟨fun h => ⟨h.above, h.holds, h.first⟩, fun ⟨habove, hq, hfirst⟩ => ⟨habove, hq, hfirst⟩⟩

theorem freeAbove_self (stops : List String → Prop) (names : List String) :
    FreeAbove stops names names :=
  fun _ hbelow habove _ => habove.eq_of_length_le hbelow.length_le

theorem nearestAbove_of_holds (h : P names) : NearestAbove P names q ↔ q = names := by
  constructor
  · exact fun hnearest => (hnearest.first names hnearest.above List.prefix_rfl h).symm
  · rintro rfl
    exact nearestAbove_iff.2 ⟨List.prefix_rfl, h, freeAbove_self P q⟩

theorem NearestAbove.not_freeAbove (h : NearestAbove P names q) (hnames : ¬ P names)
    (hstops : stops names) : ¬ FreeAbove stops names q := by
  intro hfree
  have heq := hfree names h.above List.prefix_rfl hstops
  exact hnames (heq ▸ h.holds)

theorem freeAbove_concat (h : ¬ stops (names ++ [name])) :
    FreeAbove stops (names ++ [name]) q ↔ FreeAbove stops names q := by
  constructor
  · exact fun hfree p hbelow hp => hfree p hbelow (hp.trans (List.prefix_append ..))
  · intro hfree p hbelow hp hstops
    rcases List.prefix_concat_iff.1 hp with rfl | hp
    · exact absurd hstops h
    · exact hfree p hbelow hp hstops

theorem nearestAbove_concat (h : ¬ P (names ++ [name])) :
    NearestAbove P (names ++ [name]) q ↔ NearestAbove P names q := by
  rw [nearestAbove_iff, nearestAbove_iff, freeAbove_concat h]
  constructor
  · rintro ⟨habove, hq, hfirst⟩
    have hne : q ≠ names ++ [name] := by
      rintro rfl
      exact h hq
    exact ⟨(List.prefix_concat_iff.1 habove).resolve_left hne, hq, hfirst⟩
  · rintro ⟨habove, hrest⟩
    exact ⟨habove.trans (List.prefix_append ..), hrest⟩

/-- Below a place, what stops on the way up stops along the names from there. -/
theorem freeAbove_append {place : List String} :
    FreeAbove stops (place ++ names) (place ++ q) ↔
      FreeAbove (fun p => stops (place ++ p)) names q := by
  constructor
  · intro hfree p hbelow hp hstops
    have heq := hfree (place ++ p) ((List.prefix_append_right_inj place).2 hbelow)
      ((List.prefix_append_right_inj place).2 hp) hstops
    exact List.append_cancel_left heq
  · intro hfree p hbelow hp hstops
    obtain ⟨rest, rfl⟩ := (List.prefix_append place q).trans hbelow
    rw [hfree rest ((List.prefix_append_right_inj place).1 hbelow)
      ((List.prefix_append_right_inj place).1 hp) hstops]

/-- Below a place, the way up is that along the names from there. -/
theorem nearestAbove_append {place : List String} :
    NearestAbove P (place ++ names) (place ++ q) ↔
      NearestAbove (fun p => P (place ++ p)) names q := by
  rw [nearestAbove_iff, nearestAbove_iff, freeAbove_append, List.prefix_append_right_inj]

end

/-! ## One search -/

/-- A limit has the components. -/
def Settings.SearchLimits.Stops (limits : SearchLimits) (parts : List PathPart) : Prop :=
  ∃ limit, (limits.projectRoot = some limit ∨ limits.home = some limit) ∧ limit.components = parts

theorem Settings.SearchLimits.stopsAt_iff {limits : SearchLimits} {directory : FilePath} :
    limits.stopsAt directory = true ↔ limits.Stops directory.components := by
  obtain ⟨projectRoot, home⟩ := limits
  unfold stopsAt Stops FilePath.same
  simp only [Bool.or_eq_true, Option.any_eq_true, beq_iff_eq]
  constructor
  · rintro (⟨limit, hlimit, heq⟩ | ⟨limit, hlimit, heq⟩)
    · exact ⟨limit, Or.inl hlimit, heq.symm⟩
    · exact ⟨limit, Or.inr hlimit, heq.symm⟩
  · rintro ⟨limit, hlimit | hlimit, heq⟩
    · exact Or.inl ⟨limit, hlimit, heq.symm⟩
    · exact Or.inr ⟨limit, hlimit, heq.symm⟩

theorem isFileName_settings : IsFileName Settings.fileName.text := by
  constructor <;> decide

namespace FileTree

open FilePath

variable {tree : FileTree} {limits : Settings.SearchLimits} {fromRoot : Bool}
  {names found : List String}

/-- There are settings in the directory of a place. -/
def HasSettings (tree : FileTree) (place : List String) : Prop :=
  (tree.node? (place ++ [Settings.fileName.text])).isSome = true

/-- The nearest file from a directory upwards. -/
def nearest? (tree : FileTree) (limits : Settings.SearchLimits) (levels : Nat)
    (directory : FilePath) : Option FilePath :=
  ((Settings.nearestFrom access limits levels directory).run tree).1

theorem nearest?_succ (levels : Nat) (directory : FilePath) :
    tree.nearest? limits (levels + 1) directory =
      if (tree.kind? (directory.join Settings.fileName)).isSome then
        some (directory.join Settings.fileName)
      else if limits.stopsAt directory then none
      else directory.parent?.bind (tree.nearest? limits levels) := by
  rw [nearest?, Settings.nearestFrom]
  change (StateT.run (if (tree.kind? (directory.join Settings.fileName)).isSome = true then _
    else if limits.stopsAt directory = true then _ else _ : StateM FileTree _) tree).1 = _
  by_cases hkind : (tree.kind? (directory.join Settings.fileName)).isSome = true
  · rw [if_pos hkind, if_pos hkind]
    rfl
  · by_cases hstops : limits.stopsAt directory = true
    · rw [if_neg hkind, if_neg hkind, if_pos hstops, if_pos hstops]
      rfl
    · rw [if_neg hkind, if_neg hkind, if_neg hstops, if_neg hstops]
      cases directory.parent? <;> rfl

/-- The file that a search looks for in a directory lies at the place of the directory. -/
theorem place?_settings {directory : FilePath} (habsolute : directory.isAbsolute = fromRoot)
    (hparts : laterParts (splitSlashes directory.text.toList) = names.map .name)
    (hnull : '\x00' ∉ directory.text.toList) (hopens : tree.Opens (tree.origin fromRoot) names) :
    tree.place? (directory.join Settings.fileName) =
        some (tree.origin fromRoot ++ names ++ [Settings.fileName.text]) ∧
      ((tree.kind? (directory.join Settings.fileName)).isSome = true ↔
        tree.HasSettings (tree.origin fromRoot ++ names)) := by
  rw [← habsolute] at hopens ⊢
  have hplace : tree.place? (directory.join Settings.fileName) =
      some (tree.origin directory.isAbsolute ++ names ++ [Settings.fileName.text]) :=
    place?_join isFileName_settings (by decide) (by decide) hnull hparts hopens
  refine ⟨hplace, ?_⟩
  rw [kind?_eq, hplace, Option.bind_some, Option.isSome_map]
  exact Iff.rfl

/-- A search along names finds the settings of the nearest directory that has some, if no limit stops
it before. -/
def Finds (tree : FileTree) (limits : Settings.SearchLimits) (fromRoot : Bool)
    (names found : List String) : Prop :=
  ∃ q, NearestAbove (fun p => tree.HasSettings (tree.origin fromRoot ++ p)) names q ∧
    FreeAbove (fun p => limits.Stops (trail fromRoot p)) names q ∧
    found = tree.origin fromRoot ++ q ++ [Settings.fileName.text]

theorem finds_of_hasSettings (h : tree.HasSettings (tree.origin fromRoot ++ names)) :
    tree.Finds limits fromRoot names found ↔
      found = tree.origin fromRoot ++ names ++ [Settings.fileName.text] := by
  have hnearest : ∀ q,
      NearestAbove (fun p => tree.HasSettings (tree.origin fromRoot ++ p)) names q ↔ q = names :=
    fun q => nearestAbove_of_holds (P := fun p => tree.HasSettings (tree.origin fromRoot ++ p)) h
  constructor
  · rintro ⟨q, hq, -, rfl⟩
    rw [(hnearest q).1 hq]
  · rintro rfl
    exact ⟨names, (hnearest names).2 rfl, freeAbove_self _ names, rfl⟩

theorem not_finds_nil (h : ¬ tree.HasSettings (tree.origin fromRoot ++ [])) :
    ¬ tree.Finds limits fromRoot [] found := by
  rintro ⟨q, hnearest, -⟩
  obtain rfl := List.prefix_nil.1 hnearest.above
  exact h hnearest.holds

theorem not_finds_of_stops (h : ¬ tree.HasSettings (tree.origin fromRoot ++ names))
    (hstops : limits.Stops (trail fromRoot names)) : ¬ tree.Finds limits fromRoot names found := by
  rintro ⟨q, hnearest, hfree, -⟩
  exact hnearest.not_freeAbove h hstops hfree

theorem finds_concat {name : String}
    (h : ¬ tree.HasSettings (tree.origin fromRoot ++ (names ++ [name])))
    (hstops : ¬ limits.Stops (trail fromRoot (names ++ [name]))) :
    tree.Finds limits fromRoot (names ++ [name]) found ↔ tree.Finds limits fromRoot names found := by
  refine exists_congr fun q => ?_
  rw [nearestAbove_concat h, freeAbove_concat hstops]

/-- What a search finds from a directory upwards, by the names that lead to the directory. -/
theorem nearest?_eq_some_iff {directory : FilePath} {levels : Nat}
    (hcomponents : directory.components = trail fromRoot names)
    (hnull : '\x00' ∉ directory.text.toList) (hopens : tree.Opens (tree.origin fromRoot) names)
    (hlevels : names.length < levels) :
    (tree.nearest? limits levels directory).bind tree.place? = some found ↔
      tree.Finds limits fromRoot names found := by
  induction names using List.reverseRecOn generalizing directory levels with
  | nil =>
    obtain ⟨habsolute, hparts, -⟩ := components_eq_trail_iff.1 hcomponents
    obtain ⟨hplace, hkind⟩ := place?_settings habsolute hparts hnull hopens
    obtain ⟨levels, rfl⟩ := Nat.exists_eq_succ_of_ne_zero (Nat.ne_of_gt hlevels)
    rw [nearest?_succ, parent?_trail_nil hcomponents, Option.bind_none, ite_self]
    by_cases hhas : tree.HasSettings (tree.origin fromRoot ++ [])
    · rw [if_pos (hkind.2 hhas), Option.bind_some, hplace, finds_of_hasSettings hhas,
        Option.some.injEq, eq_comm]
    · rw [if_neg (mt hkind.1 hhas)]
      simp only [Option.bind_none, reduceCtorEq, false_iff]
      exact not_finds_nil hhas
  | append_singleton init last ih =>
    obtain ⟨habsolute, hparts, -⟩ := components_eq_trail_iff.1 hcomponents
    obtain ⟨hplace, hkind⟩ := place?_settings habsolute hparts hnull hopens
    obtain ⟨levels, rfl⟩ := Nat.exists_eq_succ_of_ne_zero (Nat.ne_of_gt (Nat.zero_lt_of_lt hlevels))
    obtain ⟨above, habove, haboveComponents, hchars⟩ := parent?_trail hcomponents
    rw [nearest?_succ, habove, Option.bind_some]
    by_cases hhas : tree.HasSettings (tree.origin fromRoot ++ (init ++ [last]))
    · rw [if_pos (hkind.2 hhas), Option.bind_some, hplace, finds_of_hasSettings hhas,
        Option.some.injEq, eq_comm]
    · rw [if_neg (mt hkind.1 hhas)]
      have hstopsAt : limits.stopsAt directory = true ↔
          limits.Stops (trail fromRoot (init ++ [last])) := by
        rw [Settings.SearchLimits.stopsAt_iff, hcomponents]
      by_cases hstops : limits.Stops (trail fromRoot (init ++ [last]))
      · rw [if_pos (hstopsAt.2 hstops)]
        simp only [Option.bind_none, reduceCtorEq, false_iff]
        exact not_finds_of_stops hhas hstops
      · -- The search goes on in the directory above.
        rw [if_neg (mt hstopsAt.1 hstops), finds_concat hhas hstops]
        refine ih haboveComponents (fun hmem => hnull (hchars _ hmem (by decide))) ?_ ?_
        · exact ⟨fun p hp => hopens.directories p (hp.trans (List.prefix_append ..)),
            fun name hname => hopens.short name (List.mem_append_left _ hname)⟩
        · rw [List.length_append, List.length_singleton] at hlevels
          omega

/-- A search from the working directory itself looks in no other. -/
theorem nearest?_here (hopens : tree.Opens tree.current []) :
    (tree.nearest? limits 3 ⟨"."⟩).bind tree.place? = some found ↔
      tree.Finds limits false [] found := by
  have habsolute : (⟨"."⟩ : FilePath).isAbsolute = false := by decide
  obtain ⟨hplace, hkind⟩ := @place?_settings tree false [] ⟨"."⟩ habsolute rfl (by decide) hopens
  have hparent : (⟨"."⟩ : FilePath).parent? = some ⟨""⟩ := by decide
  rw [nearest?_succ, hparent, Option.bind_some]
  by_cases hhas : tree.HasSettings (tree.origin false ++ [])
  · rw [if_pos (hkind.2 hhas), Option.bind_some, hplace, finds_of_hasSettings hhas,
      Option.some.injEq, eq_comm]
  · rw [if_neg (mt hkind.1 hhas)]
    by_cases hstops : limits.stopsAt ⟨"."⟩ = true
    · simp only [hstops, if_true, Option.bind_none, reduceCtorEq, false_iff]
      exact not_finds_nil hhas
    · -- Above is the working directory once more, under the empty path.
      rw [if_neg hstops]
      exact nearest?_eq_some_iff rfl (by decide) hopens (by decide)

/-! ## Searches for the settings of a manifest -/

/-- The place of the settings that are found for a manifest without a named file. -/
def settingsFor? (tree : FileTree) (limits : Settings.SearchLimits) (manifest : FilePath) :
    Option (List String) :=
  ((Settings.nearestFile? access limits (CommandLine.searchStart manifest)).run tree).1.bind
    tree.place?

theorem run_nearestFile? {start : FilePath} (h : tree.kind? start = some .directory) :
    ((Settings.nearestFile? access limits start).run tree).1 =
      tree.nearest? limits (start.components.length + 2) start := by
  rw [Settings.nearestFile?]
  change (StateT.run (if tree.kind? start = some .file then _ else _ : StateM FileTree _) tree).1 = _
  rw [if_neg (by simp [h])]
  rfl

theorem settingsFor?_eq_some_iff {manifest : FilePath} {file : String}
    (hcomponents : manifest.components = trail fromRoot (names ++ [file]))
    (hfile : tree.kind? manifest = some .file) :
    tree.settingsFor? limits manifest = some found ↔ tree.Finds limits fromRoot names found := by
  obtain ⟨habsolute, hparts, -⟩ := components_eq_trail_iff.1 hcomponents
  obtain ⟨hnull, hopens⟩ : '\x00' ∉ manifest.text.toList ∧
      tree.Opens (tree.origin fromRoot) names := by
    rw [kind?_eq] at hfile
    obtain ⟨place, hplace, -⟩ := Option.bind_eq_some_iff.1 hfile
    rw [← habsolute]
    exact opens_of_place? hparts hplace
  obtain ⟨above, habove, haboveComponents, hchars⟩ := parent?_trail hcomponents
  have haboveNull : '\x00' ∉ above.text.toList := fun hmem => hnull (hchars _ hmem (by decide))
  unfold settingsFor? CommandLine.searchStart
  rw [habove]
  by_cases hempty : above.text = ""
  · -- Only the working directory itself has the empty path.
    obtain rfl : above = ⟨""⟩ := congrArg FilePath.mk hempty
    obtain ⟨rfl, rfl⟩ : fromRoot = false ∧ names = [] := by
      have hnone : trail fromRoot names = [] := haboveComponents.symm
      cases fromRoot with
      | true => cases hnone
      | false => exact ⟨rfl, by simpa [trail] using hnone⟩
    have hkind : tree.kind? ⟨"."⟩ = some .directory := by
      have hplace : tree.place? ⟨"."⟩ = some (tree.current ++ []) :=
        place?_eq (by decide) (by decide) rfl hopens
      rw [kind?_eq, hplace, Option.bind_some]
      exact congrArg (Option.map FileNode.kind) (hopens.directories [] List.prefix_rfl)
    change ((Settings.nearestFile? access limits ⟨"."⟩).run tree).1.bind _ = _ ↔ _
    rw [run_nearestFile? hkind]
    exact nearest?_here hopens
  · simp only [String.isEmpty_iff, hempty, if_false]
    obtain ⟨haboveAbsolute, haboveParts, -⟩ := components_eq_trail_iff.1 haboveComponents
    have hkind : tree.kind? above = some .directory := by
      rw [← haboveAbsolute] at hopens
      rw [kind?_eq, place?_eq hempty haboveNull haboveParts hopens, Option.bind_some,
        hopens.directories names List.prefix_rfl]
      rfl
    rw [run_nearestFile? hkind]
    refine nearest?_eq_some_iff haboveComponents haboveNull hopens ?_
    rw [haboveComponents, trail, List.length_append, List.length_map]
    omega

/-! ## Both spellings -/

/-- A limit is the directory of a place, in the spelling of a search. -/
def StopsAt (tree : FileTree) (limits : Settings.SearchLimits) (fromRoot : Bool)
    (place : List String) : Prop :=
  ∃ names, place = tree.origin fromRoot ++ names ∧ limits.Stops (trail fromRoot names)

/-- A search from a place goes up to another: it lies below where the paths of the search start, and
no limit comes before. -/
structure Reaches (tree : FileTree) (limits : Settings.SearchLimits) (fromRoot : Bool)
    (place q : List String) : Prop where
  within : tree.origin fromRoot <+: q
  free : FreeAbove (tree.StopsAt limits fromRoot) place q

/-- What is found, by the places of the directories. -/
theorem finds_iff :
    tree.Finds limits fromRoot names found ↔
      ∃ q, NearestAbove tree.HasSettings (tree.origin fromRoot ++ names) q ∧
        tree.Reaches limits fromRoot (tree.origin fromRoot ++ names) q ∧
        found = q ++ [Settings.fileName.text] := by
  have hstops : (fun p => tree.StopsAt limits fromRoot (tree.origin fromRoot ++ p)) =
      fun p => limits.Stops (trail fromRoot p) := by
    funext p
    refine propext ⟨?_, fun h => ⟨p, rfl, h⟩⟩
    rintro ⟨names, heq, h⟩
    rwa [List.append_cancel_left heq]
  constructor
  · rintro ⟨q, hnearest, hfree, rfl⟩
    refine ⟨_, nearestAbove_append.2 hnearest, ⟨List.prefix_append .., ?_⟩, rfl⟩
    rw [freeAbove_append, hstops]
    exact hfree
  · rintro ⟨_, hnearest, ⟨⟨q, rfl⟩, hfree⟩, rfl⟩
    rw [freeAbove_append, hstops] at hfree
    exact ⟨q, nearestAbove_append.1 hnearest, hfree, rfl⟩

/-- Where two searches find the same, the second reaches a directory that the first does. -/
theorem reaches_of_found {settings : Option (List String)} {P first second : List String → Prop}
    {q : List String}
    (hfirst : ∀ found, settings = some found ↔
      ∃ q, P q ∧ first q ∧ found = q ++ [Settings.fileName.text])
    (hsecond : ∀ found, settings = some found ↔
      ∃ q, P q ∧ second q ∧ found = q ++ [Settings.fileName.text])
    (hq : P q) (hreaches : first q) : second q := by
  have hfound := (hfirst _).2 ⟨q, hq, hreaches, rfl⟩
  obtain ⟨other, -, hother, hplace⟩ := (hsecond _).1 hfound
  rwa [List.append_cancel_right hplace]

/-- A manifest has two paths, one of names from the working directory and one from the root, however
spelled. By either, the settings in the nearest directory that has some are found, if the search goes
up so far: by the path from the working directory it never leaves that directory, and each path is
stopped by the limits that are spelled like it. Both find the same exactly if both reach that
directory or neither does. -/
theorem spellings_agree_iff {path absolute : FilePath} {dirs : List String} {file : String}
    (hpath : path.components = (dirs ++ [file]).map .name)
    (habsolute : absolute.components = .root :: (tree.current ++ dirs ++ [file]).map .name)
    (hfile : tree.kind? path = some .file) (hsame : tree.kind? absolute = some .file) :
    (∀ found, tree.settingsFor? limits path = some found ↔
        ∃ q, NearestAbove tree.HasSettings (tree.current ++ dirs) q ∧
          tree.Reaches limits false (tree.current ++ dirs) q ∧
          found = q ++ [Settings.fileName.text]) ∧
      (∀ found, tree.settingsFor? limits absolute = some found ↔
        ∃ q, NearestAbove tree.HasSettings (tree.current ++ dirs) q ∧
          tree.Reaches limits true (tree.current ++ dirs) q ∧
          found = q ++ [Settings.fileName.text]) ∧
      (tree.settingsFor? limits path = tree.settingsFor? limits absolute ↔
        ∀ q, NearestAbove tree.HasSettings (tree.current ++ dirs) q →
          (tree.Reaches limits false (tree.current ++ dirs) q ↔
            tree.Reaches limits true (tree.current ++ dirs) q)) := by
  have hrelative : ∀ found, tree.settingsFor? limits path = some found ↔
      ∃ q, NearestAbove tree.HasSettings (tree.current ++ dirs) q ∧
        tree.Reaches limits false (tree.current ++ dirs) q ∧
        found = q ++ [Settings.fileName.text] := fun found =>
    (settingsFor?_eq_some_iff hpath hfile : _ ↔ tree.Finds limits false dirs found).trans finds_iff
  have hrooted : ∀ found, tree.settingsFor? limits absolute = some found ↔
      ∃ q, NearestAbove tree.HasSettings (tree.current ++ dirs) q ∧
        tree.Reaches limits true (tree.current ++ dirs) q ∧
        found = q ++ [Settings.fileName.text] := fun found =>
    (settingsFor?_eq_some_iff habsolute hsame :
      _ ↔ tree.Finds limits true (tree.current ++ dirs) found).trans finds_iff
  refine ⟨hrelative, hrooted, fun heq q hnearest => ⟨?_, ?_⟩, fun hreach => ?_⟩
  · exact reaches_of_found (heq ▸ hrelative) hrooted hnearest
  · exact reaches_of_found hrooted (heq ▸ hrelative) hnearest
  · refine Option.ext fun found => ?_
    rw [hrelative, hrooted]
    exact exists_congr fun q => and_congr_right fun hnearest => and_congr_left' (hreach q hnearest)

/-- A manifest in a directory of the working directory, and settings in a directory. -/
def workTree (settings : List String) : FileTree where
  entries :=
    .ofList
      [⟨["base"], .directory⟩, ⟨["base", "work"], .directory⟩, ⟨["base", "work", "sub"], .directory⟩,
        ⟨["base", "work", "sub", "m.json"], .file "{}"⟩, ⟨settings ++ [".specgen.json"], .file "{}"⟩]
  current := ["base", "work"]

/-- Settings above the working directory are out of reach for the path from there. -/
theorem reaches_workTree :
    let tree := workTree ["base"]
    let limits : Settings.SearchLimits := ⟨none, some ⟨"/base"⟩⟩
    tree.kind? ⟨"sub/m.json"⟩ = some .file ∧ tree.kind? ⟨"/base/work//sub/m.json"⟩ = some .file ∧
      ∃ q, NearestAbove tree.HasSettings ["base", "work", "sub"] q ∧
        tree.Reaches limits true ["base", "work", "sub"] q ∧
        ¬ tree.Reaches limits false ["base", "work", "sub"] q := by
  intro tree limits
  have hfile : tree.kind? ⟨"sub/m.json"⟩ = some .file := by decide +kernel
  have hsame : tree.kind? ⟨"/base/work//sub/m.json"⟩ = some .file := by decide +kernel
  obtain ⟨hrelative, hrooted, -⟩ :=
    @spellings_agree_iff tree limits ⟨"sub/m.json"⟩ ⟨"/base/work//sub/m.json"⟩ ["sub"] "m.json"
      (by decide +kernel) (by decide +kernel) hfile hsame
  have hfound : tree.settingsFor? limits ⟨"/base/work//sub/m.json"⟩ =
      some ["base", ".specgen.json"] := by decide +kernel
  have hnone : tree.settingsFor? limits ⟨"sub/m.json"⟩ = none := by decide +kernel
  obtain ⟨q, hnearest, hreaches, -⟩ := (hrooted _).1 hfound
  refine ⟨hfile, hsame, q, hnearest, hreaches, fun hrel => ?_⟩
  have hsome := (hrelative _).2 ⟨q, hnearest, hrel, rfl⟩
  rw [hnone] at hsome
  cases hsome

/-- One manifest has different settings by its two paths: where the settings lie above the working
directory, and where the project root lies below the settings. -/
theorem spellings_disagree_workTree :
    let path : FilePath := ⟨"sub/m.json"⟩
    let absolute : FilePath := ⟨"/base/work/sub/m.json"⟩
    (let tree := workTree ["base"]
      let limits : Settings.SearchLimits := ⟨none, some ⟨"/base"⟩⟩
      tree.kind? path = some .file ∧ tree.kind? absolute = some .file ∧
        tree.settingsFor? limits path = none ∧
        tree.settingsFor? limits absolute = some ["base", ".specgen.json"]) ∧
      let tree := workTree ["base", "work"]
      let limits : Settings.SearchLimits := ⟨some ⟨"/base/work/sub"⟩, some ⟨"/base"⟩⟩
      tree.kind? path = some .file ∧ tree.kind? absolute = some .file ∧
        tree.settingsFor? limits path = some ["base", "work", ".specgen.json"] ∧
        tree.settingsFor? limits absolute = none := by
  decide +kernel

end FileTree

end CommandFactory
