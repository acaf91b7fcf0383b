import CommandFactory.Proofs.Module.Partition
import CommandFactory.Proofs.Registry.ElementOrder
import CommandFactory.Proofs.Replay.Supply

/-!
# Where arguments go

An argument that an element lists is reported, or it becomes an argument of the declaration of the
element. From there the generated code takes direct members only: an argument that the declaration
owns itself, or that is owned by a declaration it is linked to, comes to the specification of its
command, unless a later option displaces it (`args_reported_or_supplied`). Any other argument is
left out without a word (`inherited_option_lost`).

The arguments of a group go the same way over the declaration of the type of the group, which is
made from the first group of that type that waits (`groupArgs_reported_or_supplied`). Arguments that
the type does not own, or that only another group of the type lists, are left out
(`group_args_lost`).
-/

set_option autoImplicit false

namespace CommandFactory

/-! ## Checked arguments -/

/-- An argument of a list is reported, or is in the checked list. -/
theorem mention_or_mem_checkArgs (table : SymbolTable) (expected : ArgCategory)
    {inputs : List ArgInput} {input : ArgInput} (h : input ∈ inputs) :
    Diagnostics.Mention (checkArgs table expected inputs).diagnostics input.element ∨
      ∃ arg ∈ (checkArgs table expected inputs).value,
        ArgDeclaration.ofInput table expected input = .ok arg := by
  induction inputs with
  | nil => cases h
  | cons first rest ih =>
    rw [checkArgs]
    rcases List.mem_cons.1 h with rfl | hmem
    · cases hok : ArgDeclaration.ofInput table expected input with
      | ok arg => exact Or.inr ⟨arg, List.mem_cons_self .., rfl⟩
      | error failure => exact Or.inl ⟨_, List.mem_cons_self .., rfl⟩
    · cases ArgDeclaration.ofInput table expected first with
      | ok arg =>
        refine (ih hmem).imp_right ?_
        rintro ⟨found, hfound, hok⟩
        exact ⟨found, List.mem_cons_of_mem _ hfound, hok⟩
      | error failure =>
        refine (ih hmem).imp_left ?_
        rintro ⟨report, hreport, helement⟩
        exact ⟨report, List.mem_cons_of_mem _ hreport, helement⟩

/-- What was found in the arguments and in the groups of an element is reported of its declaration.
-/
theorem CommandDeclaration.subset_diagnostics_ofInput (table : SymbolTable) (symbol : Symbol)
    (input : CommandInput) (rooting : Rooting) (owner : Scope) :
    let noted := ofInput table symbol input rooting owner
    (checkArgs table .option input.options).diagnostics ⊆ noted.diagnostics ∧
      (checkArgs table .positional input.positionals).diagnostics ⊆ noted.diagnostics ∧
      (checkGroupsOf table symbol input rooting).diagnostics ⊆ noted.diagnostics := by
  refine ⟨fun report hreport => ?_, fun report hreport => ?_, fun report hreport => ?_⟩ <;>
    simp [ofInput, hreport]

/-- The argument without the mark that it is inherited. -/
def ArgDeclaration.asOwn (arg : ArgDeclaration) : ArgDeclaration := { arg with inherited := false }

theorem ArgDeclaration.specFor_asOwn (object : ObjectRef) (arg : ArgDeclaration) :
    arg.asOwn.specFor object = arg.specFor object := rfl

/-- The list that an argument of a group is put into. -/
def ArgInput.side (input : ArgInput) : ArgCategory :=
  if input.category = .option then .option else .positional

namespace Registry

variable {registry : Registry} {input : CommandInput} {d : CommandDeclaration} {argInput : ArgInput}

/-- The options of an element are reported, or are options of its declaration. -/
theorem MadeOf.option (h : registry.MadeOf input d) (hlisted : argInput ∈ input.options) :
    Diagnostics.Mention registry.diagnostics argInput.element ∨
      ∃ arg ∈ d.options, ArgDeclaration.ofInput registry.symbols .option argInput = .ok arg := by
  obtain ⟨-, symbol, rooting, -, -, heq, hreports⟩ := h
  obtain ⟨hoptions, -, -⟩ :=
    CommandDeclaration.subset_diagnostics_ofInput registry.symbols symbol input rooting _
  have hchecked := mention_or_mem_checkArgs registry.symbols .option hlisted
  refine hchecked.imp (fun hmention => ?_) ?_
  · exact hmention.mono (List.Subset.trans hoptions hreports)
  · rintro ⟨arg, harg, hok⟩
    rw [heq]
    exact ⟨arg, harg, hok⟩

/-- The positional parameters of an element are reported, or are positional parameters of its
declaration. -/
theorem MadeOf.positional (h : registry.MadeOf input d) (hlisted : argInput ∈ input.positionals) :
    Diagnostics.Mention registry.diagnostics argInput.element ∨
      ∃ arg ∈ d.positionals,
        ArgDeclaration.ofInput registry.symbols .positional argInput = .ok arg := by
  obtain ⟨-, symbol, rooting, -, -, heq, hreports⟩ := h
  obtain ⟨-, hpositionals, -⟩ :=
    CommandDeclaration.subset_diagnostics_ofInput registry.symbols symbol input rooting _
  have hchecked := mention_or_mem_checkArgs registry.symbols .positional hlisted
  refine hchecked.imp (fun hmention => ?_) ?_
  · exact hmention.mono (List.Subset.trans hpositionals hreports)
  · rintro ⟨arg, harg, hok⟩
    rw [heq]
    exact ⟨arg, harg, hok⟩

/-- A group has its declaration in every field of its type. -/
theorem ofField_mem_checkGroups {table : SymbolTable} {classId groupType : SymbolId}
    {groups : List ArgGroupInput} {group : ArgGroupInput} {field : Symbol} (hgroup : group ∈ groups)
    (htype : group.valueType? table = some groupType) (hfield : field ∈ table.fieldsOf classId)
    (hholds : field.holdsGroup groupType = true) :
    .ofField group groupType field ∈ (checkGroups table classId groups).value.declared := by
  have hmem : field ∈ (table.fieldsOf classId).filter (Symbol.holdsGroup groupType) :=
    List.mem_filter.2 ⟨hfield, hholds⟩
  fun_induction checkGroups table classId groups with
  | case1 => cases hgroup
  | case2 first rest checked hargs ih =>
    rcases List.mem_cons.1 hgroup with rfl | hrest
    · simp [ArgGroupInput.valueType?, hargs] at htype
    · exact ih hrest
  | case3 first rest checked arg others hargs hholder ih =>
    rcases List.mem_cons.1 hgroup with rfl | hrest
    · simp [ArgGroupInput.valueType?, hargs, hholder] at htype
    · exact ih hrest
  | case4 first rest checked arg others hargs firstType hholder hfields ih =>
    rcases List.mem_cons.1 hgroup with rfl | hrest
    · -- The class has no field of the type, but it has the one that is given.
      obtain rfl : firstType = groupType := by
        simpa [ArgGroupInput.valueType?, hargs, hholder] using htype
      rw [hfields] at hmem
      cases hmem
    · exact ih hrest
  | case5 first rest checked arg others hargs firstType hholder hfields ih =>
    rcases List.mem_cons.1 hgroup with rfl | hrest
    · obtain rfl : firstType = groupType := by
        simpa [ArgGroupInput.valueType?, hargs, hholder] using htype
      exact List.mem_append_left _ (List.mem_map_of_mem hmem)
    · exact List.mem_append_right _ (ih hrest)

/-- A command with groups is reported, or its declaration has them in the fields of their types. -/
theorem MadeOf.argGroup (h : registry.MadeOf input d) {group : ArgGroupInput}
    (hgroup : group ∈ input.argGroups) {groupType : SymbolId}
    (htype : group.valueType? registry.symbols = some groupType) :
    Diagnostics.Mention registry.diagnostics input.element ∨
      ∀ field ∈ registry.symbols.fieldsOf input.element, field.holdsGroup groupType = true →
        .ofField group groupType field ∈ d.argGroups := by
  obtain ⟨-, symbol, rooting, hget, -, heq, hreports⟩ := h
  obtain ⟨-, hid⟩ := Keyed.get?_eq_some_iff.1 hget
  have hid : symbol.id = input.element := hid
  cases rooting with
  | classRooted =>
    refine Or.inr fun field hfield hholds => ?_
    rw [heq]
    exact ofField_mem_checkGroups hgroup htype (hid ▸ hfield) hholds
  | methodRooted classId method params =>
    -- A command in a method may have no groups.
    obtain ⟨-, -, hgroups⟩ := CommandDeclaration.subset_diagnostics_ofInput registry.symbols symbol
      input (.methodRooted classId method params) _
    have hsome : input.argGroups.isEmpty = false :=
      List.isEmpty_eq_false_iff_exists_mem.2 ⟨_, hgroup⟩
    refine Or.inl ⟨.errorAt symbol.id "Arg groups on method-rooted commands are not supported",
      hreports (hgroups ?_), congrArg some hid⟩
    simp [checkGroupsOf, hsome]

/-- The arguments of a group whose type is declared from it are reported, or are arguments of that
declaration. -/
theorem MadeOf.groupArg {groupType : SymbolId} {group : ArgGroupInput} {holder : CommandDeclaration}
    (h : registry.MadeOf (Extraction.holderInput groupType group) holder)
    (harg : argInput ∈ group.args) :
    Diagnostics.Mention registry.diagnostics argInput.element ∨
      ∃ arg, ArgDeclaration.ofInput registry.symbols argInput.side argInput = .ok arg ∧
        (arg.isDirectMemberOf groupType = true →
          arg ∈ holder.directOptions ++ holder.directPositionals) := by
  have hid : holder.id = groupType := h.id_eq
  by_cases hoption : argInput.category = .option
  · have hside : argInput.side = .option := if_pos hoption
    refine (h.option (List.mem_filter.2 ⟨harg, by simp [hoption]⟩)).imp_right ?_
    rintro ⟨arg, hmem, hok⟩
    refine ⟨arg, hside ▸ hok, fun hdirect => List.mem_append_left _ ?_⟩
    exact List.mem_filter.2 ⟨hmem, hid ▸ hdirect⟩
  · have hside : argInput.side = .positional := if_neg hoption
    refine (h.positional (List.mem_filter.2 ⟨harg, by simp [hoption]⟩)).imp_right ?_
    rintro ⟨arg, hmem, hok⟩
    refine ⟨arg, hside ▸ hok, fun hdirect => List.mem_append_right _ ?_⟩
    exact List.mem_filter.2 ⟨hmem, hid ▸ hdirect⟩

/-- A command that is discarded is reported. -/
theorem Discarded.mention (h : registry.Discarded d) :
    Diagnostics.Mention registry.synthesize.2.diagnostics d.id := by
  rcases h.reported with ⟨_, _, _, -, -, hreport⟩ | ⟨_, _, -, -, hreport⟩
  · exact ⟨_, hreport, rfl⟩
  · exact ⟨_, hreport, rfl⟩

end Registry

namespace Compilation

open Registry

variable {settings : Settings} {manifest : Manifest}

/-- What is reported when the modules are made is reported of the compilation. -/
theorem synthesize_subset
    (hany : (Registry.ofManifest settings manifest).commands.any CommandDeclaration.isCommand =
      true) :
    (Registry.ofManifest settings manifest).synthesize.2.diagnostics ⊆
      (ofManifest settings manifest).diagnostics := by
  rw [ofManifest_eq hany]
  exact List.subset_append_left _ _

/-- What is reported of the declarations is reported of the compilation. -/
theorem diagnostics_subset (settings : Settings) (manifest : Manifest) :
    (Registry.ofManifest settings manifest).diagnostics ⊆
      (ofManifest settings manifest).diagnostics := by
  intro report hreport
  cases hany :
    (Registry.ofManifest settings manifest).commands.any CommandDeclaration.isCommand with
  | false =>
    have heq : (ofManifest settings manifest).diagnostics =
        (Registry.ofManifest settings manifest).diagnostics := by simp [ofManifest, hany]
    exact heq ▸ hreport
  | true =>
    exact synthesize_subset hany (List.mem_append_left _ (List.mem_append_left _ hreport))

/-- What the factory of an element makes of an empty store, if it ends well. -/
def made? (compilation : Compilation) (element : SymbolId) : Option CommandSpec :=
  (compilation.replay? element).bind fun replay => (replay .empty).toOption.map Prod.fst

theorem exists_replay_of_made? {compilation : Compilation} {element : SymbolId} {spec : CommandSpec}
    (h : compilation.made? element = some spec) : ∃ replay after,
      compilation.replay? element = some replay ∧ replay .empty = .ok (spec, after) := by
  obtain ⟨replay, hreplay, hmade⟩ := Option.bind_eq_some_iff.1 h
  cases hrun : replay .empty with
  | error fault =>
    rw [hrun] at hmade
    cases hmade
  | ok result =>
    rw [hrun] at hmade
    obtain rfl : result.1 = spec := Option.some.inj hmade
    exact ⟨replay, result.2, hreplay, hrun⟩

/-! ## Options and positional parameters -/

/-- An option that is listed for an element is one of its declaration. As a direct member of a
declaration in the line of that declaration it is in every specification that the factory makes,
unless a later one of the line shares a name with it. -/
def SuppliesOption (settings : Settings) (manifest : Manifest) (element : SymbolId)
    (argInput : ArgInput) : Prop :=
  ∃ arg, ArgDeclaration.ofInput manifest.symbols .option argInput = .ok arg ∧
    ∃ d ∈ (Registry.ofManifest settings manifest).commands, d.id = element ∧ arg ∈ d.options ∧
      ∀ line earlier later, (Registry.ofManifest settings manifest).Lineage line d →
        line.flatMap CommandDeclaration.directOptions = earlier ++ arg.asOwn :: later →
          ∀ replay, (ofManifest settings manifest).replay? element = some replay →
            ∀ store spec after, replay store = .ok (spec, after) →
              ∃ object, arg.specFor object ∈ spec.options ∨
                ∃ other ∈ later, (arg.specFor object).sharesNameWith (other.specFor object) = true

/-- A positional parameter that is listed for an element is one of its declaration. As a direct
member of a declaration in the line of that declaration it is in every specification that the
factory makes. -/
def SuppliesPositional (settings : Settings) (manifest : Manifest) (element : SymbolId)
    (argInput : ArgInput) : Prop :=
  ∃ arg, ArgDeclaration.ofInput manifest.symbols .positional argInput = .ok arg ∧
    ∃ d ∈ (Registry.ofManifest settings manifest).commands, d.id = element ∧ arg ∈ d.positionals ∧
      ∀ line, (Registry.ofManifest settings manifest).Lineage line d →
        arg.asOwn ∈ line.flatMap CommandDeclaration.directPositionals →
          ∀ replay, (ofManifest settings manifest).replay? element = some replay →
            ∀ store spec after, replay store = .ok (spec, after) →
              ∃ object, arg.specFor object ∈ spec.positionals

/-- The factory of an element supplies what the line of its declaration does. -/
theorem supplies_of_mem (hpaths : (Registry.ofManifest settings manifest).DistinctPaths)
    {d : CommandDeclaration} (hd : d ∈ (Registry.ofManifest settings manifest).commands)
    {replay : Replay CommandSpec}
    (hreplay : (ofManifest settings manifest).replay? d.id = some replay) :
    d ∈ (Registry.ofManifest settings manifest).plan.kept ∧
      ∀ line, (Registry.ofManifest settings manifest).Lineage line d →
        ∀ store spec after, replay store = .ok (spec, after) →
          ∃ object, (Registry.ofManifest settings manifest).Supplies line d object spec := by
  obtain ⟨e, he, hid, hall⟩ := supplies_of_replay hpaths hreplay
  obtain rfl := eq_of_id_eq (mem_kept.1 he).1 hd hid
  exact ⟨he, hall⟩

/-- If modules have different paths, every option and positional parameter that an element lists is
reported, at its own element or at that of the command, or it is supplied. -/
theorem args_reported_or_supplied (settings : Settings) (manifest : Manifest)
    (hpaths : (Registry.ofManifest settings manifest).DistinctPaths) {input : CommandInput}
    (hinput : input ∈ manifest.elements) :
    (∀ argInput ∈ input.options,
      Diagnostics.Mention (ofManifest settings manifest).diagnostics argInput.element ∨
      Diagnostics.Mention (ofManifest settings manifest).diagnostics input.element ∨
      SuppliesOption settings manifest input.element argInput) ∧
    ∀ argInput ∈ input.positionals,
      Diagnostics.Mention (ofManifest settings manifest).diagnostics argInput.element ∨
      Diagnostics.Mention (ofManifest settings manifest).diagnostics input.element ∨
      SuppliesPositional settings manifest input.element argInput := by
  have hreports := diagnostics_subset settings manifest
  have hsymbols := symbols_ofManifest settings manifest
  have hmade :
      Diagnostics.Mention (Registry.ofManifest settings manifest).diagnostics input.element ∨
        ∃ d, (Registry.ofManifest settings manifest).MadeOf input d := mention_or_madeOf hinput
  rcases hmade with hmention | ⟨d, hmade⟩
  · -- An element that becomes no command takes all its arguments with it.
    have hat := hmention.mono hreports
    exact ⟨fun _ _ => Or.inr (Or.inl hat), fun _ _ => Or.inr (Or.inl hat)⟩
  have hid := hmade.id_eq
  constructor
  · intro argInput hlisted
    refine (hmade.option hlisted).imp (fun hmention => hmention.mono hreports) ?_
    rintro ⟨arg, harg, hok⟩
    refine Or.inr ⟨arg, hsymbols ▸ hok, d, hmade.1, hid, harg, ?_⟩
    intro line earlier later hline hdirect replay hreplay store spec after hrun
    obtain ⟨-, hsupplies⟩ := supplies_of_mem hpaths hmade.1 (hid ▸ hreplay)
    obtain ⟨object, hspec⟩ := hsupplies line hline store spec after hrun
    obtain ⟨base, hoptions⟩ := hspec.options
    refine ⟨object, ?_⟩
    -- The specification of an argument does not depend on its mark.
    rw [hoptions, hdirect, List.map_append, List.map_cons, ArgDeclaration.specFor_asOwn]
    refine (CommandSpec.mem_placeOptions base _ _ _).imp_right ?_
    rintro ⟨_, hother, hshares⟩
    obtain ⟨other, hmem, rfl⟩ := List.mem_map.1 hother
    exact ⟨other, hmem, hshares⟩
  · intro argInput hlisted
    refine (hmade.positional hlisted).imp (fun hmention => hmention.mono hreports) ?_
    rintro ⟨arg, harg, hok⟩
    refine Or.inr ⟨arg, hsymbols ▸ hok, d, hmade.1, hid, harg, ?_⟩
    intro line hline hdirect replay hreplay store spec after hrun
    obtain ⟨-, hsupplies⟩ := supplies_of_mem hpaths hmade.1 (hid ▸ hreplay)
    obtain ⟨object, hspec⟩ := hsupplies line hline store spec after hrun
    obtain ⟨base, hpositionals⟩ := hspec.positionals
    refine ⟨object, ?_⟩
    rw [hpositionals, ← ArgDeclaration.specFor_asOwn]
    exact List.mem_append_right _ (List.mem_map_of_mem hdirect)

/-- The options of the ancestor, as the command inherits them. -/
def inheritedLevel : ArgInput :=
  { textArg ⟨"demo.Base.level"⟩ .option ["--level"] with inherited := true }

/-- A command that inherits an option and has a positional parameter of its own. -/
def levelTool : CommandInput :=
  { CommandInput.bare ⟨"demo.Tool"⟩ with
    command := some ⟨"tool", []⟩
    options := [inheritedLevel]
    positionals := [textArg ⟨"demo.Tool.input"⟩ .positional []] }

/-- The ancestor lists the option too. -/
def baseAndTool : Manifest :=
  ⟨demoTool.symbols,
    [{ CommandInput.bare ⟨"demo.Base"⟩ with
        options := [textArg ⟨"demo.Base.level"⟩ .option ["--level"]] },
      levelTool]⟩

/-- The option comes from the ancestor, the positional parameter from the command. -/
theorem args_supplied_levelTool :
    (Registry.ofManifest {} baseAndTool).DistinctPaths ∧ levelTool ∈ baseAndTool.elements ∧
      SuppliesOption {} baseAndTool ⟨"demo.Tool"⟩ inheritedLevel ∧
      SuppliesPositional {} baseAndTool ⟨"demo.Tool"⟩ (textArg ⟨"demo.Tool.input"⟩ .positional []) ∧
      ((ofManifest {} baseAndTool).made? ⟨"demo.Tool"⟩).map
        (fun spec => (spec.options.map ArgSpec.names, spec.positionals.length)) =
          some ([["--level"]], 1) := by
  have hpaths : (Registry.ofManifest {} baseAndTool).DistinctPaths := by decide +kernel
  have hmem : levelTool ∈ baseAndTool.elements := List.mem_cons_of_mem _ (List.mem_cons_self ..)
  have hquiet : ∀ element,
      ¬ Diagnostics.Mention (ofManifest {} baseAndTool).diagnostics element := by
    have hnone : (ofManifest {} baseAndTool).diagnostics = [] := by decide +kernel
    rintro element ⟨diagnostic, hdiagnostic, -⟩
    rw [hnone] at hdiagnostic
    cases hdiagnostic
  obtain ⟨hoptions, hpositionals⟩ := args_reported_or_supplied {} baseAndTool hpaths hmem
  have hoption := hoptions inheritedLevel (List.mem_cons_self ..)
  have hpositional := hpositionals _ (List.mem_cons_self ..)
  refine ⟨hpaths, hmem, ?_, ?_, by decide +kernel⟩
  · exact (hoption.resolve_left (hquiet _)).resolve_left (hquiet _)
  · exact (hpositional.resolve_left (hquiet _)).resolve_left (hquiet _)

/-- Without a declaration of the ancestor, the inherited option is in nothing that is made, and
nothing is said of it. -/
theorem inherited_option_lost :
    let manifest : Manifest := ⟨demoTool.symbols, [levelTool]⟩
    inheritedLevel ∈ levelTool.options ∧
      (Registry.ofManifest {} manifest).DistinctPaths ∧
      (Registry.ofManifest {} manifest).plan.kept.map CommandDeclaration.id = [⟨"demo.Tool"⟩] ∧
      (ofManifest {} manifest).diagnostics = [] ∧
      ((ofManifest {} manifest).made? ⟨"demo.Tool"⟩).map
        (fun spec => (spec.options, spec.positionals.map ArgSpec.names)) = some ([], [[]]) := by
  decide +kernel

/-! ## Arguments of groups -/

/-- The declaration of an element has a group in the fields of its type, and an argument is checked
for it. As a direct member of the type the argument is in every specification that the factory
makes: there the groups of the declaration follow those of its ancestors in order, and the argument
is in each group of the type. -/
def SuppliesGroupArg (settings : Settings) (manifest : Manifest) (element groupType : SymbolId)
    (group : ArgGroupInput) (argInput : ArgInput) : Prop :=
  ∃ arg, ArgDeclaration.ofInput manifest.symbols argInput.side argInput = .ok arg ∧
    ∃ d ∈ (Registry.ofManifest settings manifest).commands, d.id = element ∧
      (∀ field ∈ manifest.symbols.fieldsOf element, field.holdsGroup groupType = true →
        .ofField group groupType field ∈
          (Registry.ofManifest settings manifest).heldGroups d.argGroups) ∧
      (arg.isDirectMemberOf groupType = true →
        ∀ replay, (ofManifest settings manifest).replay? element = some replay →
          ∀ store spec after, replay store = .ok (spec, after) →
            ∃ base own, spec.groups = base ++ own ∧
              List.Forall₂
                (fun declared made => (Registry.ofManifest settings manifest).Fills declared made ∧
                  (declared.groupType = groupType → ∃ object, arg.specFor object ∈ made.args))
                ((Registry.ofManifest settings manifest).heldGroups d.argGroups) own)

/-- Without any command there are no factories. -/
theorem replay?_eq_none (h : (Registry.ofManifest settings manifest).commands.any
      CommandDeclaration.isCommand = false) (element : SymbolId) :
    (ofManifest settings manifest).replay? element = none := by
  have hunits : (ofManifest settings manifest).units = [] := by simp [ofManifest, h]
  simp [replay?, factory?, modules, hunits, GeneratedModule.walkAll]

/-- If modules have different paths, a group of an element has a value type that is no element, and
the first group of that type that waits lists an argument, then the argument is reported, at its own
element, at that of the command or at the type, or it is supplied. -/
theorem groupArgs_reported_or_supplied (settings : Settings) (manifest : Manifest)
    (hpaths : (Registry.ofManifest settings manifest).DistinctPaths) {input : CommandInput}
    (hinput : input ∈ manifest.elements) {group : ArgGroupInput} (hgroup : group ∈ input.argGroups)
    {groupType : SymbolId} (htype : group.valueType? manifest.symbols = some groupType)
    (hunlisted : ∀ other ∈ manifest.elements, other.element ≠ groupType)
    {first : SymbolId × ArgGroupInput}
    (hfirst : (elementsOf settings manifest).pending.find? (fun waiting => waiting.1 = groupType) =
      some first) {argInput : ArgInput} (harg : argInput ∈ first.2.args) :
    Diagnostics.Mention (ofManifest settings manifest).diagnostics argInput.element ∨
      Diagnostics.Mention (ofManifest settings manifest).diagnostics input.element ∨
      Diagnostics.Mention (ofManifest settings manifest).diagnostics groupType ∨
      SuppliesGroupArg settings manifest input.element groupType group argInput := by
  have hreports := diagnostics_subset settings manifest
  have hsymbols := symbols_ofManifest settings manifest
  have hmade :
      Diagnostics.Mention (Registry.ofManifest settings manifest).diagnostics input.element ∨
        ∃ d, (Registry.ofManifest settings manifest).MadeOf input d := mention_or_madeOf hinput
  -- Each step on the way reports, or goes on with a declaration.
  rcases hmade with hmention | ⟨d, hmade⟩
  · exact Or.inr (Or.inl (hmention.mono hreports))
  rcases hmade.argGroup hgroup (hsymbols.symm ▸ htype) with hmention | hfields
  · exact Or.inr (Or.inl (hmention.mono hreports))
  rcases mention_or_madeOf_holder hunlisted hfirst with hmention | ⟨holder, hholder⟩
  · exact Or.inr (Or.inr (Or.inl (hmention.mono hreports)))
  rcases hholder.groupArg harg with hmention | ⟨arg, hok, hdirect⟩
  · exact Or.inl (hmention.mono hreports)
  have hid := hmade.id_eq
  have hholderId : holder.id = groupType := hholder.id_eq
  have hheld : ∀ field ∈ manifest.symbols.fieldsOf input.element,
      field.holdsGroup groupType = true → .ofField group groupType field ∈
        (Registry.ofManifest settings manifest).heldGroups d.argGroups := by
    intro field hfield hholds
    refine List.mem_filter.2 ⟨hfields field (hsymbols.symm ▸ hfield) hholds, ?_⟩
    have hcommand := Registry.command?_of_mem hholder.1
    rw [hholderId] at hcommand
    exact Option.isSome_of_eq_some hcommand
  cases hany :
    (Registry.ofManifest settings manifest).commands.any CommandDeclaration.isCommand with
  | false =>
    -- Dropped commands are not reported here, but nothing is replayed either.
    refine Or.inr (Or.inr (Or.inr ⟨arg, hsymbols ▸ hok, d, hmade.1, hid, hheld, ?_⟩))
    intro _ replay hreplay
    rw [replay?_eq_none hany] at hreplay
    cases hreplay
  | true =>
    -- The type may be a method, and its holder may be dropped like any command in a method.
    cases hdrops : (Registry.ofManifest settings manifest).plan.drops holder.id with
    | true =>
      refine Or.inr (Or.inr (Or.inl ?_))
      rw [← hholderId]
      exact (discarded_of_drops hholder.1 hdrops).mention.mono (synthesize_subset hany)
    | false =>
      refine Or.inr (Or.inr (Or.inr ⟨arg, hsymbols ▸ hok, d, hmade.1, hid, hheld, ?_⟩))
      intro hmember replay hreplay store spec after hrun
      obtain ⟨hkept, hsupplies⟩ := supplies_of_mem hpaths hmade.1 (hid ▸ hreplay)
      obtain ⟨_, hspec⟩ := hsupplies [d] (.alone hkept) store spec after hrun
      obtain ⟨base, own, hgroups, hown⟩ := hspec.groups
      refine ⟨base, own, hgroups, hown.imp ?_⟩
      intro declared made hfills
      refine ⟨hfills, fun hdeclared => ?_⟩
      obtain ⟨object, hargs⟩ := hfills.args holder (mem_kept.2 ⟨hholder.1, hdrops⟩)
        (hholderId.trans hdeclared.symm)
      rw [hargs]
      exact ⟨object, List.mem_map_of_mem (hdirect hmember)⟩

/-- An option of the target of a deployment. -/
def hostOption : ArgInput := textArg ⟨"demo.Target.host"⟩ .option ["--host"]

/-- A second option of the target. -/
def portOption : ArgInput := textArg ⟨"demo.Target.port"⟩ .option ["--port"]

/-- An option of the deployment itself. -/
def forceOption : ArgInput := textArg ⟨"demo.Deploy.force"⟩ .option ["--force"]

/-- A command with groups of the given arguments, in a field for its target. -/
def deploy (groups : List (List ArgInput)) : CommandInput :=
  { CommandInput.bare ⟨"demo.Deploy"⟩ with
    command := some ⟨"deploy", []⟩
    argGroups := groups.map fun args => ⟨args, true, some "1", none⟩ }

/-- The command as the only element. -/
def deployment (groups : List (List ArgInput)) : Manifest where
  symbols :=
    .ofList
      [⟨⟨"demo"⟩, "demo", none, [], .package⟩,
        ⟨⟨"demo.Deploy"⟩, "Deploy", some ⟨"demo"⟩, [], .classType none none none⟩,
        ⟨⟨"demo.Deploy.target"⟩, "target", some ⟨"demo.Deploy"⟩, [], .field "demo.Target" true⟩,
        ⟨⟨"demo.Deploy.force"⟩, "force", some ⟨"demo.Deploy"⟩, [], .field "String" false⟩,
        ⟨⟨"demo.Target"⟩, "Target", some ⟨"demo"⟩, [], .classType none none none⟩,
        ⟨⟨"demo.Target.host"⟩, "host", some ⟨"demo.Target"⟩, [], .field "String" false⟩,
        ⟨⟨"demo.Target.port"⟩, "port", some ⟨"demo.Target"⟩, [], .field "String" false⟩]
  elements := [deploy groups]

/-- The names of the arguments in the groups of the specification of a deployment. -/
def deployedNames (groups : List (List ArgInput)) : Option (List (List (List String))) :=
  ((ofManifest {} (deployment groups)).made? ⟨"demo.Deploy"⟩).map fun spec =>
    spec.groups.map fun made => made.args.map ArgSpec.names

/-- Both options of the target are in its group. -/
theorem groupArgs_supplied_deployment :
    let groups := [[hostOption, portOption]]
    let group : ArgGroupInput := ⟨[hostOption, portOption], true, some "1", none⟩
    (Registry.ofManifest {} (deployment groups)).DistinctPaths ∧
      group.valueType? (deployment groups).symbols = some ⟨"demo.Target"⟩ ∧
      (elementsOf {} (deployment groups)).pending = [(⟨"demo.Target"⟩, group)] ∧
      (∀ argInput ∈ group.args,
        SuppliesGroupArg {} (deployment groups) ⟨"demo.Deploy"⟩ ⟨"demo.Target"⟩ group argInput) ∧
      deployedNames groups = some [[["--host"], ["--port"]]] := by
  intro groups group
  have hpaths : (Registry.ofManifest {} (deployment groups)).DistinctPaths := by decide +kernel
  have htype : group.valueType? (deployment groups).symbols = some ⟨"demo.Target"⟩ := by
    decide +kernel
  have hpending : (elementsOf {} (deployment groups)).pending = [(⟨"demo.Target"⟩, group)] := by
    decide +kernel
  have hquiet : ∀ element,
      ¬ Diagnostics.Mention (ofManifest {} (deployment groups)).diagnostics element := by
    have hnone : (ofManifest {} (deployment groups)).diagnostics = [] := by decide +kernel
    rintro element ⟨diagnostic, hdiagnostic, -⟩
    rw [hnone] at hdiagnostic
    cases hdiagnostic
  refine ⟨hpaths, htype, hpending, fun argInput harg => ?_, by decide +kernel⟩
  have hsupplied := groupArgs_reported_or_supplied {} (deployment groups) hpaths
    (List.mem_singleton_self (deploy groups)) (List.mem_singleton_self group) htype
    (by decide +kernel) (by rw [hpending]; rfl) harg
  exact ((hsupplied.resolve_left (hquiet _)).resolve_left (hquiet _)).resolve_left (hquiet _)

/-- Silently left out of the groups that are made: an option of the deployment in a group of its
target, an option of the target that is marked as inherited, and one that only the second group
lists. -/
theorem group_args_lost :
    let foreign := [[hostOption, forceOption]]
    let inherited := [[hostOption, { portOption with inherited := true }]]
    let second := [[hostOption], [portOption]]
    (∀ groups ∈ [foreign, inherited, second],
      (Registry.ofManifest {} (deployment groups)).DistinctPaths ∧
      (∀ group ∈ (deploy groups).argGroups,
        group.valueType? (deployment groups).symbols = some ⟨"demo.Target"⟩) ∧
      (ofManifest {} (deployment groups)).diagnostics = []) ∧
    deployedNames foreign = some [[["--host"]]] ∧
    deployedNames inherited = some [[["--host"]]] ∧
    deployedNames second = some [[["--host"]], [["--host"]]] := by
  decide +kernel

end Compilation

end CommandFactory
