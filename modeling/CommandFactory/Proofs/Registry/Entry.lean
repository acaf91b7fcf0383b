import CommandFactory.Proofs.Registry.Acyclicity

/-!
# What one element adds

All that an element adds to an extraction is fixed by the element, the symbol table and whether the
element is known already (`CommandInput.entry`): the command it becomes, the reports, and the groups
that wait for a declaration of their type. The other declarations have no part in it. The containers
that come in on the way to a command change neither commands nor reports (`OnlyContainers`).

`Extraction.element_entry` says so for one element. In the registry of a manifest every element is
reported or has become a command (`mention_or_madeOf`), and so is the type of every group that waits
(`mention_or_madeOf_holder`).
-/

set_option autoImplicit false

namespace CommandFactory

/-! ## Roots without a registry -/

/-- What the command of a symbol is rooted in, or why it cannot be one. -/
def SymbolTable.rooting? (table : SymbolTable) (symbol : Symbol) : Except Failure Rooting :=
  match symbol.kind with
  | .classType .. => .ok .classRooted
  | .method params =>
      match (symbol.owner.bind fun id => table.get? id).filter Symbol.isClass with
      | none => .error (.unsupportedElement symbol.id .methodOutsideClass)
      | some owner => .ok (.methodRooted owner.id symbol.name (params.map erasure))
  | kind => .error (.unsupportedElement symbol.id (.kind kind.describe))

namespace Registry

variable {registry next : Registry} {symbol : Symbol}

/-- The second registry has the symbols, the commands and the reports of the first. -/
structure OnlyContainers (registry next : Registry) : Prop where
  symbols_eq : next.symbols = registry.symbols
  command?_eq : ∀ id, next.command? id = registry.command? id
  diagnostics_eq : next.diagnostics = registry.diagnostics

theorem OnlyContainers.refl (registry : Registry) : OnlyContainers registry registry :=
  ⟨rfl, fun _ => rfl, rfl⟩

theorem diagnostics_insert (registry : Registry) (declaration : Declaration) :
    (registry.insert declaration).diagnostics = registry.diagnostics := by
  unfold insert
  split <;> rfl

theorem get?_insert (registry : Registry) (declaration : Declaration) (id : SymbolId) :
    (registry.insert declaration).get? id =
      if declaration.id = id ∧ registry.accepts declaration = true then some declaration
      else registry.get? id := by
  unfold insert
  by_cases haccepts : registry.accepts declaration = true
  · simp only [haccepts, and_true, if_true]
    exact Keyed.get?_put _ _ _
  · simp only [haccepts, and_false, Bool.false_eq_true, if_false]

theorem command?_insert_container (registry : Registry) (c : Container) (id : SymbolId) :
    (registry.insert (.container c)).command? id = registry.command? id := by
  rw [command?, get?_insert]
  split
  case isTrue h =>
    obtain ⟨rfl, haccepts⟩ := h
    have hnone : registry.get? (Declaration.container c).id = none :=
      Keyed.get?_eq_none_iff.2 (new_of_accepts_container haccepts)
    rw [command?, hnone]
    rfl
  case isFalse => rfl

/-- A command is what its identity has from then on, unless there was a command before. -/
theorem command?_insert_command (registry : Registry) (d : CommandDeclaration) (id : SymbolId) :
    (registry.insert (.command d)).command? id =
      (registry.command? id).or ((some d).filter fun d => d.id = id) := by
  by_cases hid : d.id = id
  · subst hid
    rw [command?, get?_insert, command?]
    simp only [Option.filter_some, decide_true, if_true]
    cases hget : registry.get? d.id with
    | none =>
      have haccepts : registry.accepts (.command d) = true := by
        simp [accepts, Declaration.id, hget]
      simp [Declaration.id, haccepts, Declaration.command?]
    | some known =>
      cases known with
      | container c =>
        have haccepts : registry.accepts (.command d) = true := by
          simp [accepts, Declaration.id, hget, Declaration.isContainer]
        simp [Declaration.id, haccepts, Declaration.command?]
      | command e =>
        have haccepts : registry.accepts (.command d) = false := by
          simp [accepts, Declaration.id, hget]
        simp [haccepts, Declaration.command?]
  · have hother : (some d).filter (fun d => decide (d.id = id)) = none := by simp [hid]
    rw [command?, get?_insert, if_neg fun h => hid h.1, hother, Option.or_none]
    rfl

theorem OnlyContainers.insert (h : OnlyContainers registry next) (c : Container) :
    OnlyContainers registry (next.insert (.container c)) where
  symbols_eq := (symbols_insert _ _).trans h.symbols_eq
  command?_eq id := (command?_insert_container _ _ _).trans (h.command?_eq id)
  diagnostics_eq := (diagnostics_insert _ _).trans h.diagnostics_eq

theorem onlyContainers_enclosingScope (levels : Nat) (registry : Registry)
    (owner : Option SymbolId) :
    OnlyContainers registry (enclosingScope levels registry owner).2 := by
  fun_induction enclosingScope levels registry owner with
  | case1 => exact .refl _
  | case2 => exact .refl _
  | case3 => exact .refl _
  | case4 => exact .refl _
  | case5 registry owner symbol hsome levels superclass typePath members hkind hnew scope next heq
      ih =>
    rw [heq] at ih
    exact ih.insert _
  | case6 registry owner symbol hsome levels hpackage hclass ih => exact ih

theorem onlyContainers_ensureContainer (registry : Registry) (symbol : Symbol) :
    OnlyContainers registry (registry.ensureContainer symbol) := by
  unfold ensureContainer
  split
  · exact .refl _
  · exact (onlyContainers_enclosingScope _ _ _).insert _

/-- A root is found from the symbol table alone; only containers are put in on the way. -/
theorem root_eq (hknown : registry.symbols.get? symbol.id = some symbol) :
    (∃ failure, registry.symbols.rooting? symbol = .error failure ∧
        registry.root symbol = .error failure) ∨
      ∃ rooting next, registry.symbols.rooting? symbol = .ok rooting ∧
        registry.root symbol =
          .ok (rooting, .ofOwners (registry.symbols.owners symbol.id), next) ∧
        OnlyContainers registry next := by
  unfold SymbolTable.rooting? root
  cases hkind : symbol.kind with
  | classType superclass typePath members =>
    refine Or.inr ⟨.classRooted, _, rfl, ?_,
      onlyContainers_enclosingScope (maxNesting + 1) registry symbol.owner⟩
    rw [← (scope_of_symbol hknown).1]
  | method params =>
    cases howner : (symbol.owner.bind fun id => registry.symbols.get? id).filter Symbol.isClass with
    | none => exact Or.inl ⟨_, rfl, rfl⟩
    | some owner =>
      obtain ⟨habove, hclass⟩ := Option.filter_eq_some_iff.1 howner
      refine Or.inr ⟨_, _, rfl, ?_, onlyContainers_ensureContainer registry owner⟩
      rw [scope_of_method hknown habove hclass]
  | package => exact Or.inl ⟨_, rfl, rfl⟩
  | field type argGroup => exact Or.inl ⟨_, rfl, rfl⟩
  | parameter type => exact Or.inl ⟨_, rfl, rfl⟩

end Registry

/-! ## Entries -/

/-- What an element adds: a command if it can be one, reports, and groups that wait. -/
structure Entry where
  command : Option CommandDeclaration
  reports : List Diagnostic
  pending : List (SymbolId × ArgGroupInput)

/-- What an element adds where it is known already, or where it is not. -/
def CommandInput.entry (table : SymbolTable) (known : Bool) (input : CommandInput) : Entry :=
  match table.get? input.element with
  | none => ⟨none, [.ofFailure input.element (.unknownSymbol input.element)], []⟩
  | some symbol =>
      if known then
        ⟨none, [.warningAt input.element "Element declared more than once; keeping the first"], []⟩
      else
        match table.rooting? symbol with
        | .error failure => ⟨none, [.ofFailure input.element failure], []⟩
        | .ok rooting =>
            let noted :=
              CommandDeclaration.ofInput table symbol input rooting
                (.ofOwners (table.owners symbol.id))
            ⟨some noted.value.1, noted.diagnostics, noted.value.2⟩

namespace CommandInput

variable {table : SymbolTable} {known : Bool} {input : CommandInput} {d : CommandDeclaration}

/-- An element becomes the command of its symbol. -/
theorem entry_eq_some (h : (input.entry table known).command = some d) :
    known = false ∧ ∃ symbol rooting, table.get? input.element = some symbol ∧
      table.rooting? symbol = .ok rooting ∧
      CommandDeclaration.ofInput table symbol input rooting (.ofOwners (table.owners symbol.id)) =
        ⟨(d, (input.entry table known).pending), (input.entry table known).reports⟩ := by
  unfold entry at h ⊢
  cases hget : table.get? input.element with
  | none => simp [hget] at h
  | some symbol =>
    cases known with
    | true => simp [hget] at h
    | false =>
      cases hrooting : table.rooting? symbol with
      | error failure => simp [hget, hrooting] at h
      | ok rooting =>
        simp only [hget, hrooting, Bool.false_eq_true, if_false, Option.some.injEq] at h
        refine ⟨rfl, symbol, rooting, rfl, hrooting, ?_⟩
        simp only [hrooting, Bool.false_eq_true, if_false, ← h]

theorem id_of_entry (h : (input.entry table known).command = some d) : d.id = input.element := by
  obtain ⟨-, symbol, rooting, hget, -, hnoted⟩ := entry_eq_some h
  obtain ⟨-, hid⟩ := Keyed.get?_eq_some_iff.1 hget
  have hd := congrArg (fun noted => noted.value.1.id) hnoted
  exact hd.symm.trans hid

/-- An element that becomes no command is reported, and no group of it waits. -/
theorem entry_eq_none (h : (input.entry table known).command = none) :
    (∃ report, (input.entry table known).reports = [report] ∧
      report.element = some input.element) ∧ (input.entry table known).pending = [] := by
  unfold entry at h ⊢
  cases hget : table.get? input.element with
  | none => exact ⟨⟨_, rfl, rfl⟩, rfl⟩
  | some symbol =>
    cases known with
    | true => exact ⟨⟨_, rfl, rfl⟩, rfl⟩
    | false =>
      cases hrooting : table.rooting? symbol with
      | error failure =>
        simp only [hrooting, Bool.false_eq_true, if_false]
        exact ⟨⟨_, rfl, rfl⟩, trivial⟩
      | ok rooting => simp [hget, hrooting] at h

end CommandInput

/-! ## Extractions -/

namespace Extraction

open Registry

/-- What an element adds to an extraction under way. -/
def entry (state : Extraction) (input : CommandInput) : Entry :=
  input.entry state.registry.symbols (state.registry.command? input.element).isSome

/-- An element adds its entry, and nothing else but containers. -/
theorem element_entry (state : Extraction) (input : CommandInput) :
    (state.element input).registry.symbols = state.registry.symbols ∧
      (∀ id, (state.element input).registry.command? id =
        (state.registry.command? id).or ((state.entry input).command.filter fun d => d.id = id)) ∧
      (state.element input).registry.diagnostics =
        state.registry.diagnostics ++ (state.entry input).reports ∧
      (state.element input).pending = state.pending ++ (state.entry input).pending := by
  unfold element entry CommandInput.entry
  cases hget : state.registry.symbols.get? input.element with
  | none =>
    simp only [hget]
    exact ⟨rfl, fun id => (Option.or_none).symm, rfl, (List.append_nil _).symm⟩
  | some symbol =>
    simp only [hget]
    by_cases hknown : (state.registry.command? input.element).isSome = true
    · simp only [hknown, if_true]
      exact ⟨rfl, fun id => (Option.or_none).symm, rfl, (List.append_nil _).symm⟩
    · simp only [hknown, if_false, Bool.false_eq_true]
      obtain ⟨-, hid⟩ := Keyed.get?_eq_some_iff.1 hget
      rcases root_eq (hid.symm ▸ hget : state.registry.symbols.get? symbol.id = some symbol) with
        ⟨failure, hrooting, hroot⟩ | ⟨rooting, next, hrooting, hroot, hnext⟩
      · simp only [hrooting, hroot]
        exact ⟨rfl, fun id => (Option.or_none).symm, rfl, (List.append_nil _).symm⟩
      · -- The root brings in containers only, then the command itself is put in.
        simp only [hrooting, hroot, hnext.symbols_eq]
        refine ⟨(symbols_insert _ _).trans hnext.symbols_eq, fun id => ?_, ?_, trivial⟩
        · rw [command?_insert_command]
          exact congrArg (Option.or · _) (hnext.command?_eq id)
        · rw [diagnostics_insert, ← hnext.diagnostics_eq]
          rfl

variable {state next : Extraction} {input : CommandInput} {inputs : List CommandInput}

theorem command?_element_of_ne {id : SymbolId} (h : input.element ≠ id) :
    (state.element input).registry.command? id = state.registry.command? id := by
  rw [(element_entry state input).2.1 id]
  cases hcommand : (state.entry input).command with
  | none => exact Option.or_none
  | some d =>
    have hid : d.id ≠ id := CommandInput.id_of_entry hcommand ▸ h
    rw [Option.filter_some, if_neg (by simp [hid]), Option.or_none]

theorem command?_elements_of_ne {id : SymbolId} (h : ∀ input ∈ inputs, input.element ≠ id) :
    (state.elements inputs).registry.command? id = state.registry.command? id := by
  unfold elements
  induction inputs generalizing state with
  | nil => rfl
  | cons input rest ih =>
    rw [List.foldl_cons, ih fun other hother => h other (List.mem_cons_of_mem _ hother)]
    exact command?_element_of_ne (h input (List.mem_cons_self ..))

/-- The second extraction has the commands, the reports and the waiting groups of the first. -/
structure Extends (state next : Extraction) : Prop where
  symbols_eq : next.registry.symbols = state.registry.symbols
  commands : ∀ {id d}, state.registry.command? id = some d → next.registry.command? id = some d
  diagnostics : state.registry.diagnostics ⊆ next.registry.diagnostics
  pending : state.pending <+: next.pending

theorem Extends.refl (state : Extraction) : Extends state state :=
  ⟨rfl, fun h => h, List.Subset.refl _, List.prefix_refl _⟩

theorem Extends.trans {a b c : Extraction} (hab : Extends a b) (hbc : Extends b c) : Extends a c :=
  ⟨hbc.symbols_eq.trans hab.symbols_eq, fun h => hbc.commands (hab.commands h),
    List.Subset.trans hab.diagnostics hbc.diagnostics, hab.pending.trans hbc.pending⟩

theorem extends_element (state : Extraction) (input : CommandInput) :
    Extends state (state.element input) := by
  obtain ⟨hsymbols, hcommand, hdiagnostics, hpending⟩ := element_entry state input
  refine ⟨hsymbols, fun {id d} h => ?_, ?_, ?_⟩
  · rw [hcommand, h, Option.some_or]
  · rw [hdiagnostics]
    exact List.subset_append_left _ _
  · rw [hpending]
    exact List.prefix_append _ _

theorem extends_elements (state : Extraction) (inputs : List CommandInput) :
    Extends state (state.elements inputs) := by
  unfold elements
  induction inputs generalizing state with
  | nil => exact .refl _
  | cons input rest ih => exact (extends_element state input).trans (ih _)

theorem extends_holder (state : Extraction) (group : SymbolId × ArgGroupInput) :
    Extends state (state.holder group) := by
  unfold holder
  split
  · exact .refl _
  · exact extends_element _ _

theorem extends_foldl_holder (state : Extraction) (groups : List (SymbolId × ArgGroupInput)) :
    Extends state (groups.foldl holder state) := by
  induction groups generalizing state with
  | nil => exact .refl _
  | cons group rest ih => exact (extends_holder state group).trans (ih _)

theorem extends_holders (state : Extraction) : Extends state state.holders :=
  extends_foldl_holder state state.pending

/-! ## The entry in the result -/

/-- The extraction has all that an entry adds. -/
structure Shows (state : Extraction) (entry : Entry) : Prop where
  command : ∀ d, entry.command = some d → state.registry.command? d.id = some d
  reports : entry.reports ⊆ state.registry.diagnostics
  pending : entry.pending ⊆ state.pending

theorem Shows.mono {entry : Entry} (h : Shows state entry) (hnext : Extends state next) :
    Shows next entry :=
  ⟨fun d hd => hnext.commands (h.command d hd), List.Subset.trans h.reports hnext.diagnostics,
    List.Subset.trans h.pending hnext.pending.subset⟩

theorem shows_element (state : Extraction) (input : CommandInput) :
    (state.element input).Shows (state.entry input) := by
  obtain ⟨-, hcommand, hdiagnostics, hpending⟩ := element_entry state input
  refine ⟨fun d hd => ?_, ?_, ?_⟩
  · -- An element that becomes a command was not known before.
    obtain ⟨hknown, -⟩ := CommandInput.entry_eq_some hd
    have hid := CommandInput.id_of_entry hd
    have hnone : state.registry.command? d.id = none := by
      rw [hid]
      exact Option.isNone_iff_eq_none.1 (by simpa using hknown)
    rw [hcommand, hnone, hd]
    simp
  · rw [hdiagnostics]
    exact List.subset_append_right _ _
  · rw [hpending]
    exact List.subset_append_right _ _

/-- Every element of an extraction shows as one that is known already or as one that is not. -/
theorem exists_entry (state : Extraction) (h : input ∈ inputs) :
    ∃ known, Shows (state.elements inputs) (input.entry state.registry.symbols known) := by
  obtain ⟨before, after, rfl⟩ := List.append_of_mem h
  have hsplit : state.elements (before ++ input :: after) =
      ((state.elements before).element input).elements after := by
    simp only [elements, List.foldl_append, List.foldl_cons]
  have hshows := (shows_element (state.elements before) input).mono (extends_elements _ after)
  rw [← hsplit, entry, (extends_elements state before).symbols_eq] at hshows
  exact ⟨_, hshows⟩

/-- The type of a group that no element declares shows as the holder of the first group of that type
that waits. -/
theorem shows_holder {groupType : SymbolId} {first : SymbolId × ArgGroupInput}
    (hnone : state.registry.command? groupType = none)
    (hfirst : state.pending.find? (fun group => group.1 = groupType) = some first) :
    Shows state.holders ((holderInput groupType first.2).entry state.registry.symbols false) := by
  obtain ⟨htype, before, after, hpending, hbefore⟩ := List.find?_eq_some_iff_append.1 hfirst
  obtain rfl : first.1 = groupType := by simpa using htype
  have hsplit : state.holders = after.foldl holder ((before.foldl holder state).holder first) := by
    rw [holders, hpending, List.foldl_append, List.foldl_cons]
  -- The groups before the first one are of other types.
  have hstill : (before.foldl holder state).registry.command? first.1 = none := by
    clear hsplit hpending hfirst
    induction before generalizing state with
    | nil => exact hnone
    | cons group rest ih =>
      have hne : group.1 ≠ first.1 := by simpa using hbefore group (List.mem_cons_self ..)
      refine @ih (state.holder group) ?_
        fun other hother => hbefore other (List.mem_cons_of_mem _ hother)
      unfold holder
      split
      · exact hnone
      · exact (command?_element_of_ne hne).trans hnone
  have hholder : (before.foldl holder state).holder first =
      (before.foldl holder state).element (holderInput first.1 first.2) := by
    rw [holder, hstill]
    rfl
  have hshows := (shows_element (before.foldl holder state) (holderInput first.1 first.2)).mono
    (extends_foldl_holder _ after)
  have helement : (holderInput first.1 first.2).element = first.1 := rfl
  rw [← hholder, ← hsplit, entry, (extends_foldl_holder state before).symbols_eq, helement,
    hstill] at hshows
  exact hshows

end Extraction

/-! ## The registry of a manifest -/

/-- A diagnostic is about the element. -/
def Diagnostics.Mention (diagnostics : List Diagnostic) (element : SymbolId) : Prop :=
  ∃ diagnostic ∈ diagnostics, diagnostic.element = some element

theorem Diagnostics.Mention.mono {a b : List Diagnostic} {element : SymbolId}
    (h : Mention a element) (hsub : a ⊆ b) : Mention b element := by
  obtain ⟨diagnostic, hmem, helement⟩ := h
  exact ⟨diagnostic, hsub hmem, helement⟩

namespace Registry

/-- The command is what the specification of an element has become; what was found when it was
checked is reported. -/
def MadeOf (registry : Registry) (input : CommandInput) (d : CommandDeclaration) : Prop :=
  d ∈ registry.commands ∧ ∃ symbol rooting,
    registry.symbols.get? input.element = some symbol ∧
    registry.symbols.rooting? symbol = .ok rooting ∧
    let noted := CommandDeclaration.ofInput registry.symbols symbol input rooting
      (.ofOwners (registry.symbols.owners symbol.id))
    d = { noted.value.1 with superCommand := d.superCommand } ∧
      noted.diagnostics ⊆ registry.diagnostics

theorem MadeOf.id_eq {registry : Registry} {input : CommandInput} {d : CommandDeclaration}
    (h : registry.MadeOf input d) : d.id = input.element := by
  obtain ⟨-, symbol, rooting, hget, -, heq, -⟩ := h
  obtain ⟨-, hid⟩ := Keyed.get?_eq_some_iff.1 hget
  rw [heq]
  exact hid

/-- An element that shows in an extraction is reported, or has become a command. -/
theorem mention_or_madeOf_of_shows {state : Extraction} {input : CommandInput} {known : Bool}
    (h : state.Shows (input.entry state.registry.symbols known)) :
    Diagnostics.Mention state.registry.linkAncestors.diagnostics input.element ∨
      ∃ d, state.registry.linkAncestors.MadeOf input d := by
  have hreports : state.registry.diagnostics ⊆ state.registry.linkAncestors.diagnostics :=
    List.subset_append_left _ _
  cases hcommand : (input.entry state.registry.symbols known).command with
  | none =>
    obtain ⟨⟨report, hreport, helement⟩, -⟩ := CommandInput.entry_eq_none hcommand
    refine Or.inl ⟨report, hreports (h.reports ?_), helement⟩
    rw [hreport]
    exact List.mem_singleton_self report
  | some d =>
    obtain ⟨-, symbol, rooting, hget, hrooting, hnoted⟩ := CommandInput.entry_eq_some hcommand
    have hfound := h.command d hcommand
    have hlinked := command?_linkAncestors state.registry d.id
    rw [hfound, Option.map_some] at hlinked
    refine Or.inr ⟨_, (command?_eq_some_iff.1 hlinked).1, symbol, rooting, hget, hrooting, ?_⟩
    simp only [show state.registry.linkAncestors.symbols = state.registry.symbols from rfl, hnoted]
    refine ⟨?_, List.Subset.trans h.reports hreports⟩
    by_cases hclass : d.rooting = .classRooted <;> simp [hclass]

variable {settings : Settings} {manifest : Manifest}

/-- The extraction of a manifest when all elements have been taken in and the types of their groups
wait. -/
def elementsOf (settings : Settings) (manifest : Manifest) : Extraction :=
  (Extraction.mk (start manifest.symbols settings) []).elements manifest.elements

theorem symbols_elementsOf : (elementsOf settings manifest).registry.symbols = manifest.symbols :=
  (Extraction.extends_elements (Extraction.mk (start manifest.symbols settings) [])
    manifest.elements).symbols_eq

/-- Every element of a manifest is reported, or has become a command. -/
theorem mention_or_madeOf {input : CommandInput} (h : input ∈ manifest.elements) :
    Diagnostics.Mention (ofManifest settings manifest).diagnostics input.element ∨
      ∃ d, (ofManifest settings manifest).MadeOf input d := by
  have hholders := (elementsOf settings manifest).extends_holders
  obtain ⟨known, hshows⟩ :=
    Extraction.exists_entry (Extraction.mk (start manifest.symbols settings) []) h
  have hlast : (elementsOf settings manifest).holders.Shows
      (input.entry (elementsOf settings manifest).holders.registry.symbols known) := by
    rw [hholders.symbols_eq, symbols_elementsOf]
    exact Extraction.Shows.mono hshows hholders
  exact mention_or_madeOf_of_shows hlast

/-- The type of a group that is no element is reported, or the first group of that type that waits
has become its declaration. -/
theorem mention_or_madeOf_holder {groupType : SymbolId} {first : SymbolId × ArgGroupInput}
    (hunlisted : ∀ input ∈ manifest.elements, input.element ≠ groupType)
    (hfirst : (elementsOf settings manifest).pending.find? (fun group => group.1 = groupType) =
      some first) :
    Diagnostics.Mention (ofManifest settings manifest).diagnostics groupType ∨
      ∃ d, (ofManifest settings manifest).MadeOf (Extraction.holderInput groupType first.2) d := by
  have hnone : (elementsOf settings manifest).registry.command? groupType = none :=
    Extraction.command?_elements_of_ne hunlisted
  have hshows := Extraction.shows_holder hnone hfirst
  rw [← (elementsOf settings manifest).extends_holders.symbols_eq] at hshows
  exact mention_or_madeOf_of_shows hshows

end Registry

end CommandFactory
