import CommandFactory.Compilation
import CommandFactory.Proofs.Registry.Ownership
import CommandFactory.Proofs.Symbol.Owners

/-!
# What a registry goes through

An extraction changes a registry by reports and by insertions only, and each declaration that it
inserts is made for a symbol (`Registry.Makes`): a container for a class, or the command of a class or
of a method, in a scope that the owners of the symbol make and that has a declaration already.
`Registry.Grows` is the relation between a registry and what such changes make of it; `grows_extract`
says that an extraction is one.

Invariants follow by induction over the changes: every declaration of the registry of a manifest is
rooted (`rooted_ofManifest`).
-/

set_option autoImplicit false

namespace CommandFactory

/-- The identity belongs to a class. -/
def SymbolTable.HasClass (table : SymbolTable) (id : SymbolId) : Prop :=
  ∃ symbol, table.get? id = some symbol ∧ symbol.isClass = true

/-- The identity belongs to a method. -/
def SymbolTable.HasMethod (table : SymbolTable) (id : SymbolId) : Prop :=
  ∃ symbol, table.get? id = some symbol ∧ symbol.isMethod = true

theorem SymbolTable.HasClass.not_hasMethod {table : SymbolTable} {id : SymbolId}
    (h : table.HasClass id) : ¬ table.HasMethod id := by
  rintro ⟨method, hget, hmethod⟩
  obtain ⟨symbol, hsymbol, hclass⟩ := h
  obtain rfl : symbol = method := Option.some.inj (hsymbol.symm.trans hget)
  unfold Symbol.isClass at hclass
  unfold Symbol.isMethod at hmethod
  cases hkind : symbol.kind <;> simp [hkind] at hclass hmethod

/-- What has a superclass is a class. -/
theorem SymbolTable.hasClass_of_superclass? {table : SymbolTable} {id above : SymbolId}
    (h : table.superclass? id = some above) : table.HasClass id := by
  obtain ⟨symbol, hget, hkind⟩ := Option.bind_eq_some_iff.1 h
  refine ⟨symbol, hget, ?_⟩
  cases hk : symbol.kind <;> simp [hk] at hkind
  simp [Symbol.isClass, hk]

/-- The scope is one that the owners of a symbol make, as far as they are followed; in a shallow table
that is to their end. -/
structure SymbolTable.Places (table : SymbolTable) (symbol : Symbol) (scope : Scope) : Prop where
  followed : ∃ levels, scope = .ofOwners (table.ownersFrom levels symbol.owner)
  whole : table.Shallow → scope = .ofOwners (table.owners symbol.id)

/-- What the command of a symbol is rooted in: its class, or a method in a class. -/
inductive SymbolTable.Roots (table : SymbolTable) (symbol : Symbol) : Rooting → Prop
  | inClass (isClass : symbol.isClass = true) : Roots table symbol .classRooted
  | inMethod {params : List String} {owner : Symbol} (isMethod : symbol.kind = .method params)
      (above : (symbol.owner.bind fun id => table.get? id) = some owner)
      (isClass : owner.isClass = true) :
      Roots table symbol (.methodRooted owner.id symbol.name (params.map erasure))

/-- The ancestor that a declaration is linked to. -/
def Declaration.superCommand? : Declaration → Option SymbolId
  | .command d => d.superCommand
  | .container _ => none

namespace Registry

/-- The symbol of a declaration has the kind that its root asks for, and the class of a
method-rooted command has a declaration. -/
inductive Rooted (registry : Registry) : Declaration → Prop
  | container {c : Container} (symbol : registry.symbols.HasClass c.id) :
      Rooted registry (.container c)
  | inClass {d : CommandDeclaration} (rooting : d.rooting = .classRooted)
      (symbol : registry.symbols.HasClass d.id) : Rooted registry (.command d)
  | inMethod {d : CommandDeclaration} {classId : SymbolId} {method : String} {params : List String}
      (rooting : d.rooting = .methodRooted classId method params)
      (symbol : registry.symbols.HasMethod d.id) (classSymbol : registry.symbols.HasClass classId)
      (known : registry.declarations.contains classId = true) : Rooted registry (.command d)

/-- The scope is the root, or a declaration that the registry has. -/
def Houses (registry : Registry) (scope : Scope) : Prop :=
  ∀ id, scope = .declaration id → registry.declarations.contains id = true

/-- The declarations that an extraction makes for a symbol, in the registry they go into. -/
inductive Makes (registry : Registry) : Declaration → Prop
  | container {symbol : Symbol} {scope : Scope}
      (known : registry.symbols.get? symbol.id = some symbol) (isClass : symbol.isClass = true)
      (placed : registry.symbols.Places symbol scope) (housed : registry.Houses scope) :
      Makes registry (containerOf registry.symbols symbol scope)
  | command {symbol : Symbol} {input : CommandInput} {rooting : Rooting} {scope : Scope}
      (known : registry.symbols.get? symbol.id = some symbol)
      (rooted : registry.symbols.Roots symbol rooting)
      (placed : scope = .ofOwners (registry.symbols.owners symbol.id))
      (housed : registry.Houses scope) :
      Makes registry
        (.command (CommandDeclaration.ofInput registry.symbols symbol input rooting scope).value.1)

/-- The second registry comes from the first by reports and by insertions of declarations that are
made for symbols. -/
inductive Grows (registry : Registry) : Registry → Prop
  | refl : Grows registry registry
  | report {next : Registry} (diagnostics : List Diagnostic) :
      Grows registry next → Grows registry (next.report diagnostics)
  | insert {next : Registry} {declaration : Declaration} (made : next.Makes declaration) :
      Grows registry next → Grows registry (next.insert declaration)

theorem Grows.trans {a b c : Registry} (hab : Grows a b) (hbc : Grows b c) : Grows a c := by
  induction hbc with
  | refl => exact hab
  | report diagnostics _ ih => exact .report diagnostics ih
  | insert made _ ih => exact .insert made ih

/-! ## Look-up -/

theorem mem_commands {registry : Registry} {d : CommandDeclaration} :
    d ∈ registry.commands ↔ Declaration.command d ∈ registry.all := by
  rw [commands, List.mem_filterMap]
  refine ⟨?_, fun hmem => ⟨.command d, hmem, rfl⟩⟩
  rintro ⟨declaration, hmem, hcommand⟩
  cases declaration with
  | container c => cases hcommand
  | command e =>
    cases hcommand
    exact hmem

theorem command?_eq_some_iff {registry : Registry} {id : SymbolId} {d : CommandDeclaration} :
    registry.command? id = some d ↔ d ∈ registry.commands ∧ d.id = id := by
  unfold command? get?
  rw [Option.bind_eq_some_iff, mem_commands]
  constructor
  · rintro ⟨declaration, hget, hcommand⟩
    cases declaration with
    | container c => cases hcommand
    | command e =>
      cases hcommand
      exact Keyed.get?_eq_some_iff.1 hget
  · rintro ⟨hmem, hid⟩
    exact ⟨.command d, Keyed.get?_eq_some_iff.2 ⟨hmem, hid⟩, rfl⟩

theorem command?_of_mem {registry : Registry} {d : CommandDeclaration}
    (h : d ∈ registry.commands) : registry.command? d.id = some d :=
  command?_eq_some_iff.2 ⟨h, rfl⟩

theorem eq_of_id_eq {registry : Registry} {d e : CommandDeclaration} (hd : d ∈ registry.commands)
    (he : e ∈ registry.commands) (h : d.id = e.id) : d = e :=
  Option.some.inj ((command?_of_mem hd).symm.trans (h ▸ command?_of_mem he))

/-- Commands have different identities, as declarations do. -/
theorem nodup_command_ids (registry : Registry) :
    (registry.commands.map CommandDeclaration.id).Nodup := by
  have hids : (registry.commands.map CommandDeclaration.id).Sublist registry.ids := by
    change ((registry.declarations.toList.filterMap Declaration.command?).map _).Sublist
      (registry.declarations.toList.map Declaration.id)
    induction registry.declarations.toList with
    | nil => exact .slnil
    | cons declaration rest ih =>
      cases declaration with
      | command d => exact ih.cons_cons d.id
      | container c => exact ih.cons c.id
  exact registry.declarations.distinct.sublist hids

/-! ## One change -/

theorem symbols_insert (registry : Registry) (declaration : Declaration) :
    (registry.insert declaration).symbols = registry.symbols := by
  unfold insert
  split <;> rfl

theorem settings_insert (registry : Registry) (declaration : Declaration) :
    (registry.insert declaration).settings = registry.settings := by
  unfold insert
  split <;> rfl

theorem contains_insert {registry : Registry} {declaration : Declaration} {id : SymbolId} :
    (registry.insert declaration).declarations.contains id = true ↔
      declaration.id = id ∨ registry.declarations.contains id = true := by
  unfold insert
  split
  case isTrue h => exact Keyed.contains_put _ _ _
  case isFalse h =>
    refine ⟨Or.inr, ?_⟩
    rintro (rfl | hid)
    · rw [Keyed.contains_iff]
      unfold accepts at h
      cases hget : registry.get? declaration.id with
      | none => simp [hget] at h
      | some known => exact ⟨known, hget⟩
    · exact hid

theorem mem_insert {registry : Registry} {declaration other : Declaration}
    (h : other ∈ (registry.insert declaration).all) :
    (other = declaration ∧ registry.accepts declaration = true) ∨ other ∈ registry.all := by
  unfold insert at h
  split at h
  case isTrue haccepts =>
    rcases Keyed.mem_put.1 h with rfl | ⟨hmem, -⟩
    · exact Or.inl ⟨rfl, haccepts⟩
    · exact Or.inr hmem
  case isFalse => exact Or.inr h

theorem accepts_of_new {registry : Registry} {declaration : Declaration}
    (h : ¬ registry.declarations.contains declaration.id = true) :
    registry.accepts declaration = true := by
  rw [accepts, get?, Keyed.get?_eq_none_iff.2 h]

/-- A container enters only where there is no declaration. -/
theorem new_of_accepts_container {registry : Registry} {c : Container}
    (h : registry.accepts (.container c) = true) :
    ¬ registry.declarations.contains (Declaration.container c).id = true := by
  intro hknown
  obtain ⟨known, hget⟩ := Keyed.contains_iff.1 hknown
  rw [accepts, get?, hget] at h
  cases known <;> cases h

/-- No insertion takes a command away. -/
theorem mem_commands_insert {registry : Registry} {declaration : Declaration}
    {d : CommandDeclaration} (h : d ∈ registry.commands) :
    d ∈ (registry.insert declaration).commands := by
  rw [mem_commands] at h ⊢
  unfold insert
  split
  case isTrue haccepts =>
    refine Keyed.mem_put.2 (Or.inr ⟨h, fun hid => ?_⟩)
    have hget : registry.get? declaration.id = some (.command d) := hid ▸ get?_of_mem h
    simp [accepts, hget] at haccepts
  case isFalse => exact h

/-- After a command was put in, its identity has one. -/
theorem exists_command_insert (registry : Registry) (d : CommandDeclaration) :
    ∃ e ∈ (registry.insert (.command d)).commands, e.id = d.id := by
  by_cases haccepts : registry.accepts (.command d) = true
  · refine ⟨d, mem_commands.2 ?_, rfl⟩
    rw [insert, if_pos haccepts]
    exact Keyed.mem_put.2 (Or.inl rfl)
  · cases hget : registry.get? (Declaration.command d).id with
    | none => simp [accepts, hget] at haccepts
    | some known =>
      cases known with
      | container c => simp [accepts, hget, Declaration.isContainer] at haccepts
      | command e =>
        obtain ⟨hmem, hid⟩ := Keyed.get?_eq_some_iff.1 hget
        exact ⟨e, mem_commands_insert (mem_commands.2 hmem), hid⟩

theorem ids_insert_of_contains {registry : Registry} {declaration : Declaration}
    (h : registry.declarations.contains declaration.id = true) :
    (registry.insert declaration).ids = registry.ids := by
  unfold insert
  split
  · exact Keyed.keys_put_of_contains h
  · rfl

theorem ids_insert_of_new {registry : Registry} {declaration : Declaration}
    (h : ¬ registry.declarations.contains declaration.id = true) :
    (registry.insert declaration).ids = registry.ids ++ [declaration.id] := by
  rw [insert, if_pos (accepts_of_new h)]
  exact Keyed.keys_put_of_new h

/-- An insertion keeps the order of discovery. -/
theorem ids_isPrefix_insert (registry : Registry) (declaration : Declaration) :
    registry.ids <+: (registry.insert declaration).ids := by
  by_cases h : registry.declarations.contains declaration.id = true
  · exact (ids_insert_of_contains h).symm ▸ List.prefix_refl _
  · rw [ids_insert_of_new h]
    exact List.prefix_append _ _

/-! ## Many changes -/

theorem Grows.symbols_eq {registry next : Registry} (h : Grows registry next) :
    next.symbols = registry.symbols := by
  induction h with
  | refl => rfl
  | report _ _ ih => exact ih
  | insert _ _ ih => rw [symbols_insert, ih]

theorem Grows.settings_eq {registry next : Registry} (h : Grows registry next) :
    next.settings = registry.settings := by
  induction h with
  | refl => rfl
  | report _ _ ih => exact ih
  | insert _ _ ih => rw [settings_insert, ih]

theorem Grows.keeps_command {registry next : Registry} (h : Grows registry next)
    {d : CommandDeclaration} (hd : d ∈ registry.commands) : d ∈ next.commands := by
  induction h with
  | refl => exact hd
  | report _ _ ih => exact ih
  | insert _ _ ih => exact mem_commands_insert ih

/-- A rooted declaration stays rooted where the registry keeps its symbols and its identities. -/
theorem Rooted.mono {registry next : Registry} {declaration : Declaration}
    (h : registry.Rooted declaration) (hsymbols : next.symbols = registry.symbols)
    (hcontains : ∀ id, registry.declarations.contains id = true →
      next.declarations.contains id = true) :
    next.Rooted declaration := by
  cases h with
  | container symbol => exact .container (hsymbols ▸ symbol)
  | inClass rooting symbol => exact .inClass rooting (hsymbols ▸ symbol)
  | inMethod rooting symbol classSymbol known =>
    exact .inMethod rooting (hsymbols ▸ symbol) (hsymbols ▸ classSymbol) (hcontains _ known)

theorem Rooted.report {registry : Registry} {declaration : Declaration}
    (h : registry.Rooted declaration) (diagnostics : List Diagnostic) :
    (registry.report diagnostics).Rooted declaration :=
  h.mono rfl fun _ hid => hid

/-! ### What an insertion makes -/

/-- The scope of a method is its class. -/
theorem scope_of_method {table : SymbolTable} {symbol owner : Symbol}
    (known : table.get? symbol.id = some symbol)
    (above : (symbol.owner.bind fun id => table.get? id) = some owner)
    (isClass : owner.isClass = true) :
    Scope.ofOwners (table.owners symbol.id) = .declaration owner.id := by
  rw [SymbolTable.owners_of_get? known, SymbolTable.ownersFrom_of_some above,
    Scope.ofOwners_class isClass]

theorem Makes.rooted {registry : Registry} {declaration : Declaration}
    (h : registry.Makes declaration) : registry.Rooted declaration := by
  cases h with
  | container known isClass placed housed => exact .container ⟨_, known, isClass⟩
  | @command symbol input rooting scope known rooted placed housed =>
    cases rooted with
    | inClass isClass => exact .inClass rfl ⟨symbol, known, isClass⟩
    | @inMethod params owner isMethod above isClass =>
      have hget := SymbolTable.get?_of_bind above
      have hmethod : registry.symbols.HasMethod symbol.id :=
        ⟨symbol, known, by simp [Symbol.isMethod, isMethod]⟩
      exact .inMethod rfl hmethod ⟨owner, hget, isClass⟩
        (housed owner.id (placed.trans (scope_of_method known above isClass)))

theorem Makes.unlinked {registry : Registry} {declaration : Declaration}
    (h : registry.Makes declaration) : declaration.superCommand? = none := by
  cases h <;> rfl

theorem Makes.report {registry : Registry} {declaration : Declaration}
    (h : registry.Makes declaration) (diagnostics : List Diagnostic) :
    (registry.report diagnostics).Makes declaration := by
  cases h with
  | container known isClass placed housed =>
    exact .container known isClass placed housed
  | command known rooted placed housed =>
    exact .command known rooted placed housed

/-! ### Invariants -/

/-- All declarations are rooted. -/
def WellRooted (registry : Registry) : Prop :=
  ∀ declaration ∈ registry.all, registry.Rooted declaration

theorem WellRooted.insert {registry : Registry} {declaration : Declaration}
    (h : registry.WellRooted) (rooted : registry.Rooted declaration) :
    (registry.insert declaration).WellRooted := by
  intro other hother
  have hrooted : registry.Rooted other := by
    rcases mem_insert hother with ⟨rfl, -⟩ | hmem
    · exact rooted
    · exact h other hmem
  exact hrooted.mono (symbols_insert _ _) fun id hid => contains_insert.2 (Or.inr hid)

theorem Grows.wellRooted {registry next : Registry} (h : Grows registry next)
    (hstart : registry.WellRooted) : next.WellRooted := by
  induction h with
  | refl => exact hstart
  | report _ _ ih =>
    intro declaration hmem
    exact (ih declaration hmem).report _
  | insert made _ ih => exact ih.insert made.rooted

/-- What holds of every command that is made for a symbol holds of all commands after a growth. -/
theorem Grows.forall_commands {registry next : Registry} (h : Grows registry next)
    {P : CommandDeclaration → Prop}
    (made : ∀ symbol input rooting scope,
      P (CommandDeclaration.ofInput registry.symbols symbol input rooting scope).value.1)
    (hstart : ∀ d ∈ registry.commands, P d) : ∀ d ∈ next.commands, P d := by
  induction h with
  | refl => exact hstart
  | report _ _ ih => exact ih
  | insert hmade hgrows ih =>
    intro d hd
    rcases mem_insert (mem_commands.1 hd) with ⟨heq, -⟩ | hmem
    · cases hmade with
      | container known isClass placed housed => cases heq
      | command known rooted placed housed =>
        cases heq
        rw [hgrows.symbols_eq]
        exact made _ _ _ _
    · exact ih d (mem_commands.2 hmem)

/-- Growth links nothing. -/
theorem Grows.unlinked {registry next : Registry} (h : Grows registry next)
    (hstart : ∀ declaration ∈ registry.all, declaration.superCommand? = none) :
    ∀ declaration ∈ next.all, declaration.superCommand? = none := by
  induction h with
  | refl => exact hstart
  | report _ _ ih => exact ih
  | insert made _ ih =>
    intro declaration hmem
    rcases mem_insert hmem with ⟨rfl, -⟩ | hold
    · exact made.unlinked
    · exact ih declaration hold

/-! ## Extraction -/

/-- The scope that is found has a declaration, put in on the way if there was none. -/
theorem houses_enclosingScope (levels : Nat) (registry : Registry) (owner : Option SymbolId) :
    (enclosingScope levels registry owner).2.Houses (enclosingScope levels registry owner).1 := by
  fun_induction enclosingScope levels registry owner with
  | case1 | case2 | case3 =>
    intro id hid
    cases hid
  | case4 registry owner symbol hsome levels superclass typePath members hkind hknown =>
    rintro id ⟨⟩
    exact hknown
  | case5 registry owner symbol hsome levels superclass typePath members hkind hnew scope next heq
      ih =>
    rintro id ⟨⟩
    exact contains_insert.2 (Or.inl rfl)
  | case6 registry owner symbol hsome levels hpackage hclass ih => exact ih

/-- The containers that a scope needs are put in, outermost first. In a shallow table the levels have
to be enough for all owners. -/
theorem grows_enclosingScope (levels : Nat) (registry : Registry) (owner : Option SymbolId)
    (hends : registry.symbols.Shallow →
      (registry.symbols.ownersFrom levels owner).length < levels) :
    Grows registry (enclosingScope levels registry owner).2 := by
  fun_induction enclosingScope levels registry owner with
  | case1 => exact .refl
  | case2 => exact .refl
  | case3 => exact .refl
  | case4 => exact .refl
  | case5 registry owner symbol hsome levels superclass typePath members hkind hnew scope next heq
      ih =>
    have hknown := SymbolTable.get?_of_bind hsome
    have habove : registry.symbols.Shallow →
        (registry.symbols.ownersFrom levels symbol.owner).length < levels := fun hshallow => by
      have hlength := hends hshallow
      rw [SymbolTable.ownersFrom_of_some hsome, List.length_cons] at hlength
      omega
    -- The class is put in after the scope around it.
    have hscope := enclosingScope_fst levels registry symbol.owner
    have hhoused := houses_enclosingScope levels registry symbol.owner
    have hgrows := ih habove
    rw [heq] at hscope hhoused hgrows
    rw [← hgrows.symbols_eq] at hknown
    refine .insert (.container hknown (by simp [Symbol.isClass, hkind]) ⟨?_, ?_⟩ hhoused) hgrows
    · exact ⟨levels, hgrows.symbols_eq ▸ hscope⟩
    · rw [hgrows.symbols_eq] at hknown ⊢
      intro hshallow
      rw [hshallow.owners_eq hknown (habove hshallow)]
      exact hscope
  | case6 registry owner symbol hsome levels hpackage hclass ih =>
    refine ih fun hshallow => ?_
    have hlength := hends hshallow
    rw [SymbolTable.ownersFrom_of_some hsome, List.length_cons] at hlength
    omega

/-- The scope of a symbol is found, with the containers that it needs. -/
theorem scope_of_symbol {registry : Registry} {symbol : Symbol}
    (hknown : registry.symbols.get? symbol.id = some symbol) :
    (enclosingScope (maxNesting + 1) registry symbol.owner).1 =
        .ofOwners (registry.symbols.owners symbol.id) ∧
      Grows registry (enclosingScope (maxNesting + 1) registry symbol.owner).2 := by
  refine ⟨?_, grows_enclosingScope _ _ _ fun hshallow => hshallow.ends hknown⟩
  rw [enclosingScope_fst, SymbolTable.owners_of_get? hknown]

theorem grows_ensureContainer {registry : Registry} {symbol : Symbol}
    (hknown : registry.symbols.get? symbol.id = some symbol) (hclass : symbol.isClass = true) :
    Grows registry (registry.ensureContainer symbol) := by
  unfold ensureContainer
  split
  · exact .refl
  · obtain ⟨hscope, hgrows⟩ := scope_of_symbol hknown
    have hhoused := houses_enclosingScope (maxNesting + 1) registry symbol.owner
    rw [← hgrows.symbols_eq] at hknown
    refine .insert (.container hknown hclass ⟨⟨maxNesting + 1, ?_⟩, fun _ => ?_⟩ hhoused) hgrows
    · rw [enclosingScope_fst, hgrows.symbols_eq]
    · rw [hscope, hgrows.symbols_eq]

theorem contains_ensureContainer (registry : Registry) (symbol : Symbol) :
    (registry.ensureContainer symbol).declarations.contains symbol.id = true := by
  unfold ensureContainer
  split
  case isTrue h => exact h
  case isFalse => exact contains_insert.2 (Or.inl rfl)

/-- The command of an element is made for its symbol, and only containers have been put in for it. -/
theorem root_ok {registry next : Registry} {id : SymbolId} {symbol : Symbol} {rooting : Rooting}
    {scope : Scope} (hget : registry.symbols.get? id = some symbol)
    (h : registry.root symbol = .ok (rooting, scope, next)) (input : CommandInput) :
    Grows registry next ∧
      next.Makes
        (.command (CommandDeclaration.ofInput next.symbols symbol input rooting scope).value.1) := by
  obtain ⟨-, rfl⟩ := Keyed.get?_eq_some_iff.1 hget
  unfold root at h
  cases hkind : symbol.kind with
  | classType superclass typePath members =>
    simp only [hkind, Except.ok.injEq, Prod.mk.injEq] at h
    obtain ⟨rfl, rfl, rfl⟩ := h
    obtain ⟨hscope, hgrows⟩ := scope_of_symbol hget
    refine ⟨hgrows, .command (hgrows.symbols_eq ▸ hget) (.inClass ?_) ?_ ?_⟩
    · simp [Symbol.isClass, hkind]
    · rw [hscope, hgrows.symbols_eq]
    · exact houses_enclosingScope _ _ _
  | method params =>
    simp only [hkind] at h
    split at h
    · cases h
    · -- The class of the method has a declaration, put in now if there was none.
      rename_i owner howner
      simp only [Except.ok.injEq, Prod.mk.injEq] at h
      obtain ⟨rfl, rfl, rfl⟩ := h
      obtain ⟨habove, hclass⟩ := Option.filter_eq_some_iff.1 howner
      have hgrows := grows_ensureContainer (SymbolTable.get?_of_bind habove) hclass
      refine ⟨hgrows, .command (hgrows.symbols_eq ▸ hget) (.inMethod hkind ?_ hclass) ?_ ?_⟩
      · rw [hgrows.symbols_eq]
        exact habove
      · rw [hgrows.symbols_eq, scope_of_method hget habove hclass]
      · rintro id ⟨⟩
        exact contains_ensureContainer registry owner
  | package => simp [hkind] at h
  | field type argGroup => simp [hkind] at h
  | parameter type => simp [hkind] at h

end Registry

namespace Extraction

open Registry

/-- An element leaves reports only; or it has a symbol that it is the command of, and the command goes
in after the containers that its scope needs. -/
theorem element_cases (state : Extraction) (input : CommandInput) :
    (∃ diagnostics, (state.element input).registry = state.registry.report diagnostics) ∨
      ∃ symbol rooting scope next diagnostics,
        state.registry.symbols.get? input.element = some symbol ∧
          state.registry.root symbol = .ok (rooting, scope, next) ∧
          (state.element input).registry =
            (next.report diagnostics).insert
              (.command
                (CommandDeclaration.ofInput next.symbols symbol input rooting scope).value.1) := by
  unfold element
  cases hget : state.registry.symbols.get? input.element with
  | none =>
    simp only [hget]
    exact Or.inl ⟨_, rfl⟩
  | some symbol =>
    simp only [hget]
    split
    · exact Or.inl ⟨_, rfl⟩
    · cases hroot : state.registry.root symbol with
      | error failure => exact Or.inl ⟨_, rfl⟩
      | ok found =>
        obtain ⟨rooting, scope, next⟩ := found
        exact Or.inr ⟨symbol, rooting, scope, next, _, rfl, hroot, rfl⟩

theorem grows_element (state : Extraction) (input : CommandInput) :
    Grows state.registry (state.element input).registry := by
  rcases element_cases state input with
    ⟨diagnostics, heq⟩ | ⟨symbol, rooting, scope, next, diagnostics, hget, hroot, heq⟩
  · rw [heq]
    exact .report _ .refl
  · -- First the containers around the element, then its reports, then the element itself.
    obtain ⟨hgrows, hmade⟩ := root_ok hget hroot input
    rw [heq]
    exact .insert (hmade.report _) (.report _ hgrows)

/-- What every element keeps holds of the registry that all of them, and the holders of their groups,
lead to. -/
theorem induction {P : Registry → Prop}
    (step : ∀ (state : Extraction) (input : CommandInput),
      P state.registry → P (state.element input).registry)
    (state : Extraction) (h : P state.registry) (inputs : List CommandInput) :
    P (state.elements inputs).holders.registry := by
  have helements : P (state.elements inputs).registry := by
    unfold elements
    induction inputs generalizing state with
    | nil => exact h
    | cons input rest ih => exact ih _ (step state input h)
  revert helements
  generalize state.elements inputs = state
  intro h
  unfold holders
  -- The groups are those pending at the start, whatever becomes of the state.
  generalize state.pending = groups
  induction groups generalizing state with
  | nil => exact h
  | cons group rest ih =>
    refine ih (state.holder group) ?_
    unfold holder
    split
    · exact h
    · exact step state _ h

end Extraction

namespace Registry

/-- An extraction changes a registry by reports and by insertions of declarations that are made for
symbols. -/
theorem grows_extract (registry : Registry) (inputs : List CommandInput) :
    Grows registry (registry.extract inputs) :=
  Extraction.induction
    (fun state input hgrows => hgrows.trans (Extraction.grows_element state input))
    ⟨registry, []⟩ .refl inputs

/-! ## The registry of a manifest -/

theorem rooted_linked {registry : Registry} {declaration : Declaration}
    (link : SymbolId → Option SymbolId) (h : registry.Rooted declaration) :
    registry.Rooted (declaration.linked link) := by
  cases h with
  | container symbol => exact .container symbol
  | @inClass d rooting symbol =>
    rw [Declaration.linked, if_pos rooting]
    exact .inClass rooting symbol
  | @inMethod d classId method params rooting symbol classSymbol known =>
    have hne : ¬ d.rooting = .classRooted := by simp [rooting]
    rw [Declaration.linked, if_neg hne]
    exact .inMethod rooting symbol classSymbol known

theorem contains_linkAncestors (registry : Registry) (id : SymbolId) :
    registry.linkAncestors.declarations.contains id = registry.declarations.contains id := by
  rw [Bool.eq_iff_iff, Keyed.contains_eq_true_iff, Keyed.contains_eq_true_iff, linkAncestors,
    Keyed.keys_mapItems]

theorem WellRooted.linkAncestors {registry : Registry} (h : registry.WellRooted) :
    registry.linkAncestors.WellRooted := by
  intro declaration hmem
  obtain ⟨before, hbefore, rfl⟩ := List.mem_map.1 hmem
  have hrooted := rooted_linked registry.nearestDeclared? (h before hbefore)
  refine hrooted.mono rfl fun id hid => ?_
  rwa [contains_linkAncestors]

theorem symbols_ofManifest (settings : Settings) (manifest : Manifest) :
    (ofManifest settings manifest).symbols = manifest.symbols :=
  (grows_extract (start manifest.symbols settings) manifest.elements).symbols_eq

theorem settings_ofManifest (settings : Settings) (manifest : Manifest) :
    (ofManifest settings manifest).settings = settings :=
  (grows_extract (start manifest.symbols settings) manifest.elements).settings_eq

theorem not_mem_all_start {symbols : SymbolTable} {settings : Settings} {declaration : Declaration} :
    declaration ∉ (start symbols settings).all :=
  List.not_mem_nil

theorem wellRooted_start (symbols : SymbolTable) (settings : Settings) :
    (start symbols settings).WellRooted :=
  fun _ hmem => absurd hmem not_mem_all_start

theorem wellRooted_extract (symbols : SymbolTable) (settings : Settings)
    (inputs : List CommandInput) : ((start symbols settings).extract inputs).WellRooted :=
  (grows_extract (start symbols settings) inputs).wellRooted (wellRooted_start symbols settings)

/-- What holds of every command that is made for a symbol, whatever its ancestor, holds of all commands
of a manifest. -/
theorem forall_commands_ofManifest (settings : Settings) (manifest : Manifest)
    {P : CommandDeclaration → Prop}
    (made : ∀ symbol input rooting scope,
      P (CommandDeclaration.ofInput manifest.symbols symbol input rooting scope).value.1)
    (linked : ∀ d link, P d → P { d with superCommand := link }) :
    ∀ d ∈ (ofManifest settings manifest).commands, P d := by
  have hgrown := (grows_extract (start manifest.symbols settings) manifest.elements).forall_commands
    made fun _ hd => absurd (mem_commands.1 hd) not_mem_all_start
  intro d hd
  obtain ⟨before, hbefore, heq⟩ := List.mem_map.1 (mem_commands.1 hd)
  cases before with
  | container c => cases heq
  | command e =>
    have he := hgrown e (mem_commands.2 hbefore)
    rw [Declaration.linked] at heq
    split at heq <;> cases heq
    · exact linked e _ he
    · exact he

/-- Every declaration of a manifest is rooted in a symbol of the right kind, and the class of every
method-rooted command has a declaration. -/
theorem wellRooted_ofManifest (settings : Settings) (manifest : Manifest) :
    (ofManifest settings manifest).WellRooted :=
  (wellRooted_extract manifest.symbols settings manifest.elements).linkAncestors

end Registry

end CommandFactory
