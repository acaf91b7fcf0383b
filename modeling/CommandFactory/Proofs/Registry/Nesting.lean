import CommandFactory.Proofs.Registry.Forest

/-!
# Nesting of declarations

In a shallow table the declarations of an extraction nest as their symbols do (`Mirrors`): each lives
in the nearest class around its symbol, or at the root in the package around it, and the containers
are those that commands need.

Two things make this independent of the order of the elements. A command that takes the place of a
container has the owner that the container had, since both owners are made from the same symbol
(`Nests`). And containers come in only on the way to a command, around its symbol (`root_all`).
-/

set_option autoImplicit false

namespace CommandFactory

/-- The first symbol is a class around the second, with no package between them. -/
def SymbolTable.Encloses (table : SymbolTable) (outer inner : SymbolId) : Prop :=
  ∃ symbol ∈ Symbol.enclosing (table.owners inner), symbol.id = outer

namespace Registry

open Relation

/-- Declarations nest as their symbols do. -/
structure Mirrors (registry : Registry) : Prop where
  /-- The owner is the nearest class above the symbol, or the root in the package that comes first. -/
  owner_eq : ∀ declaration ∈ registry.all,
    declaration.owner = .ofOwners (registry.symbols.owners declaration.id)
  /-- The command of a method lives in the class that has the method. -/
  owner_of_method : ∀ d ∈ registry.commands, ∀ classId method params,
    d.rooting = .methodRooted classId method params →
      registry.symbols.LiesIn d.id classId ∧ d.owner = .declaration classId
  /-- Owners are class-shaped declarations that were discovered before. -/
  owner_before : ∀ declaration ∈ registry.all, ∀ owner, declaration.owner = .declaration owner →
    ∃ above ∈ registry.all, above.id = owner ∧ above.isClassShaped = true ∧
      registry.Precedes owner declaration.id
  /-- A container is what a class around a command has if it is no command itself. -/
  container_iff : ∀ id, (∃ c, registry.get? id = some (.container c)) ↔
    registry.command? id = none ∧ ∃ d ∈ registry.commands, registry.symbols.Encloses id d.id

variable {registry next : Registry} {declaration : Declaration}

/-! ## Owners -/

/-- The owner of every declaration is the scope of its symbol, and was discovered before it. -/
structure Nests (registry : Registry) : Prop where
  owner_eq : ∀ declaration ∈ registry.all,
    declaration.owner = .ofOwners (registry.symbols.owners declaration.id)
  earlier : ∀ declaration ∈ registry.all, ∀ owner, declaration.owner = .declaration owner →
    registry.Precedes owner declaration.id

theorem Makes.owner_eq_owners (h : registry.Makes declaration) (hshallow : registry.symbols.Shallow) :
    declaration.owner = .ofOwners (registry.symbols.owners declaration.id) := by
  cases h with
  | container known isClass placed housed => exact placed.whole hshallow
  | command known rooted placed housed => exact placed

theorem Nests.insert (h : registry.Nests) (hshallow : registry.symbols.Shallow)
    (made : registry.Makes declaration) : (registry.insert declaration).Nests where
  owner_eq := by
    intro other hother
    rw [symbols_insert]
    rcases mem_insert hother with ⟨rfl, -⟩ | hmem
    · exact made.owner_eq_owners hshallow
    · exact h.owner_eq other hmem
  earlier := by
    intro other hother owner howner
    rcases mem_insert hother with ⟨rfl, -⟩ | hmem
    · by_cases hknown : registry.declarations.contains other.id = true
      · -- What was there before has the same symbol, and so the same owner.
        obtain ⟨before, hbefore, hid⟩ := mem_ids.1 (contains_iff_mem_ids.1 hknown)
        have hscope : before.owner = .declaration owner := by
          rw [h.owner_eq before hbefore, hid, ← made.owner_eq_owners hshallow, howner]
        exact hid ▸ (h.earlier before hbefore owner hscope).mono (ids_isPrefix_insert _ _)
      · exact precedes_insert (made.houses owner howner) hknown
    · exact (h.earlier other hmem owner howner).mono (ids_isPrefix_insert _ _)

theorem Grows.nests (h : Grows registry next) (hshallow : registry.symbols.Shallow)
    (hstart : registry.Nests) : next.Nests := by
  induction h with
  | refl => exact hstart
  | report _ _ ih => exact ⟨ih.owner_eq, ih.earlier⟩
  | insert made hgrows ih => exact ih.insert (hgrows.symbols_eq.symm ▸ hshallow) made

/-- The class of a method-rooted command has its method, and is its owner. -/
def MethodsInClasses (registry : Registry) : Prop :=
  ∀ d ∈ registry.commands, ∀ classId method params,
    d.rooting = .methodRooted classId method params →
      registry.symbols.LiesIn d.id classId ∧ d.owner = .declaration classId

theorem Makes.methodInClass {d : CommandDeclaration} (h : registry.Makes (.command d))
    {classId : SymbolId} {method : String} {params : List String}
    (hrooting : d.rooting = .methodRooted classId method params) :
    registry.symbols.LiesIn d.id classId ∧ d.owner = .declaration classId := by
  generalize hmade : Declaration.command d = made at h
  cases h with
  | container known isClass placed housed => cases hmade
  | @command symbol input rooting scope known rooted placed housed =>
    cases hmade
    cases rooted with
    | inClass isClass => cases hrooting
    | @inMethod params owner isMethod above isClass =>
      cases hrooting
      refine ⟨⟨owner, ?_, rfl⟩, placed.trans (scope_of_method known above isClass)⟩
      change registry.symbols.owner? symbol.id = some owner
      rw [SymbolTable.owner?, known, Option.bind_some, above]

theorem Grows.methodsInClasses (h : Grows registry next) (hstart : registry.MethodsInClasses) :
    next.MethodsInClasses := by
  induction h with
  | refl => exact hstart
  | report _ _ ih => exact ih
  | insert made _ ih =>
    intro d hd classId method params hrooting
    rw [symbols_insert]
    rcases mem_insert (mem_commands.1 hd) with ⟨rfl, -⟩ | hmem
    · exact made.methodInClass hrooting
    · exact ih d (mem_commands.2 hmem) classId method params hrooting

/-- Where owners were discovered before what they own, everything reaches the root. -/
theorem Nests.grounded (h : registry.Nests) (hhoused : registry.Housed)
    (hknown : declaration ∈ registry.all) : registry.Grounded declaration.id := by
  refine hhoused.grounded_of_acyclic hknown fun id _ hcycle => ?_
  have hprecedes : ∀ above, TransGen registry.OwnedBy id above → registry.Precedes above id := by
    have hstep : ∀ {below above}, registry.OwnedBy below above → registry.Precedes above below := by
      rintro below above ⟨other, hget, howner⟩
      obtain ⟨hmem, rfl⟩ := Keyed.get?_eq_some_iff.1 hget
      exact h.earlier other hmem above howner
    intro above hup
    induction hup with
    | single hbelow => exact hstep hbelow
    | tail _ hbelow ih => exact (hstep hbelow).trans ih
  exact Precedes.irrefl registry id (hprecedes id hcycle)

/-! ## Classes around a declaration -/

/-- The classes around a declaration have declarations. -/
theorem Nests.contains_of_encloses (h : registry.Nests) (hhoused : registry.Housed)
    (hshallow : registry.symbols.Shallow) {id outer : SymbolId} (hid : id ∈ registry.ids)
    (hencloses : registry.symbols.Encloses outer id) : outer ∈ registry.ids := by
  -- By induction on the number of owners, from a declaration to the one that owns it.
  induction hlength : (registry.symbols.owners id).length using Nat.strong_induction_on
    generalizing id with
  | _ length ih =>
    obtain ⟨declaration, hmem, rfl⟩ := mem_ids.1 hid
    obtain ⟨symbol, hsymbol, rfl⟩ := hencloses
    have hscope := h.owner_eq declaration hmem
    cases howner : declaration.owner with
    | root package =>
      rw [Scope.enclosing_eq_nil (hscope.symm.trans howner)] at hsymbol
      cases hsymbol
    | declaration owner =>
      obtain ⟨above, habove, rfl, -⟩ := hhoused declaration hmem owner howner
      obtain ⟨between, first, rest, howners, hfirst, -, henclosing⟩ :=
        Scope.ofOwners_eq_declaration (hscope.symm.trans howner)
      have hrest := (hshallow.owners_of_append howners).2
      rw [henclosing, List.mem_cons] at hsymbol
      rcases hsymbol with rfl | hsymbol
      · exact hfirst ▸ mem_ids.2 ⟨above, habove, rfl⟩
      · rw [← hrest] at hsymbol
        refine ih _ ?_ (mem_ids.2 ⟨above, habove, hfirst.symm⟩) ⟨symbol, hsymbol, rfl⟩ rfl
        rw [← hlength, hrest, howners, List.length_append, List.length_cons]
        omega

/-! ## What containers are for -/

/-- The containers that a scope needs are those of the classes that make it. -/
theorem enclosingScope_all (levels : Nat) (registry : Registry) (owner : Option SymbolId) :
    ∀ declaration ∈ (enclosingScope levels registry owner).2.all, declaration ∈ registry.all ∨
      ∃ symbol ∈ Symbol.enclosing (registry.symbols.ownersFrom levels owner),
        symbol.id = declaration.id := by
  fun_induction enclosingScope levels registry owner with
  | case1 => exact fun _ hmem => Or.inl hmem
  | case2 => exact fun _ hmem => Or.inl hmem
  | case3 => exact fun _ hmem => Or.inl hmem
  | case4 => exact fun _ hmem => Or.inl hmem
  | case5 registry owner symbol hsome levels superclass typePath members hkind hnew scope next heq
      ih =>
    have hclass : symbol.isClass = true := by simp [Symbol.isClass, hkind]
    rw [SymbolTable.ownersFrom_of_some hsome, Scope.enclosing_class hclass]
    intro declaration hmem
    rcases mem_insert hmem with ⟨rfl, -⟩ | hmem
    · exact Or.inr ⟨symbol, List.mem_cons_self .., rfl⟩
    · rw [heq] at ih
      refine (ih declaration hmem).imp_right ?_
      rintro ⟨other, hother, hid⟩
      exact ⟨other, List.mem_cons_of_mem _ hother, hid⟩
  | case6 registry owner symbol hsome levels hpackage hclass ih =>
    have hnotPackage : symbol.isPackage = false := decide_eq_false hpackage
    rw [SymbolTable.ownersFrom_of_some hsome,
      Scope.enclosing_other hnotPackage (Symbol.isClass_eq_false hclass)]
    exact ih

theorem ensureContainer_all {symbol : Symbol}
    (hknown : registry.symbols.get? symbol.id = some symbol) :
    ∀ declaration ∈ (registry.ensureContainer symbol).all, declaration ∈ registry.all ∨
      declaration.id = symbol.id ∨ registry.symbols.Encloses declaration.id symbol.id := by
  intro declaration hmem
  unfold ensureContainer at hmem
  split at hmem
  · exact Or.inl hmem
  · rcases mem_insert hmem with ⟨rfl, -⟩ | hmem
    · exact Or.inr (Or.inl rfl)
    · unfold SymbolTable.Encloses
      rw [SymbolTable.owners_of_get? hknown]
      exact (enclosingScope_all _ _ _ declaration hmem).imp_right Or.inr

/-- What is put in on the way to a command are containers of classes around its symbol. -/
theorem root_all (hshallow : registry.symbols.Shallow) {symbol : Symbol} {rooting : Rooting}
    {scope : Scope} (hknown : registry.symbols.get? symbol.id = some symbol)
    (h : registry.root symbol = .ok (rooting, scope, next)) :
    ∀ declaration ∈ next.all, declaration ∈ registry.all ∨
      registry.symbols.Encloses declaration.id symbol.id := by
  intro declaration hmem
  unfold root at h
  cases hkind : symbol.kind with
  | classType superclass typePath members =>
    simp only [hkind, Except.ok.injEq, Prod.mk.injEq] at h
    obtain ⟨rfl, rfl, rfl⟩ := h
    unfold SymbolTable.Encloses
    rw [SymbolTable.owners_of_get? hknown]
    exact enclosingScope_all _ _ _ declaration hmem
  | method params =>
    simp only [hkind] at h
    split at h
    · cases h
    · rename_i owner howner
      simp only [Except.ok.injEq, Prod.mk.injEq] at h
      obtain ⟨rfl, rfl, rfl⟩ := h
      obtain ⟨habove, hclass⟩ := Option.filter_eq_some_iff.1 howner
      -- Around the method are its class and the classes around that.
      have howners : registry.symbols.owners symbol.id =
          owner :: registry.symbols.ownersFrom maxNesting owner.owner := by
        rw [SymbolTable.owners_of_get? hknown, SymbolTable.ownersFrom_of_some habove]
      have habove' := (hshallow.owners_of_cons howners).2
      have henclosing : Symbol.enclosing (registry.symbols.owners symbol.id) =
          owner :: Symbol.enclosing (registry.symbols.owners owner.id) := by
        rw [howners, Scope.enclosing_class hclass, habove']
      unfold SymbolTable.Encloses
      rw [henclosing]
      refine (ensureContainer_all (SymbolTable.get?_of_bind habove) declaration hmem).imp_right ?_
      rintro (hid | ⟨other, hother, hid⟩)
      · exact ⟨owner, List.mem_cons_self .., hid.symm⟩
      · exact ⟨other, List.mem_cons_of_mem _ hother, hid⟩
  | package => simp [hkind] at h
  | field type argGroup => simp [hkind] at h
  | parameter type => simp [hkind] at h

/-- Every container is around a command. -/
def ContainersNeeded (registry : Registry) : Prop :=
  ∀ c, Declaration.container c ∈ registry.all →
    ∃ d ∈ registry.commands, registry.symbols.Encloses c.id d.id

theorem ContainersNeeded.element {state : Extraction} (hshallow : state.registry.symbols.Shallow)
    (h : state.registry.ContainersNeeded) (input : CommandInput) :
    (state.element input).registry.ContainersNeeded := by
  rcases state.element_cases input with
    ⟨diagnostics, heq⟩ | ⟨symbol, rooting, scope, next, diagnostics, hget, hroot, heq⟩
  · rw [heq]
    exact h
  · obtain ⟨hgrows, -⟩ := root_ok hget hroot input
    obtain ⟨-, hid⟩ := Keyed.get?_eq_some_iff.1 hget
    have hsymbols : (next.report diagnostics).symbols = state.registry.symbols := hgrows.symbols_eq
    rw [heq]
    intro c hc
    rw [symbols_insert, hsymbols]
    rcases mem_insert hc with ⟨hcommand, -⟩ | hc
    · cases hcommand
    · rcases root_all hshallow (hid.symm ▸ hget) hroot _ hc with hold | hnew
      · obtain ⟨d, hd, hencloses⟩ := h c hold
        have hkept : d ∈ (next.report diagnostics).commands := hgrows.keeps_command hd
        exact ⟨d, mem_commands_insert hkept, hencloses⟩
      · obtain ⟨e, he, heid⟩ := exists_command_insert (next.report diagnostics)
          (CommandDeclaration.ofInput next.symbols symbol input rooting scope).value.1
        refine ⟨e, he, ?_⟩
        rw [heid]
        exact hnew

theorem containersNeeded_extract (hshallow : registry.symbols.Shallow)
    (hstart : registry.ContainersNeeded) (inputs : List CommandInput) :
    (registry.extract inputs).ContainersNeeded := by
  refine (Extraction.induction (P := fun next => Grows registry next ∧ next.ContainersNeeded) ?_
    ⟨registry, []⟩ ⟨.refl, hstart⟩ inputs).2
  rintro state input ⟨hgrows, hneeded⟩
  exact ⟨hgrows.trans (Extraction.grows_element state input),
    hneeded.element (hgrows.symbols_eq.symm ▸ hshallow) input⟩

/-- Where containers are needed, they are what the classes around commands have that are no commands
themselves. -/
theorem Nests.container_iff (h : registry.Nests) (hhoused : registry.Housed)
    (hshallow : registry.symbols.Shallow) (hneeded : registry.ContainersNeeded) (id : SymbolId) :
    (∃ c, registry.get? id = some (.container c)) ↔
      registry.command? id = none ∧ ∃ d ∈ registry.commands, registry.symbols.Encloses id d.id := by
  constructor
  · rintro ⟨c, hget⟩
    obtain ⟨hmem, rfl⟩ := Keyed.get?_eq_some_iff.1 hget
    refine ⟨?_, hneeded c hmem⟩
    rw [command?, hget]
    rfl
  · rintro ⟨hnone, d, hd, hencloses⟩
    have hmem := h.contains_of_encloses hhoused hshallow
      (mem_ids.2 ⟨.command d, mem_commands.1 hd, rfl⟩) hencloses
    obtain ⟨declaration, hdeclaration, rfl⟩ := mem_ids.1 hmem
    have hget := get?_of_mem hdeclaration
    cases declaration with
    | container c => exact ⟨c, hget⟩
    | command e =>
      rw [command?, hget] at hnone
      cases hnone

/-! ## Extraction -/

theorem housed_extract (symbols : SymbolTable) (settings : Settings) (inputs : List CommandInput) :
    ((start symbols settings).extract inputs).Housed :=
  (wellSited_extract symbols settings inputs).housed (wellRooted_extract symbols settings inputs)

theorem nests_extract {symbols : SymbolTable} (settings : Settings) (inputs : List CommandInput)
    (hshallow : symbols.Shallow) : ((start symbols settings).extract inputs).Nests :=
  (grows_extract (start symbols settings) inputs).nests hshallow
    ⟨fun _ hmem => absurd hmem not_mem_all_start, fun _ hmem => absurd hmem not_mem_all_start⟩

/-- An extraction over a shallow table makes a forest. -/
theorem grounded_extract {symbols : SymbolTable} (settings : Settings) (inputs : List CommandInput)
    (hshallow : symbols.Shallow) :
    ∀ declaration ∈ ((start symbols settings).extract inputs).all,
      ((start symbols settings).extract inputs).Grounded declaration.id :=
  fun _ hmem =>
    (nests_extract settings inputs hshallow).grounded (housed_extract symbols settings inputs) hmem

/-- After an extraction over a shallow table, which keeps the table, the declarations nest as their
symbols do. -/
theorem mirrors_extract (symbols : SymbolTable) (settings : Settings) (inputs : List CommandInput)
    (hshallow : symbols.Shallow) :
    ((start symbols settings).extract inputs).symbols = symbols ∧
      ((start symbols settings).extract inputs).Mirrors := by
  have hgrows := grows_extract (start symbols settings) inputs
  have hsymbols : ((start symbols settings).extract inputs).symbols = symbols := hgrows.symbols_eq
  have hhoused := housed_extract symbols settings inputs
  have hnests := nests_extract settings inputs hshallow
  have hmethods := hgrows.methodsInClasses fun _ hd => absurd (mem_commands.1 hd) not_mem_all_start
  have hneeded : ((start symbols settings).extract inputs).ContainersNeeded :=
    containersNeeded_extract hshallow (fun _ hc => absurd hc not_mem_all_start) inputs
  rw [← hsymbols] at hshallow
  refine ⟨hsymbols, hnests.owner_eq, hmethods, ?_, hnests.container_iff hhoused hshallow hneeded⟩
  intro declaration hmem owner howner
  obtain ⟨above, habove, hid, hshaped⟩ := hhoused declaration hmem owner howner
  exact ⟨above, habove, hid, hshaped, hnests.earlier declaration hmem owner howner⟩

/-- A class in a method of a class, a method next to it, and a class whose owner is not in the
table. -/
def localClasses : Manifest where
  symbols :=
    .ofList
      [⟨⟨"demo"⟩, "demo", none, [], .package⟩,
        ⟨⟨"demo.Outer"⟩, "Outer", some ⟨"demo"⟩, [], .classType none none none⟩,
        ⟨⟨"demo.Outer.run"⟩, "run", some ⟨"demo.Outer"⟩, [], .method []⟩,
        ⟨⟨"demo.Outer.run.Local"⟩, "Local", some ⟨"demo.Outer.run"⟩, [],
          .classType none none none⟩,
        ⟨⟨"demo.Outer.stop"⟩, "stop", some ⟨"demo.Outer"⟩, [], .method []⟩,
        ⟨⟨"Stray"⟩, "Stray", some ⟨"gone"⟩, [], .classType none none none⟩]
  elements :=
    [{ CommandInput.bare ⟨"demo.Outer.run.Local"⟩ with command := some ⟨"local", []⟩ },
      { CommandInput.bare ⟨"demo.Outer.stop"⟩ with command := some ⟨"stop", []⟩ },
      { CommandInput.bare ⟨"Stray"⟩ with command := some ⟨"stray", []⟩ }]

theorem mirrors_extract_localClasses :
    localClasses.symbols.Shallow ∧
      ((start localClasses.symbols {}).extract localClasses.elements).symbols =
        localClasses.symbols ∧
      ((start localClasses.symbols {}).extract localClasses.elements).Mirrors :=
  ⟨by decide +kernel, mirrors_extract _ _ _ (by decide +kernel)⟩

end Registry

end CommandFactory
