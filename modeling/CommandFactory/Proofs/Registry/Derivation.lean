import CommandFactory.Proofs.Registry.Forest
import CommandFactory.Proofs.Symbol.Package

/-!
# Passes that return

A pass spells the type path of every class that it declares, as the path of its container or of its
command, and for that it may have to search for a package. `SymbolTable.typePathWithin?` spells it with
a bound on the search; what it gives is the type path (`typePath_eq_of_typePathWithin?`).

`Registry.extractSpelled` lists the identities that an extraction spells type paths for, in the order
in which it does; they are those of the class-shaped declarations that it leaves
(`mem_extractSpelled_iff`), and these have the paths (`isSpelled_ofManifest`). A compilation also spells
the type paths of mixins. So a pass returns exactly if none of these paths hangs on a cycle of owners
(`Compilation.returns_iff`).
-/

set_option autoImplicit false

namespace CommandFactory

/-! ## Type paths -/

namespace SymbolTable

/-- The type path of an identity, if the search for its package needs no more steps than these. -/
def typePathWithin? (table : SymbolTable) (steps : Nat) (id : SymbolId) : Option String :=
  match table.get? id with
  | none => some (String.ofList (Naming.dotsToSeparators id.text.toList))
  | some symbol =>
      match symbol.kind with
      | .classType _ (some path) _ => some path
      | _ =>
          (table.packageWithin? steps (table.owner? id)).map fun package =>
            "::".intercalate (["crate"] ++
              Naming.packageSegments (package.map fun package => package.id.text) ++ [symbol.name])

/-- The type path of an identity is spelled in the end, after however many steps. -/
def PathEnds (table : SymbolTable) (id : SymbolId) : Prop :=
  ∃ steps path, table.typePathWithin? steps id = some path

/-- What is spelled in some number of steps is the type path. -/
theorem typePath_eq_of_typePathWithin? {table : SymbolTable} {steps : Nat} {id : SymbolId}
    {path : String} (h : table.typePathWithin? steps id = some path) :
    Naming.typePath table id = path := by
  unfold typePathWithin? at h
  unfold Naming.typePath
  cases hget : table.get? id with
  | none =>
    simp only [hget] at h ⊢
    exact Option.some.inj h
  | some symbol =>
    simp only [hget] at h ⊢
    split
    · rename_i hkind
      rw [hkind] at h
      exact Option.some.inj h
    · rename_i hspelled
      split at h
      · rename_i hkind
        exact absurd hkind (hspelled _ _ _)
      · obtain ⟨package, hfound, rfl⟩ := Option.map_eq_some_iff.1 h
        rw [(finds_of_packageWithin? hfound).packageOf?_eq]

/-- The type path of an identity has to be spelled from the package of its symbol, and the search for that
runs into a cycle without a package. -/
structure Hangs (table : SymbolTable) (id : SymbolId) : Prop where
  spelled : ∃ symbol, table.get? id = some symbol ∧
    ∀ superclass path members, symbol.kind ≠ .classType superclass (some path) members
  circles : table.Circles id

theorem pathEnds_iff (table : SymbolTable) (id : SymbolId) : table.PathEnds id ↔ ¬ table.Hangs id := by
  constructor
  · rintro ⟨steps, path, hpath⟩ ⟨⟨symbol, hget, hspelled⟩, hcircles⟩
    simp only [typePathWithin?, hget] at hpath
    obtain ⟨package, hfound, -⟩ := Option.map_eq_some_iff.1 hpath
    exact (table.ends_iff id).1 ⟨steps, package, hfound⟩ hcircles
  · intro hhangs
    unfold PathEnds typePathWithin?
    cases hget : table.get? id with
    | none => exact ⟨0, _, rfl⟩
    | some symbol =>
      dsimp only
      split
      · exact ⟨0, _, rfl⟩
      · rename_i hspelled
        -- A search that does not end would hang the path.
        obtain ⟨steps, package, hfound⟩ := (table.ends_iff id).2 fun hcircles =>
          hhangs ⟨⟨symbol, hget, hspelled⟩, hcircles⟩
        exact ⟨steps, _, by rw [hfound, Option.map_some]⟩

end SymbolTable

/-! ## What an extraction spells type paths for -/

namespace Registry

/-- The classes that get a container while the scope of an owner is found. -/
def enclosingSpelled : Nat → Registry → Option SymbolId → List SymbolId
  | levels, registry, owner =>
      match owner.bind fun id => registry.symbols.get? id with
      | none => []
      | some symbol =>
          match levels with
          | 0 => []
          | levels + 1 =>
              match symbol.kind with
              | .package => []
              | .classType .. =>
                  if registry.declarations.contains symbol.id then []
                  else enclosingSpelled levels registry symbol.owner ++ [symbol.id]
              | _ => enclosingSpelled levels registry symbol.owner

/-- The classes that get a container so that a class has a declaration. -/
def containerSpelled (registry : Registry) (symbol : Symbol) : List SymbolId :=
  if registry.declarations.contains symbol.id then []
  else enclosingSpelled (maxNesting + 1) registry symbol.owner ++ [symbol.id]

/-- The classes that get a container so that a command has a scope. -/
def rootSpelled (registry : Registry) (symbol : Symbol) : List SymbolId :=
  match symbol.kind with
  | .classType .. => enclosingSpelled (maxNesting + 1) registry symbol.owner
  | .method _ =>
      match (symbol.owner.bind fun id => registry.symbols.get? id).filter Symbol.isClass with
      | none => []
      | some owner => registry.containerSpelled owner
  | _ => []

end Registry

namespace Extraction

/-- The identities that type paths are spelled for at one element: the containers around it, and the class
that its command is rooted in. -/
def elementSpelled (state : Extraction) (input : CommandInput) : List SymbolId :=
  match state.registry.symbols.get? input.element with
  | none => []
  | some symbol =>
      if (state.registry.command? input.element).isSome then []
      else
        match state.registry.root symbol with
        | .error _ => []
        | .ok (.classRooted, _, _) => state.registry.rootSpelled symbol ++ [symbol.id]
        | .ok (.methodRooted classId _ _, _, _) => state.registry.rootSpelled symbol ++ [classId]

/-- The identities that type paths are spelled for at a group. -/
def holderSpelled (state : Extraction) (group : SymbolId × ArgGroupInput) : List SymbolId :=
  if (state.registry.command? group.1).isSome then []
  else state.elementSpelled (holderInput group.1 group.2)

/-- What the steps of a run over items spell type paths for, in order. -/
def runSpelled {α : Type} (step : Extraction → α → Extraction)
    (spelled : Extraction → α → List SymbolId) : Extraction → List α → List SymbolId
  | _, [] => []
  | state, item :: rest => spelled state item ++ runSpelled step spelled (step state item) rest

end Extraction

/-- The identities that an extraction spells type paths for, in order. -/
def Registry.extractSpelled (registry : Registry) (inputs : List CommandInput) : List SymbolId :=
  let last := (Extraction.mk registry []).elements inputs
  Extraction.runSpelled Extraction.element Extraction.elementSpelled ⟨registry, []⟩ inputs ++
    Extraction.runSpelled Extraction.holder Extraction.holderSpelled last last.pending

/-! ## What an extraction declares -/

namespace Registry

variable {registry next : Registry} {ids : List SymbolId}

/-- The identity belongs to a class that has a declaration. -/
def DeclaresClass (registry : Registry) (id : SymbolId) : Prop :=
  registry.declarations.contains id = true ∧ registry.symbols.HasClass id

/-- The second registry declares the classes that the first declares and those of the list, which are
classes of the same table. -/
structure Gains (registry : Registry) (ids : List SymbolId) (next : Registry) : Prop where
  symbols : next.symbols = registry.symbols
  declares : ∀ id, next.DeclaresClass id ↔ registry.DeclaresClass id ∨ id ∈ ids

theorem Gains.refl (registry : Registry) : registry.Gains [] registry :=
  ⟨rfl, fun id => by simp⟩

theorem Gains.report (h : registry.Gains ids next) (diagnostics : List Diagnostic) :
    registry.Gains ids (next.report diagnostics) :=
  ⟨h.symbols, h.declares⟩

theorem Gains.trans {last : Registry} {more : List SymbolId} (h : registry.Gains ids next)
    (hnext : next.Gains more last) : registry.Gains (ids ++ more) last where
  symbols := hnext.symbols.trans h.symbols
  declares := by
    intro id
    rw [hnext.declares, h.declares, List.mem_append, or_assoc]

theorem declaresClass_insert {declaration : Declaration} {id : SymbolId} :
    (registry.insert declaration).DeclaresClass id ↔
      (id = declaration.id ∨ registry.declarations.contains id = true) ∧
        registry.symbols.HasClass id := by
  rw [DeclaresClass, contains_insert, symbols_insert, eq_comm]

/-- A class gains a declaration. -/
theorem gains_insert {declaration : Declaration} {id : SymbolId} (hid : declaration.id = id)
    (h : registry.symbols.HasClass id) : registry.Gains [id] (registry.insert declaration) where
  symbols := symbols_insert _ _
  declares := by
    subst hid
    intro id
    rw [declaresClass_insert, List.mem_singleton, DeclaresClass]
    constructor
    · rintro ⟨rfl | hcontains, hclass⟩
      · exact Or.inr rfl
      · exact Or.inl ⟨hcontains, hclass⟩
    · rintro (⟨hcontains, hclass⟩ | rfl)
      · exact ⟨Or.inr hcontains, hclass⟩
      · exact ⟨Or.inl rfl, h⟩

/-- A command of a class gives the class a declaration, and one of a method finds it there. -/
theorem gains_insert_command {d : CommandDeclaration} (h : registry.Rooted (.command d)) :
    registry.Gains [d.classId] (registry.insert (.command d)) := by
  cases h with
  | inClass rooting symbol =>
    have hid : d.classId = d.id := by simp [CommandDeclaration.classId, rooting]
    exact gains_insert hid.symm (hid ▸ symbol)
  | @inMethod _ classId method params rooting symbol classSymbol known =>
    have hid : d.classId = classId := by simp [CommandDeclaration.classId, rooting]
    refine ⟨symbols_insert _ _, fun id => ?_⟩
    rw [declaresClass_insert, List.mem_singleton, DeclaresClass, hid]
    constructor
    · rintro ⟨rfl | hcontains, hclass⟩
      · -- The identity of a method is not one of a class.
        exact absurd symbol hclass.not_hasMethod
      · exact Or.inl ⟨hcontains, hclass⟩
    · rintro (⟨hcontains, hclass⟩ | rfl)
      · exact ⟨Or.inr hcontains, hclass⟩
      · exact ⟨Or.inr known, classSymbol⟩

/-- Every class that gets a container on the way to a scope is spelled, and no other identity. -/
theorem gains_enclosingScope (levels : Nat) (registry : Registry) (owner : Option SymbolId) :
    registry.Gains (enclosingSpelled levels registry owner)
      (enclosingScope levels registry owner).2 := by
  fun_induction enclosingScope levels registry owner with
  | case1 levels registry owner hnone =>
    unfold enclosingSpelled
    simp only [hnone]
    exact .refl registry
  | case2 registry owner symbol hsome =>
    unfold enclosingSpelled
    simp only [hsome]
    exact .refl registry
  | case3 registry owner symbol hsome levels hkind =>
    unfold enclosingSpelled
    simp only [hsome, hkind]
    exact .refl registry
  | case4 registry owner symbol hsome levels superclass typePath members hkind hknown =>
    unfold enclosingSpelled
    simp only [hsome, hkind, if_pos hknown]
    exact .refl registry
  | case5 registry owner symbol hsome levels superclass typePath members hkind hnew scope next heq
      ih =>
    unfold enclosingSpelled
    simp only [hsome, hkind, if_neg hnew]
    -- The containers further out come first, then that of the class itself.
    rw [heq] at ih
    have hclass : next.symbols.HasClass symbol.id := by
      rw [ih.symbols]
      exact ⟨symbol, SymbolTable.get?_of_bind hsome, by simp [Symbol.isClass, hkind]⟩
    exact ih.trans (gains_insert rfl hclass)
  | case6 registry owner symbol hsome levels hpackage hclass ih =>
    unfold enclosingSpelled
    simp only [hsome]
    exact ih

theorem gains_ensureContainer {symbol : Symbol}
    (hknown : registry.symbols.get? symbol.id = some symbol) (hclass : symbol.isClass = true) :
    registry.Gains (registry.containerSpelled symbol) (registry.ensureContainer symbol) := by
  unfold containerSpelled ensureContainer
  split
  · exact .refl registry
  · have hscope := gains_enclosingScope (maxNesting + 1) registry symbol.owner
    revert hscope
    obtain ⟨scope, next⟩ := enclosingScope (maxNesting + 1) registry symbol.owner
    intro hscope
    have hknown : next.symbols.HasClass symbol.id := by
      rw [hscope.symbols]
      exact ⟨symbol, hknown, hclass⟩
    exact hscope.trans (gains_insert rfl hknown)

theorem gains_root {symbol : Symbol} {rooting : Rooting} {scope : Scope}
    (h : registry.root symbol = .ok (rooting, scope, next)) :
    registry.Gains (registry.rootSpelled symbol) next := by
  unfold root at h
  unfold rootSpelled
  cases hkind : symbol.kind with
  | classType superclass typePath members =>
    simp only [hkind, Except.ok.injEq, Prod.mk.injEq] at h ⊢
    obtain ⟨-, -, rfl⟩ := h
    exact gains_enclosingScope _ _ _
  | method params =>
    simp only [hkind] at h ⊢
    cases howner : (symbol.owner.bind fun id => registry.symbols.get? id).filter Symbol.isClass with
    | none =>
      rw [howner] at h
      cases h
    | some owner =>
      rw [howner] at h
      simp only [Except.ok.injEq, Prod.mk.injEq] at h
      obtain ⟨-, -, rfl⟩ := h
      obtain ⟨habove, hclass⟩ := Option.filter_eq_some_iff.1 howner
      exact gains_ensureContainer (SymbolTable.get?_of_bind habove) hclass
  | package => simp [hkind] at h
  | field type argGroup => simp [hkind] at h
  | parameter type => simp [hkind] at h

end Registry

namespace Extraction

open Registry

/-- An element declares the classes that it spells type paths for. -/
theorem gains_element (state : Extraction) (input : CommandInput) :
    state.registry.Gains (state.elementSpelled input) (state.element input).registry := by
  unfold element elementSpelled
  cases hget : state.registry.symbols.get? input.element with
  | none =>
    simp only [hget]
    exact (Gains.refl _).report _
  | some symbol =>
    simp only [hget]
    split
    · exact (Gains.refl _).report _
    · cases hroot : state.registry.root symbol with
      | error failure => exact (Gains.refl _).report _
      | ok found =>
        -- First the containers around the element, then its reports, then the element itself.
        obtain ⟨rooting, scope, next⟩ := found
        obtain ⟨-, hmade⟩ := root_ok hget hroot input
        have hgains := fun diagnostics => ((gains_root hroot).report diagnostics).trans
          (gains_insert_command (hmade.rooted.report diagnostics))
        cases rooting with
        | classRooted => exact hgains _
        | methodRooted classId method params => exact hgains _

theorem gains_holder (state : Extraction) (group : SymbolId × ArgGroupInput) :
    state.registry.Gains (state.holderSpelled group) (state.holder group).registry := by
  unfold holder holderSpelled
  split
  · exact .refl _
  · exact gains_element _ _

/-- Where each step declares what it spells type paths for, a run does. -/
theorem gains_run {α : Type} {step : Extraction → α → Extraction}
    {spelled : Extraction → α → List SymbolId}
    (hstep : ∀ (state : Extraction) (item : α),
      state.registry.Gains (spelled state item) (step state item).registry)
    (items : List α) (state : Extraction) :
    state.registry.Gains (runSpelled step spelled state items)
      (items.foldl step state).registry := by
  induction items generalizing state with
  | nil => exact .refl _
  | cons item rest ih => exact (hstep state item).trans (ih (step state item))

end Extraction

namespace Registry

variable {registry : Registry}

theorem gains_extract (registry : Registry) (inputs : List CommandInput) :
    registry.Gains (registry.extractSpelled inputs) (registry.extract inputs) :=
  (Extraction.gains_run Extraction.gains_element inputs ⟨registry, []⟩).trans
    (Extraction.gains_run Extraction.gains_holder _ _)

/-- Classes with a declaration are told by class-shaped declarations. -/
theorem WellRooted.declaresClass_iff (h : registry.WellRooted) {id : SymbolId} :
    registry.DeclaresClass id ↔
      ∃ declaration ∈ registry.all, declaration.isClassShaped = true ∧ declaration.id = id := by
  constructor
  · rintro ⟨hcontains, hclass⟩
    obtain ⟨declaration, hget⟩ := Keyed.contains_iff.1 hcontains
    obtain ⟨hmem, rfl⟩ := Keyed.get?_eq_some_iff.1 hget
    exact ⟨declaration, hmem, h.isClassShaped hmem hclass, rfl⟩
  · rintro ⟨declaration, hmem, hshaped, rfl⟩
    refine ⟨Keyed.contains_iff.2 ⟨declaration, Keyed.get?_of_mem hmem⟩, ?_⟩
    cases h declaration hmem with
    | container symbol => exact symbol
    | inClass rooting symbol => exact symbol
    | inMethod rooting symbol classSymbol known =>
      -- What is rooted in a method is not class-shaped.
      simp [Declaration.isClassShaped, CommandDeclaration.isMethodRooted, rooting] at hshaped

/-- An extraction spells type paths for the class-shaped declarations that it leaves, and for nothing
else. -/
theorem mem_extractSpelled_iff (settings : Settings) (manifest : Manifest) {id : SymbolId} :
    id ∈ (start manifest.symbols settings).extractSpelled manifest.elements ↔
      ∃ declaration ∈ (ofManifest settings manifest).all,
        declaration.isClassShaped = true ∧ declaration.id = id := by
  have hgains := (gains_extract (start manifest.symbols settings) manifest.elements).declares id
  have hlinked : (ofManifest settings manifest).DeclaresClass id ↔
      ((start manifest.symbols settings).extract manifest.elements).DeclaresClass id := by
    rw [DeclaresClass, ofManifest, contains_linkAncestors]
    rfl
  -- Nothing is declared at the start.
  have hstart : ¬ (start manifest.symbols settings).DeclaresClass id := by
    rintro ⟨hcontains, -⟩
    obtain ⟨declaration, hget⟩ := Keyed.contains_iff.1 hcontains
    exact not_mem_all_start (Keyed.get?_eq_some_iff.1 hget).1
  rw [← (wellRooted_ofManifest settings manifest).declaresClass_iff, hlinked, hgains]
  simp [hstart]

/-- A class-shaped declaration has the type path of its identity. -/
def IsSpelled (table : SymbolTable) (declaration : Declaration) : Prop :=
  declaration.isClassShaped = true → declaration.typePath = Naming.typePath table declaration.id

theorem Makes.isSpelled {declaration : Declaration} (h : registry.Makes declaration) :
    IsSpelled registry.symbols declaration := by
  intro hshaped
  cases h with
  | container known isClass placed housed => rfl
  | @command symbol input rooting scope known rooted placed housed =>
    cases rooting with
    | classRooted => rfl
    | methodRooted classId method params => cases hshaped

theorem Grows.isSpelled {next : Registry} (h : registry.Grows next)
    (hstart : ∀ declaration ∈ registry.all, IsSpelled registry.symbols declaration) :
    ∀ declaration ∈ next.all, IsSpelled registry.symbols declaration := by
  induction h with
  | refl => exact hstart
  | report _ _ ih => exact ih
  | insert made hgrows ih =>
    intro declaration hmem
    rcases mem_insert hmem with ⟨rfl, -⟩ | hold
    · exact hgrows.symbols_eq ▸ made.isSpelled
    · exact ih declaration hold

/-- What an extraction has spelled for a class is the type path of its declaration. -/
theorem isSpelled_ofManifest (settings : Settings) (manifest : Manifest) :
    ∀ declaration ∈ (ofManifest settings manifest).all, IsSpelled manifest.symbols declaration := by
  have hgrown := (grows_extract (start manifest.symbols settings) manifest.elements).isSpelled
    fun _ hmem => absurd hmem not_mem_all_start
  intro declaration hmem
  obtain ⟨before, hbefore, rfl⟩ := List.mem_map.1 hmem
  have hspelled := hgrown before hbefore
  -- A link changes neither the class nor its path.
  cases before with
  | container c => exact hspelled
  | command d =>
    rw [Declaration.linked]
    split <;> exact hspelled

end Registry

/-! ## Passes -/

/-- The identities that type paths of mixins are spelled for, command by command. -/
def Plan.mixinsSpelled (plan : Plan) : List SymbolId :=
  plan.kept.flatMap fun d => d.mixins.map NamedElement.element

/-- The analysis of a manifest returns: every type path that its extraction spells ends. -/
def Analysis.Returns (settings : Settings) (manifest : Manifest) : Prop :=
  ∀ id ∈ (Registry.start manifest.symbols settings).extractSpelled manifest.elements,
    manifest.symbols.PathEnds id

/-- An analysis returns exactly if no type path of a class-shaped declaration hangs. -/
theorem Analysis.returns_iff_not_hangs (settings : Settings) (manifest : Manifest) :
    Returns settings manifest ↔
      ∀ declaration ∈ (Registry.ofManifest settings manifest).all,
        declaration.isClassShaped = true → ¬ manifest.symbols.Hangs declaration.id := by
  constructor
  · intro hreturns declaration hmem hshaped
    have hspelled := (Registry.mem_extractSpelled_iff settings manifest).2
      ⟨declaration, hmem, hshaped, rfl⟩
    exact (manifest.symbols.pathEnds_iff _).1 (hreturns _ hspelled)
  · intro hfree id hspelled
    obtain ⟨declaration, hmem, hshaped, rfl⟩ :=
      (Registry.mem_extractSpelled_iff settings manifest).1 hspelled
    exact (manifest.symbols.pathEnds_iff _).2 (hfree declaration hmem hshaped)

namespace Compilation

/-- The compilation of a manifest returns: its analysis does and, if there is a command, the type paths
of the mixins end. -/
def Returns (settings : Settings) (manifest : Manifest) : Prop :=
  Analysis.Returns settings manifest ∧
    ((Registry.ofManifest settings manifest).commands.any CommandDeclaration.isCommand = true →
      ∀ id ∈ (Registry.ofManifest settings manifest).plan.mixinsSpelled, manifest.symbols.PathEnds id)

/-- A search for a package ends where the owners lead to no cycle without a package, and has the package
then; the spelling of a type path ends if no such search hangs, and gives the type path then.

An extraction spells the paths of the class-shaped declarations that it leaves, and these are the paths
that they have; the statement for a mixin has the path of the mixin. So an analysis returns exactly if
the type path of no class-shaped declaration hangs, and a compilation if that of no mixin does either. -/
theorem returns_iff (settings : Settings) (manifest : Manifest) :
    (∀ (table : SymbolTable) (id : SymbolId),
      (table.Ends id ↔ ¬ table.Circles id) ∧
      (∀ steps result, table.packageWithin? steps (table.owner? id) = some result →
        table.packageOf? id = result) ∧
      (table.PathEnds id ↔ ¬ table.Hangs id) ∧
      ∀ steps path, table.typePathWithin? steps id = some path →
        Naming.typePath table id = path) ∧
    (∀ id, id ∈ (Registry.start manifest.symbols settings).extractSpelled manifest.elements ↔
      ∃ declaration ∈ (Registry.ofManifest settings manifest).all,
        declaration.isClassShaped = true ∧ declaration.id = id) ∧
    (∀ declaration ∈ (Registry.ofManifest settings manifest).all, declaration.isClassShaped = true →
      declaration.typePath = Naming.typePath manifest.symbols declaration.id) ∧
    (∀ named, ∃ target, (Registry.ofManifest settings manifest).plan.mixin named =
      .addMixin named.name (Naming.typePath manifest.symbols named.element) target) ∧
    (Analysis.Returns settings manifest ↔
      ∀ declaration ∈ (Registry.ofManifest settings manifest).all,
        declaration.isClassShaped = true → ¬ manifest.symbols.Hangs declaration.id) ∧
    (Returns settings manifest ↔
      (∀ declaration ∈ (Registry.ofManifest settings manifest).all,
        declaration.isClassShaped = true → ¬ manifest.symbols.Hangs declaration.id) ∧
      ((Registry.ofManifest settings manifest).commands.any CommandDeclaration.isCommand = true →
        ∀ d ∈ (Registry.ofManifest settings manifest).plan.kept, ∀ named ∈ d.mixins,
          ¬ manifest.symbols.Hangs named.element)) := by
  refine ⟨fun table id => ⟨table.ends_iff id, ?_, table.pathEnds_iff id, ?_⟩,
    fun id => Registry.mem_extractSpelled_iff settings manifest,
    Registry.isSpelled_ofManifest settings manifest, fun named => ?_,
    Analysis.returns_iff_not_hangs settings manifest, ?_⟩
  · intro steps result hfound
    exact (SymbolTable.finds_of_packageWithin? hfound).packageOf?_eq
  · exact fun steps path hpath => SymbolTable.typePath_eq_of_typePathWithin? hpath
  · have hsymbols : (Registry.ofManifest settings manifest).plan.registry.symbols =
        manifest.symbols := Registry.symbols_ofManifest settings manifest
    exact ⟨_, by rw [Plan.mixin, hsymbols]⟩
  · unfold Returns Plan.mixinsSpelled
    rw [Analysis.returns_iff_not_hangs]
    simp only [SymbolTable.pathEnds_iff, List.mem_flatMap, List.mem_map]
    refine and_congr_right fun _ => imp_congr_right fun _ => ?_
    constructor
    · exact fun hends d hd named hnamed => hends _ ⟨d, hd, named, hnamed, rfl⟩
    · rintro hends _ ⟨d, hd, named, hnamed, rfl⟩
      exact hends d hd named hnamed

/-- Two classes that own each other, the first of them a command. -/
def twoOwners : Manifest where
  symbols :=
    .ofList
      [⟨⟨"A"⟩, "A", some ⟨"B"⟩, [], .classType none none none⟩,
        ⟨⟨"B"⟩, "B", some ⟨"A"⟩, [], .classType none none none⟩]
  elements := [{ CommandInput.bare ⟨"A"⟩ with command := some ⟨"a", []⟩ }]

/-- The search for the package of the first class never ends, so its type path is never spelled and
neither pass returns. -/
theorem not_returns_twoOwners :
    (∀ steps, twoOwners.symbols.packageWithin? steps (twoOwners.symbols.owner? ⟨"A"⟩) = none) ∧
      (∀ steps, twoOwners.symbols.typePathWithin? steps ⟨"A"⟩ = none) ∧
      ¬ Analysis.Returns {} twoOwners ∧ ¬ Returns {} twoOwners := by
  have hup : twoOwners.symbols.Passes ⟨"A"⟩ ⟨"B"⟩ :=
    ⟨⟨⟨"B"⟩, "B", some ⟨"A"⟩, [], .classType none none none⟩, by decide, by decide, rfl⟩
  have hback : twoOwners.symbols.Passes ⟨"B"⟩ ⟨"A"⟩ :=
    ⟨⟨⟨"A"⟩, "A", some ⟨"B"⟩, [], .classType none none none⟩, by decide, by decide, rfl⟩
  have hcircles : twoOwners.symbols.Circles ⟨"A"⟩ := ⟨⟨"A"⟩, .refl, .head hup (.single hback)⟩
  have hhangs : twoOwners.symbols.Hangs ⟨"A"⟩ :=
    ⟨⟨⟨⟨"A"⟩, "A", some ⟨"B"⟩, [], .classType none none none⟩, by decide, nofun⟩, hcircles⟩
  have hpath : ¬ twoOwners.symbols.PathEnds ⟨"A"⟩ := fun hends =>
    (SymbolTable.pathEnds_iff _ _).1 hends hhangs
  have hnot : ¬ Analysis.Returns {} twoOwners :=
    fun hreturns => hpath (hreturns ⟨"A"⟩ (by decide +kernel))
  refine ⟨fun steps => ?_, fun steps => ?_, hnot, fun hreturns => hnot hreturns.1⟩
  · cases hfound : twoOwners.symbols.packageWithin? steps (twoOwners.symbols.owner? ⟨"A"⟩) with
    | none => rfl
    | some result => exact absurd hcircles ((SymbolTable.ends_iff _ _).1 ⟨steps, result, hfound⟩)
  · cases hspelled : twoOwners.symbols.typePathWithin? steps ⟨"A"⟩ with
    | none => rfl
    | some path => exact absurd ⟨steps, path, hspelled⟩ hpath

end Compilation

end CommandFactory
