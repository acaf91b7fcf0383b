import CommandFactory.Proofs.Registry.Discovery
import CommandFactory.Proofs.Registry.Ownership

/-!
# Where owners lead

An extraction gives every declaration an owner that its symbol lies in, whatever the owners in the
table are (`WellSited`). A container is put in after its owner, so containers alone make no cycle.
But a command takes the place of a container together with its owner, and the container may have been
cut off at the root because its symbol lies in itself: a command may so come to lie in itself.

Everything reaches the root except what leads to such a command (`grounded_extract_iff`).
-/

set_option autoImplicit false

namespace CommandFactory

open Relation

/-- The second symbol owns the first. -/
def SymbolTable.LiesIn (table : SymbolTable) (id owner : SymbolId) : Prop :=
  ∃ symbol, table.owner? id = some symbol ∧ symbol.id = owner

/-- A symbol lies in every symbol that is found by following its owners. -/
theorem SymbolTable.transGen_liesIn {table : SymbolTable} {levels : Nat} {symbol above : Symbol}
    (known : table.get? symbol.id = some symbol)
    (h : above ∈ table.ownersFrom levels symbol.owner) :
    TransGen table.LiesIn symbol.id above.id := by
  induction levels generalizing symbol with
  | zero => cases h
  | succ levels ih =>
    cases hbind : symbol.owner.bind fun id => table.get? id with
    | none => simp [ownersFrom_of_none hbind] at h
    | some next =>
      have hstep : table.LiesIn symbol.id next.id :=
        ⟨next, by rw [owner?, known, Option.bind_some, hbind], rfl⟩
      rw [ownersFrom_of_some hbind, List.mem_cons] at h
      rcases h with rfl | h
      · exact .single hstep
      · exact .head hstep (ih (get?_of_bind hbind) h)

theorem SymbolTable.get?_of_mem_ownersFrom {table : SymbolTable} {levels : Nat}
    {owner : Option SymbolId} {symbol : Symbol} (h : symbol ∈ table.ownersFrom levels owner) :
    table.get? symbol.id = some symbol := by
  induction levels generalizing owner with
  | zero => cases h
  | succ levels ih =>
    cases hbind : owner.bind fun id => table.get? id with
    | none => simp [ownersFrom_of_none hbind] at h
    | some next =>
      rw [ownersFrom_of_some hbind, List.mem_cons] at h
      rcases h with rfl | h
      · exact get?_of_bind hbind
      · exact ih h

namespace Registry

/-! ## Sites -/

/-- The owner of a declaration: a class that the symbol of the declaration lies in, with a declaration
of its own, which was there first if what it owns is a container. -/
structure Sited (registry : Registry) (declaration : Declaration) (owner : SymbolId) : Prop where
  listed : registry.declarations.contains owner = true
  isClass : registry.symbols.HasClass owner
  above : TransGen registry.symbols.LiesIn declaration.id owner
  earlier : declaration.isContainer = true → registry.Precedes owner declaration.id

/-- Every declaration is at the root or sited in its owner. -/
def WellSited (registry : Registry) : Prop :=
  ∀ declaration ∈ registry.all, ∀ owner, declaration.owner = .declaration owner →
    registry.Sited declaration owner

variable {registry next : Registry} {declaration : Declaration} {owner : SymbolId}

theorem Sited.mono (h : registry.Sited declaration owner) (hsymbols : next.symbols = registry.symbols)
    (hids : registry.ids <+: next.ids) : next.Sited declaration owner where
  listed := contains_iff_mem_ids.2 (hids.subset (contains_iff_mem_ids.1 h.listed))
  isClass := hsymbols ▸ h.isClass
  above := hsymbols ▸ h.above
  earlier hcontainer := (h.earlier hcontainer).mono hids

/-- What is made for a symbol has the scope that the owners of the symbol make. -/
theorem Makes.owner_eq (h : registry.Makes declaration) :
    ∃ symbol levels, registry.symbols.get? symbol.id = some symbol ∧ declaration.id = symbol.id ∧
      declaration.owner = .ofOwners (registry.symbols.ownersFrom levels symbol.owner) := by
  cases h with
  | container known isClass placed housed =>
    obtain ⟨levels, hlevels⟩ := placed.followed
    exact ⟨_, levels, known, rfl, hlevels⟩
  | command known rooted placed housed =>
    exact ⟨_, _, known, rfl, placed.trans (by rw [SymbolTable.owners_of_get? known])⟩

theorem Makes.houses (h : registry.Makes declaration) : registry.Houses declaration.owner := by
  cases h with
  | container known isClass placed housed => exact housed
  | command known rooted placed housed => exact housed

/-- What is put in is sited in its owner. -/
theorem Makes.sited (h : registry.Makes declaration) (haccepts : registry.accepts declaration = true)
    (howner : declaration.owner = .declaration owner) :
    (registry.insert declaration).Sited declaration owner := by
  obtain ⟨symbol, levels, hknown, hid, hscope⟩ := h.owner_eq
  obtain ⟨between, above, rest, howners, rfl, hclass, -⟩ :=
    Scope.ofOwners_eq_declaration (hscope.symm.trans howner)
  have hmem : above ∈ registry.symbols.ownersFrom levels symbol.owner := by simp [howners]
  have hlisted := h.houses _ howner
  refine ⟨contains_insert.2 (Or.inr hlisted), ?_, ?_, fun hcontainer => ?_⟩
  · rw [symbols_insert]
    exact ⟨above, SymbolTable.get?_of_mem_ownersFrom hmem, hclass⟩
  · rw [symbols_insert, hid]
    exact SymbolTable.transGen_liesIn hknown hmem
  · cases declaration with
    | command d => cases hcontainer
    | container c => exact precedes_insert hlisted (new_of_accepts_container haccepts)

theorem WellSited.insert (h : registry.WellSited) (made : registry.Makes declaration) :
    (registry.insert declaration).WellSited := by
  intro other hother owner howner
  rcases mem_insert hother with ⟨rfl, haccepts⟩ | hmem
  · exact made.sited haccepts howner
  · exact (h other hmem owner howner).mono (symbols_insert _ _) (ids_isPrefix_insert _ _)

theorem Grows.wellSited (h : Grows registry next) (hstart : registry.WellSited) :
    next.WellSited := by
  induction h with
  | refl => exact hstart
  | report _ _ ih =>
    intro declaration hmem owner howner
    exact (ih declaration hmem owner howner).mono rfl (List.prefix_refl _)
  | insert made _ ih => exact ih.insert made

/-! ## Consequences -/

/-- The declaration of a class is class-shaped. -/
theorem WellRooted.isClassShaped (h : registry.WellRooted) (hknown : declaration ∈ registry.all)
    (hclass : registry.symbols.HasClass declaration.id) : declaration.isClassShaped = true := by
  cases h declaration hknown with
  | container symbol => rfl
  | inClass rooting symbol =>
    simp [Declaration.isClassShaped, CommandDeclaration.isMethodRooted, rooting]
  | inMethod rooting symbol classSymbol known => exact absurd symbol hclass.not_hasMethod

theorem WellSited.housed (h : registry.WellSited) (hrooted : registry.WellRooted) :
    registry.Housed := by
  intro declaration hmem owner howner
  have hsited := h declaration hmem owner howner
  obtain ⟨above, habove, rfl⟩ := mem_ids.1 (contains_iff_mem_ids.1 hsited.listed)
  exact ⟨above, habove, rfl, hrooted.isClassShaped habove hsited.isClass⟩

theorem WellSited.liesIn (h : registry.WellSited) {id owner : SymbolId}
    (hup : TransGen registry.OwnedBy id owner) : TransGen registry.symbols.LiesIn id owner := by
  refine TransGen.closed ?_ _ _ hup
  rintro id owner ⟨declaration, hget, howner⟩
  obtain ⟨hmem, rfl⟩ := Keyed.get?_eq_some_iff.1 hget
  exact (h declaration hmem owner howner).above

/-- A cycle of owners passes through a command. -/
theorem WellSited.exists_command_of_cycle (h : registry.WellSited) {id : SymbolId}
    (hcycle : TransGen registry.OwnedBy id id) :
    ∃ d ∈ registry.commands, ReflTransGen registry.OwnedBy id d.id ∧
      TransGen registry.OwnedBy d.id d.id := by
  by_contra hno
  push Not at hno
  -- Else there are only containers on the cycle, and each of them was found after its owner.
  have hearlier : ∀ above owner, ReflTransGen registry.OwnedBy id above →
      registry.OwnedBy above owner → registry.Precedes owner above := by
    intro above owner hup hstep
    have habove : TransGen registry.OwnedBy above above :=
      TransGen.trans_right (reflTransGen_of_cycle registry.ownedBy_rightUnique hcycle hup)
        (TransGen.trans_left hcycle hup)
    obtain ⟨declaration, hget, howner⟩ := hstep
    obtain ⟨hmem, rfl⟩ := Keyed.get?_eq_some_iff.1 hget
    cases declaration with
    | command d => exact absurd habove (hno d (mem_commands.2 hmem) hup)
    | container c => exact (h _ hmem owner howner).earlier rfl
  have hprecedes : ∀ above, TransGen registry.OwnedBy id above → registry.Precedes above id := by
    intro above hup
    induction hup with
    | single hstep => exact hearlier _ _ .refl hstep
    | tail hup hstep ih => exact (hearlier _ _ hup.to_reflTransGen hstep).trans ih
  exact Precedes.irrefl registry id (hprecedes id hcycle)

/-- Everything is grounded but what leads to a command that lies in itself. -/
theorem WellSited.grounded_iff (h : registry.WellSited) (hrooted : registry.WellRooted)
    (hknown : declaration ∈ registry.all) :
    registry.Grounded declaration.id ↔
      ∀ d ∈ registry.commands, ReflTransGen registry.OwnedBy declaration.id d.id →
        ¬ TransGen registry.OwnedBy d.id d.id := by
  constructor
  · intro hgrounded d _ hup
    exact (hgrounded.of_reflTransGen hup).not_transGen
  · intro hcommands
    refine (h.housed hrooted).grounded_of_acyclic hknown fun id hup hcycle => ?_
    obtain ⟨d, hd, hd', hself⟩ := h.exists_command_of_cycle hcycle
    exact hcommands d hd (hup.trans hd') hself

/-! ## Extraction -/

theorem wellSited_extract (symbols : SymbolTable) (settings : Settings) (inputs : List CommandInput) :
    ((start symbols settings).extract inputs).WellSited :=
  (grows_extract (start symbols settings) inputs).wellSited fun _ hmem =>
    absurd hmem not_mem_all_start

/-- After an extraction all owners are class-shaped declarations, and what does not reach the root
leads to a command that lies in itself; this can only be where its symbol lies in itself. -/
theorem grounded_extract_iff (symbols : SymbolTable) (settings : Settings)
    (inputs : List CommandInput) :
    ((start symbols settings).extract inputs).Housed ∧
      (∀ declaration ∈ ((start symbols settings).extract inputs).all,
        ((start symbols settings).extract inputs).Grounded declaration.id ↔
          ∀ d ∈ ((start symbols settings).extract inputs).commands,
            ReflTransGen ((start symbols settings).extract inputs).OwnedBy declaration.id d.id →
              ¬ TransGen ((start symbols settings).extract inputs).OwnedBy d.id d.id) ∧
      ∀ d ∈ ((start symbols settings).extract inputs).commands,
        TransGen ((start symbols settings).extract inputs).OwnedBy d.id d.id →
          TransGen symbols.LiesIn d.id d.id := by
  have hrooted := wellRooted_extract symbols settings inputs
  have hsited := wellSited_extract symbols settings inputs
  have hsymbols : ((start symbols settings).extract inputs).symbols = symbols :=
    (grows_extract (start symbols settings) inputs).symbols_eq
  refine ⟨hsited.housed hrooted, fun declaration hmem => hsited.grounded_iff hrooted hmem, ?_⟩
  intro d _ hcycle
  have hup := hsited.liesIn hcycle
  rwa [hsymbols] at hup

/-- A class that owns itself, and a command of it. -/
def selfOwned : Manifest where
  symbols := .ofList [⟨⟨"A"⟩, "A", some ⟨"A"⟩, [], .classType none (some "crate::A") none⟩]
  elements := [{ CommandInput.bare ⟨"A"⟩ with command := some ⟨"a", []⟩ }]

/-- The container of the class is cut off at the root, and the command that replaces it lies in
itself. -/
theorem not_grounded_selfOwned :
    ¬ ∀ declaration ∈ ((start selfOwned.symbols {}).extract selfOwned.elements).all,
      ((start selfOwned.symbols {}).extract selfOwned.elements).Grounded declaration.id := by
  intro h
  have howner : (((start selfOwned.symbols {}).extract selfOwned.elements).get? ⟨"A"⟩).map
      Declaration.owner = some (.declaration ⟨"A"⟩) := by decide +kernel
  obtain ⟨declaration, hget, hscope⟩ := Option.map_eq_some_iff.1 howner
  obtain ⟨hmem, hid⟩ := Keyed.get?_eq_some_iff.1 hget
  exact (hid ▸ h declaration hmem).not_transGen (.single ⟨declaration, hget, hscope⟩)

end Registry

end CommandFactory
