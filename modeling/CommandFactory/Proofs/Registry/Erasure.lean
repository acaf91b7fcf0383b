import CommandFactory.Proofs.Registry.Entry
import CommandFactory.Proofs.Symbol.Erasure

/-!
# Extraction up to erasure

An extraction erases the parameter types of the methods it meets, and looks at parameter types nowhere
else. So two manifests that list the same elements over alike tables lead to commands for the same
identities (`Registry.declares_ofManifest_alike`).

What a command is rooted in is a matter of its symbol alone (`Registry.rooting?_ofManifest`), and alike
tables agree about it as well (`SymbolTable.rooting?_erased`).
-/

set_option autoImplicit false

namespace CommandFactory

/-! ## One symbol -/

namespace SymbolTable

variable (table : SymbolTable) (symbol : Symbol)

/-- Roots have erased parameter types already. -/
theorem rooting?_erased : table.erased.rooting? symbol.erased = table.rooting? symbol := by
  obtain ⟨id, name, owner, modifiers, kind⟩ := symbol
  cases kind with
  | method params =>
    have howner : (owner.bind fun above => table.erased.get? above).filter Symbol.isClass =
        ((owner.bind fun above => table.get? above).filter Symbol.isClass).map Symbol.erased := by
      cases owner with
      | none => rfl
      | some above =>
        have hclass : Symbol.isClass ∘ Symbol.erased = Symbol.isClass :=
          funext Symbol.isClass_erased
        rw [Option.bind_some, Option.bind_some, get?_erased, Option.filter_map, hclass]
    simp only [rooting?, Symbol.erased, SymbolKind.erased, howner, map_erasure_erased]
    cases (owner.bind fun above => table.get? above).filter Symbol.isClass <;> rfl
  | classType superclass typePath members => rfl
  | package => rfl
  | field type argGroup => rfl
  | parameter type => rfl

theorem checkGroupsOf_erased (input : CommandInput) (rooting : Rooting) :
    checkGroupsOf table.erased symbol.erased input rooting =
      checkGroupsOf table symbol input rooting := by
  cases rooting with
  | classRooted => exact table.checkGroups_erased symbol.id input.argGroups
  | methodRooted classId method params => rfl

variable {table symbol} {other : SymbolTable} {id : SymbolId}

/-- Alike tables agree on what the symbol of an identity roots. -/
theorem Alike.rooting?_eq (h : table.Alike other) :
    (table.get? id).map table.rooting? = (other.get? id).map other.rooting? := by
  have herased : ∀ table : SymbolTable,
      (table.erased.get? id).map table.erased.rooting? = (table.get? id).map table.rooting? := by
    intro table
    rw [get?_erased, Option.map_map]
    exact congrArg (fun f => (table.get? id).map f) (funext table.rooting?_erased)
  rw [← herased table, h.erased_eq, herased other]

end SymbolTable

/-! ## One element -/

/-- Over the erased table an element becomes a command as well, and the same groups wait. -/
theorem CommandInput.entry_erased (table : SymbolTable) (known : Bool) (input : CommandInput) :
    (input.entry table.erased known).command.isSome = (input.entry table known).command.isSome ∧
      (input.entry table.erased known).pending = (input.entry table known).pending := by
  unfold entry
  rw [table.get?_erased]
  cases table.get? input.element with
  | none => exact ⟨rfl, rfl⟩
  | some symbol =>
    cases known with
    | true => exact ⟨rfl, rfl⟩
    | false =>
      simp only [Option.map_some, table.rooting?_erased, Bool.false_eq_true, if_false]
      cases table.rooting? symbol with
      | error failure => exact ⟨rfl, rfl⟩
      | ok rooting =>
        refine ⟨rfl, ?_⟩
        simp only [CommandDeclaration.ofInput, table.checkGroupsOf_erased]

namespace Extraction

open Registry

/-- The extractions go on alike: over alike tables, with commands for the same identities, and with
the same groups that wait. -/
structure Alike (state other : Extraction) : Prop where
  symbols : state.registry.symbols.Alike other.registry.symbols
  declares : ∀ id, state.registry.Declares id ↔ other.registry.Declares id
  pending : state.pending = other.pending

/-- After an element its identity has a command if the element becomes one. -/
theorem declares_element (state : Extraction) (input : CommandInput) (id : SymbolId) :
    (state.element input).registry.Declares id ↔
      state.registry.Declares id ∨
        (input.element = id ∧ (state.entry input).command.isSome = true) := by
  unfold Declares
  rw [(element_entry state input).2.1, Option.isSome_or, Bool.or_eq_true]
  refine or_congr_right ?_
  cases hcommand : (state.entry input).command with
  | none => simp
  | some d =>
    have hid : d.id = input.element := CommandInput.id_of_entry hcommand
    by_cases hsame : input.element = id <;> simp [hid, hsame]

namespace Alike

variable {state other : Extraction}

theorem entry (h : Alike state other) (input : CommandInput) :
    (state.entry input).command.isSome = (other.entry input).command.isSome ∧
      (state.entry input).pending = (other.entry input).pending := by
  have hknown : (state.registry.command? input.element).isSome =
      (other.registry.command? input.element).isSome :=
    Bool.eq_iff_iff.2 (h.declares input.element)
  unfold Extraction.entry
  rw [hknown]
  have hleft := CommandInput.entry_erased state.registry.symbols
    (other.registry.command? input.element).isSome input
  have hright := CommandInput.entry_erased other.registry.symbols
    (other.registry.command? input.element).isSome input
  rw [h.symbols.erased_eq] at hleft
  exact ⟨hleft.1.symm.trans hright.1, hleft.2.symm.trans hright.2⟩

theorem element (h : Alike state other) (input : CommandInput) :
    Alike (state.element input) (other.element input) := by
  obtain ⟨hcommand, hpending⟩ := h.entry input
  obtain ⟨hsymbols, -, -, hadded⟩ := element_entry state input
  obtain ⟨hsymbols', -, -, hadded'⟩ := element_entry other input
  constructor
  · rw [hsymbols, hsymbols']
    exact h.symbols
  · intro id
    rw [declares_element, declares_element, h.declares, hcommand]
  · rw [hadded, hadded', h.pending, hpending]

theorem elements (h : Alike state other) (inputs : List CommandInput) :
    Alike (state.elements inputs) (other.elements inputs) := by
  unfold Extraction.elements
  induction inputs generalizing state other with
  | nil => exact h
  | cons input rest ih => exact ih (h.element input)

theorem holder (h : Alike state other) (group : SymbolId × ArgGroupInput) :
    Alike (state.holder group) (other.holder group) := by
  unfold Extraction.holder
  have hknown : (state.registry.command? group.1).isSome = true ↔
      (other.registry.command? group.1).isSome = true := h.declares group.1
  by_cases hother : (other.registry.command? group.1).isSome = true
  · rw [if_pos hother, if_pos (hknown.2 hother)]
    exact h
  · rw [if_neg hother, if_neg (mt hknown.1 hother)]
    exact h.element _

theorem holders (h : Alike state other) : Alike state.holders other.holders := by
  unfold Extraction.holders
  rw [h.pending]
  generalize other.pending = groups
  induction groups generalizing state other with
  | nil => exact h
  | cons group rest ih => exact ih (h.holder group)

end Alike

end Extraction

/-! ## Manifests -/

namespace Registry

variable {settings : Settings} {manifest : Manifest}

/-- A command is rooted in what its symbol roots. -/
theorem rooting?_ofManifest {d : CommandDeclaration}
    (hd : d ∈ (ofManifest settings manifest).commands) :
    ∃ symbol, manifest.symbols.get? d.id = some symbol ∧
      manifest.symbols.rooting? symbol = .ok d.rooting := by
  let Fits (registry : Registry) : Prop := registry.symbols = manifest.symbols ∧
    ∀ id d, registry.command? id = some d → ∃ symbol, manifest.symbols.get? id = some symbol ∧
      manifest.symbols.rooting? symbol = .ok d.rooting
  have hextract : Fits ((start manifest.symbols settings).extract manifest.elements) := by
    refine Extraction.induction (P := Fits) ?_ (Extraction.mk (start manifest.symbols settings) [])
      ⟨rfl, fun id d h => nomatch h⟩ manifest.elements
    rintro state input ⟨hsymbols, hfits⟩
    obtain ⟨hkept, hcommand, -, -⟩ := Extraction.element_entry state input
    refine ⟨hkept.trans hsymbols, fun id d h => ?_⟩
    rw [hcommand, Option.or_eq_some_iff] at h
    rcases h with hold | ⟨-, hnew⟩
    · exact hfits id d hold
    · -- The new command is the one that the element becomes.
      obtain ⟨hentry, hid⟩ := Option.filter_eq_some_iff.1 hnew
      obtain ⟨-, symbol, rooting, hget, hrooting, hnoted⟩ := CommandInput.entry_eq_some hentry
      have hroot := congrArg (fun noted => noted.value.1.rooting) hnoted
      rw [← of_decide_eq_true hid, CommandInput.id_of_entry hentry]
      rw [hsymbols] at hget hrooting
      exact ⟨symbol, hget, hrooting.trans (congrArg Except.ok hroot)⟩
  have hlinked := command?_of_mem hd
  unfold ofManifest at hlinked
  rw [command?_linkAncestors] at hlinked
  obtain ⟨before, hbefore, heq⟩ := Option.map_eq_some_iff.1 hlinked
  have hrooting : before.rooting = d.rooting := by
    rw [← heq]
    split <;> rfl
  rw [← hrooting]
  exact hextract.2 d.id before hbefore

/-- Over alike tables the elements of a manifest become commands of the same identities. -/
theorem declares_ofManifest_alike {other : SymbolTable} (h : manifest.symbols.Alike other)
    (id : SymbolId) :
    (ofManifest settings manifest).Declares id ↔
      (ofManifest settings { manifest with symbols := other }).Declares id := by
  have hstart : Extraction.Alike ⟨start manifest.symbols settings, []⟩ ⟨start other settings, []⟩ :=
    ⟨h, fun _ => Iff.rfl, rfl⟩
  unfold ofManifest
  rw [declares_linkAncestors, declares_linkAncestors]
  exact (hstart.elements manifest.elements).holders.declares id

/-- Over alike tables the commands are rooted in the same. -/
theorem rooting_ofManifest_alike {other : SymbolTable} (h : manifest.symbols.Alike other)
    (id : SymbolId) :
    ((ofManifest settings manifest).command? id).map CommandDeclaration.rooting =
      ((ofManifest settings { manifest with symbols := other }).command? id).map
        CommandDeclaration.rooting := by
  have hdeclares : ((ofManifest settings manifest).command? id).isSome = true ↔
      ((ofManifest settings { manifest with symbols := other }).command? id).isSome = true :=
    declares_ofManifest_alike h id
  cases hleft : (ofManifest settings manifest).command? id with
  | none =>
    rw [hleft] at hdeclares
    have hright := Option.not_isSome_iff_eq_none.1 (mt hdeclares.2 Bool.false_ne_true)
    rw [hright]
  | some d =>
    rw [hleft] at hdeclares
    obtain ⟨e, hright⟩ := Option.isSome_iff_exists.1 (hdeclares.1 rfl)
    obtain ⟨hd, hid⟩ := command?_eq_some_iff.1 hleft
    obtain ⟨he, hid'⟩ := command?_eq_some_iff.1 hright
    obtain ⟨symbol, hget, hrooting⟩ := rooting?_ofManifest hd
    obtain ⟨symbol', hget', hrooting'⟩ := rooting?_ofManifest he
    have hsame : (manifest.symbols.get? id).map manifest.symbols.rooting? =
        (other.get? id).map other.rooting? := h.rooting?_eq
    rw [hid] at hget
    rw [hid'] at hget'
    rw [hget, hget', Option.map_some, Option.map_some, hrooting, hrooting',
      Option.some.injEq, Except.ok.injEq] at hsame
    rw [hright, Option.map_some, Option.map_some, hsame]

end Registry

end CommandFactory
