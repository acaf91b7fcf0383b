import CommandFactory.Proofs.Module.Plan
import CommandFactory.Proofs.Module.Tree
import Mathlib.Data.List.Flatten

/-!
# What an assembly keeps

Placing a module has four outcomes (`Placed`): it is not there, it becomes a tree at the root, it goes
into the module of its owner, or its owner has no module, which is an error. An assembly without
errors keeps every module (`assembled`), and it places each declaration before the owner of the
declaration (`upward_placements`), so no chain of owners comes back to where it was.
-/

set_option autoImplicit false

namespace CommandFactory

open GeneratedModule

/-! ## One placement -/

/-- What placing the module of a declaration does to an assembly. -/
inductive Placed (registry : Registry) (state : Assembly) (placement : Placement) : Assembly → Prop
  | absent (missing : state.pending.get? placement.declaration = none) :
      Placed registry state placement state
  | undeclared {module : GeneratedModule}
      (found : state.pending.get? placement.declaration = some module)
      (unknown : registry.get? placement.declaration = none) :
      Placed registry state placement
        { state with pending := state.pending.erase placement.declaration }
  | atRoot {module : GeneratedModule} {declaration : Declaration} {package : Option String}
      (found : state.pending.get? placement.declaration = some module)
      (known : registry.get? placement.declaration = some declaration)
      (owner : declaration.owner = .root package) :
      Placed registry state placement
        { state with
          pending := state.pending.erase placement.declaration
          roots := state.roots ++ [⟨placement.index, package, module⟩] }
  | inOwner {module parent : GeneratedModule} {declaration : Declaration} {ownerId : SymbolId}
      (found : state.pending.get? placement.declaration = some module)
      (known : registry.get? placement.declaration = some declaration)
      (owner : declaration.owner = .declaration ownerId)
      (above : (state.pending.erase placement.declaration).get? ownerId = some parent) :
      Placed registry state placement
        { state with
          pending := (state.pending.erase placement.declaration).put (parent.adopt module) }
  | lost {module : GeneratedModule} {declaration : Declaration} {ownerId : SymbolId}
      {diagnostic : Diagnostic}
      (found : state.pending.get? placement.declaration = some module)
      (known : registry.get? placement.declaration = some declaration)
      (owner : declaration.owner = .declaration ownerId)
      (severe : diagnostic.severity = .error)
      (noneAbove : (state.pending.erase placement.declaration).get? ownerId = none) :
      Placed registry state placement
        { state with
          pending := state.pending.erase placement.declaration
          diagnostics := state.diagnostics ++ [diagnostic] }

theorem placed (registry : Registry) (state : Assembly) (placement : Placement) :
    Placed registry state placement (state.place registry placement) := by
  unfold Assembly.place
  cases hfound : state.pending.get? placement.declaration with
  | none => simpa only [hfound] using .absent hfound
  | some module =>
    cases hknown : registry.get? placement.declaration with
    | none => simpa only [hfound, hknown] using .undeclared hfound hknown
    | some declaration =>
      cases howner : declaration.owner with
      | root package => simpa only [hfound, hknown, howner] using .atRoot hfound hknown howner
      | declaration ownerId =>
        cases habove : (state.pending.erase placement.declaration).get? ownerId with
        | some parent =>
          simpa only [hfound, hknown, howner, habove] using .inOwner hfound hknown howner habove
        | none =>
          simpa only [hfound, hknown, howner, habove] using .lost hfound hknown howner rfl habove

namespace Placed

variable {registry : Registry} {state next : Assembly} {placement : Placement}

/-- A placement takes one declaration out of those that have no place, and no other. -/
theorem contains_iff (h : Placed registry state placement next) (id : SymbolId) :
    next.pending.contains id = true ↔
      state.pending.contains id = true ∧ id ≠ placement.declaration := by
  cases h with
  | absent missing =>
    refine ⟨fun hid => ⟨hid, ?_⟩, And.left⟩
    rintro rfl
    exact Keyed.get?_eq_none_iff.1 missing hid
  | undeclared found unknown => exact Keyed.contains_erase _ _ _
  | atRoot found known owner => exact Keyed.contains_erase _ _ _
  | lost found known owner severe noneAbove => exact Keyed.contains_erase _ _ _
  | @inOwner module parent declaration ownerId found known owner above =>
    obtain ⟨hparent, hid⟩ := Keyed.get?_eq_some_iff.1 above
    have hthere := Keyed.contains_iff.2 ⟨parent, above⟩
    rw [Keyed.contains_put, ← Keyed.contains_erase]
    refine or_iff_right_of_imp ?_
    rintro rfl
    rwa [show (parent.adopt module).declaration = ownerId from hid]

/-- If all that have no place are to be placed now or later, the others are to be placed later. -/
theorem rest_contains (h : Placed registry state placement next) {rest : List Placement}
    (hnew : placement.declaration ∉ rest.map Placement.declaration)
    (hall : ∀ id, state.pending.contains id = true ↔
      id ∈ (placement :: rest).map Placement.declaration) (id : SymbolId) :
    next.pending.contains id = true ↔ id ∈ rest.map Placement.declaration := by
  rw [h.contains_iff, hall, List.map_cons, List.mem_cons]
  constructor
  · rintro ⟨rfl | hmem, hne⟩
    · exact absurd rfl hne
    · exact hmem
  · intro hmem
    exact ⟨Or.inr hmem, fun heq => hnew (heq ▸ hmem)⟩

theorem diagnostics_isPrefix (h : Placed registry state placement next) :
    state.diagnostics <+: next.diagnostics := by
  cases h with
  | lost => exact List.prefix_append _ _
  | _ => exact List.prefix_refl _

end Placed

/-! ## Placements without errors -/

/-- A list of declarations in which the owner of each, if it has one, comes later. -/
def Registry.Upward (registry : Registry) : List SymbolId → Prop
  | [] => True
  | id :: rest =>
      (∃ declaration, registry.get? id = some declaration ∧
        ∀ owner, declaration.owner = .declaration owner → owner ∈ rest) ∧
      registry.Upward rest

namespace Assembly

/-- The modules of an assembly, those without a place and those in the trees. -/
def nodes (state : Assembly) : List GeneratedModule :=
  state.pending.toList.flatMap GeneratedModule.nodes ++
    state.roots.flatMap fun root => root.module.nodes

/-- Each tree of the assembly follows the owners, and the trees at the root belong there. -/
structure FollowsOwners (registry : Registry) (state : Assembly) : Prop where
  pendingLinked : ∀ module ∈ state.pending.toList, module.Linked registry
  rootsLinked : ∀ root ∈ state.roots, root.module.Linked registry
  rootsOwned : ∀ root ∈ state.roots, ∃ declaration,
    registry.get? root.module.declaration = some declaration ∧
      declaration.owner = .root root.package

/-- The assembly has the modules of the list, in trees that follow the owners. -/
structure Holds (registry : Registry) (modules : List GeneratedModule) (state : Assembly) : Prop
    extends FollowsOwners registry state where
  nodes : state.nodes.Perm modules
  known : ∀ id, state.pending.contains id = true → ∃ declaration, registry.get? id = some declaration

variable {registry : Registry} {modules : List GeneratedModule} {state next : Assembly}
  {placement : Placement}

/-- A tree that goes to the roots keeps its modules. -/
theorem nodes_toRoot {id : SymbolId} {module : GeneratedModule}
    (found : state.pending.get? id = some module) (root : RootTree)
    (hroot : root.module = module) :
    (Assembly.nodes { state with
      pending := state.pending.erase id
      roots := state.roots ++ [root] }).Perm state.nodes := by
  have hsplit := (Keyed.perm_erase found).flatMap_right GeneratedModule.nodes
  refine List.Perm.symm ((hsplit.append_right _).trans ?_)
  simp only [Assembly.nodes, List.flatMap_cons, List.flatMap_append, List.flatMap_nil,
    List.append_nil, hroot]
  rw [List.append_assoc]
  exact List.perm_append_comm.trans (by rw [List.append_assoc])

/-- A tree that goes into that of its owner keeps its modules. -/
theorem nodes_toOwner {id ownerId : SymbolId} {module parent : GeneratedModule}
    (found : state.pending.get? id = some module)
    (above : (state.pending.erase id).get? ownerId = some parent) :
    (Assembly.nodes { state with
      pending := (state.pending.erase id).put (parent.adopt module) }).Perm state.nodes := by
  refine List.Perm.append_right _ ?_
  have howner : (parent.adopt module).declaration = ownerId := (Keyed.get?_eq_some_iff.1 above).2
  have hput := (Keyed.perm_put (state.pending.erase id)
    (parent.adopt module)).flatMap_right GeneratedModule.nodes
  have hsplit := (Keyed.perm_erase found).flatMap_right GeneratedModule.nodes
  have hsplit' := (Keyed.perm_erase above).flatMap_right GeneratedModule.nodes
  -- On both sides stand the modules of the tree, those of its owner, and those of all others.
  refine hput.trans (List.Perm.symm (hsplit.trans ?_))
  rw [List.flatMap_cons, List.flatMap_cons, nodes_adopt, howner]
  refine (hsplit'.append_left _).trans ?_
  rw [List.flatMap_cons, ← List.append_assoc]
  exact List.perm_append_comm.append_right _

theorem nodes_erase_subset (state : Assembly) (id : SymbolId) :
    (Assembly.nodes { state with pending := state.pending.erase id }) ⊆ state.nodes := by
  intro node hnode
  rcases List.mem_append.1 hnode with hpending | hroots
  · obtain ⟨module, hmodule, hnode⟩ := List.mem_flatMap.1 hpending
    have hmem := (Keyed.mem_erase.1 hmodule).1
    exact List.mem_append_left _ (List.mem_flatMap.2 ⟨module, hmem, hnode⟩)
  · exact List.mem_append_right _ hroots

/-- A placement brings no modules in, whatever it reports. -/
theorem nodes_subset_of_placed (h : Placed registry state placement next) :
    next.nodes ⊆ state.nodes := by
  cases h with
  | absent missing => exact List.Subset.refl _
  | undeclared found unknown => exact nodes_erase_subset state _
  | lost found known owner severe noneAbove => exact nodes_erase_subset state _
  | atRoot found known owner => exact (nodes_toRoot found _ rfl).subset
  | inOwner found known owner above => exact (nodes_toOwner found above).subset

theorem nodes_foldl_subset (placements : List Placement) (state : Assembly) :
    (placements.foldl (place registry) state).nodes ⊆ state.nodes := by
  induction placements generalizing state with
  | nil => exact List.Subset.refl _
  | cons placement rest ih =>
    exact List.Subset.trans (ih _)
      (nodes_subset_of_placed (CommandFactory.placed registry state placement))

/-- What takes a module out of those without a place leaves trees that follow the owners. -/
theorem FollowsOwners.erase (h : state.FollowsOwners registry) (id : SymbolId) :
    Assembly.FollowsOwners registry { state with pending := state.pending.erase id } :=
  ⟨fun module hmodule => h.pendingLinked module (Keyed.mem_erase.1 hmodule).1, h.rootsLinked,
    h.rootsOwned⟩

/-- A placement leaves trees that follow the owners, whatever it reports: a module that is lost is lost
with all modules inside it. -/
theorem FollowsOwners.placed (h : state.FollowsOwners registry)
    (hplaced : Placed registry state placement next) : next.FollowsOwners registry := by
  cases hplaced with
  | absent missing => exact h
  | undeclared found unknown => exact h.erase _
  | lost found known owner severe noneAbove =>
    exact ⟨(h.erase placement.declaration).pendingLinked, h.rootsLinked, h.rootsOwned⟩
  | @atRoot module declaration package found known owner =>
    obtain ⟨hmem, hid⟩ := Keyed.get?_eq_some_iff.1 found
    refine ⟨(h.erase placement.declaration).pendingLinked, ?_, ?_⟩
    · intro root hroot
      rcases List.mem_append.1 hroot with hold | hnew
      · exact h.rootsLinked root hold
      · obtain rfl := List.mem_singleton.1 hnew
        exact h.pendingLinked module hmem
    · intro root hroot
      rcases List.mem_append.1 hroot with hold | hnew
      · exact h.rootsOwned root hold
      · obtain rfl := List.mem_singleton.1 hnew
        exact ⟨declaration, hid ▸ known, owner⟩
  | @inOwner module parent declaration ownerId found known owner above =>
    obtain ⟨hmem, hid⟩ := Keyed.get?_eq_some_iff.1 found
    obtain ⟨hparent, hparentId⟩ := Keyed.get?_eq_some_iff.1 above
    refine ⟨?_, h.rootsLinked, h.rootsOwned⟩
    intro other hother
    rcases Keyed.mem_put.1 hother with rfl | ⟨hold, -⟩
    · refine (h.pendingLinked parent (Keyed.mem_erase.1 hparent).1).adopt
        (h.pendingLinked module hmem) ⟨declaration, hid ▸ known, ?_⟩
      rw [owner, hparentId]
    · exact h.pendingLinked other (Keyed.mem_erase.1 hold).1

theorem FollowsOwners.foldl (placements : List Placement) (h : state.FollowsOwners registry) :
    (placements.foldl (place registry) state).FollowsOwners registry := by
  induction placements generalizing state with
  | nil => exact h
  | cons placement rest ih => exact ih (h.placed (CommandFactory.placed registry state placement))

/-- A placement without an error keeps the modules. -/
theorem Holds.placed (h : state.Holds registry modules) (hplaced : Placed registry state placement next)
    (hno : next.diagnostics = []) : next.Holds registry modules := by
  have hknown : ∀ id, next.pending.contains id = true →
      ∃ declaration, registry.get? id = some declaration :=
    fun id hid => h.known id ((hplaced.contains_iff id).1 hid).1
  refine ⟨h.toFollowsOwners.placed hplaced, ?_, hknown⟩
  cases hplaced with
  | absent missing => exact h.nodes
  | undeclared found unknown =>
    -- Everything without a place is declared.
    obtain ⟨declaration, hget⟩ := h.known _ (Keyed.contains_iff.2 ⟨_, found⟩)
    rw [unknown] at hget
    cases hget
  | lost => simp at hno
  | atRoot found known owner => exact (nodes_toRoot found _ rfl).trans h.nodes
  | inOwner found known owner above => exact (nodes_toOwner found above).trans h.nodes

theorem diagnostics_isPrefix_foldl (placements : List Placement) (state : Assembly) :
    state.diagnostics <+: (placements.foldl (place registry) state).diagnostics := by
  induction placements generalizing state with
  | nil => exact List.prefix_refl _
  | cons placement rest ih =>
    exact (CommandFactory.placed registry state placement).diagnostics_isPrefix.trans (ih _)

/-- If placements report nothing, the first of them reports nothing. -/
theorem diagnostics_place_eq_nil {rest : List Placement}
    (hno : ((placement :: rest).foldl (place registry) state).diagnostics = []) :
    (state.place registry placement).diagnostics = [] := by
  have hprefix : (state.place registry placement).diagnostics <+: [] :=
    hno ▸ diagnostics_isPrefix_foldl rest (state.place registry placement)
  exact List.prefix_nil.1 hprefix

/-- Placements without errors keep the modules. -/
theorem Holds.foldl (placements : List Placement) (h : state.Holds registry modules)
    (hno : (placements.foldl (place registry) state).diagnostics = []) :
    (placements.foldl (place registry) state).Holds registry modules := by
  induction placements generalizing state with
  | nil => exact h
  | cons placement rest ih =>
    have hplaced := CommandFactory.placed registry state placement
    exact ih (h.placed hplaced (diagnostics_place_eq_nil hno)) hno

theorem contains_foldl (placements : List Placement) (state : Assembly) (id : SymbolId) :
    (placements.foldl (place registry) state).pending.contains id = true ↔
      state.pending.contains id = true ∧ id ∉ placements.map Placement.declaration := by
  induction placements generalizing state with
  | nil => simp
  | cons placement rest ih =>
    have hplaced := CommandFactory.placed registry state placement
    rw [List.foldl_cons, ih, hplaced.contains_iff, List.map_cons, List.mem_cons, not_or, and_assoc]

/-- Placements without errors that place everything place each declaration before its owner. -/
theorem upward_foldl (placements : List Placement)
    (hdistinct : (placements.map Placement.declaration).Nodup)
    (hall : ∀ id, state.pending.contains id = true ↔ id ∈ placements.map Placement.declaration)
    (hno : (placements.foldl (place registry) state).diagnostics = [])
    (hknown : ∀ id, state.pending.contains id = true →
      ∃ declaration, registry.get? id = some declaration) :
    registry.Upward (placements.map Placement.declaration) := by
  induction placements generalizing state with
  | nil => trivial
  | cons placement rest ih =>
    rw [List.map_cons, List.nodup_cons] at hdistinct
    have hplaced := CommandFactory.placed registry state placement
    have hnext := diagnostics_place_eq_nil hno
    have hrest := hplaced.rest_contains hdistinct.1 hall
    refine ⟨?_, ih hdistinct.2 hrest hno fun id hid => hknown id ((hplaced.contains_iff id).1 hid).1⟩
    -- The first has a place, in its owner if it has one, and its owner is among those placed later.
    have hpending : state.pending.contains placement.declaration = true :=
      (hall _).2 (List.mem_cons_self ..)
    obtain ⟨declaration, hget⟩ := hknown _ hpending
    refine ⟨declaration, hget, ?_⟩
    intro ownerId howner
    rw [← hrest]
    revert hnext
    generalize state.place registry placement = next at hplaced
    intro hnext
    cases hplaced with
    | absent missing => exact absurd hpending (Keyed.get?_eq_none_iff.1 missing)
    | undeclared found unknown =>
      rw [unknown] at hget
      cases hget
    | lost => simp at hnext
    | atRoot found known owner =>
      obtain rfl := Option.some.inj (known.symm.trans hget)
      rw [owner] at howner
      cases howner
    | @inOwner module parent known' otherId found known owner above =>
      obtain rfl := Option.some.inj (known.symm.trans hget)
      rw [owner] at howner
      cases howner
      exact (Keyed.contains_put _ _ _).2 (Or.inr (Keyed.contains_iff.2 ⟨parent, above⟩))

/-- All that placements report are errors. -/
theorem severe_foldl (placements : List Placement) (state : Assembly) :
    ∀ diagnostic ∈ (placements.foldl (place registry) state).diagnostics,
      diagnostic ∈ state.diagnostics ∨ diagnostic.severity = .error := by
  induction placements generalizing state with
  | nil => exact fun diagnostic hmem => Or.inl hmem
  | cons placement rest ih =>
    intro diagnostic hmem
    rcases ih _ diagnostic hmem with hnext | hsevere
    · revert hnext
      have hplaced := CommandFactory.placed registry state placement
      generalize state.place registry placement = next at hplaced
      intro hnext
      cases hplaced with
      | lost found known owner severe noneAbove =>
        rcases List.mem_append.1 hnext with hold | hnew
        · exact Or.inl hold
        · obtain rfl := List.mem_singleton.1 hnew
          exact Or.inr severe
      | _ => exact Or.inl hnext
    · exact Or.inr hsevere

end Assembly

/-! ## A whole assembly -/

namespace Registry

variable {registry : Registry} {modules : List GeneratedModule}

theorem map_declaration_placements (index : Nat) (modules : List GeneratedModule) :
    (registry.placements index modules).map Placement.declaration =
      modules.map GeneratedModule.declaration := by
  induction modules generalizing index with
  | nil => rfl
  | cons module rest ih => rw [placements, List.map_cons, List.map_cons, ih]

theorem perm_placementOrder (modules : List GeneratedModule) :
    ((registry.placementOrder modules).map Placement.declaration).Perm
      (modules.map GeneratedModule.declaration) := by
  rw [← registry.map_declaration_placements 0]
  exact (sortBy_perm _ _).map _

/-- The assembly before the first placement. -/
def firstAssembly (modules : List GeneratedModule) : Assembly := ⟨.ofList modules, [], []⟩

/-- The assembly after the last placement. -/
def lastAssembly (registry : Registry) (modules : List GeneratedModule) : Assembly :=
  (registry.placementOrder modules).foldl (Assembly.place registry) (firstAssembly modules)

/-- Modules as they come from a synthesis: flat, one for each of some declarations. -/
structure Flat (registry : Registry) (modules : List GeneratedModule) : Prop where
  bare : ∀ module ∈ modules, module.children = []
  distinct : (modules.map GeneratedModule.declaration).Nodup
  known : ∀ module ∈ modules, ∃ declaration, registry.get? module.declaration = some declaration

theorem Flat.toList_firstAssembly (h : registry.Flat modules) :
    (firstAssembly modules).pending.toList = modules :=
  Keyed.toList_ofList h.distinct

theorem Flat.contains_firstAssembly (h : registry.Flat modules) (id : SymbolId) :
    (firstAssembly modules).pending.contains id = true ↔
      id ∈ modules.map GeneratedModule.declaration := by
  rw [Keyed.contains_eq_true_iff, Keyed.keys_eq, h.toList_firstAssembly]

theorem Flat.known_firstAssembly (h : registry.Flat modules) (id : SymbolId)
    (hid : (firstAssembly modules).pending.contains id = true) :
    ∃ declaration, registry.get? id = some declaration := by
  obtain ⟨module, hmem, rfl⟩ := List.mem_map.1 ((h.contains_firstAssembly id).1 hid)
  exact h.known module hmem

theorem Flat.flatMap_nodes (h : registry.Flat modules) : modules.flatMap nodes = modules := by
  rw [List.flatMap_congr fun module hmem => nodes_of_children_eq_nil (h.bare module hmem)]
  simp

theorem Flat.followsOwners_firstAssembly (h : registry.Flat modules) :
    (firstAssembly modules).FollowsOwners registry where
  pendingLinked := by
    intro module hmem
    rw [h.toList_firstAssembly] at hmem
    exact linked_of_children_eq_nil (h.bare module hmem)
  rootsLinked := by simp [firstAssembly]
  rootsOwned := by simp [firstAssembly]

theorem Flat.holds_firstAssembly (h : registry.Flat modules) :
    (firstAssembly modules).Holds registry modules where
  toFollowsOwners := h.followsOwners_firstAssembly
  nodes := by
    rw [Assembly.nodes, h.toList_firstAssembly, h.flatMap_nodes]
    simp [firstAssembly]
  known := h.known_firstAssembly

/-- An assembly without errors has placed everything without a report. -/
theorem diagnostics_lastAssembly
    (hno : Diagnostics.hasErrors (registry.assemble modules).2.diagnostics = false) :
    (registry.lastAssembly modules).diagnostics = [] := by
  have hsevere := Diagnostics.hasErrors_eq_false_iff.1 hno
  apply List.eq_nil_iff_forall_not_mem.2
  intro diagnostic hmem
  rcases Assembly.severe_foldl _ _ diagnostic hmem with hfirst | herror
  · cases hfirst
  · exact hsevere diagnostic (List.mem_append_right _ hmem) herror

theorem Flat.pending_lastAssembly (h : registry.Flat modules) :
    (registry.lastAssembly modules).pending.toList = [] := by
  apply List.eq_nil_iff_forall_not_mem.2
  intro module hmem
  -- What is still there has not been placed, but there was a placement for each module.
  have hthere := Keyed.contains_iff.2 ⟨module, Keyed.get?_of_mem hmem⟩
  rw [lastAssembly, Assembly.contains_foldl, h.contains_firstAssembly,
    (registry.perm_placementOrder modules).mem_iff] at hthere
  exact hthere.2 hthere.1

/-- What an assembly without errors makes of modules. -/
structure Assembled (registry : Registry) (modules : List GeneratedModule)
    (units : List OutputUnit) : Prop where
  /-- The units have no modules but those of the list, and none of them twice. -/
  nodes : ((walkAll (units.map OutputUnit.module)).map GeneratedModule.bare).Subperm modules
  /-- Only modules in trees without any procedure are left out. -/
  complete : ∀ module ∈ modules, module.procedures ≠ [] →
    module ∈ (walkAll (units.map OutputUnit.module)).map GeneratedModule.bare
  linked : ∀ unit ∈ units, unit.module.Linked registry
  atRoot : ∀ unit ∈ units, ∃ declaration, registry.get? unit.element = some declaration ∧
    declaration.owner = .root unit.package

/-- The unit of a tree at the root. -/
def unitOf (registry : Registry) (root : RootTree) : OutputUnit :=
  ⟨root.module.arranged registry.position?, root.package⟩

/-- All trees at the root as units, in the order of their modules. -/
def builtUnits (registry : Registry) (modules : List GeneratedModule) : List OutputUnit :=
  (sortBy (fun a b => a.index ≤ b.index) (registry.lastAssembly modules).roots).map registry.unitOf

/-- The units of an assembly are the trees with a procedure. -/
theorem assemble_fst (registry : Registry) (modules : List GeneratedModule) :
    (registry.assemble modules).1 =
      (registry.builtUnits modules).filter fun unit => unit.module.hasProcedures := rfl

theorem mem_builtUnits {unit : OutputUnit} :
    unit ∈ registry.builtUnits modules ↔
      ∃ root ∈ (registry.lastAssembly modules).roots, registry.unitOf root = unit := by
  simp only [builtUnits, List.mem_map, mem_sortBy]

/-- The units of an assembly have no modules but those that it starts from. -/
theorem Flat.nodes_assemble_subset (h : registry.Flat modules) :
    (walkAll ((registry.assemble modules).1.map OutputUnit.module)).map GeneratedModule.bare ⊆
      modules := by
  intro node hnode
  rw [map_bare_walkAll, List.mem_flatMap] at hnode
  obtain ⟨tree, htree, hnode⟩ := hnode
  rw [assemble_fst] at htree
  obtain ⟨unit, hunit, rfl⟩ := List.mem_map.1 htree
  obtain ⟨root, hroot, rfl⟩ := mem_builtUnits.1 (List.mem_filter.1 hunit).1
  have hbefore := (nodes_arranged registry.position? root.module).mem_iff.1 hnode
  have hlast : node ∈ (registry.lastAssembly modules).nodes :=
    List.mem_append_right _ (List.mem_flatMap.2 ⟨root, hroot, hbefore⟩)
  have hfirst := Assembly.nodes_foldl_subset _ _ hlast
  rwa [Assembly.nodes, h.toList_firstAssembly, h.flatMap_nodes, firstAssembly, List.flatMap_nil,
    List.append_nil] at hfirst

/-- The trees of an assembly follow the owners, with errors or without. -/
theorem Flat.linked_builtUnits (h : registry.Flat modules) {unit : OutputUnit}
    (hunit : unit ∈ registry.builtUnits modules) : unit.module.Linked registry := by
  obtain ⟨root, hroot, rfl⟩ := mem_builtUnits.1 hunit
  exact ((h.followsOwners_firstAssembly.foldl _).rootsLinked root hroot).arranged _

/-- The declaration of a unit is at the root, in the package of the unit. -/
theorem Flat.atRoot_builtUnits (h : registry.Flat modules) {unit : OutputUnit}
    (hunit : unit ∈ registry.builtUnits modules) :
    ∃ declaration, registry.get? unit.element = some declaration ∧
      declaration.owner = .root unit.package := by
  obtain ⟨root, hroot, rfl⟩ := mem_builtUnits.1 hunit
  obtain ⟨declaration, hget, howner⟩ :=
    (h.followsOwners_firstAssembly.foldl _).rootsOwned root hroot
  refine ⟨declaration, ?_, howner⟩
  rw [OutputUnit.element, unitOf, arranged_eq]
  exact hget

theorem Flat.holds_lastAssembly (h : registry.Flat modules)
    (hno : (registry.lastAssembly modules).diagnostics = []) :
    (registry.lastAssembly modules).Holds registry modules :=
  h.holds_firstAssembly.foldl _ hno

/-- The trees at the root have all modules where nothing is reported. -/
theorem Flat.perm_roots (h : registry.Flat modules)
    (hno : (registry.lastAssembly modules).diagnostics = []) :
    ((registry.lastAssembly modules).roots.flatMap fun root => root.module.nodes).Perm modules := by
  have hnodes := (h.holds_lastAssembly hno).nodes
  rwa [Assembly.nodes, h.pending_lastAssembly, List.flatMap_nil, List.nil_append] at hnodes

/-- What the trees of an assembly without reports are. -/
structure Built (registry : Registry) (modules : List GeneratedModule) (units : List OutputUnit) :
    Prop where
  /-- The trees have all modules, and none of them twice. -/
  nodes : ((walkAll (units.map OutputUnit.module)).map GeneratedModule.bare).Perm modules
  linked : ∀ unit ∈ units, unit.module.Linked registry
  atRoot : ∀ unit ∈ units, ∃ declaration, registry.get? unit.element = some declaration ∧
    declaration.owner = .root unit.package

theorem Flat.built (h : registry.Flat modules)
    (hno : (registry.lastAssembly modules).diagnostics = []) :
    registry.Built modules (registry.builtUnits modules) := by
  refine ⟨?_, fun unit hunit => h.linked_builtUnits hunit, fun unit hunit => h.atRoot_builtUnits hunit⟩
  -- Sorting and arranging keep the modules of the trees.
  rw [map_bare_walkAll, builtUnits, List.map_map, List.flatMap_map]
  exact ((sortBy_perm _ _).flatMap_right _).trans
    ((List.Perm.flatMap_left _ fun root _ => nodes_arranged _ _).trans (h.perm_roots hno))

/-- An assembly without errors keeps every module with procedures, in trees that follow the owners. -/
theorem assembled (h : registry.Flat modules)
    (hno : Diagnostics.hasErrors (registry.assemble modules).2.diagnostics = false) :
    registry.Assembled modules (registry.assemble modules).1 := by
  have hbuilt := h.built (diagnostics_lastAssembly hno)
  rw [assemble_fst]
  refine ⟨?_, ?_, ?_, ?_⟩
  · have hkept := hbuilt.nodes
    rw [map_bare_walkAll] at hkept ⊢
    have hunits : (((registry.builtUnits modules).filter fun unit =>
        unit.module.hasProcedures).map OutputUnit.module).Sublist
          ((registry.builtUnits modules).map OutputUnit.module) := List.filter_sublist.map _
    exact (hunits.flatMap nodes).subperm.trans hkept.subperm
  · intro module hmem hprocedures
    have hkept := hbuilt.nodes.mem_iff.2 hmem
    rw [map_bare_walkAll, List.mem_flatMap] at hkept ⊢
    obtain ⟨tree, htree, hnode⟩ := hkept
    obtain ⟨unit, hunit, rfl⟩ := List.mem_map.1 htree
    have hany := hasProcedures_iff.2 ⟨module, hnode, hprocedures⟩
    exact ⟨unit.module, List.mem_map_of_mem (List.mem_filter.2 ⟨hunit, hany⟩), hnode⟩
  · exact fun unit hunit => hbuilt.linked unit (List.mem_filter.1 hunit).1
  · exact fun unit hunit => hbuilt.atRoot unit (List.mem_filter.1 hunit).1

/-- An assembly without errors places each declaration before its owner. -/
theorem upward_placements (h : registry.Flat modules)
    (hno : Diagnostics.hasErrors (registry.assemble modules).2.diagnostics = false) :
    ∃ order : List SymbolId, order.Perm (modules.map GeneratedModule.declaration) ∧
      registry.Upward order := by
  have hperm := registry.perm_placementOrder modules
  refine ⟨_, hperm, ?_⟩
  refine Assembly.upward_foldl _ (hperm.nodup_iff.2 h.distinct) ?_ (diagnostics_lastAssembly hno)
    h.known_firstAssembly
  intro id
  rw [h.contains_firstAssembly, hperm.mem_iff]

end Registry

end CommandFactory
