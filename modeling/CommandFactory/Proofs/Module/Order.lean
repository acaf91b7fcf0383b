import CommandFactory.Proofs.Module.Assembly
import CommandFactory.Proofs.Registry.Ownership

/-!
# The order of placement

A module has to be placed before the module of its owner. Where owners lead to the root, a declaration
lies one level deeper than its owner (`Grounded.depth_eq`), so the deepest modules first is such an
order (`upward_placementOrder`), and an assembly of them reports nothing (`diagnostics_eq_nil`).
-/

set_option autoImplicit false

namespace CommandFactory

namespace Registry

open Relation

variable {registry : Registry}

/-! ## Chains of owners -/

theorem Upward.known {order : List SymbolId} (h : registry.Upward order) {id : SymbolId}
    (hid : id ∈ order) : ∃ declaration, registry.get? id = some declaration ∧
      ∀ owner, declaration.owner = .declaration owner → owner ∈ order := by
  induction order with
  | nil => cases hid
  | cons first rest ih =>
    obtain ⟨⟨declaration, hget, howner⟩, hrest⟩ := h
    rcases List.mem_cons.1 hid with rfl | hmem
    · exact ⟨declaration, hget, fun owner heq => List.mem_cons_of_mem _ (howner owner heq)⟩
    · obtain ⟨found, hfound, habove⟩ := ih hrest hmem
      exact ⟨found, hfound, fun owner heq => List.mem_cons_of_mem _ (habove owner heq)⟩

/-- What follows owners step by step, and needs no more steps at the root, needs no more steps than
there are declarations in an upward list. -/
theorem Upward.eq_of_steps {α : Type} {f : Nat → Option Declaration → α} {order : List SymbolId}
    (h : registry.Upward order)
    (atRoot : ∀ (declaration : Declaration) (package : Option String),
      declaration.owner = .root package →
        ∀ n m, f (n + 1) (some declaration) = f (m + 1) (some declaration))
    (inOwner : ∀ (declaration : Declaration) (owner : SymbolId),
      declaration.owner = .declaration owner →
        ∀ n m, f n (registry.get? owner) = f m (registry.get? owner) →
          f (n + 1) (some declaration) = f (m + 1) (some declaration))
    {id : SymbolId} (hid : id ∈ order) {steps : Nat} (hsteps : order.length ≤ steps) :
    f steps (registry.get? id) = f order.length (registry.get? id) := by
  induction order generalizing id steps with
  | nil => cases hid
  | cons first rest ih =>
    obtain ⟨⟨declaration, hget, howner⟩, hrest⟩ := h
    rw [List.length_cons] at hsteps ⊢
    -- The chain from the first goes on among the later ones; a chain of theirs needs no more steps.
    rcases List.mem_cons.1 hid with rfl | hmem
    · obtain ⟨more, rfl⟩ : ∃ more, steps = more + 1 := ⟨steps - 1, by omega⟩
      rw [hget]
      cases hscope : declaration.owner with
      | root package => exact atRoot declaration package hscope more rest.length
      | declaration owner =>
        exact inOwner declaration owner hscope more rest.length
          (ih hrest (howner owner hscope) (by omega))
    · rw [ih hrest hmem (by omega), ih hrest hmem (Nat.le_succ _)]

/-- From what is grounded an upward list leads to the root, and repeats nothing. -/
theorem Grounded.exists_upward {id : SymbolId} (h : registry.Grounded id) :
    ∃ above : List SymbolId, registry.Upward (id :: above) ∧ (id :: above).Nodup ∧
      ∀ owner ∈ above, TransGen registry.OwnedBy id owner := by
  induction h with
  | @atRoot declaration package known owner =>
    refine ⟨[], ⟨⟨declaration, get?_of_mem known, ?_⟩, trivial⟩, List.nodup_singleton _, nofun⟩
    intro other hother
    cases owner.symm.trans hother
  | @inOwner declaration above known owner listed shaped grounded ih =>
    obtain ⟨rest, hupward, hdistinct, hchain⟩ := ih
    have hstep := (ownedBy_iff known).2 owner
    have hall : ∀ other ∈ above.id :: rest, TransGen registry.OwnedBy declaration.id other := by
      intro other hother
      rcases List.mem_cons.1 hother with rfl | hother
      · exact .single hstep
      · exact .head hstep (hchain other hother)
    have hground : registry.Grounded declaration.id := .inOwner known owner listed shaped grounded
    refine ⟨above.id :: rest, ⟨⟨declaration, get?_of_mem known, ?_⟩, hupward⟩, ?_, hall⟩
    · intro other hother
      cases owner.symm.trans hother
      exact List.mem_cons_self ..
    · exact List.nodup_cons.2 ⟨fun hmem => hground.not_transGen (hall _ hmem), hdistinct⟩

/-- An upward list without repetitions is no longer than the registry. -/
theorem Upward.length_le {order : List SymbolId} (h : registry.Upward order)
    (hdistinct : order.Nodup) : order.length ≤ registry.declarations.size := by
  have hsub : order ⊆ registry.ids := by
    intro id hid
    obtain ⟨declaration, hget, -⟩ := h.known hid
    obtain ⟨hmem, rfl⟩ := Keyed.get?_eq_some_iff.1 hget
    exact mem_ids.2 ⟨declaration, hmem, rfl⟩
  have hle := (hdistinct.subperm hsub).length_le
  rwa [ids, Keyed.keys, List.length_map] at hle

/-! ## Depths -/

/-- What is grounded lies one level below its owner. -/
theorem Grounded.depth_eq {declaration : Declaration} {owner : SymbolId}
    (h : registry.Grounded declaration.id) (known : declaration ∈ registry.all)
    (howner : declaration.owner = .declaration owner) :
    registry.depth declaration.id = registry.depth owner + 1 := by
  have hgrounded := h.of_reflTransGen (.single ((ownedBy_iff known).2 howner))
  obtain ⟨above, hupward, hdistinct, -⟩ := hgrounded.exists_upward
  have hlength := hupward.length_le hdistinct
  -- One step has been made to the owner, and its chain has steps enough left.
  have hsteps : ∀ steps, (owner :: above).length ≤ steps →
      registry.depthFrom steps (registry.get? owner) =
        registry.depthFrom (owner :: above).length (registry.get? owner) := by
    intro steps hle
    refine hupward.eq_of_steps ?_ ?_ (List.mem_cons_self ..) hle
    · intro declaration package hroot n m
      rw [depthFrom, depthFrom, hroot]
    · intro declaration next hnext n m heq
      rw [depthFrom, depthFrom, hnext]
      simp only
      rw [heq]
  rw [depth, depth, get?_of_mem known, depthFrom, howner]
  simp only
  rw [hsteps _ hlength, hsteps _ (Nat.le_succ_of_le hlength)]

/-! ## Placements -/

/-- A list of placements from the deepest up, in which each owner has a place that is less deep, is
upward. -/
theorem upward_of_pairwise {placements : List Placement}
    (hsorted : placements.Pairwise fun a b => b.depth ≤ a.depth)
    (howners : ∀ placement ∈ placements, ∃ declaration,
      registry.get? placement.declaration = some declaration ∧
        ∀ owner, declaration.owner = .declaration owner →
          ∃ above ∈ placements, above.declaration = owner ∧ above.depth < placement.depth) :
    registry.Upward (placements.map Placement.declaration) := by
  induction hsorted with
  | nil => trivial
  | @cons first rest hfirst _ ih =>
    -- No owner has the first place, which none of the others is deeper than.
    have hlater : ∀ placement ∈ first :: rest, ∀ above ∈ first :: rest,
        above.depth < placement.depth → above ∈ rest := by
      intro placement hplacement above habove hlt
      have hle : placement.depth ≤ first.depth := by
        rcases List.mem_cons.1 hplacement with rfl | hmem
        · exact Nat.le_refl _
        · exact hfirst placement hmem
      rcases List.mem_cons.1 habove with rfl | hmem
      · omega
      · exact hmem
    refine ⟨?_, ih fun placement hplacement => ?_⟩
    · obtain ⟨declaration, hget, habove⟩ := howners first (List.mem_cons_self ..)
      refine ⟨declaration, hget, fun owner howner => ?_⟩
      obtain ⟨above, hmem, rfl, hlt⟩ := habove owner howner
      exact List.mem_map_of_mem (hlater first (List.mem_cons_self ..) above hmem hlt)
    · have hplacement' := List.mem_cons_of_mem first hplacement
      obtain ⟨declaration, hget, habove⟩ := howners placement hplacement'
      refine ⟨declaration, hget, fun owner howner => ?_⟩
      obtain ⟨above, hmem, hid, hlt⟩ := habove owner howner
      exact ⟨above, hlater placement hplacement' above hmem hlt, hid, hlt⟩

theorem depth_of_mem_placements {index : Nat} {modules : List GeneratedModule}
    {placement : Placement} (h : placement ∈ registry.placements index modules) :
    placement.depth = registry.depth placement.declaration := by
  induction modules generalizing index with
  | nil => cases h
  | cons module rest ih =>
    rcases List.mem_cons.1 h with rfl | hmem
    · rfl
    · exact ih hmem

theorem pairwise_placementOrder (registry : Registry) (modules : List GeneratedModule) :
    (registry.placementOrder modules).Pairwise fun a b => b.depth ≤ a.depth := by
  have hsorted : (registry.placementOrder modules).Pairwise fun a b =>
      decide (b.depth ≤ a.depth) = true :=
    sortBy_pairwise (fun a b => by simp only [decide_eq_true_eq]; omega)
      (fun a b c => by simp only [decide_eq_true_eq]; omega) _
  exact hsorted.imp fun h => of_decide_eq_true h

end Registry

/-! ## Assembly -/

namespace Assembly

variable {registry : Registry} {state : Assembly}

/-- Placing everything upward reports nothing. -/
theorem diagnostics_foldl_eq (placements : List Placement)
    (hupward : registry.Upward (placements.map Placement.declaration))
    (hdistinct : (placements.map Placement.declaration).Nodup)
    (hall : ∀ id, state.pending.contains id = true ↔ id ∈ placements.map Placement.declaration) :
    (placements.foldl (place registry) state).diagnostics = state.diagnostics := by
  induction placements generalizing state with
  | nil => rfl
  | cons placement rest ih =>
    rw [List.map_cons, List.nodup_cons] at hdistinct
    obtain ⟨⟨declaration, hget, howner⟩, hrest⟩ := hupward
    have hplaced := CommandFactory.placed registry state placement
    rw [List.foldl_cons, ih hrest hdistinct.2 (hplaced.rest_contains hdistinct.1 hall)]
    generalize state.place registry placement = next at hplaced
    cases hplaced with
    | @lost module known ownerId diagnostic found hknown owner severe noneAbove =>
      -- The owner comes later, so it still has a module to go into.
      obtain rfl := Option.some.inj (hknown.symm.trans hget)
      have hmem := howner ownerId owner
      have hthere : state.pending.contains ownerId = true :=
        (hall ownerId).2 (List.mem_cons_of_mem _ hmem)
      have hne : ownerId ≠ placement.declaration := fun heq => hdistinct.1 (heq ▸ hmem)
      have hcontains := (Keyed.contains_erase _ _ _).2 ⟨hthere, hne⟩
      exact absurd hcontains (Keyed.get?_eq_none_iff.1 noneAbove)
    | _ => rfl

end Assembly

namespace Registry

variable {registry : Registry} {modules : List GeneratedModule}

/-- The owners of the modules have modules. -/
def Closed (registry : Registry) (modules : List GeneratedModule) : Prop :=
  ∀ module ∈ modules, ∀ owner, registry.OwnedBy module.declaration owner →
    owner ∈ modules.map GeneratedModule.declaration

/-- Where owners have modules and lead to the root, the order of placement is upward. -/
theorem Flat.upward_placementOrder (h : registry.Flat modules) (hclosed : registry.Closed modules)
    (hgrounded : ∀ declaration ∈ registry.all, registry.Grounded declaration.id) :
    registry.Upward ((registry.placementOrder modules).map Placement.declaration) := by
  refine upward_of_pairwise (pairwise_placementOrder registry modules) fun placement hplacement => ?_
  have hperm := registry.perm_placementOrder modules
  obtain ⟨module, hmodule, hid⟩ :=
    List.mem_map.1 (hperm.mem_iff.1 (List.mem_map_of_mem hplacement))
  obtain ⟨declaration, hget⟩ := h.known module hmodule
  obtain ⟨hmem, hdeclaration⟩ := Keyed.get?_eq_some_iff.1 hget
  refine ⟨declaration, hid ▸ hget, fun owner howner => ?_⟩
  have howned := (ownedBy_iff hmem).2 howner
  have hmodules := hclosed module hmodule owner (hdeclaration ▸ howned)
  obtain ⟨above, habove, rfl⟩ := List.mem_map.1 (hperm.mem_iff.2 hmodules)
  refine ⟨above, habove, rfl, ?_⟩
  rw [depth_of_mem_placements (mem_sortBy.1 habove), depth_of_mem_placements (mem_sortBy.1 hplacement),
    ← hid, ← hdeclaration, (hgrounded declaration hmem).depth_eq hmem howner]
  exact Nat.lt_succ_self _

theorem Flat.diagnostics_eq_nil (h : registry.Flat modules) (hclosed : registry.Closed modules)
    (hgrounded : ∀ declaration ∈ registry.all, registry.Grounded declaration.id) :
    (registry.lastAssembly modules).diagnostics = [] := by
  have hperm := registry.perm_placementOrder modules
  refine Assembly.diagnostics_foldl_eq _ (h.upward_placementOrder hclosed hgrounded)
    (hperm.nodup_iff.2 h.distinct) fun id => ?_
  rw [h.contains_firstAssembly, hperm.mem_iff]

end Registry

end CommandFactory
