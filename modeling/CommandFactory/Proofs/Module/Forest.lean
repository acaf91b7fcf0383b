import CommandFactory.Proofs.Module.Delivery
import CommandFactory.Proofs.Module.Order
import CommandFactory.Proofs.Registry.Nesting

/-!
# The forest of modules

Where owners lead to the root, an assembly reports nothing and makes one tree of modules for each
class-shaped declaration at the root. A tree is told by its children: the module of a declaration holds
the modules of what the declaration owns, in the order of discovery (`Nested`), and nothing else of it
changes. The units are these trees, less those without any procedure (`assemble_synthesize`).
-/

set_option autoImplicit false

namespace CommandFactory

open GeneratedModule Relation

/-- The package of a scope at the root. -/
def Scope.package? : Scope → Option String
  | .root package => package
  | .declaration _ => none

/-! ## Children in order -/

namespace GeneratedModule

theorem comesBefore_total (a b : Option Nat) : comesBefore a b = true ∨ comesBefore b a = true := by
  cases a with
  | none => exact Or.inl rfl
  | some a =>
    cases b with
    | none => exact Or.inr rfl
    | some b =>
      simp only [comesBefore, decide_eq_true_eq]
      exact Nat.le_total a b

theorem comesBefore_trans (a b c : Option Nat) (hab : comesBefore a b = true)
    (hbc : comesBefore b c = true) : comesBefore a c = true := by
  cases a with
  | none => rfl
  | some a =>
    cases b with
    | none => cases hab
    | some b =>
      cases c with
      | none => cases hbc
      | some c =>
        simp only [comesBefore, decide_eq_true_eq] at hab hbc ⊢
        exact Nat.le_trans hab hbc

theorem pairwise_inOrder (position : SymbolId → Option Nat) (modules : List GeneratedModule) :
    (inOrder position modules).Pairwise fun a b =>
      comesBefore (position a.declaration) (position b.declaration) = true := by
  refine sortBy_pairwise ?_ ?_ modules
  · exact fun a b => comesBefore_total _ _
  · exact fun a b c => comesBefore_trans _ _ _

theorem pairwise_children_arranged {position : SymbolId → Option Nat}
    {module node : GeneratedModule} (h : node ∈ (module.arranged position).walk) :
    node.children.Pairwise fun a b =>
      comesBefore (position a.declaration) (position b.declaration) = true := by
  obtain ⟨before, -, rfl⟩ := exists_of_mem_walk_arranged module node h
  rw [arranged_eq]
  exact pairwise_inOrder _ _

end GeneratedModule

namespace Registry

variable {registry : Registry}

/-- Of two declarations, the one whose place may come first was discovered first. -/
theorem precedes_of_comesBefore {a b : SymbolId} (ha : registry.declarations.contains a = true)
    (hb : registry.declarations.contains b = true) (hne : a ≠ b)
    (h : comesBefore (registry.position? a) (registry.position? b) = true) :
    registry.Precedes a b := by
  obtain ⟨i, hi, -⟩ := exists_position? ha
  obtain ⟨j, hj, -⟩ := exists_position? hb
  rw [hi, hj, comesBefore, decide_eq_true_eq] at h
  refine ⟨i, j, hi, hj, Nat.lt_of_le_of_ne h ?_⟩
  rintro rfl
  exact hne (Option.some.inj ((getElem_of_position? hi).symm.trans (getElem_of_position? hj)))

end Registry

/-! ## Trees at the root in order -/

/-- A tree at the root has the place of the module it is made of. -/
theorem Assembly.roots_foldl {registry : Registry} (placements : List Placement) (state : Assembly) :
    ∀ root ∈ (placements.foldl (place registry) state).roots, root ∈ state.roots ∨
      ∃ placement ∈ placements, placement.index = root.index ∧
        placement.declaration = root.module.declaration := by
  induction placements generalizing state with
  | nil => exact fun root hroot => Or.inl hroot
  | cons placement rest ih =>
    intro root hroot
    rcases ih _ root hroot with hnext | ⟨later, hlater, hplace⟩
    · have hplaced := placed registry state placement
      generalize state.place registry placement = next at hplaced hnext
      cases hplaced with
      | atRoot found known owner =>
        rcases List.mem_append.1 hnext with hold | hnew
        · exact Or.inl hold
        · obtain rfl := List.mem_singleton.1 hnew
          have hid := (Keyed.get?_eq_some_iff.1 found).2
          exact Or.inr ⟨placement, List.mem_cons_self .., rfl, hid.symm⟩
      | _ => exact Or.inl hnext
    · exact Or.inr ⟨later, List.mem_cons_of_mem _ hlater, hplace⟩

namespace Registry

variable {registry : Registry} {modules : List GeneratedModule}

theorem index_le_of_mem_placements {index : Nat} {placement : Placement}
    (h : placement ∈ registry.placements index modules) : index ≤ placement.index := by
  induction modules generalizing index with
  | nil => cases h
  | cons module rest ih =>
    rcases List.mem_cons.1 h with rfl | hmem
    · exact Nat.le_refl _
    · exact Nat.le_of_succ_le (ih hmem)

/-- Modules in the order of discovery are numbered in that order. -/
theorem pairwise_placements (index : Nat)
    (h : (modules.map GeneratedModule.declaration).Pairwise registry.Precedes) :
    (registry.placements index modules).Pairwise fun a b =>
      a.index < b.index ∧ registry.Precedes a.declaration b.declaration := by
  induction modules generalizing index with
  | nil => exact List.Pairwise.nil
  | cons module rest ih =>
    rw [List.map_cons, List.pairwise_cons] at h
    refine List.Pairwise.cons ?_ (ih (index + 1) h.2)
    intro placement hplacement
    have hdeclared : placement.declaration ∈ rest.map GeneratedModule.declaration := by
      rw [← registry.map_declaration_placements (index + 1)]
      exact List.mem_map_of_mem hplacement
    exact ⟨index_le_of_mem_placements hplacement, h.1 _ hdeclared⟩

/-- Of two numbered modules of different declarations, the one with the smaller number was discovered
first. -/
theorem precedes_of_index_le
    (h : (modules.map GeneratedModule.declaration).Pairwise registry.Precedes) {a b : Placement}
    (ha : a ∈ registry.placements 0 modules) (hb : b ∈ registry.placements 0 modules)
    (hne : a.declaration ≠ b.declaration) (hle : a.index ≤ b.index) :
    registry.Precedes a.declaration b.declaration := by
  have hsorted := List.pairwise_iff_getElem.1 (registry.pairwise_placements 0 h)
  obtain ⟨i, hi, rfl⟩ := List.getElem_of_mem ha
  obtain ⟨j, hj, rfl⟩ := List.getElem_of_mem hb
  rcases Nat.lt_trichotomy i j with hij | rfl | hji
  · exact (hsorted i j hi hj hij).2
  · exact absurd rfl hne
  · exact absurd (hsorted j i hj hi hji).1 (Nat.not_lt.2 hle)

/-! ## What an assembly makes -/

/-- The trees of an assembly are in the order of discovery, and so are the children of each module. -/
structure InOrder (registry : Registry) (units : List OutputUnit) : Prop where
  roots : (units.map OutputUnit.element).Pairwise registry.Precedes
  children : ∀ unit ∈ units, ∀ node ∈ unit.module.walk,
    (node.children.map GeneratedModule.declaration).Pairwise registry.Precedes

theorem element_unitOf (root : RootTree) :
    (registry.unitOf root).element = root.module.declaration := by
  rw [OutputUnit.element, unitOf, arranged_eq]

theorem Built.distinct {units : List OutputUnit} (h : registry.Built modules units)
    (hflat : registry.Flat modules) :
    ((walkAll (units.map OutputUnit.module)).map GeneratedModule.declaration).Nodup := by
  have hmap : (walkAll (units.map OutputUnit.module)).map GeneratedModule.declaration =
      ((walkAll (units.map OutputUnit.module)).map bare).map GeneratedModule.declaration := by
    rw [List.map_map]
    rfl
  rw [hmap]
  exact (h.nodes.map _).nodup_iff.2 hflat.distinct

theorem Flat.contains (h : registry.Flat modules) {module : GeneratedModule}
    (hmem : module ∈ modules) : registry.declarations.contains module.declaration = true := by
  obtain ⟨declaration, hget⟩ := h.known module hmem
  exact Keyed.contains_iff.2 ⟨declaration, hget⟩

/-- Modules in a tree, without those inside them, are modules of the list. -/
theorem Built.bare_mem {units : List OutputUnit} (h : registry.Built modules units)
    {unit : OutputUnit} (hunit : unit ∈ units) {node : GeneratedModule}
    (hnode : node ∈ unit.module.walk) : node.bare ∈ modules := by
  refine h.nodes.mem_iff.1 (List.mem_map_of_mem ?_)
  rw [walkAll_eq_flatMap, List.mem_flatMap]
  exact ⟨unit.module, List.mem_map_of_mem hunit, hnode⟩

theorem Built.distinct_elements {units : List OutputUnit} (h : registry.Built modules units)
    (hflat : registry.Flat modules) : (units.map OutputUnit.element).Nodup := by
  have hsublist := (map_bare_sublist (units.map OutputUnit.module)).map GeneratedModule.declaration
  rw [← map_bare_walkAll, List.map_map, List.map_map, List.map_map] at hsublist
  exact (h.distinct hflat).sublist hsublist

theorem Built.distinct_children {units : List OutputUnit} (h : registry.Built modules units)
    (hflat : registry.Flat modules) {unit : OutputUnit} (hunit : unit ∈ units)
    {node : GeneratedModule} (hnode : node ∈ unit.module.walk) :
    (node.children.map GeneratedModule.declaration).Nodup := by
  have hmem : unit.module ∈ units.map OutputUnit.module := List.mem_map_of_mem hunit
  have hmodule : unit.module.nodes.Sublist
      ((units.map OutputUnit.module).flatMap GeneratedModule.nodes) := by
    rw [List.flatMap]
    exact List.sublist_flatten_of_mem (List.mem_map_of_mem hmem)
  have hsublist := ((children_sublist hnode).trans hmodule).map GeneratedModule.declaration
  rw [← map_bare_walkAll, List.map_map, List.map_map] at hsublist
  exact (h.distinct hflat).sublist hsublist

theorem pairwise_elements (hflat : registry.Flat modules)
    (hno : (registry.lastAssembly modules).diagnostics = [])
    (hordered : (modules.map GeneratedModule.declaration).Pairwise registry.Precedes) :
    ((registry.builtUnits modules).map OutputUnit.element).Pairwise registry.Precedes := by
  have hdistinct := (hflat.built hno).distinct_elements hflat
  rw [builtUnits, List.map_map] at hdistinct ⊢
  rw [List.Nodup, List.pairwise_map] at hdistinct
  rw [List.pairwise_map]
  have hsorted : (sortBy (fun a b : RootTree => a.index ≤ b.index)
      (registry.lastAssembly modules).roots).Pairwise fun a b =>
        decide (a.index ≤ b.index) = true :=
    sortBy_pairwise (fun a b => by simp only [decide_eq_true_eq]; omega)
      (fun a b c => by simp only [decide_eq_true_eq]; omega) _
  -- Each tree has the number of its module, and modules are numbered in order.
  have hnumber : ∀ root ∈ (registry.lastAssembly modules).roots,
      ∃ placement ∈ registry.placements 0 modules, placement.index = root.index ∧
        placement.declaration = root.module.declaration := by
    intro root hroot
    rcases Assembly.roots_foldl _ _ root hroot with hfirst | ⟨placement, hplacement, hplace⟩
    · cases hfirst
    · exact ⟨placement, mem_sortBy.1 hplacement, hplace⟩
  refine (hsorted.and hdistinct).imp_of_mem ?_
  rintro a b ha hb ⟨hle, hne⟩
  simp only [Function.comp_apply, element_unitOf] at hne ⊢
  obtain ⟨p, hp, hpa, hid⟩ := hnumber a (mem_sortBy.1 ha)
  obtain ⟨q, hq, hqb, hid'⟩ := hnumber b (mem_sortBy.1 hb)
  rw [← hid, ← hid'] at hne ⊢
  exact precedes_of_index_le hordered hp hq hne (by rw [hpa, hqb]; exact of_decide_eq_true hle)

theorem pairwise_children (hflat : registry.Flat modules)
    (hno : (registry.lastAssembly modules).diagnostics = []) {unit : OutputUnit}
    (hunit : unit ∈ registry.builtUnits modules) {node : GeneratedModule}
    (hnode : node ∈ unit.module.walk) :
    (node.children.map GeneratedModule.declaration).Pairwise registry.Precedes := by
  have hbuilt := hflat.built hno
  have hdistinct := hbuilt.distinct_children hflat hunit hnode
  have hknown : ∀ child ∈ node.children,
      registry.declarations.contains child.declaration = true := by
    intro child hchild
    have hcontains := hflat.contains (hbuilt.bare_mem hunit (child_mem_walk hnode hchild))
    exact hcontains
  obtain ⟨root, -, rfl⟩ := mem_builtUnits.1 hunit
  rw [List.Nodup, List.pairwise_map] at hdistinct
  rw [List.pairwise_map]
  refine ((pairwise_children_arranged hnode).and hdistinct).imp_of_mem ?_
  rintro a b ha hb ⟨hbefore, hne⟩
  exact precedes_of_comesBefore (hknown a ha) (hknown b hb) hne hbefore

theorem Flat.inOrder (h : registry.Flat modules)
    (hno : (registry.lastAssembly modules).diagnostics = [])
    (hordered : (modules.map GeneratedModule.declaration).Pairwise registry.Precedes) :
    registry.InOrder (registry.builtUnits modules) where
  roots := pairwise_elements h hno hordered
  children := fun _ hunit _ hnode => pairwise_children h hno hunit hnode

/-! ## Trees by their children -/

/-- The class-shaped declarations that a declaration owns, in the order of discovery. -/
def owned (registry : Registry) (id : SymbolId) : List Declaration :=
  registry.plan.classShaped.filter fun declaration => declaration.owner = .declaration id

/-- The class-shaped declarations at the root, in the order of discovery. -/
def atRoot (registry : Registry) : List Declaration :=
  registry.plan.classShaped.filter fun declaration => declaration.owner.declaration? = none

/-- The trees of modules of class-shaped declarations. -/
structure Nested (registry : Registry) (tree : SymbolId → GeneratedModule) : Prop where
  /-- A module holds the modules of what its declaration owns, and is else as it was synthesized. -/
  tree_eq : ∀ declaration ∈ registry.plan.classShaped,
    tree declaration.id =
      { registry.plan.moduleOf declaration with
        children := (registry.owned declaration.id).map fun below => tree below.id }
  /-- The modules in a tree are those of the declarations below its own. -/
  mem_walk_iff : ∀ declaration ∈ registry.plan.classShaped, ∀ module,
    module ∈ (tree declaration.id).walk ↔
      ∃ below ∈ registry.plan.classShaped,
        ReflTransGen registry.OwnedBy below.id declaration.id ∧ module = tree below.id
  /-- Each of them is there once. -/
  distinct : ∀ declaration ∈ registry.plan.classShaped,
    ((tree declaration.id).walk.map GeneratedModule.declaration).Nodup

theorem mem_owned {id : SymbolId} {declaration : Declaration} :
    declaration ∈ registry.owned id ↔
      declaration ∈ registry.plan.classShaped ∧ declaration.owner = .declaration id := by
  simp [owned]

theorem mem_atRoot {declaration : Declaration} :
    declaration ∈ registry.atRoot ↔
      declaration ∈ registry.plan.classShaped ∧ ∃ package, declaration.owner = .root package := by
  rw [atRoot, List.mem_filter, decide_eq_true_eq]
  cases declaration.owner <;> simp [Scope.declaration?]

/-- Lists of class-shaped declarations that are taken from the order of discovery are in it. -/
theorem pairwise_of_sublist {declarations : List Declaration}
    (h : declarations.Sublist registry.plan.classShaped) :
    (declarations.map Declaration.id).Pairwise registry.Precedes :=
  registry.pairwise_ids.sublist ((h.trans List.filter_sublist).map Declaration.id)

/-! ## The forest of a synthesis -/

/-- The trees of an assembly of the modules of all class-shaped declarations. -/
structure Planted (registry : Registry) (units : List OutputUnit) : Prop where
  flat : registry.Flat registry.flatModules
  built : registry.Built registry.flatModules units
  ordered : registry.InOrder units

namespace Planted

variable {units : List OutputUnit}

/-- The modules of all trees. -/
def inTrees (units : List OutputUnit) : List GeneratedModule :=
  walkAll (units.map OutputUnit.module)

theorem mem_inTrees {node : GeneratedModule} :
    node ∈ inTrees units ↔ ∃ unit ∈ units, node ∈ unit.module.walk := by
  rw [inTrees, walkAll_eq_flatMap, List.mem_flatMap]
  simp

/-- A module is known by its declaration. -/
theorem eq_of_declaration_eq (h : registry.Planted units) {a b : GeneratedModule}
    (ha : a ∈ inTrees units) (hb : b ∈ inTrees units) (heq : a.declaration = b.declaration) : a = b :=
  List.inj_on_of_nodup_map (h.built.distinct h.flat) ha hb heq

/-- Each module is that of a class-shaped declaration, but for its children. -/
theorem exists_declaration (h : registry.Planted units) {node : GeneratedModule}
    (hnode : node ∈ inTrees units) : ∃ declaration ∈ registry.plan.classShaped,
      declaration.id = node.declaration ∧ node.bare = registry.plan.moduleOf declaration := by
  obtain ⟨unit, hunit, hwalk⟩ := mem_inTrees.1 hnode
  obtain ⟨declaration, hmem, heq⟩ := List.mem_map.1 (h.built.bare_mem hunit hwalk)
  exact ⟨declaration, hmem, congrArg GeneratedModule.declaration heq, heq.symm⟩

/-- Each class-shaped declaration has a module. -/
theorem exists_module (h : registry.Planted units) {declaration : Declaration}
    (hmem : declaration ∈ registry.plan.classShaped) :
    ∃ node ∈ inTrees units, node.declaration = declaration.id := by
  have hbare : registry.plan.moduleOf declaration ∈ (inTrees units).map bare :=
    h.built.nodes.mem_iff.2 (List.mem_map_of_mem hmem)
  obtain ⟨node, hnode, heq⟩ := List.mem_map.1 hbare
  exact ⟨node, hnode, congrArg GeneratedModule.declaration heq⟩

/-- A module is at the root, or a child of the module of its owner. -/
theorem exists_parent (h : registry.Planted units) {node : GeneratedModule}
    (hnode : node ∈ inTrees units) :
    (∃ unit ∈ units, node = unit.module) ∨
      ∃ parent ∈ inTrees units, node ∈ parent.children ∧
        registry.OwnedBy node.declaration parent.declaration := by
  obtain ⟨unit, hunit, hwalk⟩ := mem_inTrees.1 hnode
  rcases exists_parent_of_mem_walk unit.module node hwalk with rfl | ⟨parent, hparent, hchild⟩
  · exact Or.inl ⟨unit, hunit, rfl⟩
  · exact Or.inr ⟨parent, mem_inTrees.2 ⟨unit, hunit, hparent⟩, hchild,
      h.built.linked unit hunit parent hparent node hchild⟩

/-- What has an owner is a child of the module of its owner. -/
theorem exists_parent_of_ownedBy (h : registry.Planted units) {node : GeneratedModule}
    (hnode : node ∈ inTrees units) {owner : SymbolId}
    (howned : registry.OwnedBy node.declaration owner) :
    ∃ parent ∈ inTrees units, parent.declaration = owner ∧ node ∈ parent.children := by
  rcases h.exists_parent hnode with ⟨unit, hunit, rfl⟩ | ⟨parent, hparent, hbelow, hparentOwned⟩
  · -- What has an owner is not at the root.
    obtain ⟨declaration, hget, hatRoot⟩ := h.built.atRoot unit hunit
    obtain ⟨found, hfound, howner⟩ := howned
    obtain rfl := Option.some.inj (hget.symm.trans hfound)
    rw [howner] at hatRoot
    cases hatRoot
  · exact ⟨parent, hparent, registry.ownedBy_rightUnique hparentOwned howned, hbelow⟩

/-- The children of a module are the modules of what its declaration owns, in order. -/
theorem map_declaration_children (h : registry.Planted units) {node : GeneratedModule}
    (hnode : node ∈ inTrees units) :
    node.children.map GeneratedModule.declaration =
      (registry.owned node.declaration).map Declaration.id := by
  obtain ⟨unit, hunit, hwalk⟩ := mem_inTrees.1 hnode
  refine eq_of_pairwise_precedes (h.ordered.children unit hunit node hwalk)
    (pairwise_of_sublist List.filter_sublist) fun id => ?_
  simp only [List.mem_map, mem_owned]
  constructor
  · rintro ⟨child, hchild, rfl⟩
    have howned := h.built.linked unit hunit node hwalk child hchild
    obtain ⟨declaration, hmem, hid, -⟩ :=
      h.exists_declaration (mem_inTrees.2 ⟨unit, hunit, child_mem_walk hwalk hchild⟩)
    rw [← hid, ownedBy_iff (mem_classShaped.1 hmem).1] at howned
    exact ⟨declaration, ⟨hmem, howned⟩, hid⟩
  · rintro ⟨declaration, ⟨hmem, howner⟩, rfl⟩
    obtain ⟨child, hchild, hid⟩ := h.exists_module hmem
    have howned := (ownedBy_iff (mem_classShaped.1 hmem).1).2 howner
    rw [← hid] at howned
    obtain ⟨parent, hparent, heq, hbelow⟩ := h.exists_parent_of_ownedBy hchild howned
    exact ⟨child, h.eq_of_declaration_eq hparent hnode heq ▸ hbelow, hid⟩

/-- The trees are those of the class-shaped declarations at the root, in order. -/
theorem map_element (h : registry.Planted units) :
    units.map OutputUnit.element = registry.atRoot.map Declaration.id := by
  refine eq_of_pairwise_precedes h.ordered.roots (pairwise_of_sublist List.filter_sublist)
    fun id => ?_
  simp only [List.mem_map, mem_atRoot]
  constructor
  · rintro ⟨unit, hunit, rfl⟩
    obtain ⟨found, hget, hatRoot⟩ := h.built.atRoot unit hunit
    obtain ⟨declaration, hmem, hid, -⟩ :=
      h.exists_declaration (mem_inTrees.2 ⟨unit, hunit, self_mem_walk _⟩)
    have hget' := get?_of_mem (mem_classShaped.1 hmem).1
    rw [show declaration.id = unit.element from hid] at hget'
    obtain rfl := Option.some.inj (hget.symm.trans hget')
    exact ⟨found, ⟨hmem, unit.package, hatRoot⟩, hid⟩
  · rintro ⟨declaration, ⟨hmem, package, howner⟩, rfl⟩
    obtain ⟨node, hnode, hid⟩ := h.exists_module hmem
    rcases h.exists_parent hnode with ⟨unit, hunit, rfl⟩ | ⟨parent, -, -, howned⟩
    · exact ⟨unit, hunit, hid⟩
    · -- What is at the root has no owner.
      rw [hid, ownedBy_iff (mem_classShaped.1 hmem).1, howner] at howned
      cases howned

theorem walk_sublist {node : GeneratedModule} (h : node ∈ inTrees units) :
    node.walk.Sublist (inTrees units) := by
  obtain ⟨unit, hunit, hwalk⟩ := mem_inTrees.1 h
  refine (walk_sublist_walk unit.module node hwalk).trans ?_
  have hmem : unit.module ∈ units.map OutputUnit.module := List.mem_map_of_mem hunit
  rw [inTrees, walkAll_eq_flatMap, List.flatMap]
  exact List.sublist_flatten_of_mem (List.mem_map_of_mem hmem)

theorem exists_tree (h : registry.Planted units) : ∃ tree : SymbolId → GeneratedModule,
    ∀ node ∈ inTrees units, tree node.declaration = node := by
  refine ⟨fun id => ((inTrees units).find? fun node => node.declaration = id).getD default, ?_⟩
  intro node hnode
  cases hfind : (inTrees units).find? fun other => other.declaration = node.declaration with
  | none =>
    have := List.find?_eq_none.1 hfind node hnode
    simp at this
  | some found =>
    have heq : found.declaration = node.declaration := by simpa using List.find?_some hfind
    change ((inTrees units).find? _).getD default = node
    rw [hfind]
    exact h.eq_of_declaration_eq (List.mem_of_find?_eq_some hfind) hnode heq

/-! ### The trees -/

section Trees

variable {tree : SymbolId → GeneratedModule}

theorem tree_mem (h : registry.Planted units)
    (htree : ∀ node ∈ inTrees units, tree node.declaration = node) {declaration : Declaration}
    (hmem : declaration ∈ registry.plan.classShaped) :
    tree declaration.id ∈ inTrees units ∧ (tree declaration.id).declaration = declaration.id := by
  obtain ⟨node, hnode, hid⟩ := h.exists_module hmem
  rw [← hid, htree node hnode]
  exact ⟨hnode, rfl⟩

theorem tree_eq (h : registry.Planted units)
    (htree : ∀ node ∈ inTrees units, tree node.declaration = node) {declaration : Declaration}
    (hmem : declaration ∈ registry.plan.classShaped) :
    tree declaration.id =
      { registry.plan.moduleOf declaration with
        children := (registry.owned declaration.id).map fun below => tree below.id } := by
  obtain ⟨hnode, hid⟩ := h.tree_mem htree hmem
  obtain ⟨found, hfound, hfoundId, hbare⟩ := h.exists_declaration hnode
  obtain rfl : found = declaration :=
    registry.declarations.eq_of_key_eq (mem_classShaped.1 hfound).1 (mem_classShaped.1 hmem).1
      (hfoundId.trans hid)
  have hchildren : (tree found.id).children =
      (registry.owned found.id).map fun below => tree below.id := by
    have hself : (tree found.id).children =
        (tree found.id).children.map fun child => tree child.declaration := by
      obtain ⟨unit, hunit, hwalk⟩ := mem_inTrees.1 hnode
      refine (List.map_id _).symm.trans (List.map_congr_left fun child hchild => ?_)
      exact (htree child (mem_inTrees.2 ⟨unit, hunit, child_mem_walk hwalk hchild⟩)).symm
    have hmap := congrArg (List.map tree) (h.map_declaration_children hnode)
    rw [List.map_map, List.map_map, hid] at hmap
    exact hself.trans hmap
  rw [← hchildren, ← hbare]
  exact eq_bare_with _

theorem below_of_mem_walk (h : registry.Planted units)
    (htree : ∀ node ∈ inTrees units, tree node.declaration = node) (node : GeneratedModule) :
    node ∈ inTrees units → ∀ module ∈ node.walk, ∃ below ∈ registry.plan.classShaped,
      ReflTransGen registry.OwnedBy below.id node.declaration ∧ module = tree below.id := by
  induction node using GeneratedModule.induction with
  | step node ih =>
    intro hnode module hmodule
    rcases mem_walk.1 hmodule with rfl | ⟨child, hchild, hmodule⟩
    · obtain ⟨declaration, hmem, hid, -⟩ := h.exists_declaration hnode
      refine ⟨declaration, hmem, hid ▸ .refl, ?_⟩
      rw [hid, htree module hnode]
    · obtain ⟨unit, hunit, hwalk⟩ := mem_inTrees.1 hnode
      have hchildMem := mem_inTrees.2 ⟨unit, hunit, child_mem_walk hwalk hchild⟩
      obtain ⟨below, hbelow, hup, heq⟩ := ih child hchild hchildMem module hmodule
      exact ⟨below, hbelow, hup.tail (h.built.linked unit hunit node hwalk child hchild), heq⟩

theorem mem_walk_of_below (h : registry.Planted units)
    (htree : ∀ node ∈ inTrees units, tree node.declaration = node) {id owner : SymbolId}
    (hup : ReflTransGen registry.OwnedBy id owner) :
    ∀ node ∈ inTrees units, node.declaration = id → node ∈ (tree owner).walk := by
  induction hup using ReflTransGen.head_induction_on with
  | refl =>
    rintro node hnode rfl
    rw [htree node hnode]
    exact self_mem_walk node
  | head hstep _ ih =>
    rintro node hnode rfl
    obtain ⟨parent, hparent, hid, hchild⟩ := h.exists_parent_of_ownedBy hnode hstep
    exact child_mem_walk (ih parent hparent hid) hchild

theorem nested (h : registry.Planted units)
    (htree : ∀ node ∈ inTrees units, tree node.declaration = node) : registry.Nested tree where
  tree_eq := fun _ hmem => h.tree_eq htree hmem
  mem_walk_iff := by
    intro declaration hmem module
    obtain ⟨hnode, hid⟩ := h.tree_mem htree hmem
    constructor
    · intro hmodule
      have hbelow := h.below_of_mem_walk htree _ hnode module hmodule
      rwa [hid] at hbelow
    · rintro ⟨below, hbelow, hup, rfl⟩
      obtain ⟨hnode', hid'⟩ := h.tree_mem htree hbelow
      exact h.mem_walk_of_below htree hup _ hnode' hid'
  distinct := by
    intro declaration hmem
    have hsublist := walk_sublist (h.tree_mem htree hmem).1
    exact (h.built.distinct h.flat).sublist (hsublist.map _)

theorem units_eq (h : registry.Planted units)
    (htree : ∀ node ∈ inTrees units, tree node.declaration = node) :
    units = registry.atRoot.map fun declaration =>
      ⟨tree declaration.id, declaration.owner.package?⟩ := by
  -- A unit is told by its declaration, and the declarations of the units are known.
  let unitFor : SymbolId → OutputUnit := fun id =>
    ⟨tree id, (registry.get? id).bind fun declaration => declaration.owner.package?⟩
  have hself : units = units.map fun unit => unitFor unit.element := by
    refine (List.map_id _).symm.trans (List.map_congr_left fun unit hunit => ?_)
    obtain ⟨declaration, hget, howner⟩ := h.built.atRoot unit hunit
    have hmodule : tree unit.element = unit.module :=
      htree unit.module (mem_inTrees.2 ⟨unit, hunit, self_mem_walk _⟩)
    simp only [unitFor, hmodule, hget, Option.bind_some, howner, Scope.package?, id]
  have hmap := congrArg (List.map unitFor) h.map_element
  rw [List.map_map, List.map_map] at hmap
  refine hself.trans (hmap.trans (List.map_congr_left fun declaration hmem => ?_))
  simp only [Function.comp_apply, unitFor, get?_of_mem (mem_classShaped.1 (mem_atRoot.1 hmem).1).1,
    Option.bind_some]

end Trees

end Planted

/-! ## Assembly of a synthesis -/

/-- Where owners are grounded they have modules. -/
theorem closed_flatModules
    (hgrounded : ∀ declaration ∈ registry.all, registry.Grounded declaration.id) :
    registry.synthesize.2.Closed registry.flatModules := by
  intro module hmodule owner howned
  obtain ⟨declaration, hmem, rfl⟩ := List.mem_map.1 hmodule
  obtain ⟨above, habove, rfl, hshaped, -⟩ :=
    (hgrounded declaration (mem_classShaped.1 hmem).1).exists_owner howned
  rw [map_declaration_flatModules]
  exact List.mem_map_of_mem (mem_classShaped.2 ⟨habove, hshaped⟩)

/-- Where the owners of all declarations lead over class-shaped declarations to the root, an assembly of
the modules of a synthesis reports nothing. It makes the trees in which the module of a declaration
holds the modules of what the declaration owns, and its units are those at the root, in the order of
discovery, that have a procedure. -/
theorem assemble_synthesize (registry : Registry)
    (hgrounded : ∀ declaration ∈ registry.all, registry.Grounded declaration.id) :
    (registry.synthesize.2.assemble registry.synthesize.1).2 = registry.synthesize.2 ∧
      ∃ tree : SymbolId → GeneratedModule, registry.Nested tree ∧
        (registry.synthesize.2.assemble registry.synthesize.1).1 =
          (registry.atRoot.map fun declaration =>
            OutputUnit.mk (tree declaration.id) declaration.owner.package?).filter fun unit =>
              unit.module.hasProcedures := by
  have hflat := registry.flat_flatModules
  have hno := hflat.diagnostics_eq_nil (closed_flatModules hgrounded)
    fun declaration hmem => ((hgrounded declaration hmem).report _).report _
  have hordered := pairwise_of_sublist (List.Sublist.refl registry.plan.classShaped)
  rw [← map_declaration_flatModules] at hordered
  have hbuilt := hflat.built hno
  have hinOrder := hflat.inOrder hno hordered
  have hplanted : registry.Planted (registry.synthesize.2.builtUnits registry.flatModules) :=
    ⟨⟨hflat.bare, hflat.distinct, hflat.known⟩, ⟨hbuilt.nodes, hbuilt.linked, hbuilt.atRoot⟩,
      ⟨hinOrder.roots, hinOrder.children⟩⟩
  obtain ⟨tree, htree⟩ := hplanted.exists_tree
  refine ⟨?_, tree, hplanted.nested htree, ?_⟩
  · change registry.synthesize.2.report (registry.synthesize.2.lastAssembly _).diagnostics = _
    rw [show registry.synthesize.1 = registry.flatModules from rfl, hno]
    simp [report]
  · rw [← hplanted.units_eq htree]
    rfl

/-- The declarations of classes in methods, next to methods, and at the root. -/
def localDeclarations : Registry :=
  (start localClasses.symbols {}).extract localClasses.elements

theorem assemble_synthesize_localDeclarations :
    (∀ declaration ∈ localDeclarations.all, localDeclarations.Grounded declaration.id) ∧
      (localDeclarations.synthesize.2.assemble localDeclarations.synthesize.1).2 =
        localDeclarations.synthesize.2 ∧
      ∃ tree : SymbolId → GeneratedModule, localDeclarations.Nested tree ∧
        (localDeclarations.synthesize.2.assemble localDeclarations.synthesize.1).1 =
          (localDeclarations.atRoot.map fun declaration =>
            OutputUnit.mk (tree declaration.id) declaration.owner.package?).filter fun unit =>
              unit.module.hasProcedures := by
  have hgrounded : ∀ declaration ∈ localDeclarations.all,
      localDeclarations.Grounded declaration.id :=
    grounded_extract {} localClasses.elements (by decide +kernel)
  exact ⟨hgrounded, assemble_synthesize localDeclarations hgrounded⟩

end Registry

end CommandFactory
