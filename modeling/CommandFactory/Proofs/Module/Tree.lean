import CommandFactory.Module.Nesting
import CommandFactory.Proofs.Registry.Ownership
import Mathlib.Data.List.Perm.Basic

/-!
# Trees of modules

The modules in a tree without their places in it (`nodes`). Taking a module in adds its nodes
(`nodes_adopt`), and arranging a tree keeps them (`nodes_arranged`), so an assembly can be followed
by what it does to the nodes. A tree is `Linked` if each module in it lies directly in the module of
the declaration that owns its own.
-/

set_option autoImplicit false

namespace CommandFactory

namespace GeneratedModule

/-! ## Walks -/

theorem walkAll_eq_flatMap (modules : List GeneratedModule) :
    walkAll modules = modules.flatMap walk := by
  induction modules with
  | nil => rfl
  | cons module rest ih => rw [walkAll, ih, List.flatMap_cons]

theorem walk_eq (module : GeneratedModule) : module.walk = module :: module.children.flatMap walk := by
  cases module
  rw [walk, walkAll_eq_flatMap]

theorem arrangedAll_eq_map (position : SymbolId → Option Nat) (modules : List GeneratedModule) :
    arrangedAll position modules = modules.map (arranged position) := by
  induction modules with
  | nil => rfl
  | cons module rest ih => rw [arrangedAll, ih, List.map_cons]

theorem arranged_eq (position : SymbolId → Option Nat) (module : GeneratedModule) :
    module.arranged position =
      { module with children := inOrder position (module.children.map (arranged position)) } := by
  cases module
  rw [arranged, arrangedAll_eq_map]

/-- What holds of a module if it holds of its children holds of every module. -/
theorem induction {motive : GeneratedModule → Prop}
    (step : ∀ module : GeneratedModule, (∀ child ∈ module.children, motive child) → motive module)
    (module : GeneratedModule) : motive module :=
  step module fun child _hchild => induction step child
termination_by sizeOf module
decreasing_by
  have := List.sizeOf_lt_of_mem _hchild
  cases module
  simp only [mk.sizeOf_spec] at this ⊢
  omega

theorem mem_walk {module node : GeneratedModule} :
    node ∈ module.walk ↔ node = module ∨ ∃ child ∈ module.children, node ∈ child.walk := by
  rw [walk_eq, List.mem_cons, List.mem_flatMap]

theorem self_mem_walk (module : GeneratedModule) : module ∈ module.walk := by
  rw [walk_eq]
  exact List.mem_cons_self ..

/-- Every module of a tree but the first is a child of a module of the tree. -/
theorem exists_parent_of_mem_walk (module : GeneratedModule) :
    ∀ node ∈ module.walk, node = module ∨ ∃ parent ∈ module.walk, node ∈ parent.children := by
  induction module using induction with
  | step module ih =>
    intro node hnode
    rcases mem_walk.1 hnode with rfl | ⟨child, hchild, hnode⟩
    · exact Or.inl rfl
    · rcases ih child hchild node hnode with rfl | ⟨parent, hparent, hbelow⟩
      · exact Or.inr ⟨module, self_mem_walk module, hchild⟩
      · exact Or.inr ⟨parent, mem_walk.2 (Or.inr ⟨child, hchild, hparent⟩), hbelow⟩

/-- The tree of a module of a tree is part of that tree. -/
theorem walk_sublist_walk (module : GeneratedModule) :
    ∀ node ∈ module.walk, node.walk.Sublist module.walk := by
  induction module using induction with
  | step module ih =>
    intro node hnode
    rcases mem_walk.1 hnode with rfl | ⟨child, hchild, hnode⟩
    · exact List.Sublist.refl _
    · rw [walk_eq module]
      refine List.Sublist.cons _ ((ih child hchild node hnode).trans ?_)
      exact List.sublist_flatten_of_mem (List.mem_map_of_mem hchild)

theorem child_mem_walk {module node child : GeneratedModule} (hnode : node ∈ module.walk)
    (hchild : child ∈ node.children) : child ∈ module.walk :=
  (walk_sublist_walk module node hnode).subset
    (mem_walk.2 (Or.inr ⟨child, hchild, self_mem_walk child⟩))

theorem mem_inOrder {position : SymbolId → Option Nat} {modules : List GeneratedModule}
    {module : GeneratedModule} : module ∈ inOrder position modules ↔ module ∈ modules :=
  mem_sortBy

/-- The modules of an arranged tree are those of the tree, each arranged. -/
theorem exists_of_mem_walk_arranged {position : SymbolId → Option Nat} (module : GeneratedModule) :
    ∀ node ∈ (module.arranged position).walk,
      ∃ before ∈ module.walk, node = before.arranged position := by
  induction module using induction with
  | step module ih =>
    intro node hnode
    rcases mem_walk.1 hnode with rfl | ⟨child, hchild, hnode⟩
    · exact ⟨module, self_mem_walk module, rfl⟩
    · rw [arranged_eq, mem_inOrder] at hchild
      obtain ⟨before, hbefore, rfl⟩ := List.mem_map.1 hchild
      obtain ⟨found, hfound, rfl⟩ := ih before hbefore node hnode
      exact ⟨found, mem_walk.2 (Or.inr ⟨before, hbefore, hfound⟩), rfl⟩

/-! ## Nodes -/

/-- A module without the modules inside it. -/
def bare (module : GeneratedModule) : GeneratedModule := { module with children := [] }

/-- A module is told by itself without the modules inside it, and by these. -/
theorem eq_bare_with (module : GeneratedModule) :
    module = { module.bare with children := module.children } := by
  cases module
  rfl

/-- The modules of a tree, each without the modules inside it. -/
def nodes (module : GeneratedModule) : List GeneratedModule := module.walk.map bare

theorem nodes_eq (module : GeneratedModule) :
    module.nodes = module.bare :: module.children.flatMap nodes := by
  rw [nodes, walk_eq, List.map_cons, List.map_flatMap]
  rfl

theorem map_bare_walkAll (modules : List GeneratedModule) :
    (walkAll modules).map bare = modules.flatMap nodes := by
  rw [walkAll_eq_flatMap, List.map_flatMap]
  rfl

theorem nodes_of_children_eq_nil {module : GeneratedModule} (h : module.children = []) :
    module.nodes = [module] := by
  rw [nodes_eq, h, List.flatMap_nil, bare]
  cases module
  simp_all

theorem nodes_adopt (module child : GeneratedModule) :
    (module.adopt child).nodes = module.nodes ++ child.nodes := by
  rw [nodes_eq, nodes_eq module, List.cons_append]
  simp only [adopt, List.flatMap_append, List.flatMap_singleton]
  rfl

theorem nodes_arranged (position : SymbolId → Option Nat) (module : GeneratedModule) :
    (module.arranged position).nodes.Perm module.nodes := by
  induction module using induction with
  | step module ih =>
    rw [nodes_eq, nodes_eq module, arranged_eq]
    refine List.Perm.cons _ ?_
    have hsorted : (inOrder position (module.children.map (arranged position))).Perm
        (module.children.map (arranged position)) := sortBy_perm _ _
    refine (hsorted.flatMap_right nodes).trans ?_
    rw [List.flatMap_map]
    exact List.Perm.flatMap_left _ ih

theorem hasProcedures_iff {module : GeneratedModule} :
    module.hasProcedures = true ↔ ∃ node ∈ module.nodes, node.procedures ≠ [] := by
  simp [hasProcedures, nodes, bare]

theorem map_bare_sublist (modules : List GeneratedModule) :
    (modules.map bare).Sublist (modules.flatMap nodes) := by
  induction modules with
  | nil => exact List.Sublist.refl _
  | cons module rest ih =>
    rw [List.map_cons, List.flatMap_cons, nodes_eq, List.cons_append]
    exact (ih.trans (List.sublist_append_right _ _)).cons_cons _

/-- The children of a module of a tree are modules of the tree, and each stands there once. -/
theorem children_sublist {module node : GeneratedModule} (h : node ∈ module.walk) :
    (node.children.map bare).Sublist module.nodes := by
  induction module using induction with
  | step module ih =>
    rw [nodes_eq]
    rcases mem_walk.1 h with rfl | ⟨child, hchild, hnode⟩
    · exact (map_bare_sublist node.children).cons _
    · refine List.Sublist.cons _ ((ih child hchild hnode).trans ?_)
      exact List.sublist_flatten_of_mem (List.mem_map_of_mem hchild)

end GeneratedModule

/-! ## Owners in a tree -/

namespace GeneratedModule

/-- Each module in the tree lies directly in the module of the owner of its declaration. -/
def Linked (registry : Registry) (module : GeneratedModule) : Prop :=
  ∀ node ∈ module.walk, ∀ child ∈ node.children,
    registry.OwnedBy child.declaration node.declaration

variable {registry : Registry}

theorem linked_of_children_eq_nil {module : GeneratedModule} (h : module.children = []) :
    module.Linked registry := by
  intro node hnode child hchild
  rw [walk_eq, h] at hnode
  obtain rfl := List.mem_singleton.1 hnode
  rw [h] at hchild
  cases hchild

theorem Linked.adopt {module child : GeneratedModule} (hmodule : module.Linked registry)
    (hchild : child.Linked registry) (h : registry.OwnedBy child.declaration module.declaration) :
    (module.adopt child).Linked registry := by
  intro node hnode below hbelow
  rcases mem_walk.1 hnode with rfl | ⟨next, hnext, hnode⟩
  · rcases List.mem_append.1 hbelow with hold | hnew
    · exact hmodule module (self_mem_walk module) below hold
    · obtain rfl := List.mem_singleton.1 hnew
      exact h
  · rcases List.mem_append.1 hnext with hold | hnew
    · exact hmodule node (mem_walk.2 (Or.inr ⟨next, hold, hnode⟩)) below hbelow
    · rw [List.mem_singleton.1 hnew] at hnode
      exact hchild node hnode below hbelow

theorem Linked.arranged {module : GeneratedModule} (h : module.Linked registry)
    (position : SymbolId → Option Nat) : (module.arranged position).Linked registry := by
  intro node hnode child hchild
  obtain ⟨before, hbefore, rfl⟩ := exists_of_mem_walk_arranged module node hnode
  rw [arranged_eq] at hchild ⊢
  obtain ⟨below, hbelow, rfl⟩ := List.mem_map.1 (mem_inOrder.1 hchild)
  rw [arranged_eq]
  exact h before hbefore below hbelow

end GeneratedModule

end CommandFactory
