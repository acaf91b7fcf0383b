import CommandFactory.Proofs.Module.Calls
import CommandFactory.Proofs.Module.Path

/-!
# Where modules are

The path of a module is worked out before there are any trees, from the chain of owners above its
class: procedures refer to one another by it (`Registry.modulePath`). Where the module really is, is
told from a tree, from the root down (`OutputUnit.Puts`). Both agree in all units of all compilations,
whatever owners are malformed (`pathsAgree_ofManifest`): what has been put into a tree is grounded, and
from what is grounded the chain of owners is followed to its end.
-/

set_option autoImplicit false

namespace CommandFactory

open GeneratedModule

/-! ## Places in a tree -/

/-- The module is in the tree of the unit at the path: the first one in the package of the unit, every
other one in the module whose child it is. -/
inductive OutputUnit.Puts (unit : OutputUnit) : GeneratedModule → ModulePath → Prop
  | root : Puts unit unit.module ((ModulePath.ofPackage unit.package).child unit.module.name)
  | child {module child : GeneratedModule} {path : ModulePath} (above : Puts unit module path)
      (inside : child ∈ module.children) : Puts unit child (path.child child.name)

namespace OutputUnit.Puts

variable {unit : OutputUnit} {module : GeneratedModule} {path : ModulePath}

theorem mem_walk (h : unit.Puts module path) : module ∈ unit.module.walk := by
  induction h with
  | root => exact self_mem_walk unit.module
  | child _ inside ih => exact child_mem_walk ih inside

/-- What is inside a module that has a place has one as well. -/
theorem exists_of_mem_walk (h : unit.Puts module path) :
    ∀ node ∈ module.walk, ∃ place, unit.Puts node place := by
  induction module using GeneratedModule.induction generalizing path with
  | step module ih =>
    intro node hnode
    rcases GeneratedModule.mem_walk.1 hnode with rfl | ⟨child, hchild, hnode⟩
    · exact ⟨path, h⟩
    · exact ih child hchild (h.child hchild) node hnode

end OutputUnit.Puts

/-! ## Paths of grounded declarations -/

namespace Registry

variable {registry : Registry}

/-- The chain of owners above what is grounded is followed to its end: its path goes on from the path of
its owner. -/
theorem Grounded.modulePath_nested {declaration : Declaration} {owner : SymbolId}
    (h : registry.Grounded declaration.id) (known : declaration ∈ registry.all)
    (howner : declaration.owner = .declaration owner) :
    registry.modulePath declaration.id =
      (registry.modulePath owner).child (registry.moduleNameOf declaration) := by
  obtain ⟨above, hupward, hdistinct, -⟩ := h.exists_upward
  exact Registry.modulePath_nested hupward (hupward.length_le hdistinct) (List.mem_cons_self ..)
    (get?_of_mem known) howner

end Registry

/-- The tree of a unit is made of modules of declarations, each in the module of its owner, from a
declaration at the root down. -/
structure OutputUnit.GrownFrom (unit : OutputUnit) (registry : Registry) : Prop where
  made : ∀ node ∈ unit.module.walk, ∃ declaration ∈ registry.plan.classShaped,
    node.bare = registry.plan.moduleOf declaration
  linked : unit.module.Linked registry
  atRoot : ∃ declaration, registry.get? unit.element = some declaration ∧
    declaration.owner = .root unit.package

namespace OutputUnit.GrownFrom

open Registry

variable {registry : Registry} {unit : OutputUnit} {module : GeneratedModule} {path : ModulePath}

/-- The declaration of a module of the tree, which its name and its path come from. -/
theorem exists_declaration (h : unit.GrownFrom registry) (hmodule : module ∈ unit.module.walk) :
    ∃ declaration ∈ registry.all, declaration.id = module.declaration ∧
      declaration.isClassShaped = true ∧ module.name = registry.moduleNameOf declaration ∧
      module.path = registry.modulePath module.declaration := by
  obtain ⟨declaration, hmem, hbare⟩ := h.made module hmodule
  obtain ⟨hknown, hshaped⟩ := mem_classShaped.1 hmem
  have hid : module.declaration = declaration.id := congrArg GeneratedModule.declaration hbare
  have hpath : module.path = (registry.plan.moduleOf declaration).path :=
    (congrArg GeneratedModule.path hbare :)
  refine ⟨declaration, hknown, hid.symm, hshaped, congrArg GeneratedModule.name hbare, ?_⟩
  rw [hpath, path_moduleOf, hid]

/-- What has a place in the tree is grounded, and the chain of its owners spells its place. -/
theorem grounded_and_modulePath_eq (h : unit.GrownFrom registry) (hputs : unit.Puts module path) :
    registry.Grounded module.declaration ∧ registry.modulePath module.declaration = path := by
  induction hputs with
  | root =>
    obtain ⟨declaration, hknown, hid, -, hname, -⟩ :=
      h.exists_declaration (self_mem_walk unit.module)
    obtain ⟨found, hfound, howner⟩ := h.atRoot
    have hget : registry.get? unit.module.declaration = some declaration := hid ▸ get?_of_mem hknown
    obtain rfl := Option.some.inj (hget.symm.trans hfound)
    refine ⟨hid ▸ .atRoot hknown howner, ?_⟩
    rw [modulePath_root hget howner, hname]
  | @child module child path above inside ih =>
    obtain ⟨hgrounded, hpath⟩ := ih
    obtain ⟨owner, howner, hownerId, hshaped, -⟩ := h.exists_declaration above.mem_walk
    obtain ⟨declaration, hknown, hid, -, hname, -⟩ :=
      h.exists_declaration (child_mem_walk above.mem_walk inside)
    -- The child is in the module of its owner, so it is grounded as that is.
    have hstep := h.linked module above.mem_walk child inside
    rw [← hid, ownedBy_iff hknown] at hstep
    have hchild : registry.Grounded declaration.id :=
      .inOwner hknown (hownerId ▸ hstep) howner hshaped (hownerId ▸ hgrounded)
    refine ⟨hid ▸ hchild, ?_⟩
    rw [← hid, hchild.modulePath_nested hknown hstep, hpath, hname]

/-- A module has the path of its place. -/
theorem path_eq (h : unit.GrownFrom registry) (hputs : unit.Puts module path) : module.path = path := by
  obtain ⟨-, -, -, -, -, hpath⟩ := h.exists_declaration hputs.mem_walk
  rw [hpath]
  exact (h.grounded_and_modulePath_eq hputs).2

/-- Every module of the tree is where the chain of its owners says, and nowhere else. -/
theorem puts_iff (h : unit.GrownFrom registry) :
    unit.Puts module path ↔
      module ∈ unit.module.walk ∧ registry.modulePath module.declaration = path := by
  constructor
  · exact fun hputs => ⟨hputs.mem_walk, (h.grounded_and_modulePath_eq hputs).2⟩
  · rintro ⟨hmodule, rfl⟩
    obtain ⟨place, hputs⟩ := OutputUnit.Puts.root.exists_of_mem_walk module hmodule
    rwa [(h.grounded_and_modulePath_eq hputs).2]

/-- The path of a child is the path of its module and its own name. -/
theorem path_child (h : unit.GrownFrom registry) (hmodule : module ∈ unit.module.walk)
    {child : GeneratedModule} (hchild : child ∈ module.children) :
    child.path = module.path.child child.name := by
  obtain ⟨place, hputs⟩ := OutputUnit.Puts.root.exists_of_mem_walk module hmodule
  rw [h.path_eq (hputs.child hchild), h.path_eq hputs]

end OutputUnit.GrownFrom

/-! ## Compilations -/

namespace Compilation

/-- The paths that come from owners and the trees agree: roots stand in the packages of their units,
children in their modules, and a call names the place of the module of the called command. -/
structure PathsAgree (registry : Registry) (compilation : Compilation) : Prop where
  root : ∀ unit ∈ compilation.units,
    unit.module.path = (ModulePath.ofPackage unit.package).child unit.module.name
  child : ∀ unit ∈ compilation.units, ∀ module ∈ unit.module.walk, ∀ child ∈ module.children,
    child.path = module.path.child child.name
  placed : ∀ unit ∈ compilation.units, ∀ module path,
    unit.Puts module path ↔
      module ∈ unit.module.walk ∧ registry.modulePath module.declaration = path
  called : ∀ module ∈ walkAll compilation.modules, ∀ procedure ∈ module.procedures,
    ∀ statement ∈ procedure.body, ∀ callee ∈ statement.callees,
      ∃ e ∈ registry.commands, ∃ kind ∈ e.kinds,
        callee.target = registry.plan.reference e kind ∧
        ∀ unit ∈ compilation.units, ∀ target path, unit.Puts target path →
          target.declaration = e.classId → callee.target.module = path

variable {settings : Settings} {manifest : Manifest}

/-- The units of every compilation are trees that follow the owners, with errors or without. -/
theorem grownFrom_of_mem_units {unit : OutputUnit}
    (hunit : unit ∈ (ofManifest settings manifest).units) :
    unit.GrownFrom (Registry.ofManifest settings manifest) := by
  have hmade : ∀ node ∈ unit.module.walk,
      ∃ declaration ∈ (Registry.ofManifest settings manifest).plan.classShaped,
        node.bare = (Registry.ofManifest settings manifest).plan.moduleOf declaration := by
    intro node hnode
    have hwalk : node ∈ walkAll (ofManifest settings manifest).modules := by
      rw [walkAll_eq_flatMap]
      exact List.mem_flatMap.2 ⟨unit.module, List.mem_map_of_mem hunit, hnode⟩
    have hbare : node.bare ∈ (walkAll (ofManifest settings manifest).modules).map bare :=
      List.mem_map_of_mem hwalk
    exact exists_moduleOf hbare
  cases hany : (Registry.ofManifest settings manifest).commands.any CommandDeclaration.isCommand with
  | false =>
    rw [units_eq_nil hany] at hunit
    cases hunit
  | true =>
    have hflat := (Registry.ofManifest settings manifest).flat_flatModules
    rw [ofManifest_eq hany] at hunit
    simp only [Registry.assemble_fst] at hunit
    -- The trees without a procedure are left out; the others are as they have been built.
    have hbuilt := (List.mem_filter.1 hunit).1
    exact ⟨hmade, hflat.linked_builtUnits hbuilt, hflat.atRoot_builtUnits hbuilt⟩

/-- The paths that procedures use are the places of modules in the trees. -/
theorem pathsAgree_ofManifest (settings : Settings) (manifest : Manifest) :
    (ofManifest settings manifest).PathsAgree (Registry.ofManifest settings manifest) where
  root := fun unit hunit => (grownFrom_of_mem_units hunit).path_eq .root
  child := fun unit hunit module hmodule child hchild =>
    (grownFrom_of_mem_units hunit).path_child hmodule hchild
  placed := fun unit hunit module path => (grownFrom_of_mem_units hunit).puts_iff
  called := by
    intro module hmodule procedure hprocedure statement hstatement callee hcallee
    obtain ⟨d, hd, kind, -, -, rfl⟩ :=
      kept_of_mem_procedures (mem_procedures_of_mem_walkAll hmodule hprocedure)
    obtain ⟨e, he, kind', hkind, htarget, -, -⟩ :=
      Registry.exists_called (Registry.mem_kept.1 hd).1 hstatement hcallee
    refine ⟨e, he, kind', hkind, htarget, ?_⟩
    intro unit hunit target path hputs hclass
    rw [htarget, Plan.reference, ← hclass]
    exact (Registry.modulePath_report _ _).trans
      ((grownFrom_of_mem_units hunit).grounded_and_modulePath_eq hputs).2

/-- A class in a class of a package, and a class that lies in itself. -/
def lostClass : Manifest where
  symbols :=
    .ofList
      [⟨⟨"demo"⟩, "demo", none, [], .package⟩,
        ⟨⟨"demo.Outer"⟩, "Outer", some ⟨"demo"⟩, [], .classType none none none⟩,
        ⟨⟨"demo.Outer.Inner"⟩, "Inner", some ⟨"demo.Outer"⟩, [], .classType none none none⟩,
        ⟨⟨"Lost"⟩, "Lost", some ⟨"Lost"⟩, [], .classType none (some "crate::Lost") none⟩]
  elements :=
    [{ CommandInput.bare ⟨"demo.Outer.Inner"⟩ with command := some ⟨"inner", []⟩ },
      { CommandInput.bare ⟨"Lost"⟩ with command := some ⟨"lost", []⟩ }]

-- The class that lies in itself is in no tree; the others are where their owners say.
example :
    (walkAll (ofManifest {} lostClass).modules).map (fun module => module.path.segments) =
      [["demo", "outer_cli_cfg"], ["demo", "outer_cli_cfg", "inner_cli_cfg"]] := by
  decide +kernel

end Compilation

end CommandFactory
