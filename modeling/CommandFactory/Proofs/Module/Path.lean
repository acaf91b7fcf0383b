import CommandFactory.Proofs.Module.Delivery
import CommandFactory.Proofs.Module.Order
import CommandFactory.Proofs.Naming

/-!
# Paths of modules

Where chains of owners end, the path of a module is its name below its package, or below the path of
the module of its owner. Two modules have one path exactly if their classes, or classes that enclose
them, clash: they have one name in snake case and lie in places of one path (`Clash`).
-/

set_option autoImplicit false

namespace CommandFactory

theorem ModulePath.child_inj {p q : ModulePath} {a b : String} :
    p.child a = q.child b ↔ p = q ∧ a = b := by
  obtain ⟨ps⟩ := p
  obtain ⟨qs⟩ := q
  simp only [child, ModulePath.mk.injEq]
  constructor
  · intro h
    exact ⟨(List.append_inj' h (by simp)).1, List.singleton_inj.1 (List.append_inj' h (by simp)).2⟩
  · rintro ⟨rfl, rfl⟩
    rfl

/-- The path of the modules in a package. -/
def ModulePath.ofPackage (package : Option String) : ModulePath := ⟨Naming.packageSegments package⟩

namespace Registry

variable {registry : Registry}

/-! ## Chains of owners -/

/-- A chain of owners ends within the declarations, so more steps find nothing more. -/
theorem Upward.modulesAbove_eq {order : List SymbolId} (h : registry.Upward order) {id : SymbolId}
    (hid : id ∈ order) {steps : Nat} (hsteps : order.length ≤ steps) :
    registry.modulesAbove steps (registry.get? id) =
      registry.modulesAbove order.length (registry.get? id) := by
  refine h.eq_of_steps ?_ ?_ hid hsteps
  · intro declaration package howner n m
    rw [modulesAbove, modulesAbove, howner]
  · intro declaration owner howner n m heq
    rw [modulesAbove, modulesAbove, howner]
    simp only
    rw [heq]

/-! ## The path of a module -/

theorem modulesAbove_report (diagnostics : List Diagnostic) (steps : Nat)
    (declaration : Option Declaration) :
    (registry.report diagnostics).modulesAbove steps declaration =
      registry.modulesAbove steps declaration := by
  induction steps generalizing declaration with
  | zero => rfl
  | succ steps ih =>
    cases declaration with
    | none => rfl
    | some declaration =>
      rw [modulesAbove, modulesAbove]
      cases declaration.owner with
      | root package => rfl
      | declaration owner =>
        simp only
        rw [ih]
        rfl

/-- Reports change no path. -/
theorem modulePath_report (diagnostics : List Diagnostic) (id : SymbolId) :
    (registry.report diagnostics).modulePath id = registry.modulePath id := by
  rw [modulePath, modulePath, modulesAbove_report]
  rfl

theorem path_moduleOf (declaration : Declaration) :
    (registry.plan.moduleOf declaration).path = registry.modulePath declaration.id :=
  modulePath_report _ _

/-- The name of the module of a declaration. -/
def moduleNameOf (registry : Registry) (declaration : Declaration) : String :=
  Naming.moduleName declaration.simpleName registry.settings.moduleSuffix

theorem modulePath_root {id : SymbolId} {declaration : Declaration} {package : Option String}
    (hget : registry.get? id = some declaration) (howner : declaration.owner = .root package) :
    registry.modulePath id =
      (ModulePath.ofPackage package).child (registry.moduleNameOf declaration) := by
  rw [modulePath, hget, modulesAbove, howner]
  rfl

theorem modulePath_nested {order : List SymbolId} (h : registry.Upward order)
    (hlength : order.length ≤ registry.declarations.size) {id owner : SymbolId}
    (hid : id ∈ order) {declaration : Declaration} (hget : registry.get? id = some declaration)
    (howner : declaration.owner = .declaration owner) :
    registry.modulePath id =
      (registry.modulePath owner).child (registry.moduleNameOf declaration) := by
  obtain ⟨found, hfound, habove⟩ := h.known hid
  obtain rfl := Option.some.inj (hget.symm.trans hfound)
  have hmem : owner ∈ order := habove owner howner
  -- The path of the module has one step less for its owner than the path of the owner itself.
  have hsteps : registry.modulesAbove (registry.declarations.size + 1) (registry.get? owner) =
      registry.modulesAbove registry.declarations.size (registry.get? owner) := by
    rw [h.modulesAbove_eq hmem (Nat.le_succ_of_le hlength), h.modulesAbove_eq hmem hlength]
  rw [modulePath, modulePath, hsteps, hget, modulesAbove, howner]
  simp [ModulePath.child, moduleNameOf]

/-! ## Clashes -/

/-- Two declarations lie in places of one path: in one declaration, in packages of one path, or one in
a package and the other in a declaration of the path of that package. -/
inductive SamePlace (registry : Registry) (a b : Declaration) : Prop
  | inOwner {owner : SymbolId} (left : a.owner = .declaration owner)
      (right : b.owner = .declaration owner) : SamePlace registry a b
  | inPackages {p q : Option String} (left : a.owner = .root p) (right : b.owner = .root q)
      (same : ModulePath.ofPackage p = ModulePath.ofPackage q) : SamePlace registry a b
  | inPackageOfOwner {p : Option String} {owner : SymbolId} (left : a.owner = .root p)
      (right : b.owner = .declaration owner)
      (same : ModulePath.ofPackage p = registry.modulePath owner) : SamePlace registry a b

/-- Two declarations with modules have one name in snake case and lie in places of one path. -/
structure Clash (registry : Registry) (a b : Declaration) : Prop where
  left : a ∈ registry.plan.classShaped
  right : b ∈ registry.plan.classShaped
  distinct : a.id ≠ b.id
  name : Naming.snakeCase a.simpleName = Naming.snakeCase b.simpleName
  place : registry.SamePlace a b

/-- Any two declarations with modules have modules of different paths. -/
def DistinctPaths (registry : Registry) : Prop :=
  ∀ a ∈ registry.plan.classShaped, ∀ b ∈ registry.plan.classShaped,
    registry.modulePath a.id = registry.modulePath b.id → a.id = b.id

instance (registry : Registry) : Decidable registry.DistinctPaths :=
  inferInstanceAs (Decidable (∀ a ∈ registry.plan.classShaped, ∀ b ∈ registry.plan.classShaped,
    registry.modulePath a.id = registry.modulePath b.id → a.id = b.id))

/-- Commands that are kept and whose references are equal are equal, if modules have different
paths. -/
theorem WellRooted.reference_inj (h : registry.WellRooted) (hpaths : registry.DistinctPaths)
    {d e : CommandDeclaration} {kind kind' : ProcedureKind} (hd : d ∈ registry.plan.kept)
    (he : e ∈ registry.plan.kept) (hkind : kind ∈ d.kinds) (hkind' : kind' ∈ e.kinds)
    (href : registry.plan.reference d kind = registry.plan.reference e kind') :
    d = e ∧ kind = kind' := by
  rw [Plan.reference, Plan.reference, ProcedureRef.mk.injEq] at href
  obtain ⟨hpath, hname⟩ := href
  obtain ⟨classD, hclassD, hidD⟩ := h.exists_classShaped (mem_kept.1 hd).1
  obtain ⟨classE, hclassE, hidE⟩ := h.exists_classShaped (mem_kept.1 he).1
  -- One path is one class, and within a class names tell commands apart.
  have hclass : d.classId = e.classId := by
    rw [← hidD, ← hidE]
    apply hpaths classD hclassD classE hclassE
    rw [hidD, hidE]
    exact (modulePath_report _ _).symm.trans (hpath.trans (modulePath_report _ _))
  exact ⟨eq_of_name hd he hclass hname, kind_eq_of_name hd he hkind hkind' hname⟩

namespace Delivered

variable {compilation : Compilation}

theorem get?_classShaped {declaration : Declaration}
    (h : declaration ∈ registry.plan.classShaped) :
    registry.get? declaration.id = some declaration :=
  Keyed.get?_of_mem (mem_classShaped.1 h).1

/-- The path of a module in another is the path of that module and its own name. -/
theorem modulePath_nested (h : registry.Delivered compilation) {declaration : Declaration}
    (hmem : declaration ∈ registry.plan.classShaped) {owner : SymbolId}
    (howner : declaration.owner = .declaration owner) :
    registry.modulePath declaration.id =
      (registry.modulePath owner).child (registry.moduleNameOf declaration) := by
  obtain ⟨order, hperm, hupward⟩ := h.upward
  have hlength : order.length ≤ registry.declarations.size := by
    rw [hperm.length_eq, List.length_map]
    exact List.length_filter_le _ _
  exact Registry.modulePath_nested hupward hlength
    (hperm.mem_iff.2 (List.mem_map_of_mem hmem)) (get?_classShaped hmem) howner

/-- The owner of a declaration with a module has a module too. -/
theorem owner_mem (h : registry.Delivered compilation) {declaration : Declaration}
    (hmem : declaration ∈ registry.plan.classShaped) {owner : SymbolId}
    (howner : declaration.owner = .declaration owner) :
    ∃ above ∈ registry.plan.classShaped, above.id = owner := by
  obtain ⟨order, hperm, hupward⟩ := h.upward
  obtain ⟨found, hfound, habove⟩ := hupward.known (hperm.mem_iff.2 (List.mem_map_of_mem hmem))
  obtain rfl := Option.some.inj ((get?_classShaped hmem).symm.trans hfound)
  obtain ⟨above, hin, hid⟩ := List.mem_map.1 (hperm.mem_iff.1 (habove owner howner))
  exact ⟨above, hin, hid⟩

/-- Declarations that clash have modules of one path. -/
theorem modulePath_eq_of_clash (h : registry.Delivered compilation) {a b : Declaration}
    (hclash : registry.Clash a b) : registry.modulePath a.id = registry.modulePath b.id := by
  have hname : registry.moduleNameOf a = registry.moduleNameOf b :=
    Naming.moduleName_inj.2 hclash.name
  cases hclash.place with
  | inOwner left right =>
    rw [h.modulePath_nested hclash.left left, h.modulePath_nested hclash.right right, hname]
  | inPackages left right same =>
    rw [modulePath_root (get?_classShaped hclash.left) left,
      modulePath_root (get?_classShaped hclash.right) right, hname, same]
  | inPackageOfOwner left right same =>
    rw [modulePath_root (get?_classShaped hclash.left) left,
      h.modulePath_nested hclash.right right, hname, same]

/-- The place of a declaration with a module: its package, or the declaration it lies in. -/
theorem exists_place (h : registry.Delivered compilation) {declaration : Declaration}
    (hmem : declaration ∈ registry.plan.classShaped) :
    ∃ place : ModulePath,
      registry.modulePath declaration.id = place.child (registry.moduleNameOf declaration) ∧
      ((∃ package, declaration.owner = .root package ∧ place = .ofPackage package) ∨
        ∃ above ∈ registry.plan.classShaped, declaration.owner = .declaration above.id ∧
          place = registry.modulePath above.id) := by
  cases howner : declaration.owner with
  | root package =>
    exact ⟨_, modulePath_root (get?_classShaped hmem) howner, Or.inl ⟨package, rfl, rfl⟩⟩
  | declaration owner =>
    obtain ⟨above, habove, rfl⟩ := h.owner_mem hmem howner
    exact ⟨_, h.modulePath_nested hmem howner, Or.inr ⟨above, habove, rfl, rfl⟩⟩

/-- Where nothing clashes, modules have different paths: modules of one path have one name and lie in
places of one path, and if those are two modules, these have a shorter path. -/
theorem id_eq_of_modulePath_eq (h : registry.Delivered compilation)
    (hfree : ∀ a b, ¬ registry.Clash a b) (length : Nat) {a b : Declaration}
    (ha : a ∈ registry.plan.classShaped) (hb : b ∈ registry.plan.classShaped)
    (hlength : (registry.modulePath a.id).segments.length = length)
    (hpath : registry.modulePath a.id = registry.modulePath b.id) : a.id = b.id := by
  induction length generalizing a b with
  | zero =>
    -- Every path has the name of its module.
    obtain ⟨place, haplace, -⟩ := h.exists_place ha
    rw [haplace, ModulePath.child] at hlength
    simp at hlength
  | succ length ih =>
    by_contra hdistinct
    obtain ⟨place, haplace, haowner⟩ := h.exists_place ha
    obtain ⟨place', hbplace, hbowner⟩ := h.exists_place hb
    rw [haplace, hbplace, ModulePath.child_inj] at hpath
    obtain ⟨rfl, hname⟩ := hpath
    have hsnake := Naming.moduleName_inj.1 hname
    rcases haowner with ⟨p, haowner, rfl⟩ | ⟨above, habove, haowner, rfl⟩
    · rcases hbowner with ⟨q, hbowner, hsame⟩ | ⟨above, habove, hbowner, hsame⟩
      · exact hfree a b ⟨ha, hb, hdistinct, hsnake, .inPackages haowner hbowner hsame⟩
      · exact hfree a b ⟨ha, hb, hdistinct, hsnake, .inPackageOfOwner haowner hbowner hsame⟩
    · rcases hbowner with ⟨q, hbowner, hsame⟩ | ⟨above', habove', hbowner, hsame⟩
      · exact hfree b a ⟨hb, ha, Ne.symm hdistinct, hsnake.symm,
          .inPackageOfOwner hbowner haowner hsame.symm⟩
      · -- Both lie in modules, of one path that is shorter, and so in one module.
        have hshorter : (registry.modulePath above.id).segments.length = length := by
          rw [haplace, ModulePath.child] at hlength
          simpa using hlength
        have howner := ih habove habove' hshorter hsame
        exact hfree a b ⟨ha, hb, hdistinct, hsnake, .inOwner haowner (howner ▸ hbowner)⟩

/-- Modules have different paths exactly if no declarations clash. -/
theorem distinctPaths_iff (h : registry.Delivered compilation) :
    registry.DistinctPaths ↔ ∀ a b, ¬ registry.Clash a b := by
  constructor
  · intro hpaths a b hclash
    exact hclash.distinct
      (hpaths a hclash.left b hclash.right (h.modulePath_eq_of_clash hclash))
  · intro hfree a ha b hb hpath
    exact h.id_eq_of_modulePath_eq hfree _ ha hb rfl hpath

/-- Commands whose references are equal are equal, if modules have different paths. -/
theorem reference_inj (h : registry.Delivered compilation) (hpaths : registry.DistinctPaths)
    {d e : CommandDeclaration} {kind kind' : ProcedureKind} (hd : d ∈ registry.commands)
    (he : e ∈ registry.commands) (hkind : kind ∈ d.kinds) (hkind' : kind' ∈ e.kinds)
    (href : registry.plan.reference d kind = registry.plan.reference e kind') :
    d = e ∧ kind = kind' :=
  h.rooted.reference_inj hpaths (h.mem_kept.2 hd) (h.mem_kept.2 he) hkind hkind' href

end Delivered

end Registry

end CommandFactory
