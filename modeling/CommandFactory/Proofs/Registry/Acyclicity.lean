import CommandFactory.Proofs.Cycle
import CommandFactory.Proofs.Registry.Growth

/-!
# Cycles of ancestors

A declaration is linked to the nearest declared class above it. Each link is found by a walk of its
own, which stops where it would repeat a class, so a cycle of superclasses with one declared class
links nothing. A cycle with two declared classes links each of them to the next: the links have a
cycle exactly where two distinct declared classes lie on one cycle of superclasses
(`links_acyclic_iff`).
-/

set_option autoImplicit false

namespace CommandFactory

open Relation

/-- The second class is the declared superclass of the first. -/
def SymbolTable.Extends (table : SymbolTable) (id above : SymbolId) : Prop :=
  table.superclass? id = some above

theorem SymbolTable.extends_rightUnique (table : SymbolTable) : Relator.RightUnique table.Extends :=
  fun _ _ _ ha hb => Option.some.inj (ha.symm.trans hb)

namespace Registry

/-- The declaration of the first identity is linked to the second. -/
def Links (registry : Registry) (id ancestor : SymbolId) : Prop :=
  ∃ d, registry.command? id = some d ∧ d.superCommand = some ancestor

/-- The identity has a command or a holder of its own. -/
def Declares (registry : Registry) (id : SymbolId) : Prop :=
  (registry.command? id).isSome = true

/-! ## One walk -/

variable {registry : Registry}

/-- What a walk finds is declared, lies above its start, and has not been left. -/
theorem nearestFrom_eq_some {steps : Nat} {visited : List SymbolId} {start found : SymbolId}
    (h : registry.nearestFrom steps visited (some start) = some found) :
    registry.Declares found ∧ found ∉ visited ∧
      ReflTransGen registry.symbols.Extends start found := by
  induction steps generalizing visited start with
  | zero => simp [nearestFrom] at h
  | succ steps ih =>
    rw [nearestFrom] at h
    split at h
    · cases h
    · rename_i hvisited
      split at h
      · rename_i hdeclared
        cases h
        exact ⟨hdeclared, hvisited, .refl⟩
      · cases hnext : registry.symbols.superclass? start with
        | none =>
          -- The walk ends here, whatever steps are left.
          rw [hnext] at h
          cases steps <;> simp [nearestFrom] at h
        | some next =>
          rw [hnext] at h
          obtain ⟨hdeclared, hleft, hup⟩ := ih h
          exact ⟨hdeclared, fun hmem => hleft (List.mem_cons_of_mem _ hmem), .head hnext hup⟩

/-- A walk has left no more classes than the table has symbols. -/
theorem length_visited_le {visited : List SymbolId} (hdistinct : visited.Nodup)
    (hknown : ∀ id ∈ visited, registry.symbols.HasClass id) :
    visited.length ≤ registry.symbols.size := by
  have hsub : visited ⊆ registry.symbols.keys := by
    intro v hv
    obtain ⟨symbol, hget, -⟩ := hknown v hv
    obtain ⟨hmem, rfl⟩ := Keyed.get?_eq_some_iff.1 hget
    exact List.mem_map_of_mem hmem
  have hle := (hdistinct.subperm hsub).length_le
  rwa [Keyed.keys, List.length_map] at hle

/-- A walk that finds nothing and has steps enough has left a list of undeclared classes that no
superclass leads out of, except back to where the walk had been before. -/
theorem nearestFrom_eq_none {steps : Nat} {visited : List SymbolId} {start : Option SymbolId}
    (h : registry.nearestFrom steps visited start = none)
    (hdistinct : visited.Nodup)
    (hknown : ∀ id ∈ visited, registry.symbols.HasClass id ∨ start = none)
    (hsteps : registry.symbols.size < steps + visited.length) :
    ∃ walked : List SymbolId,
      (∀ id ∈ walked, ¬ registry.Declares id) ∧
      (∀ id, start = some id → id ∈ walked ∨ id ∈ visited) ∧
      ∀ id ∈ walked, ∀ above, registry.symbols.Extends id above →
        above ∈ walked ∨ above ∈ visited := by
  induction steps generalizing visited start with
  | zero =>
    cases start with
    | none => exact ⟨[], by simp, by simp, by simp⟩
    | some id =>
      -- All steps are gone, so more classes would have been left than there are symbols.
      have hle := length_visited_le hdistinct fun v hv => (hknown v hv).resolve_right (by simp)
      omega
  | succ steps ih =>
    cases start with
    | none => exact ⟨[], by simp, by simp, by simp⟩
    | some id =>
      rw [nearestFrom] at h
      split at h
      · rename_i hvisited
        exact ⟨[], by simp, by simp [hvisited], by simp⟩
      · rename_i hvisited
        split at h
        · cases h
        · rename_i hdeclared
          have hknown' : ∀ v ∈ id :: visited,
              registry.symbols.HasClass v ∨ registry.symbols.superclass? id = none := by
            intro v hv
            cases hsuper : registry.symbols.superclass? id with
            | none => exact Or.inr rfl
            | some above =>
              rcases List.mem_cons.1 hv with rfl | hv
              · exact Or.inl (SymbolTable.hasClass_of_superclass? hsuper)
              · exact Or.inl ((hknown v hv).resolve_right (by simp))
          obtain ⟨walked, hundeclared, hstart, hclosed⟩ := ih h
            (List.nodup_cons.2 ⟨hvisited, hdistinct⟩) hknown'
            (by rw [List.length_cons]; omega)
          -- The class that is left now counts as walked rather than as visited before.
          have hmove : ∀ v, v ∈ walked ∨ v ∈ id :: visited → v ∈ id :: walked ∨ v ∈ visited := by
            intro v hv
            simp only [List.mem_cons] at hv ⊢
            tauto
          refine ⟨id :: walked, ?_, ?_, ?_⟩
          · intro v hv
            rcases List.mem_cons.1 hv with rfl | hv
            · exact hdeclared
            · exact hundeclared v hv
          · rintro v ⟨⟩
            exact Or.inl (List.mem_cons_self ..)
          · intro v hv above habove
            rcases List.mem_cons.1 hv with rfl | hv
            · exact hmove above (hstart above habove)
            · exact hmove above (hclosed v hv above habove)

theorem nearestDeclared?_eq_some {id found : SymbolId}
    (h : registry.nearestDeclared? id = some found) :
    registry.Declares found ∧ found ≠ id ∧ TransGen registry.symbols.Extends id found := by
  rw [nearestDeclared?] at h
  cases hsuper : registry.symbols.superclass? id with
  | none =>
    rw [hsuper, ancestrySteps] at h
    simp [nearestFrom] at h
  | some above =>
    rw [hsuper] at h
    obtain ⟨hdeclared, hleft, hup⟩ := nearestFrom_eq_some h
    exact ⟨hdeclared, fun he => hleft (by simp [he]), TransGen.head' hsuper hup⟩

/-- Nothing but the class itself is declared above a class without a declared ancestor. -/
theorem nearestDeclared?_eq_none {id above : SymbolId} (h : registry.nearestDeclared? id = none)
    (hup : TransGen registry.symbols.Extends id above) (hdeclared : registry.Declares above) :
    above = id := by
  have hknown : ∀ v ∈ [id],
      registry.symbols.HasClass v ∨ registry.symbols.superclass? id = none := by
    intro v hv
    obtain rfl := List.mem_singleton.1 hv
    cases hsuper : registry.symbols.superclass? v with
    | none => exact Or.inr rfl
    | some next => exact Or.inl (SymbolTable.hasClass_of_superclass? hsuper)
  have hsteps : registry.symbols.size < registry.ancestrySteps + [id].length := by
    rw [ancestrySteps, List.length_singleton]
    omega
  obtain ⟨walked, hundeclared, hstart, hclosed⟩ := nearestFrom_eq_none h
    (List.nodup_singleton id) hknown hsteps
  -- The walked classes and the class itself are closed under going up.
  have hmem : above ∈ walked ∨ above ∈ [id] := by
    clear hdeclared
    induction hup with
    | single hstep => exact hstart _ hstep
    | tail _ hstep ih =>
      rcases ih with hwalked | hid
      · exact hclosed _ hwalked _ hstep
      · obtain rfl := List.mem_singleton.1 hid
        exact hstart _ hstep
  rcases hmem with hwalked | hid
  · exact absurd hdeclared (hundeclared above hwalked)
  · exact List.mem_singleton.1 hid

/-! ## All links -/

theorem command?_linkAncestors (registry : Registry) (id : SymbolId) :
    registry.linkAncestors.command? id =
      (registry.command? id).map fun d =>
        if d.rooting = .classRooted then
          { d with superCommand := registry.nearestDeclared? d.id }
        else d := by
  unfold command? get?
  rw [linkAncestors, Keyed.get?_mapItems]
  cases registry.declarations.get? id with
  | none => rfl
  | some declaration =>
    cases declaration with
    | container c => rfl
    | command d =>
      by_cases h : d.rooting = .classRooted <;> simp [Declaration.linked, Declaration.command?, h]

theorem declares_linkAncestors (registry : Registry) (id : SymbolId) :
    registry.linkAncestors.Declares id ↔ registry.Declares id := by
  unfold Declares
  rw [command?_linkAncestors, Option.isSome_map]

theorem WellRooted.classRooted_iff (h : registry.WellRooted) {id : SymbolId}
    {d : CommandDeclaration} (hd : registry.command? id = some d) :
    d.rooting = .classRooted ↔ registry.symbols.HasClass id := by
  obtain ⟨hmem, rfl⟩ := command?_eq_some_iff.1 hd
  cases h _ (mem_commands.1 hmem) with
  | inClass rooting symbol => simp [rooting, symbol]
  | inMethod rooting symbol classSymbol known =>
    simp only [rooting, reduceCtorEq, false_iff]
    exact fun hclass => hclass.not_hasMethod symbol

/-- The links of a registry in which nothing was linked before: each declared class has the nearest
declared class above it. -/
theorem links_linkAncestors_iff (hrooted : registry.WellRooted)
    (hunlinked : ∀ declaration ∈ registry.all, declaration.superCommand? = none)
    {id ancestor : SymbolId} :
    registry.linkAncestors.Links id ancestor ↔
      registry.Declares id ∧ registry.symbols.HasClass id ∧
        registry.nearestDeclared? id = some ancestor := by
  unfold Links
  rw [command?_linkAncestors]
  constructor
  · rintro ⟨d, hd, hancestor⟩
    obtain ⟨before, hbefore, rfl⟩ := Option.map_eq_some_iff.1 hd
    obtain ⟨hmem, hid⟩ := command?_eq_some_iff.1 hbefore
    by_cases hclass : before.rooting = .classRooted
    · rw [if_pos hclass, hid] at hancestor
      exact ⟨by simp [Declares, hbefore], (hrooted.classRooted_iff hbefore).1 hclass, hancestor⟩
    · rw [if_neg hclass] at hancestor
      have := hunlinked _ (mem_commands.1 hmem)
      rw [Declaration.superCommand?, hancestor] at this
      cases this
  · rintro ⟨hdeclared, hhas, hnearest⟩
    obtain ⟨before, hbefore⟩ := Option.isSome_iff_exists.1 hdeclared
    obtain ⟨-, hid⟩ := command?_eq_some_iff.1 hbefore
    have hclass := (hrooted.classRooted_iff hbefore).2 hhas
    refine ⟨{ before with superCommand := registry.nearestDeclared? before.id }, ?_, ?_⟩
    · rw [hbefore, Option.map_some, if_pos hclass]
    · rw [← hnearest, hid]

/-- A link leads to another declared class above. -/
theorem Links.climbs (hrooted : registry.WellRooted)
    (hunlinked : ∀ declaration ∈ registry.all, declaration.superCommand? = none)
    {id ancestor : SymbolId} (h : registry.linkAncestors.Links id ancestor) :
    registry.Declares id ∧ registry.Declares ancestor ∧ ancestor ≠ id ∧
      TransGen registry.symbols.Extends id ancestor := by
  obtain ⟨hdeclared, -, hnearest⟩ := (links_linkAncestors_iff hrooted hunlinked).1 h
  obtain ⟨hancestor, hne, hup⟩ := nearestDeclared?_eq_some hnearest
  exact ⟨hdeclared, hancestor, hne, hup⟩

theorem Links.transGen (hrooted : registry.WellRooted)
    (hunlinked : ∀ declaration ∈ registry.all, declaration.superCommand? = none)
    {id ancestor : SymbolId} (h : ReflTransGen registry.linkAncestors.Links id ancestor) :
    ReflTransGen registry.symbols.Extends id ancestor := by
  induction h with
  | refl => exact .refl
  | tail _ hlink ih => exact ih.trans (hlink.climbs hrooted hunlinked).2.2.2.to_reflTransGen

/-- Two distinct declared classes lie on one cycle of superclasses. -/
def SharesCycle (registry : Registry) : Prop :=
  ∃ a b, a ≠ b ∧ registry.Declares a ∧ registry.Declares b ∧
    TransGen registry.symbols.Extends a b ∧ TransGen registry.symbols.Extends b a

theorem sharesCycle_of_links (hrooted : registry.WellRooted)
    (hunlinked : ∀ declaration ∈ registry.all, declaration.superCommand? = none)
    {id : SymbolId} (h : TransGen registry.linkAncestors.Links id id) : registry.SharesCycle := by
  obtain ⟨ancestor, hlink, hback⟩ := TransGen.head'_iff.1 h
  obtain ⟨hdeclared, hancestor, hne, hup⟩ := hlink.climbs hrooted hunlinked
  refine ⟨id, ancestor, hne.symm, hdeclared, hancestor, hup, ?_⟩
  rcases reflTransGen_iff_eq_or_transGen.1 (Links.transGen hrooted hunlinked hback) with heq | hgen
  · exact absurd heq.symm hne
  · exact hgen

/-- Every declared class on a shared cycle is linked to another one on it. -/
theorem exists_link_of_sharesCycle (hrooted : registry.WellRooted)
    (hunlinked : ∀ declaration ∈ registry.all, declaration.superCommand? = none)
    {a b id : SymbolId} (hne : a ≠ b) (ha : registry.Declares a) (hb : registry.Declares b)
    (hab : TransGen registry.symbols.Extends a b) (hba : TransGen registry.symbols.Extends b a)
    (hid : registry.Declares id) (hto : ReflTransGen registry.symbols.Extends a id) :
    ∃ next, registry.linkAncestors.Links id next ∧ registry.Declares next ∧
      ReflTransGen registry.symbols.Extends a next := by
  have hback := reflTransGen_of_cycle registry.symbols.extends_rightUnique (hab.trans hba) hto
  -- The class is on the cycle, so it can be left, and has a superclass.
  have hida : TransGen registry.symbols.Extends id id := by
    rcases reflTransGen_iff_eq_or_transGen.1 hback with rfl | hgen
    · exact hab.trans hba
    · exact TransGen.trans_left hgen hto
  obtain ⟨above, hstep, -⟩ := TransGen.head'_iff.1 hida
  have hclass := SymbolTable.hasClass_of_superclass? hstep
  cases hnearest : registry.nearestDeclared? id with
  | some next =>
    obtain ⟨hnext, -, hup⟩ := nearestDeclared?_eq_some hnearest
    exact ⟨next, (links_linkAncestors_iff hrooted hunlinked).2 ⟨hid, hclass, hnearest⟩, hnext,
      hto.trans hup.to_reflTransGen⟩
  | none =>
    -- Both `a` and `b` lie above `id`, and only `id` itself is declared there.
    have hupa : TransGen registry.symbols.Extends id a := TransGen.trans_left hida hback
    have heqa := nearestDeclared?_eq_none hnearest hupa ha
    have heqb := nearestDeclared?_eq_none hnearest (hupa.trans hab) hb
    exact absurd (heqa.trans heqb.symm) hne

theorem links_cycle_of_sharesCycle (hrooted : registry.WellRooted)
    (hunlinked : ∀ declaration ∈ registry.all, declaration.superCommand? = none)
    (h : registry.SharesCycle) : ∃ id, TransGen registry.linkAncestors.Links id id := by
  obtain ⟨a, b, hne, ha, hb, hab, hba⟩ := h
  by_contra hacyclic
  push Not at hacyclic
  let onCycle : Set SymbolId :=
    { id | registry.Declares id ∧ ReflTransGen registry.symbols.Extends a id }
  have hfinite : onCycle.Finite := by
    refine (List.finite_toSet registry.ids).subset fun id hid => ?_
    obtain ⟨d, hd⟩ := Option.isSome_iff_exists.1 hid.1
    obtain ⟨hmem, rfl⟩ := command?_eq_some_iff.1 hd
    have hkey : Declaration.id (.command d) ∈ registry.ids :=
      List.mem_map_of_mem (mem_commands.1 hmem)
    exact hkey
  -- Without a cycle there would be a last one, but every class on the cycle is linked to another.
  refine induction_of_acyclic hfinite hacyclic (motive := fun _ => False) ?_
    (show a ∈ onCycle from ⟨ha, .refl⟩)
  rintro id ⟨hdeclared, hto⟩ ih
  obtain ⟨next, hlink, hnext, hup⟩ :=
    exists_link_of_sharesCycle hrooted hunlinked hne ha hb hab hba hdeclared hto
  exact ih next ⟨hnext, hup⟩ hlink

theorem sharesCycle_linkAncestors (registry : Registry) :
    registry.linkAncestors.SharesCycle ↔ registry.SharesCycle := by
  have hsymbols : registry.linkAncestors.symbols = registry.symbols := rfl
  simp only [SharesCycle, declares_linkAncestors, hsymbols]

/-! ## Calls of base configurations -/

/-- The calls on an instance seen as its superclass, among the statements of a configuration, are the
one to the configuration of the ancestor. -/
theorem upcast_mem_configureAll {plan : Plan} {d : CommandDeclaration} {target : ProcedureRef}
    {first : SpecArg} {type : String} :
    Statement.configure target first (.upcast type) ∈ (plan.configureAll d).body ↔
      ∃ base, d.superCommand = some base.id ∧ plan.registry.command? base.id = some base ∧
        first = .spec ∧ type = base.typePath ∧ target = plan.reference base .configureAll := by
  have hbody : (plan.configureAll d).body =
      plan.inheriting d ++
        Plan.parts.map fun part => .configure (plan.reference d part.1) part.2 .this := rfl
  rw [hbody, List.mem_append]
  -- The parts of the configuration work on the instance itself.
  have hparts : Statement.configure target first (.upcast type) ∉
      Plan.parts.map fun part => .configure (plan.reference d part.1) part.2 .this := by
    simp
  simp only [hparts, or_false, Plan.inheriting]
  cases hbase : d.superCommand.bind plan.registry.command? with
  | none =>
    simp only [List.not_mem_nil, false_iff, not_exists]
    rintro base ⟨hsuper, hget, -⟩
    rw [hsuper, Option.bind_some, hget] at hbase
    cases hbase
  | some base =>
    obtain ⟨id, hsuper, hget⟩ := Option.bind_eq_some_iff.1 hbase
    obtain ⟨-, rfl⟩ := command?_eq_some_iff.1 hget
    simp only [List.mem_singleton, Statement.configure.injEq, InstanceArg.upcast.injEq]
    constructor
    · rintro ⟨rfl, rfl, rfl⟩
      exact ⟨base, hsuper, hget, rfl, rfl, rfl⟩
    · rintro ⟨other, hother, hotherGet, rfl, rfl, rfl⟩
      have hid : base.id = other.id := Option.some.inj (hsuper.symm.trans hother)
      rw [hid, hotherGet] at hget
      cases hget
      exact ⟨rfl, rfl, rfl⟩

/-! ## Manifests -/

/-- The links of a manifest have a cycle exactly if two distinct declared classes lie on one cycle of
superclasses; and the calls of base configurations follow the links. -/
theorem links_acyclic_iff (settings : Settings) (manifest : Manifest) :
    ((∀ id, ¬ TransGen (ofManifest settings manifest).Links id id) ↔
        ¬ (ofManifest settings manifest).SharesCycle) ∧
      ∀ d ∈ (ofManifest settings manifest).commands, ∀ target first type,
        Statement.configure target first (.upcast type) ∈
            ((ofManifest settings manifest).plan.configureAll d).body ↔
          ∃ base, (ofManifest settings manifest).Links d.id base.id ∧
            (ofManifest settings manifest).command? base.id = some base ∧
            first = .spec ∧ type = base.typePath ∧
            target = (ofManifest settings manifest).plan.reference base .configureAll := by
  have hgrows := grows_extract (start manifest.symbols settings) manifest.elements
  have hrooted := hgrows.wellRooted (wellRooted_start _ _)
  have hunlinked := hgrows.unlinked fun declaration hmem => by cases hmem
  refine ⟨?_, ?_⟩
  · unfold ofManifest
    rw [sharesCycle_linkAncestors]
    constructor
    · intro hacyclic hshares
      obtain ⟨id, hcycle⟩ := links_cycle_of_sharesCycle hrooted hunlinked hshares
      exact hacyclic id hcycle
    · intro hshares id hcycle
      exact hshares (sharesCycle_of_links hrooted hunlinked hcycle)
  · intro d hd target first type
    have hlinks : ∀ id, (ofManifest settings manifest).Links d.id id ↔ d.superCommand = some id := by
      intro id
      simp [Links, command?_of_mem hd]
    rw [upcast_mem_configureAll]
    simp only [hlinks]
    exact Iff.rfl

/-- Three classes, each below another; the first and the last are commands. -/
def twoOnACycle : Manifest where
  symbols :=
    .ofList
      [⟨⟨"demo"⟩, "demo", none, [], .package⟩,
        ⟨⟨"demo.A"⟩, "A", some ⟨"demo"⟩, [], .classType (some ⟨"demo.C"⟩) none none⟩,
        ⟨⟨"demo.B"⟩, "B", some ⟨"demo"⟩, [], .classType (some ⟨"demo.A"⟩) none none⟩,
        ⟨⟨"demo.C"⟩, "C", some ⟨"demo"⟩, [], .classType (some ⟨"demo.B"⟩) none none⟩]
  elements :=
    [{ CommandInput.bare ⟨"demo.A"⟩ with command := some ⟨"a", []⟩ },
      { CommandInput.bare ⟨"demo.C"⟩ with command := some ⟨"c", []⟩ }]

/-- Each of the two commands is linked to the other. -/
theorem links_cycle_twoOnACycle :
    TransGen (ofManifest {} twoOnACycle).Links ⟨"demo.A"⟩ ⟨"demo.A"⟩ :=
  .head (b := ⟨"demo.C"⟩) ⟨_, rfl, rfl⟩ (.single ⟨_, rfl, rfl⟩)

end Registry

end CommandFactory
