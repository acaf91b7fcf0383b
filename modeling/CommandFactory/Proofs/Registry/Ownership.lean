import CommandFactory.Proofs.Cycle
import CommandFactory.Proofs.Keyed
import CommandFactory.Registry.Basic

/-!
# Owners of declarations

A declaration lives at the root or in another one (`Registry.OwnedBy`). It is `Grounded` if following
owners leads from it over class-shaped declarations to the root. Nothing grounded lies in itself, and
where all owners are class-shaped declarations, what leads to no cycle is grounded
(`grounded_of_acyclic`).
-/

set_option autoImplicit false

namespace CommandFactory

namespace Registry

open Relation

/-- The second identity is the owner of the declaration of the first. -/
def OwnedBy (registry : Registry) (id owner : SymbolId) : Prop :=
  ∃ declaration, registry.get? id = some declaration ∧ declaration.owner = .declaration owner

/-- Following owners leads over class-shaped declarations to the root. -/
inductive Grounded (registry : Registry) : SymbolId → Prop
  | atRoot {declaration : Declaration} {package : Option String}
      (known : declaration ∈ registry.all) (owner : declaration.owner = .root package) :
      Grounded registry declaration.id
  | inOwner {declaration above : Declaration} (known : declaration ∈ registry.all)
      (owner : declaration.owner = .declaration above.id) (listed : above ∈ registry.all)
      (shaped : above.isClassShaped = true) (grounded : Grounded registry above.id) :
      Grounded registry declaration.id

variable {registry : Registry}

theorem get?_of_mem {declaration : Declaration} (h : declaration ∈ registry.all) :
    registry.get? declaration.id = some declaration :=
  Keyed.get?_of_mem h

theorem mem_ids {id : SymbolId} :
    id ∈ registry.ids ↔ ∃ declaration ∈ registry.all, declaration.id = id :=
  List.mem_map

theorem ownedBy_iff {declaration : Declaration} (h : declaration ∈ registry.all)
    {owner : SymbolId} :
    registry.OwnedBy declaration.id owner ↔ declaration.owner = .declaration owner := by
  constructor
  · rintro ⟨found, hfound, howner⟩
    obtain rfl := Option.some.inj ((get?_of_mem h).symm.trans hfound)
    exact howner
  · exact fun howner => ⟨declaration, get?_of_mem h, howner⟩

theorem ownedBy_rightUnique (registry : Registry) : Relator.RightUnique registry.OwnedBy := by
  rintro id a b ⟨declaration, hget, ha⟩ ⟨other, hother, hb⟩
  obtain rfl := Option.some.inj (hget.symm.trans hother)
  exact Scope.declaration.inj (ha.symm.trans hb)

/-- Nothing grounded lies in itself. -/
theorem Grounded.not_transGen {id : SymbolId} (h : registry.Grounded id) :
    ¬ TransGen registry.OwnedBy id id := by
  induction h with
  | @atRoot declaration package known owner =>
    intro hcycle
    obtain ⟨above, hstep, -⟩ := TransGen.head'_iff.1 hcycle
    rw [ownedBy_iff known, owner] at hstep
    cases hstep
  | @inOwner declaration above known owner listed shaped grounded ih =>
    -- The owner would lie on the cycle as well.
    intro hcycle
    have hstep := (ownedBy_iff known).2 owner
    exact ih (TransGen.trans_right
      (reflTransGen_of_cycle registry.ownedBy_rightUnique hcycle (.single hstep)) (.single hstep))

/-- The owner of a grounded declaration is class-shaped, and grounded. -/
theorem Grounded.exists_owner {id owner : SymbolId} (h : registry.Grounded id)
    (hstep : registry.OwnedBy id owner) : ∃ above ∈ registry.all, above.id = owner ∧
      above.isClassShaped = true ∧ registry.Grounded above.id := by
  cases h with
  | atRoot known atRoot =>
    rw [ownedBy_iff known, atRoot] at hstep
    cases hstep
  | @inOwner declaration above known inOwner listed shaped grounded =>
    rw [ownedBy_iff known, inOwner] at hstep
    cases hstep
    exact ⟨above, listed, rfl, shaped, grounded⟩

/-- What a grounded declaration leads to is grounded. -/
theorem Grounded.of_reflTransGen {id owner : SymbolId} (h : registry.Grounded id)
    (hup : ReflTransGen registry.OwnedBy id owner) : registry.Grounded owner := by
  induction hup with
  | refl => exact h
  | tail _ hstep ih =>
    obtain ⟨above, -, rfl, -, hgrounded⟩ := ih.exists_owner hstep
    exact hgrounded

/-- Reports ground nothing and lift nothing. -/
theorem Grounded.report {id : SymbolId} (h : registry.Grounded id) (diagnostics : List Diagnostic) :
    (registry.report diagnostics).Grounded id := by
  induction h with
  | atRoot known owner => exact .atRoot known owner
  | inOwner known owner listed shaped _ ih => exact .inOwner known owner listed shaped ih

/-- All owners are class-shaped declarations. -/
def Housed (registry : Registry) : Prop :=
  ∀ declaration ∈ registry.all, ∀ owner, declaration.owner = .declaration owner →
    ∃ above ∈ registry.all, above.id = owner ∧ above.isClassShaped = true

/-- What leads to no cycle of owners is grounded. -/
theorem Housed.grounded_of_acyclic (h : registry.Housed) {declaration : Declaration}
    (hknown : declaration ∈ registry.all)
    (hacyclic : ∀ id, ReflTransGen registry.OwnedBy declaration.id id →
      ¬ TransGen registry.OwnedBy id id) :
    registry.Grounded declaration.id := by
  refine induction_of_reaches_no_cycle (s := { id | id ∈ registry.ids })
    (List.finite_toSet registry.ids) (motive := registry.Grounded) ?_
    (mem_ids.2 ⟨declaration, hknown, rfl⟩) hacyclic
  intro id hid ih
  obtain ⟨next, hnext, rfl⟩ := mem_ids.1 hid
  cases howner : next.owner with
  | root package => exact .atRoot hnext howner
  | declaration owner =>
    obtain ⟨above, habove, rfl, hshaped⟩ := h next hnext owner howner
    have hgrounded := ih above.id (mem_ids.2 ⟨above, habove, rfl⟩) ((ownedBy_iff hnext).2 howner)
    exact .inOwner hnext howner habove hshaped hgrounded

end Registry

end CommandFactory
