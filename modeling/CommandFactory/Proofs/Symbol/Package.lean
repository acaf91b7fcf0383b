import CommandFactory.Naming
import CommandFactory.Proofs.Cycle
import CommandFactory.Proofs.Keyed
import CommandFactory.Symbol.Table

/-!
# Searches for packages

The search for the package of a symbol goes from owner to owner until it finds a package or no owner
(`SymbolTable.packageWithin?`). Nothing else stops it, so it ends exactly where the owners lead to no
cycle on which there is no package (`ends_iff`). A search that ends visits no symbol twice, so it takes
no more steps than the table has symbols, and `packageOf?` is what it finds (`packageOf?_eq`).
-/

set_option autoImplicit false

namespace CommandFactory.SymbolTable

open Relation

variable {table : SymbolTable} {id : SymbolId} {current result : Option Symbol}

/-! ## What a search finds -/

/-- The search from the current symbol finds the result. -/
inductive Finds (table : SymbolTable) : Option Symbol → Option Symbol → Prop
  | missing : Finds table none none
  | package {symbol : Symbol} (isPackage : symbol.kind = .package) :
      Finds table (some symbol) (some symbol)
  | above {symbol : Symbol} {result : Option Symbol} (goesOn : symbol.kind ≠ .package)
      (next : Finds table (table.owner? symbol.id) result) : Finds table (some symbol) result

/-- The search for the package of a symbol ends, after however many steps. -/
def Ends (table : SymbolTable) (id : SymbolId) : Prop :=
  ∃ steps result, table.packageWithin? steps (table.owner? id) = some result

theorem finds_of_packageWithin? {steps : Nat} (h : table.packageWithin? steps current = some result) :
    table.Finds current result := by
  induction steps generalizing current with
  | zero => cases h
  | succ steps ih =>
    cases current with
    | none =>
      cases h
      exact .missing
    | some symbol =>
      rw [packageWithin?] at h
      split at h
      · rename_i hpackage
        cases h
        exact .package hpackage
      · rename_i hgoesOn
        exact .above hgoesOn (ih h)

/-- A search that has ended has the same result after more steps. -/
theorem packageWithin?_mono {steps more : Nat}
    (h : table.packageWithin? steps current = some result) (hle : steps ≤ more) :
    table.packageWithin? more current = some result := by
  induction steps generalizing current more with
  | zero => cases h
  | succ steps ih =>
    obtain ⟨more, rfl⟩ : ∃ m, more = m + 1 := ⟨more - 1, by omega⟩
    cases current with
    | none => exact h
    | some symbol =>
      rw [packageWithin?] at h ⊢
      split
      · rename_i hpackage
        rwa [if_pos hpackage] at h
      · rename_i hgoesOn
        rw [if_neg hgoesOn] at h
        exact ih h (by omega)

/-! ## Cycles of owners -/

/-- The search from the first identity passes the second on its way, which is the owner of the first and
no package. -/
def Passes (table : SymbolTable) (id above : SymbolId) : Prop :=
  ∃ symbol, table.owner? id = some symbol ∧ symbol.kind ≠ .package ∧ symbol.id = above

/-- The owners lead to a cycle on which there is no package. -/
def Circles (table : SymbolTable) (id : SymbolId) : Prop :=
  ∃ a, ReflTransGen table.Passes id a ∧ TransGen table.Passes a a

theorem mem_keys_of_owner? {symbol : Symbol} (h : table.owner? id = some symbol) :
    symbol.id ∈ table.keys := by
  obtain ⟨below, -, howner⟩ := Option.bind_eq_some_iff.1 h
  obtain ⟨owner, -, hget⟩ := Option.bind_eq_some_iff.1 howner
  exact List.mem_map_of_mem (Keyed.get?_eq_some_iff.1 hget).1

/-- What circles passes its owner, which circles as well. -/
theorem Circles.exists_passes (h : table.Circles id) :
    ∃ above, table.Passes id above ∧ table.Circles above := by
  obtain ⟨a, hreach, hcycle⟩ := h
  rcases hreach.cases_head with rfl | ⟨above, hpass, hreach⟩
  · -- The start is on the cycle itself.
    obtain ⟨above, hpass, hback⟩ := TransGen.head'_iff.1 hcycle
    exact ⟨above, hpass, _, hback, hcycle⟩
  · exact ⟨above, hpass, a, hreach, hcycle⟩

/-- A search that finds something does not circle: from a cycle it would go on along the cycle. -/
theorem Finds.not_circles (h : table.Finds current result) (hstart : table.owner? id = current) :
    ¬ table.Circles id := by
  induction h generalizing id with
  | missing =>
    intro hcircles
    obtain ⟨_, ⟨symbol, howner, -⟩, -⟩ := hcircles.exists_passes
    cases hstart.symm.trans howner
  | package isPackage =>
    intro hcircles
    obtain ⟨_, ⟨symbol, howner, hgoesOn, -⟩, -⟩ := hcircles.exists_passes
    cases hstart.symm.trans howner
    exact hgoesOn isPackage
  | above _ _ ih =>
    intro hcircles
    obtain ⟨_, ⟨symbol, howner, -, rfl⟩, habove⟩ := hcircles.exists_passes
    cases hstart.symm.trans howner
    exact ih rfl habove

/-- What does not circle finds something. -/
theorem exists_finds_of_not_circles (h : ¬ table.Circles id) :
    ∃ result, table.Finds (table.owner? id) result := by
  by_cases hkey : id ∈ table.keys
  · refine induction_of_reaches_no_cycle (s := { a | a ∈ table.keys }) (r := table.Passes)
      (List.finite_toSet table.keys)
      (motive := fun a => ∃ result, table.Finds (table.owner? a) result) ?_ hkey
      fun a hreach hcycle => h ⟨a, hreach, hcycle⟩
    intro a _ ih
    -- A search from `a` is over at its owner, or is the search from there.
    cases howner : table.owner? a with
    | none => exact ⟨none, .missing⟩
    | some symbol =>
      by_cases hpackage : symbol.kind = .package
      · exact ⟨_, .package hpackage⟩
      · obtain ⟨result, hfinds⟩ :=
          ih symbol.id (mem_keys_of_owner? howner) ⟨symbol, howner, hpackage, rfl⟩
        exact ⟨result, .above hpackage hfinds⟩
  · -- An identity without a symbol has no owner.
    have hnone : table.get? id = none := by
      rw [Keyed.get?_eq_none_iff, Keyed.contains_eq_true_iff]
      exact hkey
    refine ⟨none, ?_⟩
    rw [owner?, hnone]
    exact .missing

/-! ## How long a search takes -/

/-- A search that finds something passes distinct symbols of the table, and takes one step more than
these. -/
theorem Finds.exists_path (h : table.Finds current result) (hstart : table.owner? id = current) :
    ∃ path : List SymbolId, path.Nodup ∧ path ⊆ table.keys ∧
      (∀ a ∈ path, TransGen table.Passes id a) ∧
      table.packageWithin? (path.length + 1) current = some result := by
  induction h generalizing id with
  | missing => exact ⟨[], List.nodup_nil, List.nil_subset _, nofun, rfl⟩
  | package isPackage =>
    refine ⟨[], List.nodup_nil, List.nil_subset _, nofun, ?_⟩
    rw [packageWithin?, if_pos isPackage]
  | @above symbol result goesOn next ih =>
    obtain ⟨path, hdistinct, hkeys, hpasses, hfound⟩ := ih rfl
    have hpass : table.Passes id symbol.id := ⟨symbol, hstart, goesOn, rfl⟩
    refine ⟨symbol.id :: path, List.nodup_cons.2 ⟨fun hmem => ?_, hdistinct⟩, ?_, ?_, ?_⟩
    · -- A symbol that is passed twice lies on a cycle.
      exact next.not_circles rfl ⟨symbol.id, .refl, hpasses _ hmem⟩
    · exact List.cons_subset.2 ⟨mem_keys_of_owner? hstart, hkeys⟩
    · intro a ha
      rcases List.mem_cons.1 ha with rfl | ha
      · exact .single hpass
      · exact .head hpass (hpasses a ha)
    · rw [List.length_cons, packageWithin?, if_neg goesOn]
      exact hfound

/-- A search that finds something has found it when it has taken one step more than the table has
symbols. -/
theorem Finds.packageWithin?_eq (h : table.Finds (table.owner? id) result) {steps : Nat}
    (hsteps : table.size < steps) : table.packageWithin? steps (table.owner? id) = some result := by
  obtain ⟨path, hdistinct, hkeys, -, hfound⟩ := h.exists_path rfl
  -- Distinct keys of the table are no more than the table has.
  have hlength : path.length ≤ table.size := by
    have hle := (hdistinct.subperm hkeys).length_le
    rwa [Keyed.keys, List.length_map] at hle
  exact packageWithin?_mono hfound (by omega)

/-- The package of a symbol is what the search for it finds. -/
theorem Finds.packageOf?_eq (h : table.Finds (table.owner? id) result) :
    table.packageOf? id = result := by
  have hsteps : table.size < table.manySteps :=
    Nat.lt_add_of_pos_right (Nat.pow_pos (by decide))
  rw [packageOf?, h.packageWithin?_eq hsteps]
  rfl

/-- A search ends exactly where it leads to no cycle without a package. -/
theorem ends_iff (table : SymbolTable) (id : SymbolId) : table.Ends id ↔ ¬ table.Circles id := by
  constructor
  · rintro ⟨steps, result, hfound⟩
    exact (finds_of_packageWithin? hfound).not_circles rfl
  · intro hcircles
    obtain ⟨result, hfinds⟩ := exists_finds_of_not_circles hcircles
    exact ⟨_, result, hfinds.packageWithin?_eq (Nat.lt_succ_self _)⟩

end CommandFactory.SymbolTable
