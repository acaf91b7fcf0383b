import CommandFactory.Proofs.Keyed
import CommandFactory.Registry.Extraction

/-!
# Owners of symbols

The owners of a symbol from the nearest up (`owners`), and the scope they make: the nearest class,
unless a package comes before it (`Scope.ofOwners`). An extraction looks for the scope of a symbol
level by level and puts containers in on the way; what it finds is the scope that the owners make
(`enclosingScope_fst`).

Where no chain of owners is longer than `Registry.maxNesting` the table is `Shallow`: following owners
over more levels finds nothing more, and the owners of an owner are those that come after it.
-/

set_option autoImplicit false

namespace CommandFactory

/-! ## Chains of owners -/

namespace SymbolTable

/-- The symbols from an owner up, at most `levels` of them. -/
def ownersFrom (table : SymbolTable) : Nat → Option SymbolId → List Symbol
  | 0, _ => []
  | levels + 1, owner =>
      match owner.bind fun id => table.get? id with
      | none => []
      | some symbol => symbol :: ownersFrom table levels symbol.owner

/-- The owners of the symbol of an identity, the nearest first, one more of them than a sound chain
may have. -/
def owners (table : SymbolTable) (id : SymbolId) : List Symbol :=
  table.ownersFrom (Registry.maxNesting + 1) ((table.get? id).bind Symbol.owner)

/-- No symbol has more than `maxNesting` owners above it, so no chain of owners comes back to a symbol
on it. -/
def Shallow (table : SymbolTable) : Prop :=
  ∀ symbol ∈ table.toList, (table.owners symbol.id).length ≤ Registry.maxNesting

instance (table : SymbolTable) : Decidable table.Shallow :=
  inferInstanceAs (Decidable (∀ symbol ∈ table.toList,
    (table.owners symbol.id).length ≤ Registry.maxNesting))

variable {table : SymbolTable} {owner : Option SymbolId} {symbol : Symbol}

/-- A symbol under an owner is listed under its own identity. -/
theorem get?_of_bind (h : (owner.bind fun id => table.get? id) = some symbol) :
    table.get? symbol.id = some symbol := by
  obtain ⟨id, -, hget⟩ := Option.bind_eq_some_iff.1 h
  obtain ⟨-, rfl⟩ := Keyed.get?_eq_some_iff.1 hget
  exact hget

theorem ownersFrom_of_none (h : (owner.bind fun id => table.get? id) = none) (levels : Nat) :
    table.ownersFrom levels owner = [] := by
  cases levels with
  | zero => rfl
  | succ levels => rw [ownersFrom, h]

theorem ownersFrom_of_some (h : (owner.bind fun id => table.get? id) = some symbol)
    (levels : Nat) :
    table.ownersFrom (levels + 1) owner = symbol :: table.ownersFrom levels symbol.owner := by
  rw [ownersFrom, h]

theorem owners_of_get? {id : SymbolId} (h : table.get? id = some symbol) :
    table.owners id = table.ownersFrom (Registry.maxNesting + 1) symbol.owner := by
  rw [owners, h, Option.bind_some]

/-- A chain that ends before its levels do is the same over more levels. -/
theorem ownersFrom_eq_of_le {levels more : Nat}
    (hends : (table.ownersFrom levels owner).length < levels) (hle : levels ≤ more) :
    table.ownersFrom more owner = table.ownersFrom levels owner := by
  induction levels generalizing more owner with
  | zero => cases hends
  | succ levels ih =>
    obtain ⟨more, rfl⟩ : ∃ m, more = m + 1 := ⟨more - 1, by omega⟩
    cases hbind : owner.bind fun id => table.get? id with
    | none => rw [ownersFrom_of_none hbind, ownersFrom_of_none hbind]
    | some symbol =>
      rw [ownersFrom_of_some hbind, List.length_cons] at hends
      rw [ownersFrom_of_some hbind, ownersFrom_of_some hbind, ih (by omega) (by omega)]

/-- Two chains from one owner that end before their levels do are the same. -/
theorem ownersFrom_eq_of_ends {levels more : Nat}
    (hends : (table.ownersFrom levels owner).length < levels)
    (hmore : (table.ownersFrom more owner).length < more) :
    table.ownersFrom levels owner = table.ownersFrom more owner := by
  rcases Nat.le_total levels more with hle | hle
  · exact (ownersFrom_eq_of_le hends hle).symm
  · exact ownersFrom_eq_of_le hmore hle

theorem Shallow.ends (h : table.Shallow) {id : SymbolId} (hget : table.get? id = some symbol) :
    (table.ownersFrom (Registry.maxNesting + 1) symbol.owner).length < Registry.maxNesting + 1 := by
  obtain ⟨hmem, rfl⟩ := Keyed.get?_eq_some_iff.1 hget
  rw [← owners_of_get? hget]
  exact Nat.lt_succ_of_le (h symbol hmem)

/-- In a shallow table a chain that ends before its levels do has all the owners. -/
theorem Shallow.owners_eq (h : table.Shallow) {id : SymbolId} {levels : Nat}
    (hget : table.get? id = some symbol)
    (hends : (table.ownersFrom levels symbol.owner).length < levels) :
    table.owners id = table.ownersFrom levels symbol.owner := by
  rw [owners_of_get? hget]
  exact ownersFrom_eq_of_ends (h.ends hget) hends

theorem Shallow.owners_of_cons (h : table.Shallow) {id : SymbolId} {above : List Symbol}
    (howners : table.owners id = symbol :: above) :
    table.get? symbol.id = some symbol ∧ table.owners symbol.id = above := by
  cases hget : table.get? id with
  | none => simp [owners, hget, ownersFrom] at howners
  | some start =>
    have hends := h.ends hget
    rw [owners_of_get? hget] at howners
    cases hbind : start.owner.bind fun id => table.get? id with
    | none => simp [ownersFrom_of_none hbind] at howners
    | some next =>
      rw [ownersFrom_of_some hbind, List.cons.injEq] at howners
      obtain ⟨rfl, rfl⟩ := howners
      rw [ownersFrom_of_some hbind, List.length_cons] at hends
      have hnext := get?_of_bind hbind
      exact ⟨hnext, h.owners_eq hnext (by omega)⟩

/-- In a shallow table the owners of an owner are those that come after it. -/
theorem Shallow.owners_of_append (h : table.Shallow) {id : SymbolId} {between above : List Symbol}
    (howners : table.owners id = between ++ symbol :: above) :
    table.get? symbol.id = some symbol ∧ table.owners symbol.id = above := by
  induction between generalizing id with
  | nil => exact h.owners_of_cons howners
  | cons first rest ih => exact ih (h.owners_of_cons howners).2

end SymbolTable

/-! ## The scope of owners -/

/-- Is a package. -/
def Symbol.isPackage (symbol : Symbol) : Bool := symbol.kind = .package

theorem Symbol.isPackage_of_isClass {symbol : Symbol} (h : symbol.isClass = true) :
    symbol.isPackage = false := by
  unfold isClass at h
  unfold isPackage
  cases hkind : symbol.kind <;> simp [hkind] at h ⊢

theorem Symbol.isClass_eq_false {symbol : Symbol}
    (h : ∀ superclass typePath members, symbol.kind = .classType superclass typePath members → False) :
    symbol.isClass = false := by
  unfold isClass
  split
  · exact (h _ _ _ ‹_›).elim
  · rfl

/-- The scope that owners make, the nearest first: the first class, unless a package comes before it,
which then is the package of the root. -/
def Scope.ofOwners : List Symbol → Scope
  | [] => .root none
  | symbol :: above =>
      if symbol.isPackage then .root (some symbol.id.text)
      else if symbol.isClass then .declaration symbol.id
      else ofOwners above

/-- The classes among owners that no package comes before. -/
def Symbol.enclosing (owners : List Symbol) : List Symbol :=
  (owners.takeWhile fun symbol => !symbol.isPackage).filter isClass

namespace Scope

theorem ofOwners_class {symbol : Symbol} {above : List Symbol} (h : symbol.isClass = true) :
    ofOwners (symbol :: above) = .declaration symbol.id := by
  rw [ofOwners, Symbol.isPackage_of_isClass h, if_neg Bool.false_ne_true, if_pos h]

theorem enclosing_class {symbol : Symbol} {above : List Symbol} (h : symbol.isClass = true) :
    Symbol.enclosing (symbol :: above) = symbol :: Symbol.enclosing above := by
  simp [Symbol.enclosing, Symbol.isPackage_of_isClass h, h]

theorem enclosing_other {symbol : Symbol} {above : List Symbol} (hpackage : symbol.isPackage = false)
    (hclass : symbol.isClass = false) :
    Symbol.enclosing (symbol :: above) = Symbol.enclosing above := by
  simp [Symbol.enclosing, hpackage, hclass]

/-- The class that owners make a scope of is the first that encloses what they own. -/
theorem ofOwners_eq_declaration {owners : List Symbol} {id : SymbolId}
    (h : ofOwners owners = .declaration id) :
    ∃ between symbol above, owners = between ++ symbol :: above ∧ symbol.id = id ∧
      symbol.isClass = true ∧ Symbol.enclosing owners = symbol :: Symbol.enclosing above := by
  induction owners with
  | nil => cases h
  | cons first rest ih =>
    rw [ofOwners] at h
    split at h
    case isTrue => cases h
    case isFalse hpackage =>
      split at h
      case isTrue hclass =>
        cases h
        exact ⟨[], first, rest, rfl, rfl, hclass, enclosing_class hclass⟩
      case isFalse hclass =>
        obtain ⟨between, symbol, above, rfl, hid, hsymbol, henclosing⟩ := ih h
        refine ⟨first :: between, symbol, above, rfl, hid, hsymbol, ?_⟩
        rw [← henclosing]
        exact enclosing_other (Bool.eq_false_iff.2 hpackage) (Bool.eq_false_iff.2 hclass)

/-- Where owners make a root, no class encloses what they own. -/
theorem enclosing_eq_nil {owners : List Symbol} {package : Option String}
    (h : ofOwners owners = .root package) : Symbol.enclosing owners = [] := by
  induction owners with
  | nil => rfl
  | cons first rest ih =>
    rw [ofOwners] at h
    split at h
    case isTrue hpackage => simp [Symbol.enclosing, hpackage]
    case isFalse hpackage =>
      split at h
      case isTrue => cases h
      case isFalse hclass =>
        rw [← ih h]
        exact enclosing_other (Bool.eq_false_iff.2 hpackage) (Bool.eq_false_iff.2 hclass)

end Scope

/-! ## The scope that an extraction finds -/

namespace Registry

/-- The scope that is found is the one that the owners make, as far as they are followed. -/
theorem enclosingScope_fst (levels : Nat) (registry : Registry) (owner : Option SymbolId) :
    (enclosingScope levels registry owner).1 =
      .ofOwners (registry.symbols.ownersFrom levels owner) := by
  fun_induction enclosingScope levels registry owner with
  | case1 levels registry owner hnone => rw [SymbolTable.ownersFrom_of_none hnone]; rfl
  | case2 registry owner symbol hsome => rfl
  | case3 registry owner symbol hsome levels hkind =>
    rw [SymbolTable.ownersFrom_of_some hsome]
    simp [Scope.ofOwners, Symbol.isPackage, hkind]
  | case4 registry owner symbol hsome levels superclass typePath members hkind hknown =>
    have hclass : symbol.isClass = true := by simp [Symbol.isClass, hkind]
    rw [SymbolTable.ownersFrom_of_some hsome, Scope.ofOwners_class hclass]
  | case5 registry owner symbol hsome levels superclass typePath members hkind hnew scope next heq
      ih =>
    have hclass : symbol.isClass = true := by simp [Symbol.isClass, hkind]
    rw [SymbolTable.ownersFrom_of_some hsome, Scope.ofOwners_class hclass]
  | case6 registry owner symbol hsome levels hpackage hclass ih =>
    rw [ih, SymbolTable.ownersFrom_of_some hsome]
    have hnotPackage : symbol.isPackage = false := decide_eq_false hpackage
    rw [Scope.ofOwners, hnotPackage, Symbol.isClass_eq_false hclass, if_neg Bool.false_ne_true,
      if_neg Bool.false_ne_true]

end Registry

end CommandFactory
