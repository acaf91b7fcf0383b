import CommandFactory.Declaration.Checking
import CommandFactory.Proofs.Keyed

/-!
# Types up to erasure

An erased type has neither brackets nor blanks left, so erasing it once more changes nothing
(`erasure_erasure`). Of the types of parameters nothing but their erasures counts for the look-up of
methods (`SymbolTable.findMethod?_erased`) and for the fields of groups
(`SymbolTable.checkGroups_erased`), so tables that are alike up to erasure (`SymbolTable.Alike`) answer
alike: they have one erased table.
-/

set_option autoImplicit false

namespace CommandFactory

/-! ## Erased types -/

/-- What is left is outside of brackets. -/
theorem bare_of_mem_erasedChars {depth : Nat} {chars : List Char} {c : Char}
    (h : c ∈ erasedChars depth chars) : c ≠ '<' ∧ c ≠ '>' ∧ Text.isBlank c = false := by
  fun_induction erasedChars depth chars with
  | case1 => cases h
  | case2 depth rest ih => exact ih h
  | case3 depth rest hopen ih => exact ih h
  | case4 depth c rest hopen hclose hbare ih =>
    rcases List.mem_cons.1 h with rfl | hrest
    · exact ⟨hopen, hclose, hbare.2⟩
    · exact ih hrest
  | case5 depth c rest hopen hclose hbare ih => exact ih h

theorem erasedChars_of_bare {chars : List Char}
    (h : ∀ c ∈ chars, c ≠ '<' ∧ c ≠ '>' ∧ Text.isBlank c = false) : erasedChars 0 chars = chars := by
  induction chars with
  | nil => rfl
  | cons c rest ih =>
    rw [List.forall_mem_cons] at h
    obtain ⟨⟨hopen, hclose, hblank⟩, hrest⟩ := h
    rw [erasedChars, if_neg hopen, if_neg hclose, if_pos ⟨rfl, hblank⟩, ih hrest]

theorem erasure_erasure (type : String) : erasure (erasure type) = erasure type := by
  have hbare := erasedChars_of_bare fun c (hc : c ∈ erasedChars 0 type.toList) =>
    bare_of_mem_erasedChars hc
  rw [erasure, erasure, String.toList_ofList, hbare]

theorem map_erasure_erased (types : List String) :
    (types.map erasure).map erasure = types.map erasure := by
  rw [List.map_map]
  exact List.map_congr_left fun type _ => erasure_erasure type

/-! ## Erased tables -/

/-- The kind with its parameter types erased. -/
def SymbolKind.erased : SymbolKind → SymbolKind
  | .method params => .method (params.map erasure)
  | .parameter type => .parameter (erasure type)
  | kind => kind

/-- The symbol with its parameter types erased. -/
def Symbol.erased (symbol : Symbol) : Symbol := { symbol with kind := symbol.kind.erased }

namespace Symbol

variable (symbol : Symbol)

@[simp]
theorem id_erased : symbol.erased.id = symbol.id := rfl

@[simp]
theorem isClass_erased : symbol.erased.isClass = symbol.isClass := by
  unfold isClass erased
  cases symbol.kind <;> rfl

@[simp]
theorem isMethod_erased : symbol.erased.isMethod = symbol.isMethod := by
  unfold isMethod erased
  cases symbol.kind <;> rfl

@[simp]
theorem isField_erased : symbol.erased.isField = symbol.isField := by
  unfold isField erased
  cases symbol.kind <;> rfl

/-- A field has no parameter types. -/
theorem erased_of_isField {symbol : Symbol} (h : symbol.isField = true) : symbol.erased = symbol := by
  obtain ⟨id, name, owner, modifiers, kind⟩ := symbol
  cases kind with
  | field type argGroup => rfl
  | package => cases h
  | classType superclass typePath members => cases h
  | method params => cases h
  | parameter type => cases h

end Symbol

namespace SymbolTable

/-- The table with all parameter types erased. -/
def erased (table : SymbolTable) : SymbolTable :=
  table.mapItems Symbol.erased Symbol.id_erased

/-- The tables list the same symbols, up to parameter types of one erasure. -/
def Alike (table other : SymbolTable) : Prop :=
  table.toList.map Symbol.erased = other.toList.map Symbol.erased

variable {table other : SymbolTable}

theorem Alike.erased_eq (h : table.Alike other) : table.erased = other.erased := by
  rw [erased, erased, Keyed.mapItems, Keyed.mapItems, Keyed.mk.injEq]
  exact h

variable (table)

theorem get?_erased (id : SymbolId) : table.erased.get? id = (table.get? id).map Symbol.erased :=
  Keyed.get?_mapItems _ _ _ id

theorem membersOf_erased (id : SymbolId) :
    table.erased.membersOf id = (table.membersOf id).map Symbol.erased := by
  have howned : (table.erased.toList.filter fun symbol => symbol.owner = some id) =
      (table.toList.filter fun symbol => symbol.owner = some id).map Symbol.erased :=
    List.filter_map
  unfold membersOf
  rw [get?_erased, Option.map_map]
  cases hget : table.get? id with
  | none => exact howned
  | some symbol =>
    obtain ⟨_, name, owner, modifiers, kind⟩ := symbol
    cases kind with
    | classType superclass typePath members =>
      cases members with
      | none => exact howned
      | some members =>
        change members.filterMap table.erased.get? = (members.filterMap table.get?).map Symbol.erased
        rw [List.map_filterMap]
        exact List.filterMap_congr fun id _ => table.get?_erased id
    | package => exact howned
    | method params => exact howned
    | field type argGroup => exact howned
    | parameter type => exact howned

/-- Fields are the same in the erased table. -/
theorem fieldsOf_erased (id : SymbolId) : table.erased.fieldsOf id = table.fieldsOf id := by
  unfold fieldsOf
  rw [membersOf_erased, List.filter_map]
  have hfields : (Symbol.isField ∘ Symbol.erased) = Symbol.isField :=
    funext Symbol.isField_erased
  rw [hfields]
  refine (List.map_congr_left fun symbol hmem => ?_).trans (List.map_id _)
  exact Symbol.erased_of_isField (List.mem_filter.1 hmem).2

theorem hasSignature_erased (name : String) (types : List String) (symbol : Symbol) :
    hasSignature name types symbol.erased = hasSignature name types symbol := by
  unfold hasSignature Symbol.erased
  cases symbol.kind with
  | method params => simp only [SymbolKind.erased, map_erasure_erased]
  | classType superclass typePath members => rfl
  | package => rfl
  | field type argGroup => rfl
  | parameter type => rfl

/-- The erased table has the same method for a signature, erased. -/
theorem findMethod?_erased (id : SymbolId) (name : String) (params : List String) :
    table.erased.findMethod? id name params =
      (table.findMethod? id name params).map Symbol.erased := by
  have hmethods : table.erased.methodsOf id = (table.methodsOf id).map Symbol.erased := by
    unfold methodsOf
    rw [membersOf_erased, List.filter_map]
    congr 2
    exact funext Symbol.isMethod_erased
  unfold findMethod?
  rw [hmethods, List.find?_map]
  congr 2
  exact funext (hasSignature_erased name _)

theorem checkGroups_erased (classId : SymbolId) (groups : List ArgGroupInput) :
    checkGroups table.erased classId groups = checkGroups table classId groups := by
  have hholder : ∀ first, ArgGroupInput.holder? table.erased first =
      ArgGroupInput.holder? table first := by
    intro first
    unfold ArgGroupInput.holder?
    rw [get?_erased, Option.bind_map]
    rfl
  induction groups with
  | nil => rfl
  | cons group rest ih => simp only [checkGroups, ih, hholder, fieldsOf_erased]

end SymbolTable

end CommandFactory
