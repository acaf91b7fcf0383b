import CommandFactory.Proofs.Registry.Growth

/-!
# Order of discovery

A registry lists its declarations in the order in which they were found (`Registry.ids`). Insertions
only add to the end of that order, so what precedes something once does so for good
(`Precedes.mono`), and what is known precedes what is new (`precedes_insert`).
-/

set_option autoImplicit false

namespace CommandFactory

namespace Registry

/-- The declaration of the first identity was discovered before that of the second. -/
def Precedes (registry : Registry) (first second : SymbolId) : Prop :=
  ∃ i j, registry.position? first = some i ∧ registry.position? second = some j ∧ i < j

variable {registry next : Registry} {a b c : SymbolId}

theorem Precedes.trans (hab : registry.Precedes a b) (hbc : registry.Precedes b c) :
    registry.Precedes a c := by
  obtain ⟨i, j, hi, hj, hij⟩ := hab
  obtain ⟨j', k, hj', hk, hjk⟩ := hbc
  obtain rfl := Option.some.inj (hj.symm.trans hj')
  exact ⟨i, k, hi, hk, Nat.lt_trans hij hjk⟩

theorem Precedes.irrefl (registry : Registry) (id : SymbolId) : ¬ registry.Precedes id id := by
  rintro ⟨i, j, hi, hj, hij⟩
  obtain rfl := Option.some.inj (hi.symm.trans hj)
  exact Nat.lt_irrefl i hij

/-! ## Places -/

theorem position?_eq (registry : Registry) (id : SymbolId) :
    registry.position? id = registry.ids.findIdx? fun known => known = id := rfl

theorem contains_iff_mem_ids {id : SymbolId} :
    registry.declarations.contains id = true ↔ id ∈ registry.ids :=
  Keyed.contains_eq_true_iff

theorem exists_position? {id : SymbolId} (h : registry.declarations.contains id = true) :
    ∃ i, registry.position? id = some i ∧ i < registry.ids.length := by
  cases hposition : registry.position? id with
  | none =>
    rw [position?_eq, List.findIdx?_eq_none_iff] at hposition
    have := hposition id (contains_iff_mem_ids.1 h)
    simp at this
  | some i =>
    rw [position?_eq, List.findIdx?_eq_some_iff_findIdx_eq] at hposition
    exact ⟨i, rfl, hposition.1⟩

theorem position?_getElem (registry : Registry) {i : Nat} (h : i < registry.ids.length) :
    registry.position? registry.ids[i] = some i := by
  rw [position?_eq, List.findIdx?_eq_some_iff_getElem]
  refine ⟨h, decide_eq_true rfl, fun j hj => ?_⟩
  have hdistinct : registry.ids.Nodup := registry.declarations.distinct
  rw [Bool.not_eq_true, decide_eq_false_iff_not, hdistinct.getElem_inj_iff]
  exact Nat.ne_of_lt hj

theorem getElem_of_position? {id : SymbolId} {i : Nat} (h : registry.position? id = some i) :
    registry.ids[i]? = some id := by
  rw [position?_eq, List.findIdx?_eq_some_iff_getElem] at h
  obtain ⟨hi, hid, -⟩ := h
  rw [List.getElem?_eq_getElem hi, of_decide_eq_true hid]

/-- The order of discovery lists what precedes first. -/
theorem pairwise_ids (registry : Registry) : registry.ids.Pairwise registry.Precedes := by
  rw [List.pairwise_iff_getElem]
  intro i j hi hj hij
  exact ⟨i, j, registry.position?_getElem hi, registry.position?_getElem hj, hij⟩

/-- Lists in the order of discovery that have the same members are the same. -/
theorem eq_of_pairwise_precedes {first second : List SymbolId}
    (hfirst : first.Pairwise registry.Precedes) (hsecond : second.Pairwise registry.Precedes)
    (hmem : ∀ id, id ∈ first ↔ id ∈ second) : first = second := by
  have hdistinct : ∀ {list : List SymbolId}, list.Pairwise registry.Precedes → list.Nodup := by
    intro list hlist
    refine hlist.imp ?_
    rintro a b hab rfl
    exact Precedes.irrefl registry a hab
  have hperm := (List.perm_ext_iff_of_nodup (hdistinct hfirst) (hdistinct hsecond)).2 hmem
  refine hperm.eq_of_pairwise ?_ hfirst hsecond
  intro a b _ _ hab hba
  exact absurd (hab.trans hba) (Precedes.irrefl registry a)

/-- A place stays where the order is only added to. -/
theorem position?_mono (h : registry.ids <+: next.ids) {id : SymbolId} {i : Nat}
    (hi : registry.position? id = some i) : next.position? id = some i := by
  obtain ⟨added, hadded⟩ := h
  rw [position?_eq] at hi ⊢
  rw [← hadded, List.findIdx?_append, hi, Option.some_or]

theorem Precedes.mono (hids : registry.ids <+: next.ids) (h : registry.Precedes a b) :
    next.Precedes a b := by
  obtain ⟨i, j, hi, hj, hij⟩ := h
  exact ⟨i, j, position?_mono hids hi, position?_mono hids hj, hij⟩

/-- What is known precedes what is put in as new. -/
theorem precedes_insert {declaration : Declaration}
    (hknown : registry.declarations.contains a = true)
    (hnew : ¬ registry.declarations.contains declaration.id = true) :
    (registry.insert declaration).Precedes a declaration.id := by
  obtain ⟨i, hi, hlt⟩ := exists_position? hknown
  refine ⟨i, registry.ids.length, position?_mono (ids_isPrefix_insert _ _) hi, ?_, hlt⟩
  have hbefore : registry.position? declaration.id = none := by
    rw [position?_eq, List.findIdx?_eq_none_iff]
    intro known hmem
    refine decide_eq_false ?_
    rintro rfl
    exact hnew (contains_iff_mem_ids.2 hmem)
  rw [position?_eq] at hbefore
  rw [position?_eq, ids_insert_of_new hnew, List.findIdx?_append, hbefore]
  simp

end Registry

end CommandFactory
