import CommandFactory.Keyed
import CommandFactory.Registry.Ancestry
import Mathlib.Data.List.Nodup

/-!
# Laws of keyed items

What `put`, `erase`, `ofList` and `mapItems` do to the look-up `get?` and to the list of the items.
An item is found under its key exactly if it is among the items (`get?_eq_some_iff`).
-/

set_option autoImplicit false

namespace CommandFactory.Keyed

variable {α κ : Type} [DecidableEq κ] {key : α → κ}

/-! ## Look-up -/

omit [DecidableEq κ] in
/-- Two items with one key are the same item. -/
theorem eq_of_key_eq (items : Keyed key) {a b : α} (ha : a ∈ items.toList) (hb : b ∈ items.toList)
    (h : key a = key b) : a = b :=
  List.inj_on_of_nodup_map items.distinct ha hb h

theorem get?_eq_some_iff {items : Keyed key} {k : κ} {a : α} :
    items.get? k = some a ↔ a ∈ items.toList ∧ key a = k := by
  constructor
  · intro h
    exact ⟨List.mem_of_find?_eq_some h, by simpa using List.find?_some h⟩
  · rintro ⟨ha, rfl⟩
    cases hb : items.get? (key a) with
    | none =>
      have := List.find?_eq_none.1 hb a ha
      simp at this
    | some b =>
      have hmem : b ∈ items.toList := List.mem_of_find?_eq_some hb
      have hkey : key b = key a := by simpa using List.find?_some hb
      rw [items.eq_of_key_eq hmem ha hkey]

theorem get?_of_mem {items : Keyed key} {a : α} (h : a ∈ items.toList) :
    items.get? (key a) = some a :=
  get?_eq_some_iff.2 ⟨h, rfl⟩

theorem contains_iff {items : Keyed key} {k : κ} :
    items.contains k = true ↔ ∃ a, items.get? k = some a := by
  rw [contains_eq_true_iff, keys_eq, List.mem_map]
  constructor
  · rintro ⟨a, ha, rfl⟩
    exact ⟨a, get?_of_mem ha⟩
  · rintro ⟨a, ha⟩
    obtain ⟨hmem, hkey⟩ := get?_eq_some_iff.1 ha
    exact ⟨a, hmem, hkey⟩

theorem get?_eq_none_iff {items : Keyed key} {k : κ} :
    items.get? k = none ↔ ¬ items.contains k = true := by
  rw [contains_iff]
  cases items.get? k <;> simp

/-! ## Changes -/

theorem mem_put {items : Keyed key} {a b : α} :
    b ∈ (items.put a).toList ↔ b = a ∨ (b ∈ items.toList ∧ key b ≠ key a) := by
  rw [put]
  split
  case isTrue h =>
    rw [contains_eq_true_iff, keys_eq, List.mem_map] at h
    obtain ⟨c, hc, hca⟩ := h
    simp only [replaced, List.mem_map]
    constructor
    · rintro ⟨d, hd, rfl⟩
      by_cases hda : key d = key a
      · simp [hda]
      · simp [hda, hd]
    · rintro (rfl | ⟨hb, hne⟩)
      · exact ⟨c, hc, by simp [hca]⟩
      · exact ⟨b, hb, by simp [hne]⟩
  case isFalse h =>
    simp only [List.mem_append, List.mem_singleton]
    constructor
    · rintro (hb | rfl)
      · refine Or.inr ⟨hb, fun hkey => h ?_⟩
        exact contains_iff.2 ⟨b, hkey ▸ get?_of_mem hb⟩
      · exact Or.inl rfl
    · rintro (rfl | ⟨hb, -⟩)
      · exact Or.inr rfl
      · exact Or.inl hb

theorem get?_put (items : Keyed key) (a : α) (k : κ) :
    (items.put a).get? k = if key a = k then some a else items.get? k := by
  split
  case isTrue h =>
    rw [get?_eq_some_iff, mem_put]
    exact ⟨Or.inl rfl, h⟩
  case isFalse h =>
    apply Option.ext
    intro b
    rw [get?_eq_some_iff, get?_eq_some_iff, mem_put]
    constructor
    · rintro ⟨rfl | ⟨hb, -⟩, hkey⟩
      · exact absurd hkey h
      · exact ⟨hb, hkey⟩
    · rintro ⟨hb, rfl⟩
      exact ⟨Or.inr ⟨hb, Ne.symm h⟩, rfl⟩

theorem contains_put (items : Keyed key) (a : α) (k : κ) :
    (items.put a).contains k = true ↔ key a = k ∨ items.contains k = true := by
  rw [contains_iff, contains_iff, get?_put]
  by_cases h : key a = k <;> simp [h]

theorem get?_erase (items : Keyed key) (k l : κ) :
    (items.erase k).get? l = if l = k then none else items.get? l := by
  apply Option.ext
  intro a
  rw [get?_eq_some_iff]
  by_cases h : l = k
  · simp only [erase, List.mem_filter, decide_eq_true_eq, h, if_true, reduceCtorEq, iff_false]
    rintro ⟨⟨-, hne⟩, hkey⟩
    exact hne hkey
  · rw [if_neg h, get?_eq_some_iff]
    simp only [erase, List.mem_filter, decide_eq_true_eq]
    constructor
    · rintro ⟨⟨ha, -⟩, hkey⟩
      exact ⟨ha, hkey⟩
    · rintro ⟨ha, rfl⟩
      exact ⟨⟨ha, h⟩, rfl⟩

theorem mem_erase {items : Keyed key} {k : κ} {a : α} :
    a ∈ (items.erase k).toList ↔ a ∈ items.toList ∧ key a ≠ k := by
  simp [erase]

theorem contains_erase (items : Keyed key) (k l : κ) :
    (items.erase k).contains l = true ↔ items.contains l = true ∧ l ≠ k := by
  rw [contains_iff, contains_iff, get?_erase]
  by_cases h : l = k <;> simp [h]

omit [DecidableEq κ] in
theorem nodup (items : Keyed key) : items.toList.Nodup := items.distinct.of_map _

/-- An item and what is left when it is taken out. -/
theorem perm_erase {items : Keyed key} {k : κ} {a : α} (h : items.get? k = some a) :
    items.toList.Perm (a :: (items.erase k).toList) := by
  obtain ⟨hmem, rfl⟩ := get?_eq_some_iff.1 h
  have hnew : a ∉ (items.erase (key a)).toList := fun ha => (mem_erase.1 ha).2 rfl
  refine (List.perm_ext_iff_of_nodup items.nodup
    (List.nodup_cons.2 ⟨hnew, (items.erase (key a)).nodup⟩)).2 fun b => ?_
  rw [List.mem_cons, mem_erase]
  constructor
  · intro hb
    by_cases hkey : key b = key a
    · exact Or.inl (items.eq_of_key_eq hb hmem hkey)
    · exact Or.inr ⟨hb, hkey⟩
  · rintro (rfl | ⟨hb, -⟩)
    · exact hmem
    · exact hb

/-- What is put in stands beside the items of other keys. -/
theorem perm_put (items : Keyed key) (a : α) :
    (items.put a).toList.Perm (a :: (items.erase (key a)).toList) := by
  have hnew : a ∉ (items.erase (key a)).toList := fun ha => (mem_erase.1 ha).2 rfl
  refine (List.perm_ext_iff_of_nodup (items.put a).nodup
    (List.nodup_cons.2 ⟨hnew, (items.erase (key a)).nodup⟩)).2 fun b => ?_
  rw [List.mem_cons, mem_put, mem_erase]

/-- An item of a known key takes the place of that key. -/
theorem keys_put_of_contains {items : Keyed key} {a : α} (h : items.contains (key a) = true) :
    (items.put a).keys = items.keys := by
  rw [put, dif_pos h]
  exact map_replaced _ _

/-- An item of a new key comes last. -/
theorem keys_put_of_new {items : Keyed key} {a : α} (h : ¬ items.contains (key a) = true) :
    (items.put a).keys = items.keys ++ [key a] := by
  rw [put, dif_neg h]
  exact List.map_append

omit [DecidableEq κ] in
theorem keys_mapItems (items : Keyed key) (f : α → α) (keeps : ∀ a, key (f a) = key a) :
    (items.mapItems f keeps).keys = items.keys := by
  simp only [keys, mapItems, List.map_map]
  exact List.map_congr_left fun a _ => keeps a

theorem get?_mapItems (items : Keyed key) (f : α → α) (keeps : ∀ a, key (f a) = key a) (k : κ) :
    (items.mapItems f keeps).get? k = (items.get? k).map f := by
  rw [get?, mapItems, List.find?_map, get?]
  congr 2
  funext a
  simp [keeps]

/-! ## Items of a list -/

/-- Items whose keys are new and distinct are put at the end. -/
theorem toList_foldl_put (items : Keyed key) (list : List α)
    (h : ((items.toList ++ list).map key).Nodup) :
    (list.foldl put items).toList = items.toList ++ list := by
  induction list generalizing items with
  | nil => simp
  | cons a rest ih =>
    have hnew : ¬ items.contains (key a) = true := by
      rw [contains_eq_true_iff, keys_eq]
      intro hmem
      rw [List.map_append, List.nodup_append] at h
      exact h.2.2 _ hmem _ (by simp) rfl
    have hput : (items.put a).toList = items.toList ++ [a] := by rw [put, dif_neg hnew]
    rw [List.foldl_cons, ih, hput, List.append_assoc, List.singleton_append]
    rwa [hput, List.append_assoc, List.singleton_append]

theorem toList_ofList {list : List α} (h : (list.map key).Nodup) :
    (ofList list : Keyed key).toList = list := by
  rw [ofList, toList_foldl_put]
  · simp [empty]
  · simpa [empty] using h

end CommandFactory.Keyed
