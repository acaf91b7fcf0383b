/-!
# Items by key, in order of arrival

`Keyed key` holds items whose keys are pairwise distinct. An item comes in at the end; an item whose
key is already there takes the place of the old one, so the order of the keys is the order of their
first arrival. `get?` is the look-up, `keys` the order.
-/

set_option autoImplicit false

namespace CommandFactory

/-- Items with pairwise distinct keys, in the order in which the keys first came. -/
structure Keyed {α κ : Type} (key : α → κ) where
  toList : List α
  distinct : (toList.map key).Nodup

namespace Keyed

variable {α κ : Type} [DecidableEq κ] {key : α → κ}

/-- No items. -/
def empty : Keyed key := ⟨[], List.nodup_nil⟩

instance : Inhabited (Keyed key) := ⟨empty⟩

instance [Repr α] : Repr (Keyed key) := ⟨fun items n => reprPrec items.toList n⟩

/-- The keys in order. -/
def keys (items : Keyed key) : List κ := items.toList.map key

/-- The number of items. -/
def size (items : Keyed key) : Nat := items.toList.length

/-- The item under a key. -/
def get? (items : Keyed key) (k : κ) : Option α := items.toList.find? fun a => key a = k

/-- Whether a key is there. -/
def contains (items : Keyed key) (k : κ) : Bool := items.toList.any fun a => key a = k

/-- The items with those of `a`'s key replaced by `a`. -/
def replaced (items : List α) (key : α → κ) (a : α) : List α :=
  items.map fun b => if key b = key a then a else b

omit [DecidableEq κ] in
theorem keys_eq (items : Keyed key) : items.keys = items.toList.map key := rfl

theorem map_replaced (items : List α) (a : α) :
    (replaced items key a).map key = items.map key := by
  rw [replaced, List.map_map]
  apply List.map_congr_left
  intro b _
  by_cases h : key b = key a <;> simp [h]

theorem contains_eq_true_iff {items : Keyed key} {k : κ} :
    items.contains k = true ↔ k ∈ items.keys := by
  simp [contains, keys]

theorem nodup_append_single (items : Keyed key) (a : α) (h : ¬ items.contains (key a) = true) :
    ((items.toList ++ [a]).map key).Nodup := by
  rw [contains_eq_true_iff] at h
  rw [List.map_append, List.nodup_append]
  refine ⟨items.distinct, by simp, ?_⟩
  intro x hx y hy
  simp only [List.map_cons, List.map_nil, List.mem_singleton] at hy
  rintro rfl
  exact h (hy ▸ hx)

/-- Puts an item in: in place of the item of its key, or at the end. -/
def put (items : Keyed key) (a : α) : Keyed key :=
  if h : items.contains (key a) = true then
    ⟨replaced items.toList key a, by rw [map_replaced]; exact items.distinct⟩
  else
    ⟨items.toList ++ [a], nodup_append_single items a h⟩

/-- Takes the item of a key out. -/
def erase (items : Keyed key) (k : κ) : Keyed key :=
  ⟨items.toList.filter fun a => key a ≠ k, by
    have := items.distinct
    exact List.Nodup.sublist ((List.filter_sublist).map key) this⟩

/-- Puts the items of a list in, one after the other. -/
def ofList (items : List α) : Keyed key := items.foldl put empty

/-- The place of a key in the order. -/
def index? (items : Keyed key) (k : κ) : Option Nat := items.keys.findIdx? fun j => j = k

end Keyed

end CommandFactory
