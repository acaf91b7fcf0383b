/-!
# Stable sorting

`sortBy` puts a list into an order without changing the order of items that the order does not tell
apart. The order is a test `before` that holds where the first item may stand before the second.
`sortBy_perm` says that sorting neither loses nor repeats an item, and `sortBy_pairwise` that the
result is in order.
-/

set_option autoImplicit false

namespace CommandFactory

variable {α : Type}

/-- Puts an item in front of the first item that it may stand before. -/
def insertBy (before : α → α → Bool) (a : α) : List α → List α
  | [] => [a]
  | b :: rest => if before a b then a :: b :: rest else b :: insertBy before a rest

/-- The items in order; of two that may stand before each other, the earlier one stays first. -/
def sortBy (before : α → α → Bool) : List α → List α
  | [] => []
  | a :: rest => insertBy before a (sortBy before rest)

theorem insertBy_perm (before : α → α → Bool) (a : α) (items : List α) :
    (insertBy before a items).Perm (a :: items) := by
  induction items with
  | nil => exact List.Perm.refl _
  | cons b rest ih =>
    rw [insertBy]
    split
    · exact List.Perm.refl _
    · exact (ih.cons b).trans (List.Perm.swap a b rest)

theorem sortBy_perm (before : α → α → Bool) (items : List α) :
    (sortBy before items).Perm items := by
  induction items with
  | nil => exact List.Perm.refl _
  | cons a rest ih => exact (insertBy_perm before a (sortBy before rest)).trans (ih.cons a)

theorem mem_insertBy {before : α → α → Bool} {a b : α} {items : List α} :
    b ∈ insertBy before a items ↔ b = a ∨ b ∈ items := by
  rw [(insertBy_perm before a items).mem_iff, List.mem_cons]

/-- Of any two items in a sorted list, the earlier one may stand before the later one. -/
theorem sortBy_pairwise {before : α → α → Bool}
    (total : ∀ a b, before a b = true ∨ before b a = true)
    (trans : ∀ a b c, before a b = true → before b c = true → before a c = true)
    (items : List α) : (sortBy before items).Pairwise fun a b => before a b = true := by
  induction items with
  | nil => exact List.Pairwise.nil
  | cons a rest ih =>
    rw [sortBy]
    generalize sortBy before rest = sorted at ih
    induction ih with
    | nil => exact List.pairwise_singleton _ _
    | @cons b sorted hb hsorted ih =>
      rw [insertBy]
      split
      case isTrue hab =>
        refine List.Pairwise.cons ?_ (List.Pairwise.cons hb hsorted)
        intro c hc
        rcases List.mem_cons.1 hc with rfl | hc
        · exact hab
        · exact trans a b c hab (hb c hc)
      case isFalse hab =>
        refine List.Pairwise.cons ?_ ih
        intro c hc
        rcases mem_insertBy.1 hc with rfl | hc
        · exact (total b c).resolve_right hab
        · exact hb c hc

theorem mem_sortBy {before : α → α → Bool} {a : α} {items : List α} :
    a ∈ sortBy before items ↔ a ∈ items :=
  (sortBy_perm before items).mem_iff

end CommandFactory
