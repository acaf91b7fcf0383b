import Mathlib.Logic.Relation
import Mathlib.Order.WellFoundedSet

/-!
# Relations and their cycles

Where a relation leads on in one way only, what a member of a cycle leads to leads back to it
(`reflTransGen_of_cycle`). On a finite set, a relation without cycles allows induction against its
direction (`induction_of_acyclic`); for a single member it is enough that it leads to no cycle
(`induction_of_reaches_no_cycle`).
-/

set_option autoImplicit false

namespace CommandFactory

open Relation

variable {α : Type} {r : α → α → Prop}

/-- On a cycle of a relation that leads on in one way only there is a way back from everywhere. -/
theorem reflTransGen_of_cycle (hunique : Relator.RightUnique r) {a b : α} (hcycle : TransGen r a a)
    (h : ReflTransGen r a b) : ReflTransGen r b a := by
  induction h with
  | refl => exact .refl
  | @tail b c _ hbc ih =>
    rcases ih.cases_head with rfl | ⟨d, hbd, hda⟩
    · obtain ⟨e, hbe, hea⟩ := TransGen.head'_iff.1 hcycle
      rwa [hunique hbc hbe]
    · rwa [hunique hbc hbd]

/-- What holds of a member of a finite set if it holds of all members that it leads to holds of all
members, if there is no cycle. -/
theorem induction_of_acyclic {s : Set α} (hfinite : s.Finite)
    (hacyclic : ∀ a, ¬ TransGen r a a) {motive : α → Prop}
    (step : ∀ a ∈ s, (∀ b ∈ s, r a b → motive b) → motive a) {a : α}
    (ha : a ∈ s) : motive a := by
  -- Without a cycle the relation orders the members strictly, and a finite set has a last one.
  let _ : IsStrictOrder α fun x y => TransGen r y x :=
    { irrefl := hacyclic, trans := fun _ _ _ hxy hyz => hyz.trans hxy }
  have hwf := hfinite.wellFoundedOn (r := fun x y => TransGen r y x)
  refine hwf.induction (P := motive) ha ?_
  intro b hb ih
  exact step b hb fun c hc hbc => ih c hc (.single hbc)

/-- What holds of a member of a finite set if it holds of all members that it leads to holds of every
member that leads to no cycle. -/
theorem induction_of_reaches_no_cycle {s : Set α} (hfinite : s.Finite) {motive : α → Prop}
    (step : ∀ a ∈ s, (∀ b ∈ s, r a b → motive b) → motive a) {a : α} (ha : a ∈ s)
    (hacyclic : ∀ b, ReflTransGen r a b → ¬ TransGen r b b) : motive a := by
  -- Only the steps from what the member leads to count; among these there is no cycle.
  let Reached : α → α → Prop := fun b c => ReflTransGen r a b ∧ r b c
  have hno : ∀ b, ¬ TransGen Reached b b := by
    intro b hcycle
    obtain ⟨_, hstart, -⟩ := TransGen.head'_iff.1 hcycle
    exact hacyclic b hstart.1 (TransGen.mono (fun _ _ hstep => hstep.2) _ _ hcycle)
  refine induction_of_acyclic hfinite (motive := fun b => ReflTransGen r a b → motive b) hno ?_ ha
    .refl
  intro b hb ih hreached
  exact step b hb fun c hc hbc => ih c hc ⟨hreached, hbc⟩ (hreached.tail hbc)

end CommandFactory
