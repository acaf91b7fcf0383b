import CommandFactory.Proofs.Replay.Realization
import Mathlib.Logic.Relation

/-!
# Parts of specifications

A specification holds those of its mixins and of its subcommands, which hold others in turn
(`CommandSpec.PartOf`); a property of all parts is one of the specification and of all parts of those
that it holds (`CommandSpec.allParts_iff`). A subcommand becomes a part in two moves: the instance of
its factory is found, and what the factory makes for it is added (`Replayer.addSubcommand_eq`).
-/

set_option autoImplicit false

namespace CommandFactory

open Relation

namespace CommandSpec

/-! ## Parts -/

/-- The specification of a mixin or of a subcommand of another one. -/
def HeldBy (part spec : CommandSpec) : Prop :=
  (∃ name, (name, part) ∈ spec.mixins) ∨ ∃ name, (name, part) ∈ spec.subcommands

/-- A specification, one that it holds, or one that these hold. -/
def PartOf : CommandSpec → CommandSpec → Prop := ReflTransGen HeldBy

theorem PartOf.refl (spec : CommandSpec) : spec.PartOf spec := ReflTransGen.refl

theorem PartOf.trans {a b c : CommandSpec} (hab : a.PartOf b) (hbc : b.PartOf c) : a.PartOf c :=
  ReflTransGen.trans hab hbc

theorem PartOf.mixin {name : String} {mixin spec : CommandSpec} (h : (name, mixin) ∈ spec.mixins) :
    mixin.PartOf spec := ReflTransGen.single (Or.inl ⟨name, h⟩)

theorem PartOf.subcommand {name : String} {sub spec : CommandSpec}
    (h : (name, sub) ∈ spec.subcommands) : sub.PartOf spec := ReflTransGen.single (Or.inr ⟨name, h⟩)

/-- All parts of a specification have the property. -/
def AllParts (P : CommandSpec → Prop) (spec : CommandSpec) : Prop :=
  ∀ part : CommandSpec, part.PartOf spec → P part

/-- What all parts have is what the specification itself has, and all parts of its mixins and
subcommands. -/
theorem allParts_iff {P : CommandSpec → Prop} {spec : CommandSpec} :
    AllParts P spec ↔
      P spec ∧ (∀ named ∈ spec.mixins, AllParts P named.2) ∧
        ∀ named ∈ spec.subcommands, AllParts P named.2 := by
  constructor
  · intro h
    refine ⟨h spec (.refl spec), fun named hnamed part hpart => ?_, fun named hnamed part hpart => ?_⟩
    · exact h part (hpart.trans (.mixin hnamed))
    · exact h part (hpart.trans (.subcommand hnamed))
  · rintro ⟨hspec, hmixins, hsubcommands⟩ part hpart
    rcases ReflTransGen.cases_tail hpart with rfl | ⟨child, hchild, ⟨name, hname⟩ | ⟨name, hname⟩⟩
    · exact hspec
    · exact hmixins _ hname part hchild
    · exact hsubcommands _ hname part hchild

end CommandSpec

/-! ## Subcommands -/

namespace Replayer

open Replay

/-- The instance that the factory of a subcommand gets. -/
def ownerOf (frame : Frame) : SubcommandOwner → Replay (Option ObjectRef)
  | .none => return none
  | .this => some <$> frame.needTarget
  | .new type => some <$> newObject type

/-- Adds a subcommand that its factory makes for an instance. -/
def addMade (call : Call) (frame : Frame) (name : String) (factory : ProcedureRef)
    (target : Option ObjectRef) : Replay Frame := do
  let subcommand ← call.create factory target
  let spec ← frame.needSpec
  let (spec, store) := spec.addSubcommand name subcommand (← get)
  set store
  return { frame with spec := some spec }

/-- A subcommand is added once the instance of its factory is known. -/
theorem addSubcommand_eq (call : Call) (frame : Frame) (name : String) (factory : ProcedureRef) (owner : SubcommandOwner) :
    addSubcommand call frame name factory owner =
      ownerOf frame owner >>= addMade call frame name factory := by
  cases owner <;> rfl

end Replayer

end CommandFactory
