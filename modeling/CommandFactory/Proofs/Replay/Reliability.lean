import CommandFactory.Proofs.Module.Path
import CommandFactory.Proofs.Replay.Realization

/-!
# Reliable replayers

Whatever a compilation has reported, a replayer of its modules never takes one procedure for another
if modules have different paths: what it finds under the reference of a command that is kept is the
procedure of that command (`Replayer.Reliable`). So a call of the reference ends with a fault, or
does what the declaration of the command asks for (`Reliable.gives_run`).
-/

set_option autoImplicit false

namespace CommandFactory

namespace Replayer

open Replay

/-- What a replayer finds under the references of commands that are kept are their procedures. -/
def Reliable (replayer : Replayer) (registry : Registry) : Prop :=
  ∀ d ∈ registry.plan.kept, ∀ kind ∈ d.kinds, ∀ procedure,
    replayer.procedure? (registry.plan.reference d kind) = some procedure →
      procedure = registry.plan.procedureOf d kind

/-- The statements of arguments append the arguments that their declarations mean. -/
theorem gives_argStatements {call : Call} {procedure : Procedure} {frame : Frame}
    {object : ObjectRef} (hframe : frame.target = some object) (index : Nat)
    (args : List ArgDeclaration) :
    ((argStatements index args).foldlM (step call procedure) frame).Gives fun next =>
      next.args = frame.args ++ args.map (ArgDeclaration.specFor object) := by
  induction args generalizing frame index with
  | nil => exact Meets.pure (List.append_nil _).symm
  | cons arg rest ih =>
    rw [argStatements, List.foldlM_cons]
    have hstep : (step call procedure frame (.addArg (arg.build index))).Gives fun next =>
        next = { frame with args := frame.args ++ [arg.specFor object] } := by
      refine (Meets.needTarget hframe).bind ?_
      rintro object rfl
      rw [ArgDeclaration.toSpec_build]
      exact Meets.pure rfl
    refine hstep.bind ?_
    rintro next rfl
    have hnext : ({ frame with args := frame.args ++ [arg.specFor object] } : Frame).target =
        some object := hframe
    refine (ih hnext (index + 1)).mono fun last hlast => ?_
    rw [hlast, List.map_cons, List.append_assoc, List.singleton_append]

namespace Reliable

variable {replayer : Replayer} {registry : Registry} {d : CommandDeclaration} {levels : Nat}

/-- A call of a procedure goes too deep, finds none, or does what the procedure does with one call
fewer. -/
theorem gives_run (h : replayer.Reliable registry) (hd : d ∈ registry.plan.kept)
    {kind : ProcedureKind} (hkind : kind ∈ d.kinds) {frame : Frame} {post : Frame → Prop}
    (hwork : ∀ fewer, levels = fewer + 1 →
      ((registry.plan.work d kind).foldlM
        (step (replayer.run fewer) (registry.plan.procedureOf d kind)) frame).Gives post) :
    (replayer.run levels (registry.plan.reference d kind) frame).Gives post := by
  refine Replayer.gives_run fun fewer procedure hlevels hfound => ?_
  obtain rfl := h d hd kind hkind procedure hfound
  rw [Registry.takeWhile_procedureOf]
  exact hwork fewer hlevels

/-- The procedures that append arguments append those of the declaration. -/
theorem gives_collect (h : replayer.Reliable registry) (hd : d ∈ registry.plan.kept)
    {kind : ProcedureKind} (hcreate : kind.isCreate = false) {args : List ArgDeclaration}
    (hwork : registry.plan.work d kind = argStatements 0 args) (object : ObjectRef) :
    ((replayer.run levels).collect (registry.plan.reference d kind) object).Gives fun found =>
      found = args.map (ArgDeclaration.specFor object) := by
  have hcall : (replayer.run levels (registry.plan.reference d kind)
      { target := some object }).Gives fun next =>
        next.args = args.map (ArgDeclaration.specFor object) := by
    refine h.gives_run hd (CommandDeclaration.mem_kinds_of_not_isCreate hcreate) ?_
    intro fewer _
    rw [hwork]
    exact gives_argStatements rfl 0 args
  exact hcall.bind fun next hnext => Meets.pure hnext

end Reliable

end Replayer

/-! ## Compilations -/

namespace Compilation

variable {settings : Settings} {manifest : Manifest}

/-- If modules have different paths, a replay of a compilation is reliable. -/
theorem reliable (hpaths : (Registry.ofManifest settings manifest).DistinctPaths) :
    (Replayer.ofModules (ofManifest settings manifest).modules).Reliable
      (Registry.ofManifest settings manifest) := by
  intro d hd kind hkind procedure hfound
  obtain ⟨e, he, kind', hkind', href, rfl⟩ :=
    kept_of_mem_procedures (Replayer.mem_of_procedure? hfound)
  obtain ⟨rfl, rfl⟩ := (Registry.wellRooted_ofManifest settings manifest).reference_inj hpaths hd he
    hkind hkind' href
  rfl

end Compilation

end CommandFactory
