import CommandFactory.Proofs.Module.Calls
import CommandFactory.Proofs.Module.Delivery
import CommandFactory.Proofs.Replay.Outcome

/-!
# Safety of replays

A kind of procedures fixes what a frame has to have at the start of a procedure and what it has at the
end (`ProcedureKind.takes`, `ProcedureKind.leaves`). A procedure is `Prepared` if each of its
statements finds what it needs, and a replayer is `WellKinded` if all its procedures are prepared and
all their calls go to procedures of the kinds that the calls ask for.

- `WellKinded.safe_run` is progress: a well-kinded replayer ends only because calls go too deep;
- `Delivered.wellKinded` says that a compilation without errors gives a well-kinded replayer;
- `Compilation.wellKinded_and_safe` puts them together.
-/

set_option autoImplicit false

namespace CommandFactory

/-! ## What frames have -/

/-- An instance, a specification, both or nothing. -/
structure Provision where
  target : Bool
  spec : Bool
  deriving DecidableEq, Repr, Inhabited

/-- The first provision has all that the second has. -/
def Provision.Covers (provision other : Provision) : Prop :=
  (other.target = true → provision.target = true) ∧ (other.spec = true → provision.spec = true)

/-- The frame has what the provision has. -/
structure Frame.Has (frame : Frame) (provision : Provision) : Prop where
  target : provision.target = true → ∃ object, frame.target = some object
  spec : provision.spec = true → ∃ spec, frame.spec = some spec

theorem Frame.Has.of_covers {frame : Frame} {provision other : Provision}
    (h : frame.Has provision) (hcovers : provision.Covers other) : frame.Has other :=
  ⟨fun htarget => h.target (hcovers.1 htarget), fun hspec => h.spec (hcovers.2 hspec)⟩

theorem Frame.Has.withSpec {frame : Frame} {provision : Provision} (h : frame.Has provision)
    (spec : CommandSpec) : ({ frame with spec := some spec } : Frame).Has provision :=
  ⟨h.target, fun _ => ⟨spec, rfl⟩⟩

namespace ProcedureKind

/-- What the frame of a procedure has to have at the start. -/
def takes : ProcedureKind → Provision
  | .createSpec methodRooted => ⟨methodRooted, false⟩
  | kind => ⟨true, !kind.takesSink⟩

/-- What the frame of a procedure has at the end. -/
def leaves (kind : ProcedureKind) : Provision := ⟨false, !kind.takesSink⟩

end ProcedureKind

/-! ## What statements ask for -/

namespace Statement

/-- What a statement needs in its frame. -/
def needs : Statement → Provision
  | .newInstance => ⟨false, false⟩
  | .resolveMethod _ _ => ⟨false, false⟩
  | .returnSpec => ⟨false, false⟩
  | .wrapSpec _ => ⟨true, false⟩
  | .addArg _ => ⟨true, false⟩
  | .setName _ => ⟨false, true⟩
  | .setDescription _ => ⟨false, true⟩
  | .addSubcommand _ _ owner => ⟨owner = .this, true⟩
  | _ => ⟨true, true⟩

/-- What a frame has after a statement. -/
def gives (provision : Provision) : Statement → Provision
  | .newInstance => { provision with target := true }
  | .wrapSpec _ => { provision with spec := true }
  | _ => provision

end Statement

/-- Each statement up to the one that returns finds what it needs, and the frame has what it should
have at the end. -/
def Prepared (goal : Provision) : Provision → List Statement → Prop
  | provision, [] => provision.Covers goal
  | provision, statement :: rest =>
      if statement = .returnSpec then provision.Covers goal
      else provision.Covers statement.needs ∧ Prepared goal (statement.gives provision) rest

theorem Prepared.cons {goal provision : Provision} {statement : Statement} {rest : List Statement}
    (hreturn : statement ≠ .returnSpec) (hneeds : provision.Covers statement.needs)
    (hrest : Prepared goal (statement.gives provision) rest) :
    Prepared goal provision (statement :: rest) := by
  rw [Prepared, if_neg hreturn]
  exact ⟨hneeds, hrest⟩

/-- A frame with an instance and a specification keeps them, so every body is prepared for it. -/
theorem prepared_full (goal : Provision) (body : List Statement) :
    Prepared goal ⟨true, true⟩ body := by
  have hcovers : ∀ other : Provision, (⟨true, true⟩ : Provision).Covers other :=
    fun _ => ⟨fun _ => rfl, fun _ => rfl⟩
  induction body with
  | nil => exact hcovers goal
  | cons statement rest ih =>
    rw [Prepared]
    have hgives : statement.gives ⟨true, true⟩ = ⟨true, true⟩ := by cases statement <;> rfl
    split
    · exact hcovers goal
    · exact ⟨hcovers _, by rwa [hgives]⟩

theorem prepared_argStatements (index : Nat) (args : List ArgDeclaration) :
    Prepared ⟨false, false⟩ ⟨true, false⟩ (argStatements index args) := by
  induction args generalizing index with
  | nil => exact ⟨fun _ => rfl, id⟩
  | cons arg rest ih =>
    rw [argStatements]
    exact Prepared.cons (by simp) (by simp [Provision.Covers, Statement.needs]) (ih (index + 1))

/-! ## Well-kinded replayers -/

/-- A call leads to a procedure of a kind that it accepts. -/
def Replayer.Resolves (replayer : Replayer) (callee : Callee) : Prop :=
  ∃ procedure, replayer.procedure? callee.target = some procedure ∧
    callee.accepts procedure.kind = true

/-- All procedures are prepared, and all their calls are resolved. -/
structure Replayer.WellKinded (replayer : Replayer) : Prop where
  prepared : ∀ entry ∈ replayer.procedures,
    Prepared entry.2.kind.leaves entry.2.kind.takes entry.2.body
  resolved : ∀ entry ∈ replayer.procedures, ∀ statement ∈ entry.2.body,
    ∀ callee ∈ statement.callees, replayer.Resolves callee

/-- The only fault is that calls go too deep. -/
def ReplayFault.IsTooDeep (fault : ReplayFault) : Prop := ∃ name, fault = .tooDeep name

/-- Calls that start with what they should have end with it, or go too deep. -/
def Call.Safe (replayer : Replayer) (call : Call) : Prop :=
  ∀ target procedure frame, replayer.procedure? target = some procedure →
    frame.Has procedure.kind.takes →
    (call target frame).Meets ReplayFault.IsTooDeep fun next => next.Has procedure.kind.leaves

namespace Call.Safe

variable {replayer : Replayer} {call : Call}

theorem create (h : call.Safe replayer) {target : ProcedureRef} {owner : Option ObjectRef}
    {methodRooted : Bool}
    (hresolves : replayer.Resolves ⟨target, fun kind => kind = .createSpec methodRooted⟩)
    (howner : methodRooted = true → ∃ object, owner = some object) :
    (call.create target owner).Meets ReplayFault.IsTooDeep fun _ => True := by
  obtain ⟨procedure, hfound, hkind⟩ := hresolves
  replace hkind : procedure.kind = .createSpec methodRooted := of_decide_eq_true hkind
  have hcall := h target procedure { target := owner } hfound (by
    rw [hkind]
    exact ⟨howner, fun hspec => by cases hspec⟩)
  refine hcall.bind fun frame hframe => ?_
  rw [hkind] at hframe
  obtain ⟨spec, hspec⟩ := hframe.spec rfl
  exact Replay.Meets.orFail (fun _ _ => trivial) (by simp [hspec])

theorem configure (h : call.Safe replayer) {target : ProcedureRef}
    (hresolves : replayer.Resolves ⟨target, SpecArg.spec.accepts⟩) (spec : CommandSpec)
    (object : ObjectRef) :
    (call.configure target spec object).Meets ReplayFault.IsTooDeep fun _ => True := by
  obtain ⟨procedure, hfound, hkind⟩ := hresolves
  have hframe : ({ target := some object, spec := some spec } : Frame).Has procedure.kind.takes :=
    ⟨fun _ => ⟨object, rfl⟩, fun _ => ⟨spec, rfl⟩⟩
  refine (h target procedure _ hfound hframe).bind fun frame hframe => ?_
  have hleaves : procedure.kind.leaves.spec = true := by
    simp only [SpecArg.accepts, Bool.and_eq_true] at hkind
    exact hkind.2
  obtain ⟨after, hafter⟩ := hframe.spec hleaves
  exact Replay.Meets.orFail (fun _ _ => trivial) (by simp [hafter])

theorem collect (h : call.Safe replayer) {target : ProcedureRef} (kind : ProcedureKind)
    (hsink : kind.takesSink = true)
    (hresolves : replayer.Resolves ⟨target, fun found => found = kind⟩) (object : ObjectRef) :
    (call.collect target object).Meets ReplayFault.IsTooDeep fun _ => True := by
  obtain ⟨procedure, hfound, hkind⟩ := hresolves
  replace hkind : procedure.kind = kind := of_decide_eq_true hkind
  have hframe : ({ target := some object } : Frame).Has procedure.kind.takes := by
    rw [hkind]
    cases kind <;> cases hsink <;>
      exact ⟨fun _ => ⟨object, rfl⟩, fun hspec => by cases hspec⟩
  exact (h target procedure _ hfound hframe).bind fun frame _ => Replay.Meets.pure trivial

end Call.Safe

/-! ## One statement -/

namespace Replayer

variable {replayer : Replayer} {call : Call} {frame : Frame} {provision : Provision}

theorem safe_addSubcommand (h : call.Safe replayer) (hframe : frame.Has provision)
    {name : String} {factory : ProcedureRef} {owner : SubcommandOwner}
    (hneeds : provision.Covers ⟨owner = .this, true⟩)
    (hresolves : replayer.Resolves ⟨factory, fun kind => kind = .createSpec (owner ≠ .none)⟩) :
    (addSubcommand call frame name factory owner).Meets ReplayFault.IsTooDeep fun next =>
      next.Has provision := by
  obtain ⟨spec, hspec⟩ := hframe.spec (hneeds.2 rfl)
  -- Whatever instance the factory gets, the rest is the same.
  have hadd : ∀ target : Option ObjectRef,
      (decide (owner ≠ .none) = true → ∃ object, target = some object) →
      (do
        let subcommand ← call.create factory target
        let spec ← frame.needSpec
        let store ← get
        set (spec.addSubcommand name subcommand store).2
        return { frame with spec := some (spec.addSubcommand name subcommand store).1 } :
          Replay Frame).Meets ReplayFault.IsTooDeep fun next => next.Has provision := by
    intro target htarget
    refine (h.create hresolves htarget).bind fun subcommand _ => ?_
    refine (Replay.Meets.needSpec hspec).bind fun found _ => ?_
    refine Replay.Meets.get.bind fun store _ => ?_
    exact (Replay.Meets.set _).bind fun _ _ => Replay.Meets.pure (hframe.withSpec _)
  cases owner with
  | none => exact hadd none (by simp)
  | this =>
    obtain ⟨object, hobject⟩ := hframe.target (hneeds.1 (by simp))
    refine (Replay.Meets.needTarget hobject).map.bind ?_
    rintro target ⟨found, -, hfound⟩
    exact hadd target fun _ => ⟨found, hfound⟩
  | new type =>
    refine (Replay.Meets.newObject type).map.bind ?_
    rintro target ⟨found, -, hfound⟩
    exact hadd target fun _ => ⟨found, hfound⟩

theorem safe_configure (h : call.Safe replayer) (hframe : frame.Has provision)
    {target : ProcedureRef} {first : SpecArg} (hneeds : provision.Covers ⟨true, true⟩)
    (hresolves : replayer.Resolves ⟨target, first.accepts⟩) :
    (configure call frame target first).Meets ReplayFault.IsTooDeep fun next =>
      next.Has provision := by
  obtain ⟨object, hobject⟩ := hframe.target (hneeds.1 rfl)
  obtain ⟨spec, hspec⟩ := hframe.spec (hneeds.2 rfl)
  -- A sink adds its arguments one by one, and each time there is a specification to add to.
  have hadd : ∀ (args : List ArgSpec) (add : CommandSpec → ArgSpec → CommandSpec),
      (args.foldlM (fun (frame : Frame) arg => frame.changeSpec fun spec => add spec arg)
        frame).Meets ReplayFault.IsTooDeep fun next => next.Has provision := by
    intro args add
    refine (Replay.Meets.foldlM (fun next : Frame => next.Has provision ∧ ∃ spec, next.spec = some spec)
      ⟨hframe, spec, hspec⟩ ?_).mono fun next hnext => hnext.1
    rintro arg - next ⟨hnext, found, hfound⟩
    refine (Replay.Meets.changeSpec hfound _).mono ?_
    rintro _ rfl
    exact ⟨hnext.withSpec _, _, rfl⟩
  refine (Replay.Meets.needTarget hobject).bind fun found _ => ?_
  cases first with
  | spec =>
    refine (Replay.Meets.needSpec hspec).bind fun before _ => ?_
    exact (h.configure hresolves before found).bind fun after _ =>
      Replay.Meets.pure (hframe.withSpec _)
  | optionSink =>
    exact (h.collect .configureOptions rfl hresolves found).bind fun args _ =>
      hadd args CommandSpec.addOption
  | positionalSink =>
    exact (h.collect .configureParameters rfl hresolves found).bind fun args _ =>
      hadd args CommandSpec.addPositional

theorem safe_addMixin (h : call.Safe replayer) (hframe : frame.Has provision)
    {name type : String} {target : Option ProcedureRef} (hneeds : provision.Covers ⟨true, true⟩)
    (hresolves : ∀ ref, target = some ref →
      replayer.Resolves ⟨ref, fun kind => kind = .configureAll⟩) :
    (addMixin call frame name type target).Meets ReplayFault.IsTooDeep fun next =>
      next.Has provision := by
  obtain ⟨object, hobject⟩ := hframe.target (hneeds.1 rfl)
  obtain ⟨spec, hspec⟩ := hframe.spec (hneeds.2 rfl)
  have hadd : ∀ made : CommandSpec,
      (frame.changeSpec fun owner => owner.addMixin name made).Meets ReplayFault.IsTooDeep
        fun next => next.Has provision := by
    intro made
    refine (Replay.Meets.changeSpec hspec _).mono ?_
    rintro _ rfl
    exact hframe.withSpec _
  refine (Replay.Meets.newObject type).bind fun mixin _ => ?_
  refine (Replay.Meets.needTarget hobject).bind fun found _ => ?_
  refine (Replay.Meets.setSlot _ _ _).bind fun _ _ => ?_
  cases target with
  | none => exact hadd _
  | some ref =>
    -- A configuration is one of the procedures that take a specification.
    have hconfigures : replayer.Resolves ⟨ref, SpecArg.spec.accepts⟩ := by
      obtain ⟨procedure, hfound, hkind⟩ := hresolves ref rfl
      refine ⟨procedure, hfound, ?_⟩
      rw [show procedure.kind = .configureAll from of_decide_eq_true hkind]
      rfl
    exact (h.configure hconfigures _ mixin).bind fun made _ => hadd made

theorem safe_addGroup (h : call.Safe replayer) (hframe : frame.Has provision) {build : GroupBuild}
    (hneeds : provision.Covers ⟨true, true⟩)
    (hoptions : replayer.Resolves ⟨build.options, fun kind => kind = .configureOptions⟩)
    (hparameters : replayer.Resolves ⟨build.parameters, fun kind => kind = .configureParameters⟩) :
    (addGroup call frame build).Meets ReplayFault.IsTooDeep fun next => next.Has provision := by
  obtain ⟨object, hobject⟩ := hframe.target (hneeds.1 rfl)
  obtain ⟨spec, hspec⟩ := hframe.spec (hneeds.2 rfl)
  refine (Replay.Meets.needTarget hobject).bind fun found _ => ?_
  refine (Replay.Meets.newObject _).bind fun value _ => ?_
  refine (Replay.Meets.setSlot _ _ _).bind fun _ _ => ?_
  refine (h.collect .configureOptions rfl hoptions value).bind fun options _ => ?_
  refine (h.collect .configureParameters rfl hparameters value).bind fun parameters _ => ?_
  refine (Replay.Meets.changeSpec hspec _).mono ?_
  rintro _ rfl
  exact hframe.withSpec _

/-- A statement that finds what it needs gives what it should. -/
theorem safe_step (h : call.Safe replayer) (hframe : frame.Has provision) (procedure : Procedure)
    {statement : Statement} (hneeds : provision.Covers statement.needs)
    (hresolved : ∀ callee ∈ statement.callees, replayer.Resolves callee) :
    (step call procedure frame statement).Meets ReplayFault.IsTooDeep fun next =>
      next.Has (statement.gives provision) := by
  cases statement with
  | newInstance =>
    exact (Replay.Meets.newObject _).bind fun object _ =>
      Replay.Meets.pure ⟨fun _ => ⟨object, rfl⟩, hframe.spec⟩
  | resolveMethod name params => exact Replay.Meets.pure ⟨hframe.target, hframe.spec⟩
  | wrapSpec source =>
    obtain ⟨object, hobject⟩ := hframe.target (hneeds.1 rfl)
    exact (Replay.Meets.needTarget hobject).bind fun found _ =>
      Replay.Meets.pure ⟨hframe.target, fun _ => ⟨_, rfl⟩⟩
  | setName name =>
    obtain ⟨spec, hspec⟩ := hframe.spec (hneeds.2 rfl)
    exact (Replay.Meets.changeSpec hspec _).mono fun _ hnext => hnext ▸ hframe.withSpec _
  | setDescription lines =>
    obtain ⟨spec, hspec⟩ := hframe.spec (hneeds.2 rfl)
    exact (Replay.Meets.changeSpec hspec _).mono fun _ hnext => hnext ▸ hframe.withSpec _
  | addSubcommand name factory owner =>
    exact safe_addSubcommand h hframe hneeds (hresolved _ (List.mem_singleton_self _))
  | configure target first second =>
    exact safe_configure h hframe hneeds (hresolved _ (List.mem_singleton_self _))
  | addMixin name type target =>
    refine safe_addMixin h hframe hneeds fun ref href => hresolved _ ?_
    simp [Statement.callees, href]
  | addArg build =>
    obtain ⟨object, hobject⟩ := hframe.target (hneeds.1 rfl)
    exact (Replay.Meets.needTarget hobject).bind fun found _ =>
      Replay.Meets.pure ⟨hframe.target, hframe.spec⟩
  | addArgGroup build =>
    exact safe_addGroup h hframe hneeds (hresolved _ (by simp [Statement.callees]))
      (hresolved _ (by simp [Statement.callees]))
  | bindSpec field =>
    obtain ⟨object, hobject⟩ := hframe.target (hneeds.1 rfl)
    obtain ⟨spec, hspec⟩ := hframe.spec (hneeds.2 rfl)
    refine (Replay.Meets.needSpec hspec).bind fun found _ => ?_
    refine (Replay.Meets.needTarget hobject).bind fun found _ => ?_
    exact (Replay.Meets.setSlot _ _ _).bind fun _ _ => Replay.Meets.pure hframe
  | bindParent field =>
    obtain ⟨object, hobject⟩ := hframe.target (hneeds.1 rfl)
    obtain ⟨spec, hspec⟩ := hframe.spec (hneeds.2 rfl)
    refine (Replay.Meets.needTarget hobject).bind fun found _ => ?_
    exact (Replay.Meets.changeSpec hspec _).mono fun _ hnext => hnext ▸ hframe.withSpec _
  | returnSpec => exact Replay.Meets.pure hframe

/-! ## Whole procedures -/

/-- A prepared body gives what it should, up to the statement that returns. -/
theorem safe_body (h : call.Safe replayer) (procedure : Procedure) {goal : Provision}
    (body : List Statement) (hframe : frame.Has provision) (hprepared : Prepared goal provision body)
    (hresolved : ∀ statement ∈ body, ∀ callee ∈ statement.callees, replayer.Resolves callee) :
    ((body.takeWhile fun statement => statement ≠ .returnSpec).foldlM (step call procedure)
      frame).Meets ReplayFault.IsTooDeep fun next => next.Has goal := by
  induction body generalizing frame provision with
  | nil => exact Replay.Meets.pure (hframe.of_covers hprepared)
  | cons statement rest ih =>
    rw [Prepared] at hprepared
    -- What comes after the statement that returns is not carried out.
    by_cases hreturn : statement = .returnSpec
    · rw [if_pos hreturn] at hprepared
      rw [List.takeWhile_cons_of_neg (by simp [hreturn])]
      exact Replay.Meets.pure (hframe.of_covers hprepared)
    · rw [if_neg hreturn] at hprepared
      rw [List.takeWhile_cons_of_pos (by simp [hreturn]), List.foldlM_cons]
      have hstep := safe_step h hframe procedure hprepared.1
        (hresolved statement (List.mem_cons_self ..))
      refine hstep.bind fun next hnext => ?_
      exact ih hnext hprepared.2 fun other hother => hresolved other (List.mem_cons_of_mem _ hother)

/-- A well-kinded replayer ends only because calls go too deep, whatever the number of calls that may
go on inside one another. -/
theorem WellKinded.safe_run (h : replayer.WellKinded) (levels : Nat) :
    Call.Safe replayer (replayer.run levels) := by
  induction levels with
  | zero =>
    -- No call may go on, which is the one fault that is allowed.
    intro target procedure frame hfound hframe
    exact Replay.Meets.fail ⟨target.name, rfl⟩
  | succ levels ih =>
    -- The calls of the body have one level less, and are safe by induction.
    intro target procedure frame hfound hframe
    have hentry := mem_of_procedure? hfound
    have hfind : (Replay.orFail (replayer.procedure? target)
        (.unknownProcedure (referenceText target))).Meets ReplayFault.IsTooDeep
          fun found => found = procedure := by
      rw [hfound]
      exact Replay.Meets.pure rfl
    refine hfind.bind ?_
    rintro found rfl
    exact safe_body ih found found.body hframe (h.prepared _ hentry) (h.resolved _ hentry)

end Replayer

/-! ## Generated procedures -/

namespace Plan

/-- The body of every generated procedure is prepared for the frames that its kind takes. -/
theorem prepared_bodyOf (plan : Plan) {d : CommandDeclaration} {kind : ProcedureKind}
    (hkind : kind ∈ d.kinds) : Prepared kind.leaves kind.takes (plan.bodyOf d kind) := by
  cases kind with
  | createSpec methodRooted =>
    obtain ⟨-, rfl⟩ := CommandDeclaration.createSpec_mem_kinds.1 hkind
    -- The opening makes the specification, and in a class the instance before.
    simp only [bodyOf, create, procedure, opening, CommandDeclaration.isMethodRooted]
    cases d.rooting with
    | classRooted =>
      refine Prepared.cons (by simp) (by simp [Provision.Covers, Statement.needs]) ?_
      exact Prepared.cons (by simp)
        (by simp [Provision.Covers, Statement.needs, Statement.gives, ProcedureKind.takes])
        (prepared_full _ _)
    | methodRooted classId method params =>
      refine Prepared.cons (by simp) (by simp [Provision.Covers, Statement.needs]) ?_
      exact Prepared.cons (by simp)
        (by simp [Provision.Covers, Statement.needs, Statement.gives, ProcedureKind.takes])
        (prepared_full _ _)
  | configureOptions => exact prepared_argStatements 0 _
  | configureParameters => exact prepared_argStatements 0 _
  | _ => exact prepared_full _ _

end Plan

namespace Registry.Delivered

variable {registry : Registry} {compilation : Compilation}

theorem resolves_of_mem (h : registry.Delivered compilation) {target : ProcedureRef}
    {procedure : Procedure}
    (hmem : (target, procedure) ∈ (Replayer.ofModules compilation.modules).procedures)
    {accepts : ProcedureKind → Bool} (haccepts : accepts procedure.kind = true) :
    (Replayer.ofModules compilation.modules).Resolves ⟨target, accepts⟩ := by
  obtain ⟨found, hfound, hkind⟩ := h.procedure?_of_mem hmem
  exact ⟨found, hfound, hkind ▸ haccepts⟩

/-- A reference leads to a procedure of the kind it is made for. -/
theorem resolves_reference (h : registry.Delivered compilation) {d : CommandDeclaration}
    (hd : d ∈ registry.commands) {kind : ProcedureKind} (hkind : kind ∈ d.kinds)
    {accepts : ProcedureKind → Bool} (haccepts : accepts kind = true) :
    (Replayer.ofModules compilation.modules).Resolves ⟨registry.plan.reference d kind, accepts⟩ :=
  h.resolves_of_mem (h.mem_procedures_iff.2 ⟨d, hd, kind, hkind, rfl, rfl⟩) haccepts

/-- Every call in a generated procedure leads to a procedure of a kind that it accepts. -/
theorem resolves_callee (h : registry.Delivered compilation) {d : CommandDeclaration}
    (hd : d ∈ registry.commands) {kind : ProcedureKind} {statement : Statement}
    (hstatement : statement ∈ registry.plan.bodyOf d kind) {callee : Callee}
    (hcallee : callee ∈ statement.callees) :
    (Replayer.ofModules compilation.modules).Resolves callee := by
  obtain ⟨e, he, kind', hkind, htarget, haccepts, -⟩ := exists_called hd hstatement hcallee
  have hresolves := h.resolves_reference he hkind haccepts
  rwa [← htarget] at hresolves

/-- A compilation without errors gives a well-kinded replayer. -/
theorem wellKinded (h : registry.Delivered compilation) :
    (Replayer.ofModules compilation.modules).WellKinded where
  prepared := by
    rintro ⟨target, procedure⟩ hentry
    obtain ⟨d, -, kind, hkind, -, rfl⟩ := h.mem_procedures_iff.1 hentry
    exact registry.plan.prepared_bodyOf hkind
  resolved := by
    rintro ⟨target, procedure⟩ hentry statement hstatement callee hcallee
    obtain ⟨d, hd, kind, -, -, rfl⟩ := h.mem_procedures_iff.1 hentry
    exact h.resolves_callee hd hstatement hcallee

end Registry.Delivered

/-! ## Compilations -/

namespace Compilation

open GeneratedModule

/-- There is a procedure under the reference of the callee, a replay finds one, and every one that is
there is of a kind that the call accepts. -/
def Provides (compilation : Compilation) (callee : Callee) : Prop :=
  (∃ module ∈ walkAll compilation.modules, ∃ procedure ∈ module.procedures,
      callee.target = ⟨module.path, procedure.name⟩ ∧
        (Replayer.ofModules compilation.modules).procedure? callee.target = some procedure) ∧
    ∀ module ∈ walkAll compilation.modules, ∀ procedure ∈ module.procedures,
      callee.target = ⟨module.path, procedure.name⟩ → callee.accepts procedure.kind = true

/-- All that the procedures of the units call is in the units. -/
def Closed (compilation : Compilation) : Prop :=
  ∀ module ∈ walkAll compilation.modules, ∀ procedure ∈ module.procedures,
    ∀ statement ∈ procedure.body, ∀ callee ∈ statement.callees, compilation.Provides callee

/-- Every factory makes a specification, or its calls go too deep. A factory of a method gets an
instance. -/
def ReplaysSafely (compilation : Compilation) : Prop :=
  ∀ module ∈ walkAll compilation.modules, ∀ procedure ∈ module.procedures, ∀ methodRooted,
    procedure.kind = .createSpec methodRooted →
      ∀ owner : Option ObjectRef, (methodRooted = true → owner.isSome = true) → ∀ store,
        let replay := (Replayer.ofModules compilation.modules).createSpec
          ⟨module.path, procedure.name⟩ owner
        (∃ spec after, replay store = .ok (spec, after)) ∨
          ∃ name, replay store = .error (.tooDeep name)

end Compilation

namespace Registry.Delivered

variable {registry : Registry} {compilation : Compilation}

theorem provides (h : registry.Delivered compilation) {callee : Callee}
    (hresolves : (Replayer.ofModules compilation.modules).Resolves callee) :
    compilation.Provides callee := by
  obtain ⟨procedure, hfound, haccepts⟩ := hresolves
  have hentry := Replayer.mem_of_procedure? hfound
  refine ⟨?_, ?_⟩
  · obtain ⟨module, hmodule, hmem, htarget⟩ := Compilation.mem_procedures_iff_walkAll.1 hentry
    exact ⟨module, hmodule, procedure, hmem, htarget, hfound⟩
  · intro module hmodule other hother htarget
    have hsame := Compilation.mem_procedures_of_mem_walkAll hmodule hother
    rw [← htarget] at hsame
    rw [h.kind_eq_of_mem hsame hentry]
    exact haccepts

theorem closed (h : registry.Delivered compilation) : compilation.Closed := by
  intro module hmodule procedure hprocedure statement hstatement callee hcallee
  have hentry := Compilation.mem_procedures_of_mem_walkAll hmodule hprocedure
  exact h.provides (h.wellKinded.resolved _ hentry statement hstatement callee hcallee)

theorem replaysSafely (h : registry.Delivered compilation) : compilation.ReplaysSafely := by
  intro module hmodule procedure hprocedure methodRooted hkind owner howner store replay
  have hentry := Compilation.mem_procedures_of_mem_walkAll hmodule hprocedure
  have hresolves : (Replayer.ofModules compilation.modules).Resolves
      ⟨⟨module.path, procedure.name⟩, fun kind => kind = .createSpec methodRooted⟩ :=
    h.resolves_of_mem hentry (decide_eq_true hkind)
  have hinstance : methodRooted = true → ∃ object, owner = some object :=
    fun hrooted => Option.isSome_iff_exists.1 (howner hrooted)
  have hstore := (h.wellKinded.safe_run Replayer.maxCalls).create hresolves hinstance store
  change (∃ spec after, replay store = .ok (spec, after)) ∨ _
  cases hrun : replay store with
  | ok result => exact Or.inl ⟨result.1, result.2, rfl⟩
  | error fault =>
    rw [show Call.create _ _ owner store = .error fault from hrun] at hstore
    obtain ⟨name, rfl⟩ := hstore
    exact Or.inr ⟨name, rfl⟩

end Registry.Delivered

namespace Compilation

open GeneratedModule

/-- In a compilation without errors every call leads to a procedure of a fitting kind, and factories
fail only because calls go too deep. -/
theorem closed_and_safe (settings : Settings) (manifest : Manifest)
    (hno : Diagnostics.hasErrors (ofManifest settings manifest).diagnostics = false) :
    (ofManifest settings manifest).Closed ∧ (ofManifest settings manifest).ReplaysSafely := by
  cases hany : (Registry.ofManifest settings manifest).commands.any CommandDeclaration.isCommand with
  | false =>
    -- Without a command there are no modules.
    have hmodules : walkAll (ofManifest settings manifest).modules = [] := by
      rw [modules, units_eq_nil hany, List.map_nil, walkAll]
    unfold Closed ReplaysSafely
    simp [hmodules]
  | true =>
    have hdelivered := delivered hno hany
    exact ⟨hdelivered.closed, hdelivered.replaysSafely⟩

/-- An argument in a field of text. -/
def textArg (element : SymbolId) (category : ArgCategory) (names : List String) : ArgInput :=
  ⟨element, category, names, none, "1", [], "String", [], none, false, false, .ofCommand, "", none,
    false, false, none, none, none, none, false⟩

/-- A class with an ancestor, a mixin, a group, a subcommand in a method and one in a class. -/
def demoTool : Manifest where
  symbols :=
    .ofList
      [⟨⟨"demo"⟩, "demo", none, [], .package⟩,
        ⟨⟨"demo.Base"⟩, "Base", some ⟨"demo"⟩, [], .classType none none none⟩,
        ⟨⟨"demo.Base.level"⟩, "level", some ⟨"demo.Base"⟩, [], .field "String" false⟩,
        ⟨⟨"demo.Tool"⟩, "Tool", some ⟨"demo"⟩, [], .classType (some ⟨"demo.Base"⟩) none none⟩,
        ⟨⟨"demo.Tool.input"⟩, "input", some ⟨"demo.Tool"⟩, [], .field "String" false⟩,
        ⟨⟨"demo.Tool.limits"⟩, "limits", some ⟨"demo.Tool"⟩, [], .field "demo.Limits" true⟩,
        ⟨⟨"demo.Tool.run"⟩, "run", some ⟨"demo.Tool"⟩, [], .method []⟩,
        ⟨⟨"demo.Help"⟩, "Help", some ⟨"demo"⟩, [], .classType none none none⟩,
        ⟨⟨"demo.Limits"⟩, "Limits", some ⟨"demo"⟩, [], .classType none none none⟩,
        ⟨⟨"demo.Limits.most"⟩, "most", some ⟨"demo.Limits"⟩, [], .field "String" false⟩]
  elements :=
    [{ CommandInput.bare ⟨"demo.Base"⟩ with
        options := [textArg ⟨"demo.Base.level"⟩ .option ["--level"]] },
      { CommandInput.bare ⟨"demo.Tool"⟩ with
        command := some ⟨"tool", ["A tool."]⟩
        subcommands := [⟨"run", ⟨"demo.Tool.run"⟩⟩, ⟨"help", ⟨"demo.Help"⟩⟩]
        mixins := [⟨"base", ⟨"demo.Base"⟩⟩]
        positionals := [textArg ⟨"demo.Tool.input"⟩ .positional []]
        argGroups := [⟨[textArg ⟨"demo.Limits.most"⟩ .option ["--most"]], true, none, none⟩] },
      { CommandInput.bare ⟨"demo.Tool.run"⟩ with command := some ⟨"run", []⟩ },
      { CommandInput.bare ⟨"demo.Help"⟩ with command := some ⟨"help", []⟩ }]

/-- The factories of the tool, of its method and of its help are safe. -/
theorem closed_and_safe_demoTool :
    Diagnostics.hasErrors (ofManifest {} demoTool).diagnostics = false ∧
      (ofManifest {} demoTool).modules.length = 4 ∧
      (ofManifest {} demoTool).Closed ∧ (ofManifest {} demoTool).ReplaysSafely :=
  ⟨by decide +kernel, by decide +kernel, closed_and_safe {} demoTool (by decide +kernel)⟩

end Compilation

end CommandFactory
