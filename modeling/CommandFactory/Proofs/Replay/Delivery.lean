import CommandFactory.Proofs.Replay.Parts
import CommandFactory.Proofs.Replay.Storage
import CommandFactory.Proofs.Replay.Supply

/-!
# Options that sinks deliver

A procedure that gets a sink appends options to it, and the statement that has passed the sink adds what
is there to the specification under way. `Replayer.optionLog` reads off a run which options these are: it
goes through the statements that the run carries out, each with the store where the ones before have
left it, and keeps a log (`OptionLog`) of the specification under way, with logs of what its mixins and
its subcommands have got.

No other statement changes options, so the options of what a factory makes, and of all its parts, are
those of the log, added one after another to none (`ends_createSpec_explained`).
-/

set_option autoImplicit false

namespace CommandFactory

open Replay

/-! ## Logs -/

/-- The options that a specification has got from sinks, in order, and what those of its mixins and of
its subcommands have got. -/
structure OptionLog where
  options : List ArgSpec := []
  mixins : List OptionLog := []
  subcommands : List OptionLog := []

namespace OptionLog

/-- A sink has delivered options. -/
def addOptions (log : OptionLog) (args : List ArgSpec) : OptionLog :=
  { log with options := log.options ++ args }

/-- A mixin has been added. -/
def addMixin (log mixin : OptionLog) : OptionLog := { log with mixins := log.mixins ++ [mixin] }

/-- A subcommand has been added. -/
def addSubcommand (log subcommand : OptionLog) : OptionLog :=
  { log with subcommands := log.subcommands ++ [subcommand] }

theorem addOptions_nil (log : OptionLog) : log.addOptions [] = log := by
  cases log
  rw [addOptions, List.append_nil]

theorem addOptions_append (log : OptionLog) (first second : List ArgSpec) :
    log.addOptions (first ++ second) = (log.addOptions first).addOptions second := by
  simp only [addOptions, List.append_assoc]

/-- The options of the specification are those of the log, added one after another to none, and it is
the same with each of its mixins and subcommands. -/
inductive Explains : OptionLog → CommandSpec → Prop
  | intro {log : OptionLog} {spec : CommandSpec}
      (options : spec.options = (log.options.foldl CommandSpec.addOption {}).options)
      (mixins : List.Forall₂ (fun part named => Explains part named.2) log.mixins spec.mixins)
      (subcommands :
        List.Forall₂ (fun part named => Explains part named.2) log.subcommands spec.subcommands) :
      Explains log spec

namespace Explains

open CommandSpec

variable {log part : OptionLog} {spec made : CommandSpec}

/-- A new specification has nothing yet. -/
theorem blank (spec : CommandSpec) (hoptions : spec.options = []) (hmixins : spec.mixins = [])
    (hsubcommands : spec.subcommands = []) : Explains {} spec := by
  refine .intro hoptions ?_ ?_
  · rw [hmixins]
    exact .nil
  · rw [hsubcommands]
    exact .nil

/-- A change that leaves options, mixins and subcommands does not concern the log. -/
theorem of_same {changed : CommandSpec} (h : log.Explains spec)
    (hoptions : changed.options = spec.options) (hmixins : changed.mixins = spec.mixins)
    (hsubcommands : changed.subcommands = spec.subcommands) : log.Explains changed := by
  obtain ⟨options, mixins, subcommands⟩ := h
  exact .intro (hoptions.trans options) (hmixins ▸ mixins) (hsubcommands ▸ subcommands)

theorem addOption (h : log.Explains spec) (option : ArgSpec) :
    (log.addOptions [option]).Explains (spec.addOption option) := by
  obtain ⟨options, mixins, subcommands⟩ := h
  refine .intro ?_ mixins subcommands
  rw [OptionLog.addOptions, List.foldl_append]
  exact congrArg (placeOption option) options

theorem addMixin (h : log.Explains spec) (hmade : part.Explains made) (name : String) :
    (log.addMixin part).Explains (spec.addMixin name made) := by
  obtain ⟨options, mixins, subcommands⟩ := h
  exact .intro options (List.rel_append mixins (.cons hmade .nil)) subcommands

theorem withSubcommand (h : log.Explains spec) (hmade : part.Explains made) (name : String) :
    (log.addSubcommand part).Explains (spec.withSubcommand name made) := by
  obtain ⟨options, mixins, subcommands⟩ := h
  exact .intro options mixins (List.rel_append subcommands (.cons hmade .nil))

end Explains

end OptionLog

/-- The specification of the frame, if there is one, has got what the log says. -/
def Frame.Explained (frame : Frame) (log : OptionLog) : Prop :=
  ∀ spec, frame.spec = some spec → log.Explains spec

/-! ## What a run delivers -/

/-- What has been delivered to the specification that a call leaves: by procedure, frame, store, and the
log of the specification that the frame has before. -/
abbrev CallLog := ProcedureRef → Frame → Store → OptionLog → OptionLog

namespace Replayer

section Logs

variable (call : Call) (callLog : CallLog) (frame : Frame) (store : Store)

/-- The arguments that a procedure appends for the instance of the frame. -/
def appended (target : ProcedureRef) : List ArgSpec :=
  match (frame.needTarget >>= call.collect target) store with
  | .ok (args, _) => args
  | .error _ => []

/-- The log of a subcommand that its factory makes. -/
def subcommandLog (factory : ProcedureRef) (owner : SubcommandOwner) : OptionLog :=
  match ownerOf frame owner store with
  | .ok (target, after) => callLog factory { target } after {}
  | .error _ => {}

/-- The log of a mixin, which a procedure may configure once its object is in its slot. -/
def mixinLog (name type : String) (target : Option ProcedureRef) : OptionLog :=
  match target, frame.target with
  | some ref, some object =>
      let mixin := (store.new type).1
      callLog ref
        { target := some mixin, spec := some { CommandSpec.wrap mixin none with name } }
        (store.attach object name type) {}
  | _, _ => {}

/-- The log after a statement. A specification that is wrapped is a new one, and one that a procedure
configures has the log that the procedure leaves. -/
def stepLog (log : OptionLog) : Statement → OptionLog
  | .wrapSpec _ => {}
  | .configure target .spec _ =>
      callLog target { target := frame.target, spec := frame.spec } store log
  | .configure target .optionSink _ =>
      log.addOptions (appended call frame store target)
  | .addMixin name type target =>
      log.addMixin (mixinLog callLog frame store name type target)
  | .addSubcommand _ factory owner =>
      log.addSubcommand (subcommandLog callLog frame store factory owner)
  | _ => log

end Logs

/-- The log after statements, each carried out where the ones before have led. -/
def bodyLog (call : Call) (callLog : CallLog) (procedure : Procedure) :
    List Statement → Frame → Store → OptionLog → OptionLog
  | [], _, _, log => log
  | statement :: rest, frame, store, log =>
      match step call procedure frame statement store with
      | .ok (next, after) =>
          bodyLog call callLog procedure rest next after
            (stepLog call callLog frame store log statement)
      | .error _ => log

/-- What a run of a procedure delivers, with at most `levels` calls inside one another. -/
def optionLog (replayer : Replayer) : Nat → CallLog
  | 0, _, _, _, log => log
  | levels + 1, target, frame, store, log =>
      match replayer.procedure? target with
      | some procedure =>
          bodyLog (replayer.run levels) (replayer.optionLog levels) procedure
            (procedure.body.takeWhile fun statement => statement ≠ .returnSpec) frame store log
      | none => log

/-! ## Explained runs -/

open CommandSpec

/-- What a call leaves has got what the log of the call says. -/
def Explained (call : Call) (callLog : CallLog) : Prop :=
  ∀ target frame store log, frame.Explained log →
    (call target frame).Ends store fun next _ => next.Explained (callLog target frame store log)

variable {call : Call} {callLog : CallLog} {procedure : Procedure} {frame : Frame} {store : Store}
  {log : OptionLog} {spec : CommandSpec}

theorem ends_create_explained (h : Explained call callLog) (factory : ProcedureRef)
    (owner : Option ObjectRef) :
    (call.create factory owner).Ends store fun spec _ =>
      (callLog factory { target := owner } store {}).Explains spec := by
  have hstart : ({ target := owner } : Frame).Explained {} := fun _ hspec => nomatch hspec
  refine (h factory _ store {} hstart).bind fun next after hnext => ?_
  exact Ends.orFail.mono fun spec _ hspec => hnext spec hspec.1

theorem ends_configure_explained (h : Explained call callLog) (target : ProcedureRef)
    (hspec : log.Explains spec) (object : ObjectRef) :
    (call.configure target spec object).Ends store fun after _ =>
      (callLog target { target := some object, spec := some spec } store log).Explains after := by
  have hstart : ({ target := some object, spec := some spec } : Frame).Explained log := by
    rintro _ ⟨⟩
    exact hspec
  refine (h target _ store log hstart).bind fun next after hnext => ?_
  exact Ends.orFail.mono fun spec _ hafter => hnext spec hafter.1

theorem ends_changeSpec_explained {change : CommandSpec → CommandSpec} {after : OptionLog}
    (hchange : ∀ spec, frame.spec = some spec → after.Explains (change spec)) :
    (frame.changeSpec change).Ends store fun next _ => next.Explained after := by
  refine Ends.orFail.bind ?_
  rintro spec _ ⟨hspec, rfl⟩
  refine Ends.pure ?_
  rintro _ ⟨⟩
  exact hchange spec hspec

/-- Adding what a sink delivers. -/
theorem ends_addOptions_explained (hframe : frame.Explained log) (args : List ArgSpec) :
    (args.foldlM (fun (frame : Frame) arg => frame.changeSpec fun spec => spec.addOption arg)
      frame).Ends store fun next _ => next.Explained (log.addOptions args) := by
  refine Ends.foldlM (fun done (next : Frame) _ => next.Explained (log.addOptions done)) ?_ ?_
  · rw [OptionLog.addOptions_nil]
    exact hframe
  · intro done arg _ next between hnext
    rw [OptionLog.addOptions_append]
    exact ends_changeSpec_explained fun spec hspec => (hnext spec hspec).addOption arg

/-- A change that leaves options, mixins and subcommands. -/
theorem ends_sameSpec_explained (hframe : frame.Explained log) {change : CommandSpec → CommandSpec}
    (hchange : ∀ spec, (change spec).options = spec.options ∧
      (change spec).mixins = spec.mixins ∧ (change spec).subcommands = spec.subcommands) :
    (frame.changeSpec change).Ends store fun next _ => next.Explained log := by
  refine ends_changeSpec_explained fun spec hspec => ?_
  obtain ⟨hoptions, hmixins, hsubcommands⟩ := hchange spec
  exact (hframe spec hspec).of_same hoptions hmixins hsubcommands

theorem ends_addSubcommand_explained (h : Explained call callLog) (hframe : frame.Explained log)
    (name : String) (factory : ProcedureRef) (owner : SubcommandOwner) :
    (addSubcommand call frame name factory owner).Ends store fun next _ =>
      next.Explained (log.addSubcommand (subcommandLog callLog frame store factory owner)) := by
  rw [addSubcommand_eq]
  refine Ends.self.bind fun target between hgiven => ?_
  have hlog : subcommandLog callLog frame store factory owner =
      callLog factory { target } between {} := by
    rw [subcommandLog, hgiven]
  refine (ends_create_explained h factory target).bind fun sub after hsub => ?_
  refine Ends.orFail.bind ?_
  rintro spec _ ⟨hspec, rfl⟩
  refine Ends.get.bind fun _ _ _ => (Ends.set _).bind fun _ _ _ => Ends.pure ?_
  rintro _ ⟨⟩
  rw [hlog]
  exact (hframe spec hspec).withSubcommand hsub name

theorem ends_addMixin_explained (h : Explained call callLog) (hframe : frame.Explained log)
    (name type : String) (target : Option ProcedureRef) :
    (addMixin call frame name type target).Ends store fun next _ =>
      next.Explained (log.addMixin (mixinLog callLog frame store name type target)) := by
  refine (Ends.newObject type).bind ?_
  rintro mixin _ ⟨rfl, rfl⟩
  refine Ends.orFail.bind ?_
  rintro object _ ⟨hobject, rfl⟩
  -- The new object in its slot makes the store that the log starts the mixin from.
  refine (Ends.setSlot _ _ _).bind ?_
  rintro _ _ rfl
  have hblank : OptionLog.Explains {}
      { CommandSpec.wrap (store.new type).1 none with name } := .blank _ rfl rfl rfl
  cases target with
  | none =>
    exact ends_changeSpec_explained fun spec hspec => (hframe spec hspec).addMixin hblank name
  | some ref =>
    have hlog : mixinLog callLog frame store name type (some ref) =
        callLog ref
          { target := some (store.new type).1
            spec := some { CommandSpec.wrap (store.new type).1 none with name } }
          (store.attach object name type) {} := by
      simp only [mixinLog, hobject]
    rw [hlog]
    refine (ends_configure_explained h ref hblank _).bind fun made _ hmade => ?_
    exact ends_changeSpec_explained fun spec hspec => (hframe spec hspec).addMixin hmade name

theorem ends_configureSpec_explained (h : Explained call callLog) (hframe : frame.Explained log)
    (target : ProcedureRef) :
    (configure call frame target .spec).Ends store fun next _ =>
      next.Explained (callLog target { target := frame.target, spec := frame.spec } store log) := by
  refine Ends.orFail.bind ?_
  rintro object _ ⟨hobject, rfl⟩
  refine Ends.orFail.bind ?_
  rintro spec _ ⟨hspec, rfl⟩
  refine (ends_configure_explained h target (hframe spec hspec) object).bind fun made _ hmade =>
    Ends.pure ?_
  rintro _ ⟨⟩
  rw [hobject, hspec]
  exact hmade

theorem ends_optionSink_explained (hframe : frame.Explained log) (target : ProcedureRef) :
    (configure call frame target .optionSink).Ends store fun next _ =>
      next.Explained (log.addOptions (appended call frame store target)) := by
  -- What is appended is known before the first option is added.
  have hbind : configure call frame target .optionSink =
      (frame.needTarget >>= call.collect target) >>= fun args =>
        args.foldlM (fun (frame : Frame) arg => frame.changeSpec fun spec => spec.addOption arg)
          frame := by
    rw [bind_assoc]
    rfl
  rw [hbind]
  refine Ends.self.bind fun args between hargs => ?_
  have hlog : appended call frame store target = args := by
    rw [appended, hargs]
  rw [hlog]
  exact ends_addOptions_explained hframe args

/-- The arguments of other sinks do not become options. -/
theorem ends_positionalSink_explained (hframe : frame.Explained log) (target : ProcedureRef) :
    (configure call frame target .positionalSink).Ends store fun next _ => next.Explained log := by
  refine Ends.self.bind fun object _ _ => Ends.self.bind fun args _ _ => ?_
  refine Ends.foldlM (fun _ (next : Frame) _ => next.Explained log) hframe ?_
  exact fun _ arg _ next _ hnext => ends_sameSpec_explained hnext fun _ => ⟨rfl, rfl, rfl⟩

/-- A statement leaves a specification that has got what the log says after it. -/
theorem ends_step_explained (h : Explained call callLog) (hframe : frame.Explained log)
    (statement : Statement) :
    (step call procedure frame statement).Ends store fun next _ =>
      next.Explained (stepLog call callLog frame store log statement) := by
  cases statement with
  | newInstance => exact Ends.self.bind fun _ _ _ => Ends.pure hframe
  | resolveMethod name params => exact Ends.pure hframe
  | wrapSpec source =>
    refine Ends.self.bind fun object _ _ => Ends.pure ?_
    rintro _ ⟨⟩
    exact .blank _ rfl rfl rfl
  | setName name => exact ends_sameSpec_explained hframe fun _ => ⟨rfl, rfl, rfl⟩
  | setDescription lines => exact ends_sameSpec_explained hframe fun _ => ⟨rfl, rfl, rfl⟩
  | addSubcommand name factory owner => exact ends_addSubcommand_explained h hframe name factory owner
  | configure target first second =>
    cases first with
    | spec => exact ends_configureSpec_explained h hframe target
    | optionSink => exact ends_optionSink_explained hframe target
    | positionalSink => exact ends_positionalSink_explained hframe target
  | addMixin name type target => exact ends_addMixin_explained h hframe name type target
  | addArg build => exact Ends.self.bind fun _ _ _ => Ends.pure hframe
  | addArgGroup build =>
    refine Ends.self.bind fun owner _ _ => Ends.self.bind fun value _ _ => ?_
    refine Ends.self.bind fun _ _ _ => Ends.self.bind fun options _ _ => ?_
    exact Ends.self.bind fun parameters _ _ =>
      ends_sameSpec_explained hframe fun _ => ⟨rfl, rfl, rfl⟩
  | bindSpec field =>
    exact Ends.self.bind fun _ _ _ => Ends.self.bind fun _ _ _ =>
      Ends.self.bind fun _ _ _ => Ends.pure hframe
  | bindParent field =>
    exact Ends.self.bind fun _ _ _ => ends_sameSpec_explained hframe fun _ => ⟨rfl, rfl, rfl⟩
  | returnSpec => exact Ends.pure hframe

/-- Statements one after the other, by induction on those that are left. -/
theorem ends_body_explained (h : Explained call callLog) (statements : List Statement)
    (hframe : frame.Explained log) :
    (statements.foldlM (step call procedure) frame).Ends store fun next _ =>
      next.Explained (bodyLog call callLog procedure statements frame store log) := by
  induction statements generalizing frame store log with
  | nil => exact Ends.pure hframe
  | cons statement rest ih =>
    -- The log goes on from where the statement has really led.
    have hstep : (step call procedure frame statement).Ends store fun next between =>
        step call procedure frame statement store = .ok (next, between) ∧
          next.Explained (stepLog call callLog frame store log statement) :=
      fun next between hrun => ⟨hrun, ends_step_explained h hframe statement next between hrun⟩
    rw [List.foldlM_cons]
    refine hstep.bind ?_
    rintro next between ⟨hrun, hnext⟩
    rw [bodyLog, hrun]
    exact ih hnext

/-- Runs are explained by their logs, by induction on the calls that may go on inside one another. -/
theorem explained_run (replayer : Replayer) (levels : Nat) :
    Explained (replayer.run levels) (replayer.optionLog levels) := by
  induction levels with
  | zero => exact fun target frame store log _ => Ends.fail
  | succ levels ih =>
    intro target frame store log hframe
    refine Ends.orFail.bind ?_
    rintro procedure _ ⟨hfound, rfl⟩
    rw [optionLog, hfound]
    exact ends_body_explained ih _ hframe

/-- What a factory makes has got, in all its parts, what the log of its run says. -/
theorem ends_createSpec_explained (replayer : Replayer) (factory : ProcedureRef)
    (owner : Option ObjectRef) (store : Store) :
    (replayer.createSpec factory owner).Ends store fun spec _ =>
      (replayer.optionLog maxCalls factory { target := owner } store {}).Explains spec :=
  ends_create_explained (explained_run replayer maxCalls) factory owner

end Replayer

end CommandFactory
