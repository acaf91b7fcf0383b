import CommandFactory.Proofs.Module.Calls
import CommandFactory.Proofs.Module.Delivery
import CommandFactory.Proofs.Replay.Parts
import CommandFactory.Proofs.Replay.Storage

/-!
# Registration of subcommands

Fields that wait for the parent command are recorded on the specification that is configured when they
are bound, and receive the parent when the specification is added to it. `Replayer.Binds` says which
fields of its instance a procedure binds, `Replayer.Connected` what the fields of the subcommands and of
the mixins of a specification hold.

- `Replayer.Moves` is what statements do to the specification of an object and to the store;
- `Replayer.Orderly` says that calls do no more than that, and `KnownBy.orderly_run` that runs of
  generated procedures are orderly, by induction on the calls that may go on inside one another.
-/

set_option autoImplicit false

namespace CommandFactory

open CommandSpec

/-! ## What procedures bind -/

/-- The statements of a procedure up to the one that returns. -/
def Procedure.carriedOut (procedure : Procedure) : List Statement :=
  procedure.body.takeWhile fun statement => statement ≠ .returnSpec

namespace Replayer

/-- A procedure binds a field of its instance to the parent command, by itself or in a procedure that it
has configure the specification. -/
inductive Binds (replayer : Replayer) : ProcedureRef → String → Prop
  | here {target : ProcedureRef} {procedure : Procedure} {field : String}
      (found : replayer.procedure? target = some procedure)
      (bound : .bindParent field ∈ procedure.carriedOut) : Binds replayer target field
  | through {target callee : ProcedureRef} {procedure : Procedure} {second : InstanceArg}
      {field : String} (found : replayer.procedure? target = some procedure)
      (called : .configure callee .spec second ∈ procedure.carriedOut)
      (bound : Binds replayer callee field) : Binds replayer target field

/-- A statement binds a field of the instance to the parent command. -/
def BindsBy (replayer : Replayer) (field : String) : Statement → Prop
  | .bindParent bound => bound = field
  | .configure callee .spec _ => replayer.Binds callee field
  | _ => False

theorem Binds.exists_statement {replayer : Replayer} {target : ProcedureRef} {field : String}
    (h : replayer.Binds target field) :
    ∃ procedure, replayer.procedure? target = some procedure ∧
      ∃ statement ∈ procedure.carriedOut, replayer.BindsBy field statement := by
  cases h with
  | here found bound => exact ⟨_, found, _, bound, rfl⟩
  | through found called bound => exact ⟨_, found, _, called, bound⟩

/-- A run of the factory makes the specification. -/
def Makes (replayer : Replayer) (factory : ProcedureRef) (spec : CommandSpec) : Prop :=
  ∃ levels owner before after,
    (replayer.run levels).create factory owner before = .ok (spec, after)

/-- All fields that the procedure binds are recorded, for the instance of the specification. -/
def Records (replayer : Replayer) (target : ProcedureRef) (spec : CommandSpec) : Prop :=
  ∀ field, replayer.Binds target field →
    ∃ object, spec.target = some object ∧ ⟨object, field⟩ ∈ spec.parentInjections

end Replayer

/-! ## Connected specifications -/

/-- The object of the reference is there, and none of the first ones. -/
def Store.HasFrom (store : Store) (bound : Nat) (ref : ObjectRef) : Prop :=
  bound ≤ ref.index ∧ store.Has ref

/-- The only specification that slots of the object hold is that of the name. -/
def Store.HoldsOnly (store : Store) (ref : ObjectRef) (name : String) : Prop :=
  ∀ field held, store.slot? ref field = some (.spec held) → held = name

/-- A slot that is set may hold the specification of the name, and no other. -/
theorem Store.HoldsOnly.setSlot {store : Store} {ref other : ObjectRef} {name field : String}
    {slot : Slot} (h : store.HoldsOnly ref name) (hhas : store.Has other)
    (hslot : ∀ held, slot = .spec held → held = name) :
    (store.setSlot other field slot).HoldsOnly ref name := by
  intro queried held hheld
  rw [slot?_setSlot hhas] at hheld
  split at hheld
  · exact hslot held (Option.some.inj hheld)
  · exact h queried held hheld

theorem Store.HoldsOnly.attach {store : Store} {ref object : ObjectRef} {name : String}
    (h : store.HoldsOnly ref name) (hhas : store.Has object) (field type : String) :
    (store.attach object field type).HoldsOnly ref name := by
  intro queried held hheld
  rw [slot?_attach hhas] at hheld
  split at hheld
  · cases hheld
  · exact h queried held hheld

namespace Replayer

variable {replayer : Replayer} {store after : Store} {bound : Nat} {spec : CommandSpec}

/-- Each subcommand is made by a factory and records what this binds. The recorded fields of a subcommand
of a class hold the specification; those of a mixin hold at most that of the mixin itself. All of them
are fields of later objects. -/
structure Connected (replayer : Replayer) (store : Store) (bound : Nat) (spec : CommandSpec) :
    Prop where
  made : ∀ named ∈ spec.subcommands,
    ∃ factory, replayer.Makes factory named.2 ∧ replayer.Records factory named.2
  received : ∀ named ∈ spec.subcommands, named.2.method = none →
    ∀ injection ∈ named.2.parentInjections, store.HasFrom bound injection.object ∧
      store.slot? injection.object injection.field = some (.spec spec.name)
  unreceived : ∀ named ∈ spec.mixins, ∀ injection ∈ named.2.parentInjections,
    store.HasFrom bound injection.object ∧ store.HoldsOnly injection.object named.2.name

/-- All parts of the specification are connected. -/
def Settled (replayer : Replayer) (store : Store) (bound : Nat) : CommandSpec → Prop :=
  AllParts (replayer.Connected store bound)

/-- A change of an earlier object leaves the later ones as they are. -/
theorem keeps_later {object ref : ObjectRef} (h : store.HasFrom bound ref)
    (hkeeps : store.Keeps (· = object) after) (hobject : object.index < bound) :
    after.HasFrom bound ref ∧ ∀ name, after.slot? ref name = store.slot? ref name := by
  refine ⟨⟨h.1, hkeeps.has h.2⟩, hkeeps.slots ref h.2 ?_⟩
  rintro rfl
  exact absurd h.1 (Nat.not_le.2 hobject)

theorem Connected.keeps {object : ObjectRef} (h : replayer.Connected store bound spec)
    (hkeeps : store.Keeps (· = object) after) (hobject : object.index < bound) :
    replayer.Connected after bound spec := by
  refine ⟨h.made, fun named hnamed hmethod injection hinjection => ?_,
    fun named hnamed injection hinjection => ?_⟩
  · obtain ⟨hhas, hslot⟩ := h.received named hnamed hmethod injection hinjection
    obtain ⟨hafter, hslots⟩ := keeps_later hhas hkeeps hobject
    exact ⟨hafter, (hslots _).trans hslot⟩
  · obtain ⟨hhas, honly⟩ := h.unreceived named hnamed injection hinjection
    obtain ⟨hafter, hslots⟩ := keeps_later hhas hkeeps hobject
    exact ⟨hafter, fun field held hheld => honly field held ((hslots field).symm.trans hheld)⟩

theorem Connected.lower {lower : Nat} (h : replayer.Connected store bound spec)
    (hle : lower ≤ bound) : replayer.Connected store lower spec := by
  refine ⟨h.made, fun named hnamed hmethod injection hinjection => ?_,
    fun named hnamed injection hinjection => ?_⟩
  · obtain ⟨hhas, hslot⟩ := h.received named hnamed hmethod injection hinjection
    exact ⟨⟨Nat.le_trans hle hhas.1, hhas.2⟩, hslot⟩
  · obtain ⟨hhas, honly⟩ := h.unreceived named hnamed injection hinjection
    exact ⟨⟨Nat.le_trans hle hhas.1, hhas.2⟩, honly⟩

theorem Settled.keeps {object : ObjectRef} (h : replayer.Settled store bound spec)
    (hkeeps : store.Keeps (· = object) after) (hobject : object.index < bound) :
    replayer.Settled after bound spec :=
  fun part hpart => (h part hpart).keeps hkeeps hobject

theorem Settled.lower {lower : Nat} (h : replayer.Settled store bound spec) (hle : lower ≤ bound) :
    replayer.Settled store lower spec :=
  fun part hpart => (h part hpart).lower hle

/-- A specification of the same name that holds the same ones is settled with the other. -/
theorem Settled.of_held {changed : CommandSpec} (h : replayer.Settled store bound spec)
    (hname : changed.name = spec.name) (hmixins : changed.mixins = spec.mixins)
    (hsubcommands : changed.subcommands = spec.subcommands) :
    replayer.Settled store bound changed := by
  obtain ⟨hself, hheld⟩ := allParts_iff.1 h
  rw [← hmixins, ← hsubcommands] at hheld
  refine allParts_iff.2 ⟨⟨?_, ?_, ?_⟩, hheld⟩
  · rw [hsubcommands]
    exact hself.made
  · rw [hsubcommands, hname]
    exact hself.received
  · rw [hmixins]
    exact hself.unreceived

theorem settled_of_alone (hmixins : spec.mixins = []) (hsubcommands : spec.subcommands = []) :
    replayer.Settled store bound spec := by
  refine allParts_iff.2 ⟨⟨?_, ?_, ?_⟩, ?_, ?_⟩ <;> simp [hmixins, hsubcommands]

theorem Settled.addMixin (h : replayer.Settled store bound spec) {mixin : CommandSpec}
    (hmixin : replayer.Settled store bound mixin)
    (hunreceived : ∀ injection ∈ mixin.parentInjections,
      store.HasFrom bound injection.object ∧ store.HoldsOnly injection.object mixin.name)
    (name : String) : replayer.Settled store bound (spec.addMixin name mixin) := by
  obtain ⟨hself, hmixins, hsubcommands⟩ := allParts_iff.1 h
  refine allParts_iff.2 ⟨⟨hself.made, hself.received, ?_⟩, ?_, hsubcommands⟩
  · exact List.forall_mem_append.2 ⟨hself.unreceived, List.forall_mem_singleton.2 hunreceived⟩
  · exact List.forall_mem_append.2 ⟨hmixins, List.forall_mem_singleton.2 hmixin⟩

theorem Settled.withSubcommand (h : replayer.Settled store bound spec) {sub : CommandSpec}
    (hsub : replayer.Settled store bound sub)
    (hmade : ∃ factory, replayer.Makes factory sub ∧ replayer.Records factory sub)
    (hreceived : sub.method = none → ∀ injection ∈ sub.parentInjections,
      store.HasFrom bound injection.object ∧
        store.slot? injection.object injection.field = some (.spec spec.name))
    (name : String) : replayer.Settled store bound (spec.withSubcommand name sub) := by
  obtain ⟨hself, hmixins, hsubcommands⟩ := allParts_iff.1 h
  refine allParts_iff.2 ⟨⟨?_, ?_, hself.unreceived⟩, hmixins, ?_⟩
  · exact List.forall_mem_append.2 ⟨hself.made, List.forall_mem_singleton.2 hmade⟩
  · exact List.forall_mem_append.2 ⟨hself.received, List.forall_mem_singleton.2 hreceived⟩
  · exact List.forall_mem_append.2 ⟨hsubcommands, List.forall_mem_singleton.2 hsub⟩

end Replayer

/-! ## Moves -/

/-- The frame is one of the object and the specification. -/
structure Frame.Stands (frame : Frame) (object : ObjectRef) (spec : CommandSpec) : Prop where
  target : frame.target = some object
  spec : frame.spec = some spec

theorem Frame.Stands.withSpec {frame : Frame} {object : ObjectRef} {spec : CommandSpec}
    (h : frame.Stands object spec) (changed : CommandSpec) :
    ({ frame with spec := some changed } : Frame).Stands object changed := ⟨h.target, rfl⟩

/-- Configures the specification, and does not start it or add subcommands to it. -/
def Statement.configures : Statement → Bool
  | .configure .. => true
  | .addMixin .. => true
  | .addArg _ => true
  | .addArgGroup _ => true
  | .bindSpec _ => true
  | .bindParent _ => true
  | _ => false

namespace Replayer

/-- What statements may do to the specification of an object and to the store: they record fields of the
object, among them all those that they bind, and change no other object that was there. What is in the
specification stays settled, or gets so. -/
structure Moves (replayer : Replayer) (object : ObjectRef) (done : List Statement) (before : Store)
    (spec : CommandSpec) (after : Store) (changed : CommandSpec) : Prop where
  name : changed.name = spec.name
  target : changed.target = spec.target
  method : changed.method = spec.method
  keeps : before.Keeps (· = object) after
  recorded : spec.parentInjections ⊆ changed.parentInjections
  ofObject : ∀ injection ∈ changed.parentInjections,
    injection ∈ spec.parentInjections ∨ injection.object = object
  binds : ∀ statement ∈ done, ∀ field, replayer.BindsBy field statement →
    ⟨object, field⟩ ∈ changed.parentInjections
  settled : ∀ bound, object.index < bound → bound ≤ before.size →
    replayer.Settled before bound spec → replayer.Settled after bound changed
  holdsOnly : (∀ statement ∈ done, statement.configures = true) →
    before.HoldsOnly object spec.name → after.HoldsOnly object spec.name

/-- The frame is one of the object still, with a specification to which the given one moves. -/
def Leaves (replayer : Replayer) (object : ObjectRef) (done : List Statement) (before : Store)
    (spec : CommandSpec) (next : Frame) (after : Store) : Prop :=
  ∃ changed, next.Stands object changed ∧ replayer.Moves object done before spec after changed

namespace Moves

variable {replayer : Replayer} {object : ObjectRef} {done done' : List Statement}
  {before between after : Store} {spec next changed : CommandSpec}

/-- A change of the store alone, of slots of the object. -/
theorem of_keeps (hkeeps : before.Keeps (· = object) after)
    (hholds : before.HoldsOnly object spec.name → after.HoldsOnly object spec.name) :
    replayer.Moves object [] before spec after spec where
  name := rfl
  target := rfl
  method := rfl
  keeps := hkeeps
  recorded := List.Subset.refl _
  ofObject := fun _ hinjection => Or.inl hinjection
  binds := List.forall_mem_nil _
  settled := fun _ hobject _ hsettled => hsettled.keeps hkeeps hobject
  holdsOnly := fun _ => hholds

theorem refl : replayer.Moves object [] before spec before spec :=
  of_keeps (.refl _ _) id

theorem trans (h : replayer.Moves object done before spec between next)
    (h' : replayer.Moves object done' between next after changed) :
    replayer.Moves object (done ++ done') before spec after changed where
  name := h'.name.trans h.name
  target := h'.target.trans h.target
  method := h'.method.trans h.method
  keeps := h.keeps.trans h'.keeps fun _ _ heq => heq
  recorded := List.Subset.trans h.recorded h'.recorded
  ofObject := fun injection hinjection =>
    (h'.ofObject injection hinjection).elim (h.ofObject injection) Or.inr
  binds := by
    intro statement hstatement field hbinds
    rcases List.mem_append.1 hstatement with hdone | hdone'
    · exact h'.recorded (h.binds statement hdone field hbinds)
    · exact h'.binds statement hdone' field hbinds
  settled := fun bound hobject hle hsettled =>
    h'.settled bound hobject (Nat.le_trans hle h.keeps.size) (h.settled bound hobject hle hsettled)
  holdsOnly := by
    intro hconfigures honly
    rw [List.forall_mem_append] at hconfigures
    rw [← h.name]
    refine h'.holdsOnly hconfigures.2 ?_
    rw [h.name]
    exact h.holdsOnly hconfigures.1 honly

/-- The fields of a statement are those that the specification records by now. -/
theorem did {statement : Statement} (h : replayer.Moves object [] before spec after changed)
    (hbinds : ∀ field, replayer.BindsBy field statement →
      ⟨object, field⟩ ∈ changed.parentInjections) :
    replayer.Moves object [statement] before spec after changed :=
  { h with
    binds := List.forall_mem_singleton.2 hbinds
    holdsOnly := fun _ => h.holdsOnly (List.forall_mem_nil _) }

/-- Which configuring statements there were can be left out. -/
theorem forget (h : replayer.Moves object done before spec after changed)
    (hconfigures : ∀ statement ∈ done, statement.configures = true) :
    replayer.Moves object [] before spec after changed :=
  { h with
    binds := List.forall_mem_nil _
    holdsOnly := fun _ => h.holdsOnly hconfigures }

/-- A change of arguments and groups. -/
theorem of_held (hname : changed.name = spec.name) (htarget : changed.target = spec.target)
    (hmethod : changed.method = spec.method)
    (hinjections : changed.parentInjections = spec.parentInjections)
    (hmixins : changed.mixins = spec.mixins)
    (hsubcommands : changed.subcommands = spec.subcommands) :
    replayer.Moves object [] before spec before changed where
  name := hname
  target := htarget
  method := hmethod
  keeps := .refl _ _
  recorded := hinjections ▸ List.Subset.refl _
  ofObject := fun _ hinjection => Or.inl (hinjections ▸ hinjection)
  binds := List.forall_mem_nil _
  settled := fun _ _ _ hsettled => hsettled.of_held hname hmixins hsubcommands
  holdsOnly := fun _ => id

/-- A new field of the object is recorded. -/
theorem addParentInjection (field : String) :
    replayer.Moves object [.bindParent field] before spec before
      (spec.addParentInjection object field) where
  name := rfl
  target := rfl
  method := rfl
  keeps := .refl _ _
  recorded := List.subset_append_left _ _
  ofObject := by
    intro injection hinjection
    refine (List.mem_append.1 hinjection).imp_right fun hnew => ?_
    rw [List.mem_singleton.1 hnew]
  binds := by
    rw [List.forall_mem_singleton]
    rintro _ rfl
    exact List.mem_append_right _ (List.mem_singleton_self _)
  settled := fun _ _ _ hsettled => hsettled.of_held rfl rfl rfl
  holdsOnly := fun _ => id

end Moves

/-! ## Orderly calls -/

/-- What the factory of a specification leaves: the specification of an object, which is the owner or a
new one, with all the fields that the factory binds. -/
structure Made (replayer : Replayer) (factory : ProcedureRef) (owner : Option ObjectRef)
    (object : ObjectRef) (before : Store) (spec : CommandSpec) (after : Store) : Prop where
  target : spec.target = some object
  has : after.Has object
  keeps : before.Keeps (fun ref => owner = some ref) after
  owned : owner = some object ∨ ¬ before.Has object
  new : spec.method = none → ¬ before.Has object
  ofObject : ∀ injection ∈ spec.parentInjections, injection.object = object
  records : replayer.Records factory spec
  settled : ∃ bound, object.index < bound ∧ before.size ≤ bound ∧
    replayer.Settled after bound spec

/-- If the reference leads to a procedure, it is one of an accepted kind. -/
def Leads (replayer : Replayer) (target : ProcedureRef) (accepts : ProcedureKind → Bool) : Prop :=
  ∀ found, replayer.procedure? target = some found → accepts found.kind = true

theorem Leads.mono {replayer : Replayer} {target : ProcedureRef}
    {accepts accepts' : ProcedureKind → Bool} (h : replayer.Leads target accepts)
    (himp : ∀ kind, accepts kind = true → accepts' kind = true) : replayer.Leads target accepts' :=
  fun found hfound => himp _ (h found hfound)

/-- The calls of a statement lead to procedures of the kinds that it is made for. -/
def Fits (replayer : Replayer) : Statement → Prop
  | .addSubcommand _ factory _ => replayer.Leads factory ProcedureKind.isCreate
  | .configure target first _ => replayer.Leads target first.accepts
  | .addMixin _ _ target => ∀ ref, target = some ref → replayer.Leads ref SpecArg.spec.accepts
  | .addArgGroup build =>
      replayer.Leads build.options ProcedureKind.takesSink ∧
        replayer.Leads build.parameters ProcedureKind.takesSink
  | _ => True

/-- Calls that append leave the store, calls that configure move the specification, and calls of
factories make one. -/
structure Orderly (replayer : Replayer) (call : Call) : Prop where
  collects : ∀ {target}, replayer.Leads target ProcedureKind.takesSink → ∀ frame store,
    (call target frame).Ends store fun _ after => after = store
  configures : ∀ {target}, replayer.Leads target SpecArg.spec.accepts →
    ∀ {frame object spec store}, frame.Stands object spec → store.Has object →
      (call target frame).Ends store fun next after =>
        ∃ changed, next.Stands object changed ∧
          replayer.Moves object [] store spec after changed ∧
          ∀ field, replayer.Binds target field → ⟨object, field⟩ ∈ changed.parentInjections
  creates : ∀ {target}, replayer.Leads target ProcedureKind.isCreate →
    ∀ {owner : Option ObjectRef} {store}, (∀ ref, owner = some ref → store.Has ref) →
      (call.create target owner).Ends store fun spec after =>
        replayer.Makes target spec ∧ ∃ object, replayer.Made target owner object store spec after

/-! ## Statements -/

open Replay

variable {replayer : Replayer} {call : Call} {procedure : Procedure} {frame : Frame}
  {object : ObjectRef} {spec : CommandSpec} {store : Store}

theorem Orderly.ends_collect (h : replayer.Orderly call) {target : ProcedureRef}
    (hleads : replayer.Leads target ProcedureKind.takesSink) (object : ObjectRef) (store : Store) :
    (call.collect target object).Ends store fun _ after => after = store :=
  (h.collects hleads _ store).bind fun _ _ hafter => Ends.pure hafter

theorem Orderly.ends_configure (h : replayer.Orderly call) {target : ProcedureRef}
    (hleads : replayer.Leads target SpecArg.spec.accepts) (spec : CommandSpec)
    (hhas : store.Has object) :
    (call.configure target spec object).Ends store fun changed after =>
      replayer.Moves object [] store spec after changed ∧
        ∀ field, replayer.Binds target field → ⟨object, field⟩ ∈ changed.parentInjections := by
  have hstart : ({ target := some object, spec := some spec } : Frame).Stands object spec :=
    ⟨rfl, rfl⟩
  refine (h.configures hleads hstart hhas).bind ?_
  rintro next between ⟨changed, hnext, hmoves, hbinds⟩
  refine Ends.orFail.mono ?_
  rintro found _ ⟨hfound, rfl⟩
  obtain rfl := Option.some.inj (hnext.spec.symm.trans hfound)
  exact ⟨hmoves, hbinds⟩

/-- The arguments that a procedure appends are added one after another. Nothing is bound by that. -/
theorem Orderly.ends_sink (h : replayer.Orderly call) {target : ProcedureRef}
    (hleads : replayer.Leads target ProcedureKind.takesSink)
    {add : CommandSpec → ArgSpec → CommandSpec}
    (hadd : ∀ spec arg, replayer.Moves object [] store spec store (add spec arg))
    {statement : Statement} (hnone : ∀ field, ¬ replayer.BindsBy field statement)
    (hframe : frame.Stands object spec) :
    (do
      let args ← call.collect target object
      args.foldlM (fun (frame : Frame) arg => frame.changeSpec fun spec => add spec arg)
        frame : Replay Frame).Ends store (replayer.Leaves object [statement] store spec) := by
  refine (h.ends_collect hleads object store).bind ?_
  rintro args store rfl
  -- No addition touches the store, so the specification alone moves from one to the next.
  refine (Ends.foldlM (fun _ next after => after = store ∧
    replayer.Leaves object [] store spec next after) ⟨rfl, spec, hframe, .refl⟩ ?_).mono ?_
  · rintro - arg - next store ⟨rfl, found, hfound, hmoves⟩
    refine (Ends.changeSpec hfound.spec _).mono ?_
    rintro _ store ⟨rfl, rfl⟩
    exact ⟨rfl, _, hfound.withSpec _, hmoves.trans (hadd found arg)⟩
  · rintro next after ⟨-, changed, hnext, hmoves⟩
    exact ⟨changed, hnext, hmoves.did fun field hbinds => absurd hbinds (hnone field)⟩

theorem Orderly.ends_step_configure (h : replayer.Orderly call) {target : ProcedureRef}
    {first : SpecArg} {second : InstanceArg} (hleads : replayer.Leads target first.accepts)
    (hframe : frame.Stands object spec) (hhas : store.Has object) :
    (step call procedure frame (.configure target first second)).Ends store
      (replayer.Leaves object [.configure target first second] store spec) := by
  refine (Ends.needTarget hframe.target).bind ?_
  rintro object store ⟨rfl, rfl⟩
  cases first with
  | spec =>
    refine (Ends.needSpec hframe.spec).bind ?_
    rintro _ _ ⟨rfl, rfl⟩
    refine (h.ends_configure hleads _ hhas).bind ?_
    rintro changed after ⟨hmoves, hbinds⟩
    exact Ends.pure ⟨changed, hframe.withSpec changed, hmoves.did hbinds⟩
  | optionSink =>
    have hadd : ∀ (spec : CommandSpec) (arg : ArgSpec),
        replayer.Moves object [] store spec store (spec.addOption arg) :=
      fun _ _ => .of_held rfl rfl rfl rfl rfl rfl
    refine h.ends_sink (hleads.mono fun kind hkind => ?_) hadd (fun _ => id) hframe
    rw [of_decide_eq_true hkind, ProcedureKind.takesSink]
  | positionalSink =>
    have hadd : ∀ (spec : CommandSpec) (arg : ArgSpec),
        replayer.Moves object [] store spec store (spec.addPositional arg) :=
      fun _ _ => .of_held rfl rfl rfl rfl rfl rfl
    refine h.ends_sink (hleads.mono fun kind hkind => ?_) hadd (fun _ => id) hframe
    rw [of_decide_eq_true hkind, ProcedureKind.takesSink]

/-- A mixin that was configured on its own is added. Nothing that it recorded is resolved. -/
theorem Moves.addMixin {name type : String} {target : Option ProcedureRef} {after : Store}
    {made : CommandSpec} (hhas : store.Has object)
    (h : replayer.Moves (store.new type).1 [] (store.attach object name type)
      { CommandSpec.wrap (store.new type).1 none with name } after made) :
    replayer.Moves object [.addMixin name type target] store spec after
      (spec.addMixin name made) := by
  have hattached := Store.Keeps.attach store object name type
  have hkeeps : store.Keeps (· = object) after := by
    refine hattached.trans h.keeps ?_
    rintro _ hold rfl
    exact absurd hold (store.not_has_new type)
  have hother : object ≠ (store.new type).1 := fun heq => store.not_has_new type (heq ▸ hhas)
  -- The object of the mixin is new and has no slots before the mixin is configured.
  have hempty : (store.attach object name type).HoldsOnly (store.new type).1 name := by
    refine Store.HoldsOnly.attach (fun field held hheld => ?_) hhas name type
    rw [Store.slot?_of_not_has (store.not_has_new type)] at hheld
    cases hheld
  have hmixin : after.Has (store.new type).1 := h.keeps.has (store.has_attach object name type)
  have hname : made.name = name := h.name
  refine ⟨rfl, rfl, rfl, hkeeps, List.Subset.refl _, fun _ hinjection => Or.inl hinjection,
    List.forall_mem_singleton.2 fun _ hbinds => hbinds.elim, ?_, fun _ honly => ?_⟩
  · intro bound hobject hle hsettled
    -- What is in the mixin has later objects than the mixin, and this is later than all before.
    have hmade : replayer.Settled after bound made := by
      refine (h.settled (store.size + 1) (Nat.lt_succ_self _) ?_
        (settled_of_alone rfl rfl)).lower (Nat.le_succ_of_le hle)
      rw [Store.size_attach]
    refine (hsettled.keeps hkeeps hobject).addMixin hmade (fun injection hinjection => ?_) name
    have hof : injection.object = (store.new type).1 :=
      (h.ofObject injection hinjection).resolve_left List.not_mem_nil
    rw [hof, hname]
    exact ⟨⟨hle, hmixin⟩, h.holdsOnly (List.forall_mem_nil _) hempty⟩
  · intro field held hheld
    rw [h.keeps.slots object (hattached.has hhas) hother] at hheld
    exact honly.attach hhas name type field held hheld

theorem Orderly.ends_step_addMixin (h : replayer.Orderly call) {name type : String}
    {target : Option ProcedureRef}
    (hleads : ∀ ref, target = some ref → replayer.Leads ref SpecArg.spec.accepts)
    (hframe : frame.Stands object spec) (hhas : store.Has object) :
    (step call procedure frame (.addMixin name type target)).Ends store
      (replayer.Leaves object [.addMixin name type target] store spec) := by
  have hadd : ∀ {made : CommandSpec} {between : Store},
      replayer.Moves (store.new type).1 [] (store.attach object name type)
        { CommandSpec.wrap (store.new type).1 none with name } between made →
      (frame.changeSpec fun owner => owner.addMixin name made).Ends between
        (replayer.Leaves object [.addMixin name type target] store spec) := by
    intro made between hmoves
    refine (Ends.changeSpec hframe.spec _).mono ?_
    rintro _ _ ⟨rfl, rfl⟩
    exact ⟨_, hframe.withSpec _, hmoves.addMixin hhas⟩
  refine (Ends.newObject type).bind ?_
  rintro _ _ ⟨rfl, rfl⟩
  refine (Ends.needTarget hframe.target).bind ?_
  rintro object store ⟨rfl, rfl⟩
  refine (Ends.setSlot _ _ _).bind ?_
  rintro _ _ rfl
  cases target with
  | none => exact hadd .refl
  | some ref =>
    refine (h.ends_configure (hleads ref rfl) _ (store.has_attach object name type)).bind ?_
    rintro made after ⟨hmoves, -⟩
    exact hadd hmoves

/-- The object of a group is put into its field, and a group is added. -/
theorem Orderly.ends_addGroup (h : replayer.Orderly call) {build : GroupBuild}
    (hleads : replayer.Leads build.options ProcedureKind.takesSink ∧
      replayer.Leads build.parameters ProcedureKind.takesSink)
    (hframe : frame.Stands object spec) :
    (step call procedure frame (.addArgGroup build)).Ends store fun next after =>
      (∃ made, next.Stands object (spec.addGroup made)) ∧
        after = store.attach object build.field build.groupType := by
  refine (Ends.needTarget hframe.target).bind ?_
  rintro object store ⟨rfl, rfl⟩
  refine (Ends.newObject _).bind ?_
  rintro _ _ ⟨rfl, rfl⟩
  refine (Ends.setSlot _ _ _).bind ?_
  rintro _ _ rfl
  refine (h.ends_collect hleads.1 _ _).bind ?_
  rintro options _ rfl
  refine (h.ends_collect hleads.2 _ _).bind ?_
  rintro parameters _ rfl
  refine (Ends.changeSpec hframe.spec _).mono ?_
  rintro _ _ ⟨rfl, rfl⟩
  exact ⟨⟨_, hframe.withSpec _⟩, rfl⟩

theorem Orderly.ends_step_addArgGroup (h : replayer.Orderly call) {build : GroupBuild}
    (hleads : replayer.Leads build.options ProcedureKind.takesSink ∧
      replayer.Leads build.parameters ProcedureKind.takesSink)
    (hframe : frame.Stands object spec) (hhas : store.Has object) :
    (step call procedure frame (.addArgGroup build)).Ends store
      (replayer.Leaves object [.addArgGroup build] store spec) := by
  refine (h.ends_addGroup hleads hframe).mono ?_
  rintro next _ ⟨⟨made, hnext⟩, rfl⟩
  have hattached : replayer.Moves object [] store spec
      (store.attach object build.field build.groupType) spec :=
    .of_keeps (.attach ..) fun honly => honly.attach hhas _ _
  refine ⟨_, hnext, Moves.did ?_ fun _ hbinds => hbinds.elim⟩
  exact hattached.trans (.of_held rfl rfl rfl rfl rfl rfl)

/-- Every statement that configures moves the specification. -/
theorem Orderly.ends_step (h : replayer.Orderly call) {statement : Statement}
    (hconfigures : statement.configures = true) (hfits : replayer.Fits statement)
    (hframe : frame.Stands object spec) (hhas : store.Has object) :
    (step call procedure frame statement).Ends store
      (replayer.Leaves object [statement] store spec) := by
  cases statement with
  | configure target first second => exact h.ends_step_configure hfits hframe hhas
  | addMixin name type target => exact h.ends_step_addMixin hfits hframe hhas
  | addArgGroup build => exact h.ends_step_addArgGroup hfits hframe hhas
  | addArg build =>
    refine (Ends.needTarget hframe.target).bind ?_
    rintro object store ⟨rfl, rfl⟩
    exact Ends.pure ⟨spec, ⟨hframe.target, hframe.spec⟩, Moves.refl.did fun _ hbinds => hbinds.elim⟩
  | bindSpec field =>
    refine (Ends.needSpec hframe.spec).bind ?_
    rintro _ _ ⟨rfl, rfl⟩
    refine (Ends.needTarget hframe.target).bind ?_
    rintro object store ⟨rfl, rfl⟩
    refine (Ends.setSlot _ _ _).bind ?_
    rintro _ _ rfl
    refine Ends.pure ⟨_, hframe, Moves.did (.of_keeps (.setSlot ..) fun honly => ?_)
      fun _ hbinds => hbinds.elim⟩
    exact honly.setSlot hhas fun held heq => (Slot.spec.inj heq).symm
  | bindParent field =>
    refine (Ends.needTarget hframe.target).bind ?_
    rintro object store ⟨rfl, rfl⟩
    refine (Ends.changeSpec hframe.spec _).mono ?_
    rintro _ _ ⟨rfl, rfl⟩
    exact ⟨_, hframe.withSpec _, .addParentInjection field⟩
  | newInstance | resolveMethod | wrapSpec | setName | setDescription | addSubcommand |
    returnSpec => cases hconfigures

/-- If each statement moves the specification, all of them do one after another. -/
theorem ends_statements {statements : List Statement}
    (hsteps : ∀ statement ∈ statements, ∀ {frame : Frame} {spec : CommandSpec} {store : Store},
      frame.Stands object spec → store.Has object →
        (step call procedure frame statement).Ends store
          (replayer.Leaves object [statement] store spec))
    (hframe : frame.Stands object spec) (hhas : store.Has object) :
    (statements.foldlM (step call procedure) frame).Ends store
      (replayer.Leaves object statements store spec) := by
  refine Ends.foldlM (fun done next after => replayer.Leaves object done store spec next after)
    ⟨spec, hframe, .refl⟩ ?_
  rintro done statement hstatement next between ⟨found, hfound, hmoves⟩
  refine (hsteps statement hstatement hfound (hmoves.keeps.has hhas)).mono ?_
  rintro last after ⟨changed, hchanged, hmoves'⟩
  exact ⟨changed, hchanged, hmoves.trans hmoves'⟩

end Replayer

end CommandFactory
