import CommandFactory.Proofs.Registry.GroupFields
import CommandFactory.Proofs.Replay.Arguments
import CommandFactory.Proofs.Replay.Correctness
import CommandFactory.Proofs.Replay.ParentFields

/-!
# Groups in their fields

The procedure for the groups of a declaration makes an object for each group and puts it into the field
of the group. If the fields are pairwise different, each of them holds its object when the procedure
returns (`Store.Furnishes`).

A specification gets its groups from the configurations that the call of a factory carries out, one
inside another: that of the ancestor first (`Replayer.Configures`). If the call returns, these are
configurations of different declarations, whatever paths modules have, so a specification has each
entry of a declaration at most once (`Compilation.groups_bound_once`).
-/

set_option autoImplicit false

namespace CommandFactory

/-! ## The fields of an object -/

/-- New objects have been put into fields of the object, one into each in order, and nothing else has
changed. -/
structure Store.Furnishes (before : Store) (object : ObjectRef) (fields : List String)
    (after : Store) : Prop where
  size : after.size = before.size + fields.length
  held : ∀ i field, fields[i]? = some field →
    after.slot? object field = some (.object ⟨before.size + i⟩)
  others : ∀ ref name, ¬ (ref = object ∧ name ∈ fields) →
    after.slot? ref name = before.slot? ref name

theorem Store.Furnishes.nil (store : Store) (object : ObjectRef) : store.Furnishes object [] store :=
  ⟨rfl, by simp, fun _ _ _ => rfl⟩

/-- What is put into other fields later leaves the object in a field as it is. -/
theorem Store.Furnishes.cons {before after : Store} {object : ObjectRef} {field type : String}
    {fields : List String} (hhas : before.Has object) (hnew : field ∉ fields)
    (h : (before.attach object field type).Furnishes object fields after) :
    before.Furnishes object (field :: fields) after := by
  have hsize := h.size
  rw [size_attach] at hsize
  constructor
  case size =>
    rw [hsize, List.length_cons]
    omega
  case held =>
    intro i name hname
    cases i with
    | zero =>
      obtain rfl : field = name := Option.some.inj hname
      rw [h.others object field fun hmem => hnew hmem.2, slot?_attach hhas, if_pos ⟨rfl, rfl⟩]
      rfl
    | succ i =>
      rw [h.held i name hname, size_attach, Nat.add_right_comm, Nat.add_assoc]
  case others =>
    intro ref name hother
    rw [List.mem_cons] at hother
    rw [h.others ref name fun hmem => hother ⟨hmem.1, Or.inr hmem.2⟩, slot?_attach hhas,
      if_neg fun hsame => hother ⟨hsame.1.symm, Or.inl hsame.2.symm⟩]

namespace Replayer

open Replay CommandSpec

variable {replayer : Replayer} {registry : Registry} {call : Call} {procedure : Procedure}
  {frame : Frame} {object : ObjectRef} {spec : CommandSpec} {store : Store} {d : CommandDeclaration}

/-- The statements for groups put a new object into the field of each group whose type has a
declaration. -/
theorem KnownBy.ends_groups (h : replayer.KnownBy registry) (hcall : replayer.Orderly call)
    {groups : List ArgGroupDeclaration} (index : Nat) (hframe : frame.Stands object spec)
    (hhas : store.Has object)
    (hdistinct : ((registry.heldGroups groups).map ArgGroupDeclaration.field).Nodup) :
    ((registry.plan.groups d index groups).value.foldlM (step call procedure) frame).Ends store
      fun _ after => store.Furnishes object
        ((registry.heldGroups groups).map ArgGroupDeclaration.field) after := by
  induction groups generalizing index frame spec store with
  | nil => exact Ends.pure (.nil store object)
  | cons group rest ih =>
    have hplan : registry.plan.registry.command? group.groupType =
        registry.command? group.groupType := rfl
    rw [Plan.groups, hplan]
    cases hholder : registry.command? group.groupType with
    | none =>
      rw [Registry.heldGroups_cons_of_none rest hholder] at hdistinct ⊢
      exact ih (index + 1) hframe hhas hdistinct
    | some holder =>
      rw [Registry.heldGroups_cons_of_some rest hholder, List.map_cons] at hdistinct ⊢
      rw [List.nodup_cons] at hdistinct
      simp only [List.foldlM_cons]
      have hleads : ∀ {kind : ProcedureKind}, kind.isCreate = false → kind.takesSink = true →
          replayer.Leads (registry.plan.reference holder kind) ProcedureKind.takesSink :=
        fun hcreate hsink => h.leads_of_not_isCreate hcreate hsink
      refine (hcall.ends_addGroup ⟨hleads rfl rfl, hleads rfl rfl⟩ hframe).bind ?_
      rintro next _ ⟨⟨made, hnext⟩, rfl⟩
      refine (ih (index + 1) hnext ((Store.Keeps.attach ..).has hhas) hdistinct.2).mono ?_
      intro _ after hafter
      exact hafter.cons hhas hdistinct.1

/-! ## What configurations add -/

end Replayer

/-- The group has the settings of its entry. -/
structure ArgGroupDeclaration.Shapes (entry : ArgGroupDeclaration) (made : GroupSpec) : Prop where
  exclusive : made.exclusive = entry.exclusive
  multiplicity : made.multiplicity = entry.multiplicity
  heading : made.heading = entry.heading

/-- The entries of a declaration whose types have declarations, with the declaration. -/
def Registry.entriesOf (registry : Registry) (d : CommandDeclaration) :
    List (CommandDeclaration × ArgGroupDeclaration) :=
  (registry.heldGroups d.argGroups).map fun entry => (d, entry)

/-- The specification has gained a group for each of the entries, in order. -/
def CommandSpec.Gains (before : CommandSpec)
    (entries : List (CommandDeclaration × ArgGroupDeclaration)) (after : CommandSpec) : Prop :=
  ∃ own, after.groups = before.groups ++ own ∧
    List.Forall₂ (fun entry made => entry.2.Shapes made) entries own

namespace CommandSpec.Gains

variable {before between after : CommandSpec}
  {entries entries' : List (CommandDeclaration × ArgGroupDeclaration)}

theorem of_groups_eq (h : after.groups = before.groups) : before.Gains [] after :=
  ⟨[], by rw [h, List.append_nil], .nil⟩

theorem trans (h : before.Gains entries between) (h' : between.Gains entries' after) :
    before.Gains (entries ++ entries') after := by
  obtain ⟨own, hown, hshapes⟩ := h
  obtain ⟨own', hown', hshapes'⟩ := h'
  exact ⟨own ++ own', by rw [hown', hown, List.append_assoc], List.rel_append hshapes hshapes'⟩

end CommandSpec.Gains

namespace Replayer

open Replay CommandSpec

variable {replayer : Replayer} {registry : Registry} {call : Call} {procedure : Procedure}
  {d : CommandDeclaration} {levels : Nat}

/-- Whatever the procedures of the holders append, a group is added for each entry. -/
theorem changes_entriesOf (call : Call) (procedure : Procedure) (d : CommandDeclaration) :
    Changes
      (fun frame => (registry.plan.work d .configureArgGroups).foldlM (step call procedure) frame)
      fun _ before after => before.Gains (registry.entriesOf d) after := by
  have hany : ∀ (target : ProcedureRef) (object : ObjectRef),
      (call.collect target object).Gives fun _ => True := fun _ _ => Gives.trivial _
  have hadds : ∀ entry statement, registry.AddsGroup entry statement →
      Changes (fun frame => step call procedure frame statement)
        fun _ before after => ∃ made, entry.Shapes made ∧ after = before.addGroup made := by
    rintro entry _ ⟨_, _, build, rfl, hcalls, -, -⟩
    refine (changes_addGroup procedure hcalls (hany _) (hany _)).mono ?_
    rintro _ before _ ⟨object, first, second, -, -, rfl⟩
    exact ⟨_, ⟨rfl, rfl, rfl⟩, rfl⟩
  refine (changes_groups hadds (registry.forall₂_heldGroups d 0 d.argGroups)).mono ?_
  rintro _ before after ⟨-, -, own, hown, hshapes⟩
  exact ⟨own, hown, List.forall₂_map_left_iff.2 hshapes⟩

/-- Arguments that are added do not touch the groups. -/
theorem changes_sink_groups (target : ProcedureRef) {add : CommandSpec → ArgSpec → CommandSpec}
    (hadd : ∀ spec arg, (add spec arg).groups = spec.groups) :
    Changes
      (fun frame => do
        let object ← frame.needTarget
        let args ← call.collect target object
        args.foldlM (fun frame arg => frame.changeSpec fun spec => add spec arg) frame)
      fun _ before after => after.groups = before.groups := by
  intro frame object before htarget hspec
  refine (Meets.needTarget htarget).bind fun _ _ => ?_
  refine (Gives.trivial _).bind fun args _ => ?_
  have hadded : Changes
      (fun frame => args.foldlM (fun frame arg => frame.changeSpec fun spec => add spec arg) frame)
      fun _ before after => after.groups = before.groups := by
    refine (Changes.addAll add args).mono ?_
    rintro - before _ rfl
    induction args generalizing before with
    | nil => rfl
    | cons arg rest ih => rw [List.foldl_cons, ih, hadd]
  exact hadded frame object before htarget hspec

/-! ### Calls -/

namespace KnownBy

/-- A call of a procedure goes too deep, finds none, or does what the procedure of the kind of some
declaration does with one call fewer. -/
theorem changes_run (h : replayer.KnownBy registry) {kind : ProcedureKind}
    (hcreate : kind.isCreate = false) {rel : ObjectRef → CommandSpec → CommandSpec → Prop}
    (hwork : ∀ e ∈ registry.plan.kept,
      replayer.procedure? (registry.plan.reference d kind) = some (registry.plan.procedureOf e kind) →
        ∀ fewer, levels = fewer + 1 → Changes
          (fun frame => (registry.plan.work e kind).foldlM
            (step (replayer.run fewer) (registry.plan.procedureOf e kind)) frame) rel) :
    Changes (replayer.run levels (registry.plan.reference d kind)) rel := by
  intro frame object before htarget hspec
  refine gives_run fun fewer procedure hlevels hfound => ?_
  have hkind : replayer.Leads (registry.plan.reference d kind) fun found => found = kind :=
    h.leads_of_not_isCreate hcreate (decide_eq_true rfl)
  obtain ⟨e, he, found, -, -, rfl⟩ := h _ _ (mem_of_procedure? hfound)
  obtain rfl : found = kind := of_decide_eq_true (hkind _ hfound)
  rw [Registry.takeWhile_procedureOf]
  exact hwork e he hfound fewer hlevels frame object before htarget hspec

/-- Mixins and injected fields keep the groups. -/
theorem changes_keepsGroups (h : replayer.KnownBy registry) {kind : ProcedureKind}
    (hkind : kind ∈ [.configureMixins, .configureSpecs, .configureParentCommands,
      .configureUnmatcheds]) :
    Changes (replayer.run levels (registry.plan.reference d kind))
      fun _ before after => after.groups = before.groups := by
  refine h.changes_run (not_isCreate_of_mem hkind) fun e _ _ fewer _ => ?_
  exact (changes_work_keepsArgs hkind).mono fun _ _ _ hkeeps => hkeeps.groups

/-- The procedure for groups adds those of the declaration that it is found to be of. -/
theorem changes_argGroups (h : replayer.KnownBy registry) :
    Changes (replayer.run levels (registry.plan.reference d .configureArgGroups))
      fun _ before after => ∃ e ∈ registry.plan.kept,
        replayer.procedure? (registry.plan.reference d .configureArgGroups) =
            some (registry.plan.procedureOf e .configureArgGroups) ∧
          before.Gains (registry.entriesOf e) after := by
  refine h.changes_run rfl fun e he hfound fewer _ => ?_
  refine (changes_entriesOf _ _ e).mono fun _ before after hgains => ?_
  exact ⟨e, he, hfound, hgains⟩

end KnownBy

/-- The configurations that a call of the reference carries out, each inside the next, from that of the
topmost ancestor to that of the reference: each with its reference and the declaration whose groups it
adds. Where modules share a path this need not be the declaration that the reference was made for. -/
inductive Configures (replayer : Replayer) (registry : Registry) :
    List (ProcedureRef × CommandDeclaration) → ProcedureRef → Prop
  | alone {target : ProcedureRef} {d e : CommandDeclaration} (kept : d ∈ registry.plan.kept)
      (found : replayer.procedure? target = some (registry.plan.procedureOf d .configureAll))
      (top : d.superCommand.bind registry.command? = none) (adds : e ∈ registry.plan.kept)
      (groups : replayer.procedure? (registry.plan.reference d .configureArgGroups) =
        some (registry.plan.procedureOf e .configureArgGroups)) :
      Configures replayer registry [(target, e)] target
  | under {line : List (ProcedureRef × CommandDeclaration)} {target : ProcedureRef}
      {ancestor d e : CommandDeclaration}
      (above : Configures replayer registry line (registry.plan.reference ancestor .configureAll))
      (kept : d ∈ registry.plan.kept)
      (found : replayer.procedure? target = some (registry.plan.procedureOf d .configureAll))
      (link : d.superCommand.bind registry.command? = some ancestor)
      (adds : e ∈ registry.plan.kept)
      (groups : replayer.procedure? (registry.plan.reference d .configureArgGroups) =
        some (registry.plan.procedureOf e .configureArgGroups)) :
      Configures replayer registry (line ++ [(target, e)]) target

/-- The entries of all declarations of a line, in order. -/
def entriesAlong (registry : Registry) (line : List (ProcedureRef × CommandDeclaration)) :
    List (CommandDeclaration × ArgGroupDeclaration) :=
  line.flatMap fun called => registry.entriesOf called.2

namespace KnownBy

/-- The parts of a configuration add the groups of one declaration. -/
theorem changes_partsGroups (h : replayer.KnownBy registry) (procedure : Procedure) :
    Changes
      (fun frame => (Plan.parts.map fun part =>
          Statement.configure (registry.plan.reference d part.1) part.2 .this).foldlM
        (step (replayer.run levels) procedure) frame)
      fun _ before after => ∃ e ∈ registry.plan.kept,
        replayer.procedure? (registry.plan.reference d .configureArgGroups) =
            some (registry.plan.procedureOf e .configureArgGroups) ∧
          before.Gains (registry.entriesOf e) after := by
  have hkeeps : ∀ kind ∈ [.configureMixins, .configureSpecs, .configureParentCommands,
      ProcedureKind.configureUnmatcheds],
      Changes (fun frame => step (replayer.run levels) procedure frame
        (.configure (registry.plan.reference d kind) .spec .this))
        fun _ before after => after.groups = before.groups :=
    fun kind hkind => changes_configure (h.changes_keepsGroups hkind) _
  have hoptions : Changes (fun frame => step (replayer.run levels) procedure frame
      (.configure (registry.plan.reference d .configureOptions) .optionSink .this))
      fun _ before after => after.groups = before.groups := changes_sink_groups _ fun _ _ => rfl
  have hpositionals : Changes (fun frame => step (replayer.run levels) procedure frame
      (.configure (registry.plan.reference d .configureParameters) .positionalSink .this))
      fun _ before after => after.groups = before.groups := changes_sink_groups _ fun _ _ => rfl
  have hgroups : Changes (fun frame => step (replayer.run levels) procedure frame
      (.configure (registry.plan.reference d .configureArgGroups) .spec .this)) _ :=
    changes_configure h.changes_argGroups _
  simp only [Plan.parts, List.map_cons, List.map_nil, List.foldlM_cons, List.foldlM_nil, bind_pure]
  refine Changes.mono ((hkeeps .configureMixins (by simp)).bind (Changes.bind hoptions
    (Changes.bind hpositionals (hgroups.bind ((hkeeps .configureSpecs (by simp)).bind
    ((hkeeps .configureParentCommands (by simp)).bind
    (hkeeps .configureUnmatcheds (by simp)))))))) ?_
  rintro _ before after ⟨mixed, hmixed, optioned, hoptioned, placed, hplaced, grouped,
    ⟨e, he, hfound, hgains⟩, specs, hspecs, parents, hparents, hafter⟩
  have hbefore : before.Gains [] placed :=
    .of_groups_eq (hplaced.trans (hoptioned.trans hmixed))
  have hlast : grouped.Gains [] after := .of_groups_eq (hafter.trans (hparents.trans hspecs))
  refine ⟨e, he, hfound, ?_⟩
  have hall := (hbefore.trans hgains).trans hlast
  rwa [List.nil_append, List.append_nil] at hall

/-- A configuration adds the groups of its line. -/
theorem changes_lineGroups (h : replayer.KnownBy registry) (levels : Nat)
    (d : CommandDeclaration) :
    Changes (replayer.run levels (registry.plan.reference d .configureAll))
      fun _ before after => ∃ line,
        replayer.Configures registry line (registry.plan.reference d .configureAll) ∧
          before.Gains (entriesAlong registry line) after := by
  induction levels generalizing d with
  | zero => exact fun _ _ _ _ _ => Meets.fail trivial
  | succ levels ih =>
    refine h.changes_run rfl fun e he hfound fewer hfewer => ?_
    obtain rfl : levels = fewer := Nat.succ.inj hfewer
    have hwork : registry.plan.work e .configureAll = registry.plan.inheriting e ++
        Plan.parts.map fun part =>
          .configure (registry.plan.reference e part.1) part.2 .this := rfl
    rw [hwork, Plan.inheriting]
    have hplan : e.superCommand.bind registry.plan.registry.command? =
        e.superCommand.bind registry.command? := rfl
    rw [hplan]
    cases hbase : e.superCommand.bind registry.command? with
    | none =>
      simp only [List.nil_append]
      refine (h.changes_partsGroups _).mono ?_
      rintro _ before after ⟨adder, hadder, hgroups, hgains⟩
      refine ⟨_, .alone he hfound hbase hadder hgroups, ?_⟩
      rwa [entriesAlong, List.flatMap_singleton]
    | some ancestor =>
      simp only [List.foldlM_append, List.foldlM_cons, List.foldlM_nil, bind_pure]
      refine ((changes_configure (ih ancestor) _).bind (h.changes_partsGroups _)).mono ?_
      rintro _ before after ⟨between, ⟨line, hline, habove⟩, adder, hadder, hgroups, hgains⟩
      refine ⟨_, .under hline he hfound hbase hadder hgroups, ?_⟩
      rw [entriesAlong, List.flatMap_append, List.flatMap_singleton]
      exact habove.trans hgains

end KnownBy

/-! ### No configuration twice -/

theorem eq_of_procedureOf_eq {d e : CommandDeclaration} {kind kind' : ProcedureKind}
    (hd : d ∈ registry.plan.kept) (he : e ∈ registry.plan.kept)
    (h : registry.plan.procedureOf d kind = registry.plan.procedureOf e kind') :
    d = e ∧ kind = kind' :=
  ⟨Registry.eq_of_id_eq (Registry.mem_kept.1 hd).1 (Registry.mem_kept.1 he).1
      (congrArg Procedure.element h),
    congrArg Procedure.kind h⟩

/-- References of two kinds agree for the same declarations. -/
theorem reference_congr {d e : CommandDeclaration} {kind kind' : ProcedureKind}
    (h : registry.plan.reference d kind = registry.plan.reference e kind) :
    registry.plan.reference d kind' = registry.plan.reference e kind' := by
  have hmodule := congrArg ProcedureRef.module h
  have hname := congrArg ProcedureRef.name h
  simp only [Plan.reference, Plan.procedureName_eq] at hmodule hname ⊢
  rw [hmodule, (Naming.procedureName_inj hname).2]

namespace Configures

variable {line line' : List (ProcedureRef × CommandDeclaration)} {target : ProcedureRef}

/-- A reference has one line. -/
theorem unique (h : replayer.Configures registry line target)
    (h' : replayer.Configures registry line' target) : line = line' := by
  have hsame : ∀ {reference : ProcedureRef} {kind : ProcedureKind} {d e : CommandDeclaration},
      d ∈ registry.plan.kept → e ∈ registry.plan.kept →
        replayer.procedure? reference = some (registry.plan.procedureOf d kind) →
          replayer.procedure? reference = some (registry.plan.procedureOf e kind) → d = e :=
    fun hd he hfound hfound' =>
      (eq_of_procedureOf_eq hd he (Option.some.inj (hfound.symm.trans hfound'))).1
  induction h generalizing line' with
  | alone kept found top adds groups =>
    cases h' with
    | alone kept' found' top' adds' groups' =>
      obtain rfl := hsame kept kept' found found'
      obtain rfl := hsame adds adds' groups groups'
      rfl
    | under above' kept' found' link' adds' groups' =>
      obtain rfl := hsame kept kept' found found'
      rw [top] at link'
      cases link'
  | under above kept found link adds groups ih =>
    cases h' with
    | alone kept' found' top' adds' groups' =>
      obtain rfl := hsame kept kept' found found'
      rw [top'] at link
      cases link
    | under above' kept' found' link' adds' groups' =>
      obtain rfl := hsame kept kept' found found'
      obtain rfl := hsame adds adds' groups groups'
      obtain rfl := Option.some.inj (link.symm.trans link')
      rw [ih above']

/-- Every reference of a line has the part of the line up to it. -/
theorem exists_prefix (h : replayer.Configures registry line target) :
    ∀ called ∈ line, ∃ start, start <+: line ∧ replayer.Configures registry start called.1 := by
  induction h with
  | alone kept found top adds groups =>
    intro called hcalled
    obtain rfl := List.mem_singleton.1 hcalled
    exact ⟨_, List.prefix_refl _, .alone kept found top adds groups⟩
  | under above kept found link adds groups ih =>
    intro called hcalled
    rcases List.mem_append.1 hcalled with habove | hlast
    · obtain ⟨start, hstart, hline⟩ := ih called habove
      exact ⟨start, hstart.trans (List.prefix_append _ _), hline⟩
    · obtain rfl := List.mem_singleton.1 hlast
      exact ⟨_, List.prefix_refl _, .under above kept found link adds groups⟩

/-- No reference comes twice in a line: what it leads to would call itself again and again. -/
theorem nodup_references (h : replayer.Configures registry line target) :
    (line.map Prod.fst).Nodup := by
  induction h with
  | alone kept found top adds groups => exact List.nodup_singleton _
  | @under line target ancestor d e above kept found link adds groups ih =>
    rw [List.map_append, List.map_singleton, List.nodup_append]
    refine ⟨ih, List.nodup_singleton _, ?_⟩
    rintro reference hreference _ hlast rfl
    obtain rfl := List.mem_singleton.1 hlast
    obtain ⟨called, hcalled, rfl⟩ := List.mem_map.1 hreference
    -- The reference would have a line that is shorter than the one it has.
    obtain ⟨start, hstart, hline⟩ := above.exists_prefix called hcalled
    have hwhole := hline.unique (.under above kept found link adds groups)
    have hlength := hstart.length_le
    rw [hwhole, List.length_append, List.length_singleton] at hlength
    omega

/-- The members of a line are found under references for the declarations that carry them out. -/
theorem exists_references (h : replayer.Configures registry line target)
    (hknown : replayer.KnownBy registry) : ∀ called ∈ line, called.2 ∈ registry.plan.kept ∧
      ∃ d, called.1 = registry.plan.reference d .configureAll ∧
        registry.plan.reference d .configureArgGroups =
          registry.plan.reference called.2 .configureArgGroups := by
  have hreference : ∀ {reference : ProcedureRef} {kind : ProcedureKind} {d : CommandDeclaration},
      d ∈ registry.plan.kept →
        replayer.procedure? reference = some (registry.plan.procedureOf d kind) →
          reference = registry.plan.reference d kind := by
    intro reference kind d hd hfound
    obtain ⟨e, he, found, -, href, heq⟩ := hknown _ _ (mem_of_procedure? hfound)
    obtain ⟨rfl, rfl⟩ := eq_of_procedureOf_eq hd he heq
    exact href
  induction h with
  | alone kept found top adds groups =>
    intro called hcalled
    obtain rfl := List.mem_singleton.1 hcalled
    exact ⟨adds, _, hreference kept found, hreference adds groups⟩
  | under above kept found link adds groups ih =>
    intro called hcalled
    rcases List.mem_append.1 hcalled with habove | hlast
    · exact ih called habove
    · obtain rfl := List.mem_singleton.1 hlast
      exact ⟨adds, _, hreference kept found, hreference adds groups⟩

/-- The groups of no declaration are added twice. -/
theorem nodup_adders (h : replayer.Configures registry line target)
    (hknown : replayer.KnownBy registry) : (line.map Prod.snd).Nodup := by
  have hreferences := h.nodup_references
  rw [List.Nodup, List.pairwise_map] at hreferences ⊢
  refine hreferences.imp_of_mem fun {first second} hfirst hsecond hne heq => hne ?_
  obtain ⟨-, d, hd, hgroups⟩ := h.exists_references hknown first hfirst
  obtain ⟨-, e, he, hgroups'⟩ := h.exists_references hknown second hsecond
  rw [hd, he]
  refine reference_congr (hgroups.trans ?_)
  rw [heq, hgroups']

/-- No two entries of a line are in one field of a declaration whose own entries are not. -/
theorem pairwise_entries (h : replayer.Configures registry line target)
    (hknown : replayer.KnownBy registry) :
    (entriesAlong registry line).Pairwise fun first second =>
      first.1 = second.1 → first.1.BindsOnce → first.2.field ≠ second.2.field := by
  rw [entriesAlong, List.pairwise_flatMap]
  constructor
  · intro called _
    rw [Registry.entriesOf, List.pairwise_map, Registry.heldGroups, List.pairwise_filter]
    by_cases honce : called.2.BindsOnce
    · rw [CommandDeclaration.BindsOnce, List.Nodup, List.pairwise_map] at honce
      exact honce.imp fun hne _ _ _ _ => hne
    · exact List.pairwise_of_forall fun _ _ _ _ _ hbinds => absurd hbinds honce
  · have hadders := h.nodup_adders hknown
    rw [List.Nodup, List.pairwise_map] at hadders
    refine hadders.imp fun {called called'} hne first hfirst second hsecond heq => ?_
    obtain ⟨_, -, rfl⟩ := List.mem_map.1 hfirst
    obtain ⟨_, -, rfl⟩ := List.mem_map.1 hsecond
    exact absurd heq hne

end Configures

/-! ### Factories -/

theorem changes_addSubcommand (name : String) (factory : ProcedureRef) (owner : SubcommandOwner) :
    Changes (fun frame => step call procedure frame (.addSubcommand name factory owner))
      fun _ => KeepsArgs := by
  intro frame object before htarget hspec
  change (addSubcommand call frame name factory owner).Gives _
  rw [addSubcommand_eq]
  refine (Gives.trivial _).bind fun target _ => (Gives.trivial _).bind fun made _ => ?_
  refine (Meets.needSpec hspec).bind ?_
  rintro before rfl
  refine Meets.get.bind fun store _ => (Meets.set _).bind fun _ _ => ?_
  exact Meets.pure ⟨htarget, _, rfl, rfl, rfl, rfl⟩

namespace KnownBy

/-- A factory adds its subcommands, which do not touch the groups, and then has its specification
configured. -/
theorem changes_added (h : replayer.KnownBy registry) (procedure : Procedure) :
    Changes
      (fun frame => ((registry.plan.subcommands d d.subcommands).value ++
        [Statement.configure (registry.plan.reference d .configureAll) .spec .this]).foldlM
          (step (replayer.run levels) procedure) frame)
      fun _ before after => ∃ line,
        replayer.Configures registry line (registry.plan.reference d .configureAll) ∧
          before.Gains (entriesAlong registry line) after := by
  have hsubcommands : Changes
      (fun frame => (registry.plan.subcommands d d.subcommands).value.foldlM
        (step (replayer.run levels) procedure) frame) fun _ => KeepsArgs := by
    refine Changes.foldlM_keepsArgs fun statement hstatement => ?_
    obtain ⟨sub, -, hok⟩ := Registry.mem_subcommands hstatement
    obtain ⟨e, -, -, -, rfl⟩ := Registry.subcommand_eq_ok hok
    exact changes_addSubcommand _ _ _
  simp only [List.foldlM_append, List.foldlM_cons, List.foldlM_nil, bind_pure]
  refine (hsubcommands.bind (changes_configure (h.changes_lineGroups levels d) _)).mono ?_
  rintro _ before after ⟨between, hkeeps, line, hline, hgains⟩
  exact ⟨line, hline, CommandSpec.Gains.trans (.of_groups_eq hkeeps.groups) hgains⟩

/-- The groups of what a factory makes are those of the entries along a line. -/
theorem gives_create (h : replayer.KnownBy registry) (levels : Nat) {target : ProcedureRef}
    (hcreate : replayer.Leads target ProcedureKind.isCreate) (owner : Option ObjectRef) :
    ((replayer.run levels).create target owner).Gives fun spec => ∃ d ∈ registry.plan.kept,
      (∃ kind, replayer.procedure? target = some (registry.plan.procedureOf d kind)) ∧
      ∃ line, replayer.Configures registry line (registry.plan.reference d .configureAll) ∧
        List.Forall₂ (fun entry made => entry.2.Shapes made) (entriesAlong registry line)
          spec.groups := by
  have hcall : (replayer.run levels target { target := owner }).Gives fun next =>
      ∀ spec, next.spec = some spec → ∃ d ∈ registry.plan.kept,
        (∃ kind, replayer.procedure? target = some (registry.plan.procedureOf d kind)) ∧
        ∃ line, replayer.Configures registry line (registry.plan.reference d .configureAll) ∧
          List.Forall₂ (fun entry made => entry.2.Shapes made) (entriesAlong registry line)
            spec.groups := by
    refine gives_run fun fewer procedure _ hprocedure => ?_
    obtain ⟨d, hd, kind, -, -, rfl⟩ := h _ _ (mem_of_procedure? hprocedure)
    rw [Registry.takeWhile_procedureOf]
    have hkind : kind.isCreate = true := hcreate _ hprocedure
    cases kind with
    | createSpec methodRooted =>
      rw [Plan.work, List.foldlM_append]
      refine (Faithful.gives_bareSpec _ _ owner).bind ?_
      rintro started ⟨object, hstarted⟩
      obtain ⟨before, hbefore, hbare⟩ := hstarted.spec
      have hnone : before.groups = [] := by
        have hgroups := congrArg CommandSpec.groups hbare
        cases before
        simpa [CommandSpec.erased, CommandDeclaration.bareSpec] using hgroups
      refine (h.changes_added _ started object before hstarted.target hbefore).mono ?_
      rintro next ⟨-, after, hafter, line, hline, own, hown, hshapes⟩ spec hspec
      obtain rfl := Option.some.inj (hafter.symm.trans hspec)
      rw [hnone, List.nil_append] at hown
      exact ⟨d, hd, ⟨_, hprocedure⟩, line, hline, hown ▸ hshapes⟩
    | _ => cases hkind
  refine hcall.bind fun next hnext => ?_
  exact Meets.orFail hnext fun _ => trivial

end KnownBy

end Replayer

/-! ## Compilations -/

namespace Compilation

/-- Where the entries of a command for groups are in different fields: the procedure for its groups
leaves in each of them the object that it has put there. -/
def KeepsGroups (compilation : Compilation) (registry : Registry) (d : CommandDeclaration) : Prop :=
  let procedure := registry.plan.procedureOf d .configureArgGroups
  let call := (Replayer.ofModules compilation.modules).run
  ∀ (levels : Nat) (frame : Frame) (object : ObjectRef) (spec : CommandSpec) (store : Store),
    frame.Stands object spec → store.Has object →
      (procedure.carriedOut.foldlM (Replayer.step (call levels) procedure) frame).Ends store
        fun _ after => store.Furnishes object
          ((registry.heldGroups d.argGroups).map ArgGroupDeclaration.field) after

/-- The groups of a specification are those of entries, in order, no two of which are in one field of a
declaration whose entries are in different fields. They are the entries of the declarations whose
configurations the factory of a command carries out, and of this command itself if modules have
different paths. -/
def HasGroupsOnce (compilation : Compilation) (registry : Registry) (element : SymbolId)
    (spec : CommandSpec) : Prop :=
  ∃ d line, (registry.DistinctPaths → d.id = element) ∧
    (Replayer.ofModules compilation.modules).Configures registry line
      (registry.plan.reference d .configureAll) ∧
    List.Forall₂ (fun entry made => entry.2.Shapes made) (Replayer.entriesAlong registry line)
      spec.groups ∧
    (Replayer.entriesAlong registry line).Pairwise fun first second =>
      first.1 = second.1 → first.1.BindsOnce → first.2.field ≠ second.2.field

/-- The entries of a command that is rooted in a class are in pairwise different fields exactly if the
fields of the class separate its groups. Where they are, no group takes the field of another, and a
specification has at most one group for each of them. -/
theorem groups_bound_once (settings : Settings) (manifest : Manifest) :
    (∀ d ∈ (Registry.ofManifest settings manifest).commands, d.rooting = .classRooted →
      (d.BindsOnce ↔ manifest.symbols.Separates d.id (manifest.groupsOf d.id)) ∧
        (d.BindsOnce →
          (ofManifest settings manifest).KeepsGroups (Registry.ofManifest settings manifest) d)) ∧
      ∀ element replay, (ofManifest settings manifest).replay? element = some replay →
        ∀ store spec after, replay store = .ok (spec, after) →
          (ofManifest settings manifest).HasGroupsOnce (Registry.ofManifest settings manifest)
            element spec := by
  have hknown : (Replayer.ofModules (ofManifest settings manifest).modules).KnownBy
      (Registry.ofManifest settings manifest) := fun _ _ => kept_of_mem_procedures
  refine ⟨fun d hd hclass => ⟨Registry.bindsOnce_iff_separates hd hclass, fun honce => ?_⟩,
    fun element replay hreplay => Replay.Gives.of_ok ?_⟩
  · intro levels frame object spec store hframe hhas
    have hbody : ((Registry.ofManifest settings manifest).plan.procedureOf d
        .configureArgGroups).carriedOut =
          ((Registry.ofManifest settings manifest).plan.groups d 0 d.argGroups).value :=
      Registry.takeWhile_procedureOf .configureArgGroups
    rw [hbody]
    exact hknown.ends_groups (hknown.orderly_run levels) 0 hframe hhas
      (honce.sublist (List.filter_sublist.map _))
  · obtain ⟨maker, hmaker, hid, hcommand, owner, rfl⟩ := exists_create_of_replay? hreplay
    refine (Replay.Gives.trivial owner).bind fun given _ => ?_
    refine (hknown.gives_create Replayer.maxCalls (hknown.leads rfl fun _ _ => rfl) given).mono ?_
    rintro spec ⟨d, hd, ⟨kind, hfound⟩, line, hline, hshapes⟩
    refine ⟨d, line, fun hpaths => ?_, hline, hshapes, hline.pairwise_entries hknown⟩
    have hsame := reliable hpaths maker hmaker _
      (CommandDeclaration.createSpec_mem_kinds.2 ⟨hcommand, rfl⟩) _ hfound
    rw [(Replayer.eq_of_procedureOf_eq hd hmaker hsame).1, hid]

/-- The one group of a deployment is bound to its field, and a deployment that is replayed has it once. -/
theorem groups_bound_once_deployment :
    let manifest := deployment [[hostOption, portOption]]
    let registry := Registry.ofManifest {} manifest
    let compilation := ofManifest {} manifest
    (∃ d ∈ registry.commands, d.id = ⟨"demo.Deploy"⟩ ∧ d.rooting = .classRooted ∧
      d.argGroups.map ArgGroupDeclaration.field = ["target"] ∧
      manifest.symbols.Separates d.id (manifest.groupsOf d.id) ∧
      compilation.KeepsGroups registry d) ∧
    ∃ replay spec after, compilation.replay? ⟨"demo.Deploy"⟩ = some replay ∧
      replay .empty = .ok (spec, after) ∧ spec.groups.length = 1 ∧
      compilation.HasGroupsOnce registry ⟨"demo.Deploy"⟩ spec := by
  intro manifest registry compilation
  obtain ⟨hgroups, hspecs⟩ := groups_bound_once {} manifest
  constructor
  · have hdeploy : ∃ d ∈ registry.commands, d.id = ⟨"demo.Deploy"⟩ ∧ d.rooting = .classRooted ∧
        d.argGroups.map ArgGroupDeclaration.field = ["target"] := by decide +kernel
    obtain ⟨d, hd, hid, hclass, hfields⟩ := hdeploy
    obtain ⟨hiff, hkeeps⟩ := hgroups d hd hclass
    have honce : d.BindsOnce := by
      rw [CommandDeclaration.BindsOnce, hfields]
      exact List.nodup_singleton _
    exact ⟨d, hd, hid, hclass, hfields, hiff.1 honce, hkeeps honce⟩
  · have hmade : (compilation.made? ⟨"demo.Deploy"⟩).any (fun spec => spec.groups.length = 1) =
        true := by decide +kernel
    obtain ⟨spec, hspec, hlength⟩ := (Option.any_eq_true ..).1 hmade
    obtain ⟨replay, after, hreplay, hrun⟩ := exists_replay_of_made? hspec
    exact ⟨replay, spec, after, hreplay, hrun, of_decide_eq_true hlength,
      hspecs _ replay hreplay .empty spec after hrun⟩

/-- The target, as a member that the class of a deployment lists twice. -/
def listedTwice : Symbol :=
  ⟨⟨"demo.Deploy"⟩, "Deploy", some ⟨"demo"⟩, [],
    .classType none none (some [⟨"demo.Deploy.target"⟩, ⟨"demo.Deploy.target"⟩])⟩

/-- A second field of a deployment with the name of its target. -/
def secondTarget : Symbol :=
  ⟨⟨"demo.Deploy.second"⟩, "target", some ⟨"demo.Deploy"⟩, [], .field "demo.Target" true⟩

/-- A deployment with one group, with another symbol in the table. -/
def deploymentWith (symbol : Symbol) : Manifest :=
  { deployment [[hostOption]] with symbols := (deployment [[hostOption]]).symbols.put symbol }

/-- Two entries in one field, and two groups for it: of two groups of one type, of one group whose field
the class lists twice, and of one group that goes to two fields of one name. -/
theorem group_fields_shared :
    let manifests := [deployment [[hostOption], [portOption]], deploymentWith listedTwice,
      deploymentWith secondTarget]
    (∀ manifest ∈ manifests, (Registry.ofManifest {} manifest).DistinctPaths ∧
      (ofManifest {} manifest).diagnostics = []) ∧
    (∀ manifest ∈ manifests, ∃ d ∈ (Registry.ofManifest {} manifest).commands,
      d.id = ⟨"demo.Deploy"⟩ ∧ d.rooting = .classRooted ∧
        d.argGroups.map ArgGroupDeclaration.field = ["target", "target"]) ∧
    ∀ manifest ∈ manifests,
      ((ofManifest {} manifest).made? ⟨"demo.Deploy"⟩).map (fun spec =>
        spec.groups.map fun made => made.args.map ArgSpec.names) =
          some [[["--host"]], [["--host"]]] := by
  decide +kernel

end Compilation

end CommandFactory
