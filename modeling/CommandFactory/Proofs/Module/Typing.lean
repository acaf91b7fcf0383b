import CommandFactory.Proofs.Module.Calls
import CommandFactory.Proofs.Module.Path
import CommandFactory.Proofs.Replay.Safety

/-!
# Types of instances that calls pass on

Each procedure works on an instance of a type, which is the type path of the class of its command
(`typedByClass_ofManifest`), for commands of methods too. Where modules have different paths, a call
leads to the one procedure of its reference, and passes an instance of the type on that this procedure
works on; all but calls of mixins always do. A mixin is made as a value of the type path that its
identity spells, and where that is the identity of a method, this need not be the class of the method
(`typedCalls_iff`).
-/

set_option autoImplicit false

namespace CommandFactory

open GeneratedModule

/-! ## Types of commands -/

namespace Registry

/-- The type path of each command is that of its class. -/
def TypedByClass (registry : Registry) : Prop :=
  ∀ d ∈ registry.commands, d.typePath = Naming.typePath registry.symbols d.classId

/-- A command gets the type path of its class when it is made, and keeps both. -/
theorem typedByClass_ofManifest (settings : Settings) (manifest : Manifest) :
    (ofManifest settings manifest).TypedByClass := by
  intro d hd
  rw [symbols_ofManifest]
  refine forall_commands_ofManifest settings manifest
    (P := fun d => d.typePath = Naming.typePath manifest.symbols d.classId) ?_ ?_ d hd
  · intro symbol input rooting scope
    cases rooting <;> rfl
  · exact fun d link h => h

/-- The mixins of the command that are commands of methods have the type path of the class of the method
under the identity of the method as well. -/
def MixesSoundly (registry : Registry) (d : CommandDeclaration) : Prop :=
  ∀ named ∈ d.mixins, ∀ e ∈ registry.commands, e.id = named.element → e.isMethodRooted = true →
    Naming.typePath registry.symbols named.element = e.typePath

instance (registry : Registry) (d : CommandDeclaration) : Decidable (registry.MixesSoundly d) :=
  inferInstanceAs (Decidable (∀ named ∈ d.mixins, ∀ e ∈ registry.commands, e.id = named.element →
    e.isMethodRooted = true → Naming.typePath registry.symbols named.element = e.typePath))

end Registry

/-- The statement adds a mixin. -/
def Statement.isMixin : Statement → Bool
  | .addMixin .. => true
  | _ => false

namespace Registry

variable {registry : Registry}

/-- Statements pass an instance of the right type on, mixins of methods apart. -/
theorem HandsTo.type_eq {d e : CommandDeclaration} {statement : Statement} {type : String}
    (h : registry.HandsTo d e statement type) (htyped : registry.TypedByClass)
    (hd : d ∈ registry.commands) (he : e ∈ registry.commands)
    (hmixes : statement.isMixin = true → registry.MixesSoundly d) : type = e.typePath := by
  cases h with
  | ofCalled => rfl
  | ofClass same => rw [htyped d hd, htyped e he, same]
  | @ofMixin named target listed called =>
    cases hrooted : e.isMethodRooted with
    | true => exact hmixes rfl named listed e he called hrooted
    | false =>
      -- The identity of a command of a class is that of the class.
      have hclass : e.classId = e.id := by
        unfold CommandDeclaration.isMethodRooted at hrooted
        unfold CommandDeclaration.classId
        cases hrooting : e.rooting <;> simp_all
      rw [htyped e he, hclass, called]

end Registry

/-! ## Typed calls -/

/-- What is passed on to a procedure has the type it works on. Only the factory of a class is passed
nothing. -/
def Procedure.Takes (procedure : Procedure) : Option String → Prop
  | none => procedure.kind = .createSpec false
  | some type => type = procedure.instanceType

/-- A call that passes nothing on is one of the factory of a class. -/
theorem Statement.kind_of_handed_eq_none {statement : Statement} {own : String} {callee : Callee}
    {kind : ProcedureKind} (hnone : statement.handed own = none) (hcallee : callee ∈ statement.callees)
    (haccepts : callee.accepts kind = true) : kind = .createSpec false := by
  cases statement with
  | addSubcommand name factory owner =>
    obtain rfl := List.mem_singleton.1 hcallee
    cases owner with
    | none => simpa using haccepts
    | this => cases hnone
    | new type => cases hnone
  | configure target first second => cases second <;> cases hnone
  | addMixin name type target => cases hnone
  | addArgGroup build => cases hnone
  | _ => cases hcallee

namespace Compilation

/-- The call of a statement leads to a procedure of the units, and what the statement passes on has the
type that the procedure works on. -/
def Typed (compilation : Compilation) (caller : Procedure) (statement : Statement)
    (callee : Callee) : Prop :=
  (∃ module ∈ walkAll compilation.modules, ∃ called ∈ module.procedures,
      callee.target = ⟨module.path, called.name⟩) ∧
    ∀ module ∈ walkAll compilation.modules, ∀ called ∈ module.procedures,
      callee.target = ⟨module.path, called.name⟩ →
        called.Takes (statement.handed caller.instanceType)

/-- All calls of the statements that are meant are typed. -/
def TypedCalls (compilation : Compilation) (meant : Statement → Prop) : Prop :=
  ∀ module ∈ walkAll compilation.modules, ∀ procedure ∈ module.procedures,
    ∀ statement ∈ procedure.body, meant statement →
      ∀ callee ∈ statement.callees, compilation.Typed procedure statement callee

end Compilation

namespace Registry.Delivered

variable {registry : Registry} {compilation : Compilation}

/-- A call of a command is typed, if modules have different paths and what it passes on has the type of
the called command. -/
theorem typed (h : registry.Delivered compilation) (hpaths : registry.DistinctPaths)
    {d : CommandDeclaration} (hd : d ∈ registry.commands) {kind : ProcedureKind}
    {statement : Statement} (hstatement : statement ∈ registry.plan.bodyOf d kind)
    {callee : Callee} (hcallee : callee ∈ statement.callees)
    (htype : ∀ e ∈ registry.commands, ∀ type, registry.HandsTo d e statement type →
      type = e.typePath) :
    compilation.Typed (registry.plan.procedureOf d kind) statement callee := by
  obtain ⟨⟨module, hmodule, called, hcalled, htarget, -⟩, -⟩ :=
    h.provides (h.resolves_callee hd hstatement hcallee)
  refine ⟨⟨module, hmodule, called, hcalled, htarget⟩, ?_⟩
  intro module hmodule called hcalled htarget
  obtain ⟨e, he, kind', hkind, href, haccepts, hhands⟩ := exists_called hd hstatement hcallee
  -- The reference leads to the one procedure that it was made for.
  have hentry := Compilation.mem_procedures_of_mem_walkAll hmodule hcalled
  rw [← htarget] at hentry
  obtain ⟨found, hfound, kind'', hkind', href', rfl⟩ := h.mem_procedures_iff.1 hentry
  obtain ⟨rfl, rfl⟩ := h.reference_inj hpaths he hfound hkind hkind' (href.symm.trans href')
  cases hhanded : statement.handed (registry.plan.procedureOf d kind).instanceType with
  | none => exact Statement.kind_of_handed_eq_none hhanded hcallee haccepts
  | some type => exact htype e he type (hhands type hhanded)

/-- The calls of the statements that are meant are typed, if mixins are sound as far as these statements
add any. -/
theorem typedCalls (h : registry.Delivered compilation) (hpaths : registry.DistinctPaths)
    (htyped : registry.TypedByClass) {meant : Statement → Prop}
    (hmixes : ∀ statement, meant statement → statement.isMixin = true →
      ∀ d ∈ registry.commands, registry.MixesSoundly d) : compilation.TypedCalls meant := by
  intro module hmodule procedure hprocedure statement hstatement hmeant callee hcallee
  obtain ⟨d, hd, kind, -, -, rfl⟩ :=
    h.mem_procedures_iff.1 (Compilation.mem_procedures_of_mem_walkAll hmodule hprocedure)
  refine h.typed hpaths hd hstatement hcallee fun e he type hhands => ?_
  exact hhands.type_eq htyped hd he fun hmixin => hmixes statement hmeant hmixin d hd

/-- Where every call is typed, every mixin of a method has the type of the class of the method: its
configuration is called with it. -/
theorem mixesSoundly (h : registry.Delivered compilation)
    (hall : compilation.TypedCalls fun _ => True) {d : CommandDeclaration}
    (hd : d ∈ registry.commands) : registry.MixesSoundly d := by
  intro named hnamed e he hid _
  -- The mixin is among the statements of a procedure in the units.
  obtain ⟨declaration, hmem, -, hprocedures⟩ := h.moduleOf_mem hd
  obtain ⟨module, hmodule, hbare⟩ := List.mem_map.1 hmem
  have hmixins : ProcedureKind.configureMixins ∈ d.kinds :=
    CommandDeclaration.mem_kinds_of_not_isCreate rfl
  have hprocedure : registry.plan.procedureOf d .configureMixins ∈ module.procedures := by
    have hprocedures := hprocedures _ hmixins
    rwa [← hbare] at hprocedures
  have hstatement : registry.plan.mixin named ∈
      (registry.plan.procedureOf d .configureMixins).body := List.mem_map_of_mem hnamed
  have hcallee : (⟨registry.plan.reference e .configureAll, fun kind => kind = .configureAll⟩ :
      Callee) ∈ (registry.plan.mixin named).callees := by
    have hfound : registry.plan.registry.command? named.element = some e :=
      hid ▸ command?_of_mem he
    simp [Plan.mixin, Statement.callees, hfound, drops_eq_false h.dropped]
  obtain ⟨-, htyped⟩ := hall module hmodule _ hprocedure _ hstatement trivial _ hcallee
  -- The configuration of the mixin is in the units, and works on the type of the command.
  have hentry := h.mem_procedures_iff.2 ⟨e, he, .configureAll,
    CommandDeclaration.mem_kinds_of_not_isCreate rfl, rfl, rfl⟩
  obtain ⟨target, htarget, hcalled, href⟩ := Compilation.mem_procedures_iff_walkAll.1 hentry
  exact htyped target htarget _ hcalled href

end Registry.Delivered

namespace Compilation

/-- In a compilation without errors whose modules have different paths, all calls but those of mixins
are typed; all calls are typed exactly if each mixin that is a command of a method has the type of the
class of that method. -/
theorem typedCalls_iff (settings : Settings) (manifest : Manifest)
    (hno : Diagnostics.hasErrors (ofManifest settings manifest).diagnostics = false)
    (hpaths : (Registry.ofManifest settings manifest).DistinctPaths) :
    ((ofManifest settings manifest).TypedCalls fun statement => statement.isMixin = false) ∧
      (((ofManifest settings manifest).TypedCalls fun _ => True) ↔
        ((Registry.ofManifest settings manifest).commands.any CommandDeclaration.isCommand = true →
          ∀ d ∈ (Registry.ofManifest settings manifest).commands,
            (Registry.ofManifest settings manifest).MixesSoundly d)) := by
  cases hany : (Registry.ofManifest settings manifest).commands.any CommandDeclaration.isCommand with
  | false =>
    -- Without a command there are no modules.
    have hmodules : walkAll (ofManifest settings manifest).modules = [] := by
      rw [modules, units_eq_nil hany, List.map_nil, walkAll]
    simp [TypedCalls, hmodules]
  | true =>
    have hdelivered := delivered hno hany
    have htyped := Registry.typedByClass_ofManifest settings manifest
    refine ⟨hdelivered.typedCalls hpaths htyped ?_,
      fun hall _ d hd => hdelivered.mixesSoundly hall hd, fun hmixes => ?_⟩
    · intro statement hnot hmixin
      rw [hnot] at hmixin
      cases hmixin
    · exact hdelivered.typedCalls hpaths htyped fun _ _ _ => hmixes rfl

/-- In the tool with an ancestor, a mixin, a group and subcommands of both kinds all calls are typed. -/
theorem typedCalls_demoTool :
    Diagnostics.hasErrors (ofManifest {} demoTool).diagnostics = false ∧
      (Registry.ofManifest {} demoTool).DistinctPaths ∧
      (ofManifest {} demoTool).TypedCalls fun _ => True := by
  have hno : Diagnostics.hasErrors (ofManifest {} demoTool).diagnostics = false := by
    decide +kernel
  have hpaths : (Registry.ofManifest {} demoTool).DistinctPaths := by decide +kernel
  have hmixes : ∀ d ∈ (Registry.ofManifest {} demoTool).commands,
      (Registry.ofManifest {} demoTool).MixesSoundly d := by decide +kernel
  exact ⟨hno, hpaths, (typedCalls_iff {} demoTool hno hpaths).2.2 fun _ => hmixes⟩

/-- A class with a mixin that is the command of a method of another class. -/
def methodMixin : Manifest where
  symbols :=
    .ofList
      [⟨⟨"demo"⟩, "demo", none, [], .package⟩,
        ⟨⟨"demo.Tool"⟩, "Tool", some ⟨"demo"⟩, [], .classType none none none⟩,
        ⟨⟨"demo.Tool#run"⟩, "run", some ⟨"demo.Tool"⟩, [], .method []⟩,
        ⟨⟨"demo.App"⟩, "App", some ⟨"demo"⟩, [], .classType none none none⟩]
  elements :=
    [{ CommandInput.bare ⟨"demo.Tool#run"⟩ with command := some ⟨"run", []⟩ },
      { CommandInput.bare ⟨"demo.App"⟩ with
        command := some ⟨"app", []⟩
        mixins := [⟨"tool", ⟨"demo.Tool#run"⟩⟩] }]

/-- The mixin is made as a value of type `crate::demo::run`, and its configuration works on one of type
`crate::demo::Tool`. -/
theorem not_typedCalls_methodMixin :
    Diagnostics.hasErrors (ofManifest {} methodMixin).diagnostics = false ∧
      (Registry.ofManifest {} methodMixin).DistinctPaths ∧
      ¬ (ofManifest {} methodMixin).TypedCalls fun _ => True := by
  have hno : Diagnostics.hasErrors (ofManifest {} methodMixin).diagnostics = false := by
    decide +kernel
  have hany : (Registry.ofManifest {} methodMixin).commands.any CommandDeclaration.isCommand = true := by
    decide +kernel
  refine ⟨hno, by decide +kernel, fun hall => ?_⟩
  have hnot : ¬ ∀ d ∈ (Registry.ofManifest {} methodMixin).commands,
      (Registry.ofManifest {} methodMixin).MixesSoundly d := by decide +kernel
  exact hnot fun d hd => (delivered hno hany).mixesSoundly hall hd

end Compilation

end CommandFactory
