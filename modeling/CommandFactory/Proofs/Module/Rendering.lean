import CommandFactory.Module.Rendering
import CommandFactory.Proofs.Module.Identifiers

/-!
# Where a rendering breaks off

The text of a part of a module breaks off at a name only if the part needs an identifier for it and
there is none (`BreaksIn`). The rules for `BreaksIn` follow the sequence of steps that a text is made
of; with them each kind of part has one lemma, up to the tree of a whole module
(`Renderer.breaksIn_moduleBody`).
-/

set_option autoImplicit false

namespace CommandFactory

open GeneratedModule Text

/-! ## Steps -/

/-- If the rendering breaks off at a name, it is one of the names, and there is no identifier for it. -/
def BreaksIn {α : Type} (names : List String) (rendered : Except RenderFault α) : Prop :=
  ∀ name, rendered = .error (.unwritable name) → name ∈ names ∧ ¬ Writable name

namespace BreaksIn

variable {α β : Type} {names more : List String}

theorem ok (a : α) : BreaksIn names (.ok a) := by
  intro name h
  cases h

theorem mono {rendered : Except RenderFault α} (h : BreaksIn names rendered) (hmore : names ⊆ more) :
    BreaksIn more rendered := by
  intro name hbreaks
  exact ⟨hmore (h name hbreaks).1, (h name hbreaks).2⟩

/-- A sequence of two steps breaks off in one of them. -/
theorem bind {first : Except RenderFault α} {rest : α → Except RenderFault β}
    (hfirst : BreaksIn names first) (hrest : ∀ a, BreaksIn names (rest a)) :
    BreaksIn names (first >>= rest) := by
  intro name h
  cases first with
  | ok a => exact hrest a name h
  | error fault =>
    cases h
    exact hfirst name rfl

theorem identifier {name : String} (h : name ∈ names) : BreaksIn names (Render.identifier name) := by
  intro broken hbreaks
  unfold Render.identifier at hbreaks
  split at hbreaks
  · cases hbreaks
  · rename_i hnone
    cases hbreaks
    refine ⟨h, ?_⟩
    rw [Writable, hnone]
    exact Bool.false_ne_true

/-- A text that is no type is another fault. -/
theorem type (text : String) : BreaksIn names (Render.type text) := by
  intro name h
  unfold Render.type at h
  split at h <;> cases h

theorem each {render : α → Rendered} {items : List α}
    (h : ∀ item ∈ items, BreaksIn names (render item)) : BreaksIn names (Render.each render items) := by
  induction items with
  | nil => exact ok []
  | cons item rest ih =>
    rw [List.forall_mem_cons] at h
    exact bind h.1 fun first => bind (ih h.2) fun others => ok _

theorem each_flatMap {render : α → Rendered} {namesOf : α → List String}
    (h : ∀ item, BreaksIn (namesOf item) (render item)) (items : List α) :
    BreaksIn (items.flatMap namesOf) (Render.each render items) :=
  each fun item hitem => (h item).mono fun _ hname => List.mem_flatMap.2 ⟨item, hitem, hname⟩

end BreaksIn

/-! ## Statements -/

namespace Render

theorem breaksIn_reading (accessor : Accessor) : BreaksIn [accessor.name] (reading accessor) := by
  cases accessor with
  | field name => exact .bind (.identifier (List.mem_singleton_self _)) fun _ => .ok _
  | method name => exact .bind (.identifier (List.mem_singleton_self _)) fun _ => .ok _

theorem breaksIn_writing (accessor : Accessor) : BreaksIn [accessor.name] (writing accessor) := by
  cases accessor with
  | field name => exact .bind (.identifier (List.mem_singleton_self _)) fun _ => .ok _
  | method name => exact .bind (.identifier (List.mem_singleton_self _)) fun _ => .ok _

theorem breaksIn_replaced (previous : Option Accessor) :
    BreaksIn (previous.toList.map Accessor.name) (replaced previous) := by
  cases previous with
  | none => exact .ok _
  | some accessor => exact .bind (breaksIn_reading accessor) fun _ => .ok _

theorem breaksIn_builderCall (call : BuilderCall) :
    BreaksIn call.identifiers (builderCall call) := by
  cases call with
  | getter source => exact .bind (breaksIn_reading source) fun _ => .ok _
  | setter target previous =>
    refine .bind ((breaksIn_replaced previous).mono (List.subset_cons_self _ _)) fun _ => ?_
    refine .bind ((breaksIn_writing target).mono ?_) fun _ => .ok _
    exact List.cons_subset_cons _ (List.nil_subset _)
  | _ => exact .ok _

theorem breaksIn_argument (build : ArgBuild) : BreaksIn build.identifiers (argument build) := by
  have hcalls := BreaksIn.each_flatMap breaksIn_builderCall build.calls
  exact .bind (.identifier (List.mem_cons_self ..)) fun _ =>
    .bind (hcalls.mono (List.subset_cons_self _ _)) fun _ => .ok _

theorem breaksIn_secondArgument {names : List String} (argument : InstanceArg) :
    BreaksIn names (secondArgument argument) := by
  cases argument with
  | this => exact .ok _
  | upcast name => exact .bind (.type name) fun _ => .ok _

theorem breaksIn_ownerArguments {names : List String} (owner : SubcommandOwner) :
    BreaksIn names (ownerArguments owner) := by
  cases owner with
  | none => exact .ok _
  | this => exact .ok _
  | new name => exact .bind (.type name) fun _ => .ok _

end Render

namespace Renderer

open Render

variable (renderer : Renderer)

theorem breaksIn_reference (ref : ProcedureRef) :
    BreaksIn ref.identifiers (renderer.reference ref) := by
  refine .bind (.identifier (List.mem_cons_self ..)) fun _ => ?_
  refine .bind (.each fun segment hsegment => ?_) fun _ => .ok _
  exact .bind (.identifier (List.mem_cons_of_mem _ hsegment)) fun _ => .ok _

theorem breaksIn_group (build : GroupBuild) :
    BreaksIn build.identifiers (renderer.group build) := by
  refine .bind (.identifier (by simp [GroupBuild.identifiers])) fun _ => ?_
  refine .bind (.identifier (by simp [GroupBuild.identifiers])) fun _ => ?_
  refine .bind (.identifier (by simp [GroupBuild.identifiers])) fun _ => ?_
  refine .bind (.type _) fun _ => ?_
  refine .bind ((renderer.breaksIn_reference build.options).mono ?_) fun _ => ?_
  · exact List.Subset.trans (List.subset_append_left _ _) (List.subset_append_right _ _)
  · refine .bind ((renderer.breaksIn_reference build.parameters).mono ?_) fun _ => .ok _
    exact List.Subset.trans (List.subset_append_right _ _) (List.subset_append_right _ _)

theorem breaksIn_mixin (name typeName : String) (callee : Option ProcedureRef) :
    BreaksIn (Statement.addMixin name typeName callee).identifiers
      (renderer.mixin name typeName callee) := by
  refine .bind (.type typeName) fun _ => ?_
  refine .bind (.identifier (List.mem_cons_self ..)) fun _ => ?_
  cases callee with
  | none => exact .ok _
  | some target =>
    refine .bind ((renderer.breaksIn_reference target).mono ?_) fun _ => .ok _
    rw [Statement.identifiers, Option.toList_some, List.flatMap_singleton]
    exact List.subset_append_right _ _

theorem breaksIn_statement (instanceType : List Token) (inFactory : Bool) (statement : Statement) :
    BreaksIn statement.identifiers (renderer.statement instanceType inFactory statement) := by
  cases statement with
  | newInstance | resolveMethod | setName | setDescription | returnSpec => exact .ok _
  | wrapSpec source => cases source <;> exact .ok _
  | addSubcommand name factory owner =>
    exact .bind (renderer.breaksIn_reference factory) fun _ =>
      .bind (breaksIn_ownerArguments owner) fun _ => .ok _
  | configure target first second =>
    exact .bind (renderer.breaksIn_reference target) fun _ =>
      .bind (breaksIn_secondArgument second) fun _ => .ok _
  | addMixin name typeName callee => exact renderer.breaksIn_mixin name typeName callee
  | addArg build => exact breaksIn_argument build
  | addArgGroup build => exact renderer.breaksIn_group build
  | bindSpec field => exact .bind (.identifier (List.mem_singleton_self _)) fun _ => .ok _
  | bindParent field => exact .bind (.identifier (List.mem_singleton_self _)) fun _ => .ok _

/-! ## Procedures and modules -/

theorem breaksIn_procedure (procedure : Procedure) :
    BreaksIn procedure.identifiers (renderer.procedure procedure) := by
  refine .bind (.identifier (List.mem_cons_self ..)) fun _ => ?_
  refine .bind (.type _) fun instanceType => ?_
  have hbody := BreaksIn.each_flatMap
    (renderer.breaksIn_statement instanceType procedure.kind.isCreate) procedure.body
  exact .bind (hbody.mono (List.subset_cons_self _ _)) fun _ => .ok _

end Renderer

/-- The names of a tree are that of its first module, those in the procedures there, and the names of
the trees inside it. -/
theorem GeneratedModule.identifiers_eq (module : GeneratedModule) :
    module.identifiers =
      module.name :: (module.procedures.flatMap Procedure.identifiers ++
        module.children.flatMap GeneratedModule.identifiers) := by
  rw [identifiers, walk_eq, List.flatMap_cons, List.flatMap_assoc]
  rfl

namespace Renderer

variable (renderer : Renderer)

theorem breaksIn_nestedModules {modules : List GeneratedModule}
    (h : ∀ module ∈ modules, BreaksIn module.identifiers (renderer.moduleBody module)) :
    BreaksIn (modules.flatMap GeneratedModule.identifiers) (renderer.nestedModules modules) := by
  induction modules with
  | nil =>
    rw [nestedModules]
    exact .ok []
  | cons module rest ih =>
    rw [List.forall_mem_cons] at h
    rw [nestedModules, List.flatMap_cons]
    refine .bind (.identifier ?_) fun _ => ?_
    · rw [module.identifiers_eq]
      exact List.mem_cons_self ..
    · refine .bind (h.1.mono (List.subset_append_left _ _)) fun _ => ?_
      exact .bind ((ih h.2).mono (List.subset_append_right _ _)) fun _ => .ok _

/-- The text of a module breaks off only at a name that the module needs an identifier for. -/
theorem breaksIn_moduleBody (module : GeneratedModule) :
    BreaksIn module.identifiers (renderer.moduleBody module) := by
  induction module using GeneratedModule.induction with
  | step module ih =>
    have hprocedures := BreaksIn.each_flatMap renderer.breaksIn_procedure module.procedures
    have hchildren := renderer.breaksIn_nestedModules ih
    rw [module.identifiers_eq]
    cases module
    rw [moduleBody]
    refine .bind (hprocedures.mono ?_) fun _ => .bind (hchildren.mono ?_) fun _ => .ok _
    · exact List.subset_cons_of_subset _ (List.subset_append_left _ _)
    · exact List.subset_cons_of_subset _ (List.subset_append_right _ _)

end Renderer

/-! ## Renderers of settings -/

namespace Settings

theorem isSome_of_checkPath {key text : String} (h : checkPath key text = .ok ()) :
    (Token.path? text).isSome = true := by
  unfold checkPath at h
  split at h
  · assumption
  · cases h

/-- The paths in checked settings are paths. -/
theorem isSome_paths {settings : Settings} (hvalid : settings.validate = .ok settings) :
    (Token.path? settings.moduleRoot).isSome = true ∧
      (Token.path? settings.runtimeCrate).isSome = true := by
  unfold validate at hvalid
  split at hvalid
  · cases hvalid
  · cases hroot : checkPath "module_root" settings.moduleRoot with
    | error fault =>
      rw [hroot] at hvalid
      cases hvalid
    | ok _ =>
      cases hcrate : checkPath "runtime_crate" settings.runtimeCrate with
      | error fault =>
        rw [hroot, hcrate] at hvalid
        cases hvalid
      | ok _ => exact ⟨isSome_of_checkPath hroot, isSome_of_checkPath hcrate⟩

end Settings

/-- Checked settings give a renderer. -/
theorem Renderer.exists_ofSettings {settings : Settings}
    (hvalid : settings.validate = .ok settings) :
    ∃ renderer, ofSettings settings = .ok renderer := by
  obtain ⟨hroot, hcrate⟩ := settings.isSome_paths hvalid
  obtain ⟨root, hroot⟩ := Option.isSome_iff_exists.1 hroot
  obtain ⟨runtime, hcrate⟩ := Option.isSome_iff_exists.1 hcrate
  refine ⟨⟨runtime, root⟩, ?_⟩
  rw [ofSettings, hcrate, hroot]

end CommandFactory
