import CommandFactory.Artifact.Emission
import CommandFactory.Proofs.Module.Rendering
import Mathlib

/-!
# Where an emission breaks off

An emission ends at a name without an identifier (`Emitter.emit`). Under checked settings the only such
names are those of fields that hold groups of arguments, whatever the manifest is and whatever the sink
does (`Compilation.breaks_only_at_group_fields`). Such a field does end an emission, and nothing is
reported before.
-/

set_option autoImplicit false

namespace CommandFactory

open Text

/-! ## Emitters -/

/-- Checked settings give an emitter. -/
theorem Emitter.exists_ofSettings {settings : Settings} (hvalid : settings.validate = .ok settings)
    (formatter : Formatter) : ∃ emitter, ofSettings settings formatter = .ok emitter := by
  obtain ⟨renderer, hrenderer⟩ := Renderer.exists_ofSettings hvalid
  refine ⟨⟨settings, renderer, formatter⟩, ?_⟩
  rw [ofSettings, hrenderer]

namespace Emitter

theorem breaksIn_unitText (emitter : Emitter) (unit : OutputUnit) :
    BreaksIn unit.module.identifiers (emitter.unitText unit) :=
  .bind (emitter.renderer.breaksIn_moduleBody unit.module) fun _ => .ok _

/-- An emission ends only at a name at which the text of one of the units breaks off. -/
theorem satisfies_emitFrom {m : Type → Type} [Monad m] [LawfulMonad m] (emitter : Emitter)
    (sink : ArtifactSink m) {allowed : String → Prop} (units : List OutputUnit)
    (h : ∀ unit ∈ units, ∀ name, emitter.unitText unit = .error (.unwritable name) → allowed name)
    (report : EmitReport) :
    SatisfiesM (fun result => ∀ name, result = .error name → allowed name)
      (emitter.emitFrom sink report units) := by
  induction units generalizing report with
  | nil =>
    refine .pure fun name hname => ?_
    cases hname
  | cons unit rest ih =>
    rw [List.forall_mem_cons] at h
    rw [emitFrom]
    cases htext : emitter.unitText unit with
    | ok text =>
      -- The sink decides how the report goes on, and nothing else.
      refine .bind .trivial fun taken _ => ?_
      cases taken with
      | ok _ => exact ih h.2 (report.wrote unit)
      | error e => exact ih h.2 (report.lost unit (.artifactWrite unit.element e))
    | error fault =>
      cases fault with
      | typePath text => exact ih h.2 (report.lost unit (.invalidTypePath text))
      | unwritable broken =>
        refine .pure fun name hname => ?_
        cases hname
        exact h.1 broken htext

end Emitter

/-! ## Compilations -/

namespace Compilation

/-- Under checked settings identifiers stand for all names that the text of the units needs them for,
and an emission of the units comes to its end with every formatter and every sink, except for names
without an identifier that fields with groups of arguments have. -/
theorem breaks_only_at_group_fields {settings : Settings} (hvalid : settings.validate = .ok settings)
    (manifest : Manifest) :
    (∀ unit ∈ (ofManifest settings manifest).units, ∀ name ∈ unit.module.identifiers,
        Writable name ∨ (Registry.ofManifest settings manifest).HoldsGroup name) ∧
      ∀ formatter, ∃ emitter, Emitter.ofSettings settings formatter = .ok emitter ∧
        ∀ {m : Type → Type} [Monad m] [LawfulMonad m] (sink : ArtifactSink m),
          SatisfiesM
            (fun result => ∀ name, result = .error name →
              (Registry.ofManifest settings manifest).HoldsGroup name ∧ ¬ Writable name)
            (emitter.emit sink (ofManifest settings manifest).units) := by
  refine ⟨fun unit hunit => writable_or_holdsGroup hvalid hunit, fun formatter => ?_⟩
  obtain ⟨emitter, hemitter⟩ := Emitter.exists_ofSettings hvalid formatter
  refine ⟨emitter, hemitter, ?_⟩
  intro m _ _ sink
  refine emitter.satisfies_emitFrom sink _ (fun unit hunit name hbreaks => ?_) .empty
  obtain ⟨hname, hunwritable⟩ := emitter.breaksIn_unitText unit name hbreaks
  exact ⟨(writable_or_holdsGroup hvalid hunit name hname).resolve_left hunwritable, hunwritable⟩

/-- An option in a field of a class. -/
def mostOption : ArgInput :=
  ⟨⟨"demo.Limits.most"⟩, .option, ["--most"], none, "1", [], "String", [], none, false, false,
    .ofCommand, "", none, false, false, none, none, none, none, false⟩

/-- A command with a group of arguments in a field whose name has a hyphen. -/
def limitsInField : Manifest where
  symbols :=
    .ofList
      [⟨⟨"demo"⟩, "demo", none, [], .package⟩,
        ⟨⟨"demo.Tool"⟩, "Tool", some ⟨"demo"⟩, [], .classType none none none⟩,
        ⟨⟨"demo.Tool.max-size"⟩, "max-size", some ⟨"demo.Tool"⟩, [], .field "demo.Limits" true⟩,
        ⟨⟨"demo.Limits"⟩, "Limits", some ⟨"demo"⟩, [], .classType none none none⟩,
        ⟨⟨"demo.Limits.most"⟩, "most", some ⟨"demo.Limits"⟩, [], .field "String" false⟩]
  elements :=
    [{ CommandInput.bare ⟨"demo.Tool"⟩ with
        command := some ⟨"tool", []⟩
        argGroups := [⟨[mostOption], false, none, none⟩] }]

/-- Takes every text. -/
def acceptAll : ArtifactSink Id := ⟨fun _ _ => .ok ()⟩

theorem emit_limitsInField {emitter : Emitter} (h : Emitter.ofSettings {} = .ok emitter) :
    emitter.emit acceptAll (ofManifest {} limitsInField).units = .error "max-size" := by
  have hends : (Emitter.ofSettings {}).map (fun emitter =>
      (emitter.emit acceptAll (ofManifest {} limitsInField).units).map fun _ => ()) =
        .ok (.error "max-size") := by
    decide +kernel
  rw [h, Except.map, Except.ok.injEq] at hends
  cases hemit : emitter.emit acceptAll (ofManifest {} limitsInField).units with
  | ok report =>
    rw [hemit] at hends
    cases hends
  | error name =>
    rw [hemit] at hends
    cases hends
    rfl

/-- The emission ends at the field, and nothing is reported. -/
theorem breaks_limitsInField :
    (ofManifest {} limitsInField).diagnostics = [] ∧
      ∃ emitter, Emitter.ofSettings {} = .ok emitter ∧
        emitter.emit acceptAll (ofManifest {} limitsInField).units = .error "max-size" := by
  obtain ⟨emitter, hemitter⟩ := Emitter.exists_ofSettings Naming.validate_default .absent
  exact ⟨by decide +kernel, emitter, hemitter, emit_limitsInField hemitter⟩

/-- The field holds a group, and there is no identifier for its name. -/
theorem holdsGroup_limitsInField :
    Settings.validate {} = .ok {} ∧
      (Registry.ofManifest {} limitsInField).HoldsGroup "max-size" ∧ ¬ Writable "max-size" := by
  obtain ⟨-, hemits⟩ := breaks_only_at_group_fields Naming.validate_default limitsInField
  obtain ⟨emitter, hemitter, hemits⟩ := hemits .absent
  have hends := hemits acceptAll
  rw [SatisfiesM_Id_eq] at hends
  exact ⟨Naming.validate_default, hends "max-size" (emit_limitsInField hemitter)⟩

end Compilation

end CommandFactory
