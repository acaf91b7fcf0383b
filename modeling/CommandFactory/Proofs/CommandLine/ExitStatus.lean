import CommandFactory.CommandLine.Execution
import CommandFactory.Proofs.Artifact.Emission
import Mathlib

/-!
# Exit statuses

What a pass reports, and the status with which its command ends. A run that generates fails exactly if
the compilation collected an error or broke off, be its texts written or only shown. An inspection
never fails, and a replay fails only if there is no specification to show, so these two end with
status 0 also on reported errors (`CommandLine.exit_statuses`, `CommandLine.errors_unseen_strayElement`).
-/

set_option autoImplicit false

namespace CommandFactory

namespace CommandLine

variable {m : Type → Type} [Monad m] {settings : Settings}

/-! ## Generating -/

/-- The diagnostics that a compilation into a sink collects, unless it breaks off. -/
def collected (formatter : Formatter) (sink : ArtifactSink m) (manifest : Manifest)
    (settings : Settings) : m (Option (List Diagnostic)) := do
  match Emitter.ofSettings settings formatter with
  | .error _ => return none
  | .ok emitter =>
      let compilation := Compilation.ofManifest settings manifest
      match ← emitter.emit sink compilation.units with
      | .error _ => return none
      | .ok report => return some (compilation.diagnostics ++ report.diagnostics)

/-- The status for the diagnostics of a compilation that may have broken off. -/
def statusOf : Option (List Diagnostic) → Nat
  | none => brokenOff.exit
  | some log => if Diagnostics.hasErrors log then 1 else 0

/-- The last lines of a report fail on errors, and on nothing else. -/
theorem exit_finish (shown : List String) (before : List Diagnostic) (report : EmitReport) :
    (finish shown before report).exit = statusOf (some (before ++ report.diagnostics)) := by
  rw [finish, statusOf]
  cases Diagnostics.hasErrors (before ++ report.diagnostics) <;> rfl

/-- A run that writes ends with the status of what the compilation collects on the way. -/
theorem exit_generate_written [LawfulMonad m] (hvalid : settings.validate = .ok settings)
    (manifest : Manifest) (files : FileAccess m) (formatter : Formatter) (output : FilePath) :
    Outcome.exit <$> generate files formatter output false manifest settings =
      statusOf <$> collected formatter (files.sink output) manifest settings := by
  obtain ⟨emitter, hemitter⟩ := Emitter.exists_ofSettings hvalid formatter
  simp only [generate, collected, hemitter, Bool.false_eq_true, if_false, map_bind]
  refine bind_congr fun emitted => ?_
  cases emitted with
  | error name => rw [map_pure, map_pure, statusOf]
  | ok report => rw [map_pure, map_pure, exit_finish]

/-- A run that only shows the texts ends with the status of a compilation into memory. -/
theorem exit_generate_shown [LawfulMonad m] (hvalid : settings.validate = .ok settings)
    (manifest : Manifest) (files : FileAccess m) (formatter : Formatter) (output : FilePath) :
    Outcome.exit <$> generate files formatter output true manifest settings =
      pure (statusOf ((collected formatter MemorySink.sink manifest settings).run ⟨[]⟩).1) := by
  obtain ⟨emitter, hemitter⟩ := Emitter.exists_ofSettings hvalid formatter
  simp only [generate, collected, hemitter, if_true, StateT.run_bind]
  rcases (emitter.emit MemorySink.sink (Compilation.ofManifest settings manifest).units).run ⟨[]⟩
    with ⟨name | report, memory⟩
  · exact map_pure _ _
  · exact (map_pure _ _).trans (congrArg pure (exit_finish _ _ _))

/-! ## Replaying -/

/-- A replay is shown with status 0 exactly if there is a specification to show. -/
theorem exit_replay_eq_zero_iff (element : String) (manifest : Manifest) (settings : Settings) :
    (replay element manifest settings).exit = 0 ↔
      ∃ made, (Compilation.ofManifest settings manifest).replay? ⟨element⟩ = some made ∧
        ∃ spec store, made .empty = .ok (spec, store) := by
  rw [replay]
  cases (Compilation.ofManifest settings manifest).replay? ⟨element⟩ with
  | none => simp [Outcome.failed]
  | some made =>
    have hrun : made.run .empty = made .empty := rfl
    simp only [hrun, Option.some.injEq, exists_eq_left']
    cases made .empty with
    | error fault => simp [Outcome.failed]
    | ok result => exact ⟨fun _ => ⟨result.1, result.2, rfl⟩, fun _ => rfl⟩

/-! ## All commands -/

/-- Under checked settings a run that generates ends with the status of what it collects. What an
analysis reports does not count for an inspection, and what a compilation reports does not count for a
replay. -/
theorem exit_statuses (hvalid : settings.validate = .ok settings) (manifest : Manifest) :
    (∀ {m : Type → Type} [Monad m] [LawfulMonad m] (files : FileAccess m) (formatter : Formatter)
        (output : FilePath),
      Outcome.exit <$> generate files formatter output false manifest settings =
          statusOf <$> collected formatter (files.sink output) manifest settings ∧
        Outcome.exit <$> generate files formatter output true manifest settings =
          pure (statusOf ((collected formatter MemorySink.sink manifest settings).run ⟨[]⟩).1)) ∧
      (∀ path json, (inspect path json manifest settings).exit = 0) ∧
      ∀ element, (replay element manifest settings).exit = 0 ↔
        ∃ made, (Compilation.ofManifest settings manifest).replay? ⟨element⟩ = some made ∧
          ∃ spec store, made .empty = .ok (spec, store) := by
  refine ⟨fun files formatter output => ⟨?_, ?_⟩, fun path json => ?_, fun element => ?_⟩
  · exact exit_generate_written hvalid manifest files formatter output
  · exact exit_generate_shown hvalid manifest files formatter output
  · cases json <;> rfl
  · exact exit_replay_eq_zero_iff element manifest settings

/-- A command, and an element that is no symbol. -/
def strayElement : Manifest where
  symbols :=
    .ofList
      [⟨⟨"demo"⟩, "demo", none, [], .package⟩,
        ⟨⟨"demo.Tool"⟩, "Tool", some ⟨"demo"⟩, [], .classType none none none⟩]
  elements :=
    [{ CommandInput.bare ⟨"demo.Tool"⟩ with command := some ⟨"tool", []⟩ },
      { CommandInput.bare ⟨"demo.Stray"⟩ with command := some ⟨"stray", []⟩ }]

/-- The element is an error of the analysis and of the compilation, and both commands end with
status 0. -/
theorem errors_unseen_strayElement :
    Settings.validate {} = .ok {} ∧
      Diagnostics.hasErrors (Analysis.ofManifest {} strayElement).diagnostics = true ∧
      (∀ path json, (inspect path json strayElement {}).exit = 0) ∧
      Diagnostics.hasErrors (Compilation.ofManifest {} strayElement).diagnostics = true ∧
      (replay "demo.Tool" strayElement {}).exit = 0 := by
  refine ⟨Naming.validate_default, by decide +kernel, fun path json => ?_, by decide +kernel,
    by decide +kernel⟩
  cases json <;> rfl

theorem exit_statuses_strayElement :
    Settings.validate {} = .ok {} ∧
      (∀ path json, (inspect path json strayElement {}).exit = 0) ∧
      ∃ made, (Compilation.ofManifest {} strayElement).replay? ⟨"demo.Tool"⟩ = some made ∧
        ∃ spec store, made .empty = .ok (spec, store) := by
  obtain ⟨-, hinspect, hreplay⟩ := exit_statuses Naming.validate_default strayElement
  exact ⟨Naming.validate_default, hinspect, (hreplay "demo.Tool").1 (by decide +kernel)⟩

end CommandLine

end CommandFactory
