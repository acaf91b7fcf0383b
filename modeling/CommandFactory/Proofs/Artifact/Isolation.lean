import CommandFactory.Artifact.Emission

/-!
# Failed artifacts

A unit that does not render, and a text that the sink refuses, keep one artifact back and touch no
other. As long as no rendering breaks off, an emission hands the texts of the units that render to the
sink, each once and in order, whatever the sink answers, and all that it reports can be read off the
fates of the units (`Emitter.emit_eq`).

The text of a unit is the header and the printed tokens, as the formatter lays them out where it is
asked to and does not fail (`Emitter.IsText`). A formatter that fails keeps no artifact back.
-/

set_option autoImplicit false

namespace CommandFactory

/-! ## Fates -/

/-- What became of a unit: its text went out, or there is a failure that kept it back. -/
structure Fate where
  unit : OutputUnit
  failure : Option Failure

/-- The failure that a fault of rendering is. A name without an identifier is none: it ends the
emission. -/
def RenderFault.failure? : RenderFault → Option Failure
  | .typePath text => some (.invalidTypePath text)
  | .unwritable _ => none

/-- The failure that an answer of the sink to the text of a unit is. -/
def OutputUnit.writeFailure? (unit : OutputUnit) : Except IoError Unit → Option Failure
  | .ok _ => none
  | .error e => some (.artifactWrite unit.element e)

namespace EmitReport

/-- The report on fates: the paths of the artifacts that went out, those of the artifacts that were
kept back, and an error for each of the latter. -/
def ofFates (fates : List Fate) : EmitReport where
  written := (fates.filter fun fate => fate.failure.isNone).map fun fate => fate.unit.relativePath
  failed := (fates.filter fun fate => fate.failure.isSome).map fun fate => fate.unit.relativePath
  diagnostics :=
    fates.filterMap fun fate => fate.failure.map fun failure => .ofFailure fate.unit.element failure

/-- A report followed by another. -/
def append (first later : EmitReport) : EmitReport :=
  ⟨first.written ++ later.written, first.failed ++ later.failed,
    first.diagnostics ++ later.diagnostics⟩

theorem append_ofFates_nil (report : EmitReport) : report.append (ofFates []) = report := by
  simp [append, ofFates]

theorem empty_append (report : EmitReport) : empty.append report = report := rfl

theorem wrote_append_ofFates (report : EmitReport) (unit : OutputUnit) (fates : List Fate) :
    (report.wrote unit).append (ofFates fates) = report.append (ofFates (⟨unit, none⟩ :: fates)) := by
  simp [append, ofFates, wrote]

theorem lost_append_ofFates (report : EmitReport) (unit : OutputUnit) (failure : Failure)
    (fates : List Fate) :
    (report.lost unit failure).append (ofFates fates) =
      report.append (ofFates (⟨unit, some failure⟩ :: fates)) := by
  simp [append, ofFates, lost]

end EmitReport

namespace Emitter

variable (emitter : Emitter)

/-! ## Texts -/

/-- A printed text comes into an artifact as another text or as it is. -/
inductive LaysOut (emitter : Emitter) (printed : String) : String → Prop
  | formatted {text : String} (asked : emitter.settings.rustfmt = true)
      (answer : emitter.formatter.format printed = .ok text) : LaysOut emitter printed text
  | failed {e : IoError} (asked : emitter.settings.rustfmt = true)
      (answer : emitter.formatter.format printed = .error e) : LaysOut emitter printed printed
  | unasked (unasked : emitter.settings.rustfmt = false) : LaysOut emitter printed printed

theorem laysOut_iff {printed text : String} :
    emitter.LaysOut printed text ↔ emitter.layOut printed = text := by
  constructor
  · intro h
    cases h with
    | formatted asked answer => rw [layOut, if_pos asked, answer]
    | failed asked answer => rw [layOut, if_pos asked, answer]
    | unasked unasked => rw [layOut, unasked, if_neg Bool.false_ne_true]
  · rintro rfl
    unfold layOut
    split
    · rename_i asked
      cases answer : emitter.formatter.format printed with
      | ok text => exact .formatted asked answer
      | error e => exact .failed asked answer
    · rename_i unasked
      exact .unasked (Bool.eq_false_iff.2 unasked)

/-- The text of a unit that renders: the header if the settings ask for it, the printed tokens as they
are laid out, and the end of the last line. -/
def IsText (unit : OutputUnit) (text : String) : Prop :=
  ∃ tokens body, emitter.renderer.moduleBody unit.module = .ok tokens ∧
    emitter.LaysOut (Token.print tokens) body ∧
      text = endLine ((if emitter.settings.emitHeader then header else "") ++ body)

/-- Nothing but the renderer decides whether a unit has a text. -/
theorem unitText_of_rendered {unit : OutputUnit} {tokens : List Token}
    (h : emitter.renderer.moduleBody unit.module = .ok tokens) :
    emitter.unitText unit = .ok (endLine
      ((if emitter.settings.emitHeader then header else "") ++
        emitter.layOut (Token.print tokens))) := by
  rw [unitText, h]
  rfl

theorem unitText_eq_ok_iff {unit : OutputUnit} {text : String} :
    emitter.unitText unit = .ok text ↔ emitter.IsText unit text := by
  cases htokens : emitter.renderer.moduleBody unit.module with
  | error fault =>
    rw [unitText, htokens]
    refine iff_of_false (fun h => nomatch h) ?_
    rintro ⟨tokens, body, hrendered, -⟩
    cases htokens.symm.trans hrendered
  | ok tokens =>
    rw [emitter.unitText_of_rendered htokens, Except.ok.injEq]
    constructor
    · rintro rfl
      exact ⟨tokens, _, htokens, (emitter.laysOut_iff).2 rfl, rfl⟩
    · rintro ⟨found, body, hrendered, hbody, rfl⟩
      cases htokens.symm.trans hrendered
      rw [(emitter.laysOut_iff).1 hbody]

/-! ## Runs -/

/-- The rendering of a unit does not break off. -/
def Completes (unit : OutputUnit) : Prop :=
  ∀ name, emitter.unitText unit ≠ .error (.unwritable name)

instance (unit : OutputUnit) : Decidable (emitter.Completes unit) :=
  match h : emitter.unitText unit with
  | .ok _ => isTrue fun _ hbroken => nomatch h.symm.trans hbroken
  | .error (.typePath _) => isTrue fun _ hbroken => nomatch h.symm.trans hbroken
  | .error (.unwritable name) => isFalse fun hcompletes => hcompletes name h

/-- The texts of the units that render, with their paths. -/
def artifacts (units : List OutputUnit) : List (FilePath × String) :=
  units.filterMap fun unit =>
    match emitter.unitText unit with
    | .ok text => some (unit.relativePath, text)
    | .error _ => none

/-- The artifacts of units are their texts. -/
theorem mem_artifacts_iff {units : List OutputUnit} {path : FilePath} {text : String} :
    (path, text) ∈ emitter.artifacts units ↔
      ∃ unit ∈ units, unit.relativePath = path ∧ emitter.IsText unit text := by
  simp only [artifacts, List.mem_filterMap, ← unitText_eq_ok_iff]
  refine exists_congr fun unit => and_congr_right fun _ => ?_
  cases emitter.unitText unit with
  | ok found => simp
  | error fault => simp

/-- The fates of units, when the sink gives the answers to the texts of those that render. -/
def fates : List OutputUnit → List (Except IoError Unit) → List Fate
  | [], _ => []
  | unit :: rest, answers =>
      match emitter.unitText unit with
      | .ok _ => ⟨unit, answers.head?.bind unit.writeFailure?⟩ :: fates rest answers.tail
      | .error fault => ⟨unit, fault.failure?⟩ :: fates rest answers

/-- Every unit has one fate. -/
theorem map_unit_fates (units : List OutputUnit) (answers : List (Except IoError Unit)) :
    (emitter.fates units answers).map Fate.unit = units := by
  induction units generalizing answers with
  | nil => rfl
  | cons unit rest ih =>
    rw [fates]
    cases emitter.unitText unit with
    | ok text => exact congrArg (unit :: ·) (ih answers.tail)
    | error fault => exact congrArg (unit :: ·) (ih answers)

variable {m : Type → Type} [Monad m] [LawfulMonad m] (sink : ArtifactSink m)

/-- Hands the texts of the units that render to the sink, one after the other. -/
def writeAll (units : List OutputUnit) : m (List (Except IoError Unit)) :=
  (emitter.artifacts units).mapM fun artifact => sink.write artifact.1 artifact.2

/-- Units that are emitted after others add their fates to the report. -/
theorem emitFrom_eq {units : List OutputUnit} (h : ∀ unit ∈ units, emitter.Completes unit)
    (report : EmitReport) :
    emitter.emitFrom sink report units =
      (fun answers => .ok (report.append (.ofFates (emitter.fates units answers)))) <$>
        emitter.writeAll sink units := by
  induction units generalizing report with
  | nil =>
    rw [emitFrom, writeAll, artifacts, List.filterMap_nil, List.mapM_nil, map_pure, fates,
      EmitReport.append_ofFates_nil]
  | cons unit rest ih =>
    rw [List.forall_mem_cons] at h
    cases htext : emitter.unitText unit with
    | ok text =>
      have hwrites : emitter.writeAll sink (unit :: rest) = do
          let answer ← sink.write unit.relativePath text
          let answers ← emitter.writeAll sink rest
          return answer :: answers := by
        simp [writeAll, artifacts, htext]
      rw [emitFrom, hwrites, map_bind]
      simp only [htext]
      refine bind_congr fun answer => ?_
      -- The answer to this text goes into the report before the others are asked for.
      rw [bind_pure_comp, Functor.map_map]
      cases answer with
      | ok _ =>
        refine (ih h.2 (report.wrote unit)).trans ?_
        refine map_congr fun answers => ?_
        rw [EmitReport.wrote_append_ofFates, fates, htext]
        rfl
      | error e =>
        refine (ih h.2 (report.lost unit (.artifactWrite unit.element e))).trans ?_
        refine map_congr fun answers => ?_
        rw [EmitReport.lost_append_ofFates, fates, htext]
        rfl
    | error fault =>
      have hwrites : emitter.writeAll sink (unit :: rest) = emitter.writeAll sink rest := by
        simp [writeAll, artifacts, htext]
      cases fault with
      | typePath text =>
        rw [emitFrom, hwrites]
        simp only [htext]
        refine (ih h.2 (report.lost unit (.invalidTypePath text))).trans ?_
        refine map_congr fun answers => ?_
        rw [EmitReport.lost_append_ofFates, fates, htext]
        rfl
      | unwritable name => exact absurd htext (h.1 name)

/-- If no rendering breaks off, an emission hands the texts of the units that render to the sink, and
reports the fates of the units, one for each in order. -/
theorem emit_eq {units : List OutputUnit} (h : ∀ unit ∈ units, emitter.Completes unit) :
    emitter.emit sink units =
        (fun answers => .ok (.ofFates (emitter.fates units answers))) <$>
          emitter.writeAll sink units ∧
      (∀ answers, (emitter.fates units answers).map Fate.unit = units) ∧
      ∀ path text, (path, text) ∈ emitter.artifacts units ↔
        ∃ unit ∈ units, unit.relativePath = path ∧ emitter.IsText unit text :=
  ⟨emitter.emitFrom_eq sink h .empty, emitter.map_unit_fates units,
    fun _ _ => emitter.mem_artifacts_iff⟩

/-- A module with one procedure on instances of a type. -/
def unitOn (name instanceType : String) : OutputUnit where
  module :=
    ⟨⟨name⟩, name, ⟨["demo", name]⟩, .everyone, instanceType, false,
      [⟨⟨name⟩, "configure_all", .configureAll, instanceType, []⟩], []⟩
  package := some "demo"

/-- Puts no paths in front of names. -/
def bareRenderer : Renderer := ⟨[], []⟩

/-- The text of the module of a unit as it is printed. -/
def printed (unit : OutputUnit) : String :=
  match bareRenderer.moduleBody unit.module with
  | .ok tokens => Token.print tokens
  | .error _ => ""

/-- The lines of the module on instances of `A`, laid out. -/
def laidOutLines : String :=
  "#![allow(unused_imports, unused_variables, unused_mut, dead_code, clippy::all)]\n" ++
    "use ::\x7b\n" ++
    "    ArgGroupSpec, Bound, CommandSpec, MethodRef, OptionSpec, PositionalParamSpec, ScopeType,\n" ++
    "    SpecHandle, Upcast, Value,\n" ++
    "\x7d;\n" ++
    "pub fn configure_all(cs: &mut CommandSpec, obj: &Bound<A>) \x7b\x7d"

/-- The module on instances of `A`, laid out. -/
def laidOut : String := laidOutLines ++ "\n"

/-- Lays out the module on instances of `A`, and finds a fault in every other text. -/
def pickyFormatter : Formatter where
  format text :=
    if text = printed (unitOn "first" "A") then .ok laidOut
    else .error (.other "expected type, found reserved keyword")

/-- Writes headers, and has the module on instances of `A` laid out. -/
def pickyEmitter : Emitter := ⟨{ rustfmt := true }, bareRenderer, pickyFormatter⟩

theorem layOut_pickyEmitter (text : String) :
    pickyEmitter.layOut text = if text = printed (unitOn "first" "A") then laidOut else text := by
  by_cases hfirst : text = printed (unitOn "first" "A") <;>
    simp [layOut, pickyEmitter, pickyFormatter, hfirst]

theorem unitText_pickyEmitter {unit : OutputUnit}
    (h : (bareRenderer.moduleBody unit.module).isOk = true) :
    pickyEmitter.unitText unit = .ok (endLine (header ++ pickyEmitter.layOut (printed unit))) := by
  cases htokens : bareRenderer.moduleBody unit.module with
  | error fault =>
    rw [htokens] at h
    cases h
  | ok tokens =>
    rw [printed, htokens]
    exact pickyEmitter.unitText_of_rendered htokens

theorem endLine_append_newline (text : String) : endLine (text ++ "\n") = text ++ "\n" := by
  simp [endLine]

theorem unitText_pickyEmitter_first :
    pickyEmitter.unitText (unitOn "first" "A") = .ok (header ++ laidOut) := by
  have hlines : header ++ laidOut = header ++ laidOutLines ++ "\n" := (String.append_assoc ..).symm
  rw [unitText_pickyEmitter (by decide +kernel), layOut_pickyEmitter, if_pos rfl, hlines,
    endLine_append_newline]

theorem unitText_pickyEmitter_last :
    pickyEmitter.unitText (unitOn "last" "gen") =
      .ok (endLine (header ++ printed (unitOn "last" "gen"))) := by
  have hother : printed (unitOn "last" "gen") ≠ printed (unitOn "first" "A") := by decide +kernel
  rw [unitText_pickyEmitter (by decide +kernel), layOut_pickyEmitter, if_neg hother]

/-- Remembers the artifacts that came, and takes the first of them only. -/
def takesFirst : ArtifactSink (StateM (List (FilePath × String))) where
  write path text := do
    let before ← get
    set (before ++ [(path, text)])
    return if before.isEmpty then .ok () else .error (.other "read-only")

/-- A unit that does not render is not handed to the sink, and the refused one after it is. The first
text has been laid out below its header. The formatter fails on the other one, which goes out as it is
printed. -/
theorem emit_eq_takesFirst :
    let units := [unitOn "first" "A", unitOn "untyped" "A<", unitOn "last" "gen"]
    (∀ unit ∈ units, pickyEmitter.Completes unit) ∧
      ((pickyEmitter.emit takesFirst units).run []).1.toOption.map
          (fun report => (report.written, report.failed, report.diagnostics)) =
        some ([⟨"demo/first.rs"⟩], [⟨"demo/untyped.rs"⟩, ⟨"demo/last.rs"⟩],
          [.ofFailure ⟨"untyped"⟩ (.invalidTypePath "A<"),
            .ofFailure ⟨"last"⟩ (.artifactWrite ⟨"last"⟩ (.other "read-only"))]) ∧
      ((pickyEmitter.emit takesFirst units).run []).2 =
        [(⟨"demo/first.rs"⟩, header ++ laidOut),
          (⟨"demo/last.rs"⟩, endLine (header ++ printed (unitOn "last" "gen")))] := by
  intro units
  have hcompletes : ∀ unit ∈ units, pickyEmitter.Completes unit := by decide +kernel
  have huntyped : (pickyEmitter.unitText (unitOn "untyped" "A<")).isOk = false := by decide +kernel
  have hartifacts : pickyEmitter.artifacts units =
      [(⟨"demo/first.rs"⟩, header ++ laidOut),
        (⟨"demo/last.rs"⟩, endLine (header ++ printed (unitOn "last" "gen")))] := by
    simp only [artifacts, units, List.filterMap_cons, unitText_pickyEmitter_first,
      unitText_pickyEmitter_last]
    cases htext : pickyEmitter.unitText (unitOn "untyped" "A<") with
    | ok text =>
      rw [htext] at huntyped
      cases huntyped
    | error fault => rfl
  rw [(pickyEmitter.emit_eq takesFirst hcompletes).1, writeAll, hartifacts]
  exact ⟨hcompletes, by decide +kernel, rfl⟩

end Emitter

end CommandFactory
