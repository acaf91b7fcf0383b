import CommandFactory.Proofs.Registry.Entry

/-!
# Elements that leave no trace

An element that no command can be made for leaves one error at the element, and an element that was
taken in before leaves one warning there. Neither leaves anything else, so the others are taken in as
if these were not in the list (`Registry.extract_sift`).

`SymbolTable.sift` tells the two apart from the symbol table and the list alone. An extraction adds to
the reports and never looks at them (`Extraction.Appends`), so what an element leaves there does not
change what becomes of the elements after it.
-/

set_option autoImplicit false

namespace CommandFactory

/-! ## Sifting -/

/-- Why no command can be made for an identity: it is unknown, it belongs to a method that lies in no
known class, or to neither a class nor a method. -/
def SymbolTable.refusal? (table : SymbolTable) (id : SymbolId) : Option Failure :=
  match table.get? id with
  | none => some (.unknownSymbol id)
  | some symbol =>
      match symbol.kind with
      | .classType .. => none
      | .method _ =>
          if (symbol.owner.bind fun owner => table.get? owner).any Symbol.isClass then none
          else some (.unsupportedElement id .methodOutsideClass)
      | kind => some (.unsupportedElement id (.kind kind.describe))

/-- The report on an element that is left out, when the elements of some identities have been taken
in. -/
def SymbolTable.stray? (table : SymbolTable) (taken : List SymbolId) (id : SymbolId) :
    Option Diagnostic :=
  match table.refusal? id with
  | some failure => some (.ofFailure id failure)
  | none =>
      if id ∈ taken then
        some (.warningAt id "Element declared more than once; keeping the first")
      else
        none

/-- The elements of a list that are taken in, and a report for each of the others. -/
structure Sifted where
  kept : List CommandInput
  strays : List Diagnostic
  deriving Repr, Inhabited

/-- Sifts a list of elements, when the elements of some identities have been taken in. -/
def SymbolTable.sift (table : SymbolTable) : List SymbolId → List CommandInput → Sifted
  | _, [] => ⟨[], []⟩
  | taken, input :: rest =>
      match table.stray? taken input.element with
      | some report =>
          let sifted := table.sift taken rest
          { sifted with strays := report :: sifted.strays }
      | none =>
          let sifted := table.sift (input.element :: taken) rest
          { sifted with kept := input :: sifted.kept }

/-- The first list is made up of the other two, each of them in its order. -/
structure MadeUpOf (all kept strays : List Diagnostic) : Prop where
  perm : all.Perm (kept ++ strays)
  kept : kept.Sublist all
  strays : strays.Sublist all

namespace MadeUpOf

variable {all kept strays : List Diagnostic}

theorem nil : MadeUpOf [] [] [] := ⟨.nil, .slnil, .slnil⟩

theorem cons_stray (h : MadeUpOf all kept strays) (report : Diagnostic) :
    MadeUpOf (report :: all) kept (report :: strays) where
  perm := (h.perm.cons report).trans List.perm_middle.symm
  kept := h.kept.cons report
  strays := h.strays.cons_cons report

theorem append_kept (h : MadeUpOf all kept strays) (reports : List Diagnostic) :
    MadeUpOf (reports ++ all) (reports ++ kept) strays where
  perm := by
    rw [List.append_assoc]
    exact h.perm.append_left reports
  kept := h.kept.append_left reports
  strays := h.strays.trans (List.sublist_append_right reports all)

theorem kept_append (h : MadeUpOf all kept strays) (reports : List Diagnostic) :
    MadeUpOf (all ++ reports) (kept ++ reports) strays where
  perm := by
    have hlast : (kept ++ strays ++ reports).Perm (kept ++ reports ++ strays) := by
      rw [List.append_assoc, List.append_assoc]
      exact List.perm_append_comm.append_left kept
    exact (h.perm.append_right reports).trans hlast
  kept := h.kept.append_right reports
  strays := h.strays.trans (List.sublist_append_left all reports)

end MadeUpOf

/-! ## Reports -/

namespace Registry

variable (registry : Registry) (reports : List Diagnostic)

/-- The registry with other reports. -/
def withReports : Registry := { registry with diagnostics := reports }

@[simp]
theorem symbols_withReports : (registry.withReports reports).symbols = registry.symbols := rfl

@[simp]
theorem declarations_withReports :
    (registry.withReports reports).declarations = registry.declarations := rfl

@[simp]
theorem command?_withReports (id : SymbolId) :
    (registry.withReports reports).command? id = registry.command? id := rfl

theorem insert_withReports (declaration : Declaration) :
    (registry.withReports reports).insert declaration =
      (registry.insert declaration).withReports reports := by
  have haccepts : (registry.withReports reports).accepts declaration =
      registry.accepts declaration := rfl
  unfold insert
  rw [haccepts]
  split <;> rfl

theorem enclosingScope_withReports (levels : Nat) (owner : Option SymbolId) :
    enclosingScope levels (registry.withReports reports) owner =
      ((enclosingScope levels registry owner).1,
        (enclosingScope levels registry owner).2.withReports reports) := by
  fun_induction enclosingScope levels registry owner with
  | case1 levels registry owner hnone =>
    rw [enclosingScope.eq_def]
    simp only [symbols_withReports, hnone]
  | case2 registry owner symbol hsome =>
    rw [enclosingScope.eq_def]
    simp only [symbols_withReports, hsome]
  | case3 registry owner symbol hsome levels hkind =>
    rw [enclosingScope.eq_def]
    simp only [symbols_withReports, hsome, hkind]
  | case4 registry owner symbol hsome levels superclass typePath members hkind hknown =>
    rw [enclosingScope.eq_def]
    simp only [symbols_withReports, declarations_withReports, hsome, hkind, hknown, if_true]
  | case5 registry owner symbol hsome levels superclass typePath members hkind hnew scope next heq
      ih =>
    rw [enclosingScope.eq_def]
    simp only [symbols_withReports, declarations_withReports, hsome, hkind, hnew, ih, heq,
      insert_withReports]
    rfl
  | case6 registry owner symbol hsome levels hpackage hclass ih =>
    rw [enclosingScope.eq_def, ← ih]
    simp only [symbols_withReports, hsome]

theorem ensureContainer_withReports (symbol : Symbol) :
    (registry.withReports reports).ensureContainer symbol =
      (registry.ensureContainer symbol).withReports reports := by
  unfold ensureContainer
  by_cases hknown : registry.declarations.contains symbol.id = true
  · simp only [declarations_withReports, hknown, if_true]
  · simp only [declarations_withReports, hknown, enclosingScope_withReports, insert_withReports]
    rfl

theorem root_withReports (symbol : Symbol) :
    (registry.withReports reports).root symbol =
      (registry.root symbol).map fun found => (found.1, found.2.1, found.2.2.withReports reports) := by
  unfold root
  cases hkind : symbol.kind with
  | classType superclass typePath members =>
    simp only [enclosingScope_withReports]
    rfl
  | method params =>
    simp only [symbols_withReports, ensureContainer_withReports]
    cases (symbol.owner.bind fun id => registry.symbols.get? id).filter Symbol.isClass <;> rfl
  | package => rfl
  | field type argGroup => rfl
  | parameter type => rfl

end Registry

namespace Extraction

open Registry

variable {state : Extraction} {input : CommandInput} {inputs : List CommandInput}

/-- The extraction with other reports. -/
def withReports (state : Extraction) (reports : List Diagnostic) : Extraction :=
  { state with registry := state.registry.withReports reports }

/-- The change does not look at the reports, and adds the same to them whatever they are. -/
def Appends (change : Extraction → Extraction) : Prop :=
  ∀ state, ∃ added, ∀ reports,
    change (state.withReports reports) = (change state).withReports (reports ++ added)

theorem Appends.foldl {α : Type} {change : Extraction → α → Extraction}
    (h : ∀ a, Appends fun state => change state a) (items : List α) :
    Appends fun state => items.foldl change state := by
  induction items with
  | nil =>
    intro state
    refine ⟨[], fun reports => ?_⟩
    rw [List.append_nil]
    rfl
  | cons a rest ih =>
    intro state
    obtain ⟨first, hfirst⟩ := h a state
    obtain ⟨later, hlater⟩ := ih (change state a)
    refine ⟨first ++ later, fun reports => ?_⟩
    calc rest.foldl change (change (state.withReports reports) a)
      _ = rest.foldl change ((change state a).withReports (reports ++ first)) :=
        congrArg (rest.foldl change) (hfirst reports)
      _ = (rest.foldl change (change state a)).withReports (reports ++ first ++ later) :=
        hlater (reports ++ first)
      _ = (rest.foldl change (change state a)).withReports (reports ++ (first ++ later)) := by
        rw [List.append_assoc]

theorem appends_element (input : CommandInput) : Appends fun state => state.element input := by
  intro state
  refine ⟨(state.entry input).reports, fun reports => ?_⟩
  unfold element entry CommandInput.entry
  simp only [withReports, symbols_withReports, command?_withReports, root_withReports]
  cases hget : state.registry.symbols.get? input.element with
  | none => rfl
  | some symbol =>
    by_cases hknown : (state.registry.command? input.element).isSome = true
    · simp only [hknown, if_true]
      rfl
    · simp only [hknown, if_false, Bool.false_eq_true]
      obtain ⟨-, hid⟩ := Keyed.get?_eq_some_iff.1 hget
      rcases root_eq (hid.symm ▸ hget : state.registry.symbols.get? symbol.id = some symbol) with
        ⟨failure, hrooting, hroot⟩ | ⟨rooting, next, hrooting, hroot, hnext⟩
      · simp only [hrooting, hroot]
        rfl
      · simp only [hrooting, hroot, Except.map, symbols_withReports, hnext.symbols_eq]
        have hreport : ∀ more, (next.withReports reports).report more =
            (next.report more).withReports (reports ++ more) := fun _ => rfl
        rw [hreport, insert_withReports]

theorem appends_holder (group : SymbolId × ArgGroupInput) :
    Appends fun state => state.holder group := by
  intro state
  by_cases hknown : (state.registry.command? group.1).isSome = true
  · refine ⟨[], fun reports => ?_⟩
    have hknown' : ((state.withReports reports).registry.command? group.1).isSome = true := hknown
    simp only [holder, hknown, hknown', if_true, List.append_nil]
  · obtain ⟨added, hadded⟩ := appends_element (holderInput group.1 group.2) state
    refine ⟨added, fun reports => ?_⟩
    have hknown' : ¬ ((state.withReports reports).registry.command? group.1).isSome = true := hknown
    simp only [holder, hknown, hknown']
    exact hadded reports

/-- The groups that wait are not among the reports either. -/
theorem appends_holders : Appends holders := by
  intro state
  exact Appends.foldl appends_holder state.pending state

/-! ## Elements -/

/-- What was taken in before are the commands there are, all of which can be made. -/
structure Took (state : Extraction) (taken : List SymbolId) : Prop where
  known : ∀ id, (state.registry.command? id).isSome = true ↔ id ∈ taken
  hosted : ∀ id ∈ taken, state.registry.symbols.refusal? id = none

/-- The symbol table refuses the elements that no command can be rooted for. -/
theorem refusal?_eq {table : SymbolTable} {symbol : Symbol} (h : table.get? symbol.id = some symbol) :
    table.refusal? symbol.id =
      match table.rooting? symbol with
      | .error failure => some failure
      | .ok _ => none := by
  simp only [SymbolTable.refusal?, h, SymbolTable.rooting?]
  cases hkind : symbol.kind with
  | method params =>
    cases howner : symbol.owner.bind fun id => table.get? id with
    | none => rfl
    | some owner =>
      rw [Option.filter_some, Option.any_some]
      cases owner.isClass <;> rfl
  | classType superclass typePath members => rfl
  | package => rfl
  | field type argGroup => rfl
  | parameter type => rfl

/-- A stray element leaves its report. -/
theorem element_stray {taken : List SymbolId} {report : Diagnostic} (htook : state.Took taken)
    (hstray : state.registry.symbols.stray? taken input.element = some report) :
    state.element input = state.withReports (state.registry.diagnostics ++ [report]) := by
  unfold SymbolTable.stray? at hstray
  unfold element
  cases hget : state.registry.symbols.get? input.element with
  | none =>
    have hrefusal : state.registry.symbols.refusal? input.element =
        some (.unknownSymbol input.element) := by
      simp only [SymbolTable.refusal?, hget]
    rw [hrefusal] at hstray
    cases hstray
    simp only [hget]
    rfl
  | some symbol =>
    obtain ⟨-, hid⟩ := Keyed.get?_eq_some_iff.1 hget
    have hself : state.registry.symbols.get? symbol.id = some symbol := hid.symm ▸ hget
    have hrefusal := refusal?_eq hself
    rw [hid] at hrefusal
    by_cases hknown : (state.registry.command? input.element).isSome = true
    · -- What was taken in before is not refused, so this is a repetition.
      have htaken := (htook.known input.element).1 hknown
      simp only [htook.hosted _ htaken, htaken, if_true] at hstray
      cases hstray
      simp only [hget, hknown, if_true]
      rfl
    · have hfresh : input.element ∉ taken := fun htaken => hknown ((htook.known _).2 htaken)
      rcases root_eq hself with
        ⟨failure, hrooting, hroot⟩ | ⟨rooting, next, hrooting, hroot, -⟩
      · simp only [hrooting] at hrefusal
        simp only [hrefusal] at hstray
        cases hstray
        simp only [hget, hknown, hroot]
        rfl
      · simp only [hrooting] at hrefusal
        simp only [hrefusal, hfresh, if_false] at hstray
        cases hstray

/-- An element that is no stray becomes a command. -/
theorem Took.element {taken : List SymbolId} (htook : state.Took taken)
    (hstray : state.registry.symbols.stray? taken input.element = none) :
    (state.element input).Took (input.element :: taken) := by
  have hrefusal : state.registry.symbols.refusal? input.element = none := by
    cases hrefusal : state.registry.symbols.refusal? input.element with
    | none => rfl
    | some failure => simp [SymbolTable.stray?, hrefusal] at hstray
  have hfresh : input.element ∉ taken := by
    intro htaken
    simp [SymbolTable.stray?, hrefusal, htaken] at hstray
  obtain ⟨hsymbols, hcommand, -, -⟩ := element_entry state input
  -- The element is new and can be rooted, so its entry has a command.
  obtain ⟨d, hd⟩ : ∃ d, (state.entry input).command = some d := by
    have hknown : (state.registry.command? input.element).isSome = false := by
      rw [← Bool.not_eq_true, htook.known]
      exact hfresh
    cases hget : state.registry.symbols.get? input.element with
    | none => simp [SymbolTable.refusal?, hget] at hrefusal
    | some symbol =>
      obtain ⟨-, hid⟩ := Keyed.get?_eq_some_iff.1 hget
      rw [← hid, refusal?_eq (hid.symm ▸ hget)] at hrefusal
      cases hrooting : state.registry.symbols.rooting? symbol with
      | error failure => simp [hrooting] at hrefusal
      | ok rooting => simp [entry, CommandInput.entry, hget, hknown, hrooting]
  have hid := CommandInput.id_of_entry hd
  constructor
  · intro id
    rw [hcommand, hd, List.mem_cons, ← htook.known id, ← hid]
    by_cases hsame : d.id = id
    · simp [hsame]
    · simp [hsame, Ne.symm hsame]
  · rw [List.forall_mem_cons, hsymbols]
    exact ⟨hrefusal, htook.hosted⟩

theorem elements_cons (state : Extraction) (input : CommandInput) (rest : List CommandInput) :
    state.elements (input :: rest) = (state.element input).elements rest := rfl

/-- A list of elements comes to what its sifted elements come to, but for the reports on the
strays. -/
theorem elements_sift {taken : List SymbolId} (htook : state.Took taken) :
    ∃ all kept, MadeUpOf all kept (state.registry.symbols.sift taken inputs).strays ∧
      ∀ reports,
        (state.withReports reports).elements inputs =
          (state.elements (state.registry.symbols.sift taken inputs).kept).withReports
            (reports ++ all) ∧
        (state.withReports reports).elements (state.registry.symbols.sift taken inputs).kept =
          (state.elements (state.registry.symbols.sift taken inputs).kept).withReports
            (reports ++ kept) := by
  induction inputs generalizing state taken with
  | nil =>
    refine ⟨[], [], .nil, fun reports => ?_⟩
    rw [List.append_nil]
    exact ⟨rfl, rfl⟩
  | cons input rest ih =>
    cases hstray : state.registry.symbols.stray? taken input.element with
    | some report =>
      obtain ⟨all, kept, hmade, hafter⟩ := ih htook
      simp only [SymbolTable.sift, hstray]
      refine ⟨report :: all, kept, hmade.cons_stray report, fun reports => ⟨?_, (hafter reports).2⟩⟩
      have htook' : (state.withReports reports).Took taken := ⟨htook.known, htook.hosted⟩
      rw [elements_cons, element_stray htook' hstray]
      exact ((hafter (reports ++ [report])).1).trans (by rw [List.append_assoc, List.singleton_append])
    | none =>
      obtain ⟨all, kept, hmade, hafter⟩ := ih (htook.element hstray)
      obtain ⟨added, hadded⟩ := appends_element input state
      simp only [(element_entry state input).1] at hmade hafter
      simp only [SymbolTable.sift, hstray]
      refine ⟨added ++ all, added ++ kept, hmade.append_kept added, fun reports => ?_⟩
      obtain ⟨hall, hkept⟩ := hafter (reports ++ added)
      simp only [elements_cons, ← List.append_assoc]
      exact ⟨(congrArg (elements · rest) (hadded reports)).trans hall,
        (congrArg (elements · _) (hadded reports)).trans hkept⟩

end Extraction

/-! ## Extractions -/

/-- A list of elements gives the declarations that it gives without the elements that no command can
be made for and without repetitions, in the same order. Each element that is left out so adds its one
report to those on the others. -/
theorem Registry.extract_sift (symbols : SymbolTable) (settings : Settings)
    (inputs : List CommandInput) :
    let sifted := symbols.sift [] inputs
    let whole := (start symbols settings).extract inputs
    let kept := (start symbols settings).extract sifted.kept
    whole.declarations = kept.declarations ∧
      MadeUpOf whole.diagnostics kept.diagnostics sifted.strays := by
  intro sifted whole kept
  let begun := Extraction.mk (start symbols settings) []
  have htook : begun.Took [] :=
    ⟨fun id => by simp [begun, start, command?, get?, Keyed.empty, Keyed.get?],
      fun _ hmem => nomatch hmem⟩
  obtain ⟨ofAll, ofKept, hmade, hafter⟩ := @Extraction.elements_sift begun inputs [] htook
  obtain ⟨held, hheld⟩ := Extraction.appends_holders (begun.elements sifted.kept)
  -- Both extractions end with the holders of the same groups, under different reports.
  have hwhole : whole =
      (begun.elements sifted.kept).holders.registry.withReports (ofAll ++ held) :=
    congrArg Extraction.registry
      ((congrArg Extraction.holders (hafter []).1).trans (hheld ofAll))
  have hkept : kept =
      (begun.elements sifted.kept).holders.registry.withReports (ofKept ++ held) :=
    congrArg Extraction.registry
      ((congrArg Extraction.holders (hafter []).2).trans (hheld ofKept))
  rw [hwhole, hkept]
  exact ⟨rfl, hmade.kept_append held⟩

end CommandFactory
