import CommandFactory.Proofs.Registry.Growth

/-!
# What a plan keeps

A plan drops method-rooted commands only, and leaves an error for each. Every method-rooted command
that is kept has a suffix, and two of one class never have the same (`suffixOf_inj`). A synthesis
without errors keeps every command (`kept_eq_commands`).
-/

set_option autoImplicit false

namespace CommandFactory

namespace Diagnostics

theorem hasErrors_eq_false_iff {diagnostics : List Diagnostic} :
    hasErrors diagnostics = false ↔ ∀ d ∈ diagnostics, d.severity ≠ .error := by
  simp [hasErrors, count]

theorem hasErrors_append {a b : List Diagnostic} :
    hasErrors (a ++ b) = false ↔ hasErrors a = false ∧ hasErrors b = false := by
  simp only [hasErrors_eq_false_iff, List.forall_mem_append]

end Diagnostics

namespace Registry

variable {registry : Registry}

/-! ## Giving suffixes away -/

variable {unbound : List SymbolId}

theorem mem_assignSuffixes_of_mem (commands : List CommandDeclaration)
    (taken : List TakenSuffix) :
    ∀ t ∈ taken, t ∈ (registry.assignSuffixes unbound commands taken).1 := by
  fun_induction registry.assignSuffixes unbound commands taken with
  | case1 taken => exact fun t ht => ht
  | case2 d rest taken hnone ih => exact ih
  | case3 d rest taken classId suffix hsuffix hunbound ih => exact ih
  | case4 d rest taken classId suffix hsuffix hbound t hfind next collisions heq ih =>
    rw [heq] at ih
    exact ih
  | case5 d rest taken classId suffix hsuffix hbound hfind ih =>
    exact fun t ht => ih t (List.mem_append_left _ ht)

/-- A suffix is given to a command that asks for it. -/
theorem asked_of_mem_assignSuffixes (commands : List CommandDeclaration)
    (taken : List TakenSuffix) :
    ∀ t ∈ (registry.assignSuffixes unbound commands taken).1, t ∈ taken ∨
      ∃ d ∈ commands, registry.suffix? d = some (t.classId, t.suffix) ∧ t.holder = d.id := by
  fun_induction registry.assignSuffixes unbound commands taken with
  | case1 taken => exact fun t ht => Or.inl ht
  | case2 d rest taken hnone ih =>
    intro t ht
    refine (ih t ht).imp_right ?_
    rintro ⟨e, he, hasked⟩
    exact ⟨e, List.mem_cons_of_mem _ he, hasked⟩
  | case3 d rest taken classId suffix hsuffix hunbound ih =>
    intro t ht
    refine (ih t ht).imp_right ?_
    rintro ⟨e, he, hasked⟩
    exact ⟨e, List.mem_cons_of_mem _ he, hasked⟩
  | case4 d rest taken classId suffix hsuffix hbound t hfind next collisions heq ih =>
    intro t ht
    rw [heq] at ih
    refine (ih t ht).imp_right ?_
    rintro ⟨e, he, hasked⟩
    exact ⟨e, List.mem_cons_of_mem _ he, hasked⟩
  | case5 d rest taken classId suffix hsuffix hbound hfind ih =>
    intro t ht
    -- What the rest starts with are the suffixes taken before and the one that is given now.
    rcases ih t ht with hmem | ⟨e, he, hasked⟩
    · rcases List.mem_append.1 hmem with hold | hnew
      · exact Or.inl hold
      · obtain rfl := List.mem_singleton.1 hnew
        exact Or.inr ⟨d, List.mem_cons_self .., hsuffix, rfl⟩
    · exact Or.inr ⟨e, List.mem_cons_of_mem _ he, hasked⟩

/-- A command that asks for a suffix is left out, collides, or gets it. -/
theorem mem_assignSuffixes_of_asked (commands : List CommandDeclaration)
    (taken : List TakenSuffix) :
    ∀ d ∈ commands, ∀ classId suffix, registry.suffix? d = some (classId, suffix) →
      d.id ∈ unbound ∨
        d.id ∈ (registry.assignSuffixes unbound commands taken).2.map SuffixCollision.element ∨
        ⟨classId, suffix, d.id⟩ ∈ (registry.assignSuffixes unbound commands taken).1 := by
  fun_induction registry.assignSuffixes unbound commands taken with
  | case1 taken => simp
  | case2 d rest taken hnone ih =>
    intro e he classId suffix hsuffix
    rcases List.mem_cons.1 he with rfl | he
    · rw [hnone] at hsuffix
      cases hsuffix
    · exact ih e he classId suffix hsuffix
  | case3 d rest taken classId suffix hsuffix hunbound ih =>
    intro e he classId' suffix' hsuffix'
    rcases List.mem_cons.1 he with rfl | he
    · exact Or.inl hunbound
    · exact ih e he classId' suffix' hsuffix'
  | case4 d rest taken classId suffix hsuffix hbound t hfind next collisions heq ih =>
    intro e he classId' suffix' hsuffix'
    rw [heq] at ih
    -- The command itself collides; the others are those of the rest.
    rcases List.mem_cons.1 he with rfl | he
    · exact Or.inr (Or.inl (by simp))
    · refine (ih e he classId' suffix' hsuffix').imp_right (Or.imp_left ?_)
      exact fun hmem => List.mem_cons_of_mem _ hmem
  | case5 d rest taken classId suffix hsuffix hbound hfind ih =>
    intro e he classId' suffix' hsuffix'
    rcases List.mem_cons.1 he with rfl | he
    · rw [hsuffix] at hsuffix'
      cases hsuffix'
      refine Or.inr (Or.inr (mem_assignSuffixes_of_mem rest _ _ ?_))
      exact List.mem_append_right _ (List.mem_singleton_self _)
    · exact ih e he classId' suffix' hsuffix'

/-- No class gives a suffix away twice. -/
theorem nodup_assignSuffixes (commands : List CommandDeclaration) (taken : List TakenSuffix)
    (h : (taken.map fun t => (t.classId, t.suffix)).Nodup) :
    ((registry.assignSuffixes unbound commands taken).1.map
      fun t => (t.classId, t.suffix)).Nodup := by
  fun_induction registry.assignSuffixes unbound commands taken with
  | case1 taken => exact h
  | case2 d rest taken hnone ih => exact ih h
  | case3 d rest taken classId suffix hsuffix hunbound ih => exact ih h
  | case4 d rest taken classId suffix hsuffix hbound t hfind next collisions heq ih =>
    rw [heq] at ih
    exact ih h
  | case5 d rest taken classId suffix hsuffix hbound hfind ih =>
    apply ih
    rw [List.map_append, List.nodup_append]
    refine ⟨h, by simp, ?_⟩
    -- The suffix was looked for among those that are taken, and not found.
    rintro pair hpair other hother rfl
    obtain ⟨t, ht, rfl⟩ := List.mem_map.1 hpair
    have hfree := List.find?_eq_none.1 hfind t ht
    simp only [List.map_cons, List.map_nil, List.mem_singleton, Prod.mk.injEq] at hother
    simp [hother] at hfree

/-! ## The suffix of a command -/

/-- A suffix that a command asks for is in its own class. -/
theorem suffix?_eq_some {d : CommandDeclaration} {classId : SymbolId} {suffix : String}
    (h : registry.suffix? d = some (classId, suffix)) : d.classId = classId := by
  unfold suffix? at h
  cases hrooting : d.rooting with
  | classRooted => simp [hrooting] at h
  | methodRooted owner method params =>
    simp only [hrooting, Option.some.injEq, Prod.mk.injEq] at h
    simp [CommandDeclaration.classId, hrooting, h.1]

theorem suffix?_isSome {d : CommandDeclaration} :
    (registry.suffix? d).isSome = d.isMethodRooted := by
  unfold suffix? CommandDeclaration.isMethodRooted
  cases d.rooting <;> rfl

end Registry

namespace Plan

/-- The suffix of the procedures of a command. -/
def suffixOf (plan : Plan) (d : CommandDeclaration) : Option String :=
  (plan.suffixes.find? fun s => s.1 = d.id).map Prod.snd

theorem procedureName_eq (plan : Plan) (d : CommandDeclaration) (kind : ProcedureKind) :
    plan.procedureName d kind = Naming.procedureName kind.baseName (plan.suffixOf d) := rfl

end Plan

namespace Registry

variable {registry : Registry}

/-- The suffixes that the plan of a registry gives away. -/
def given (registry : Registry) : List TakenSuffix :=
  (registry.assignSuffixes (registry.bindingFailures.map Prod.fst) registry.commands []).1

/-- The suffix of a command is one that its class has given to it. -/
theorem suffixOf_eq_some {d : CommandDeclaration} {suffix : String} (hd : d ∈ registry.commands)
    (h : registry.plan.suffixOf d = some suffix) :
    registry.suffix? d = some (d.classId, suffix) ∧
      ⟨d.classId, suffix, d.id⟩ ∈ registry.given := by
  obtain ⟨entry, hfind, rfl⟩ := Option.map_eq_some_iff.1 h
  have hholder : entry.1 = d.id := by simpa using List.find?_some hfind
  obtain ⟨t, ht, rfl⟩ := List.mem_map.1 (List.mem_of_find?_eq_some hfind)
  obtain ⟨e, he, hsuffix, hid⟩ :=
    (asked_of_mem_assignSuffixes _ _ t ht).resolve_left List.not_mem_nil
  obtain rfl := eq_of_id_eq he hd (hid.symm.trans hholder)
  rw [suffix?_eq_some hsuffix]
  exact ⟨hsuffix, hid ▸ ht⟩

/-- A class-rooted command has no suffix. -/
theorem suffixOf_classRooted {d : CommandDeclaration} (hd : d ∈ registry.commands)
    (h : d.isMethodRooted = false) : registry.plan.suffixOf d = none := by
  cases hsuffix : registry.plan.suffixOf d with
  | none => rfl
  | some suffix =>
    have hasked : (registry.suffix? d).isSome = d.isMethodRooted := suffix?_isSome
    rw [(suffixOf_eq_some hd hsuffix).1, h] at hasked
    cases hasked

/-- A method-rooted command that is kept has a suffix. -/
theorem suffixOf_methodRooted {d : CommandDeclaration} (hd : d ∈ registry.commands)
    (hkept : registry.plan.drops d.id = false) (h : d.isMethodRooted = true) :
    ∃ suffix, registry.plan.suffixOf d = some suffix := by
  have hasked : (registry.suffix? d).isSome = d.isMethodRooted := suffix?_isSome
  rw [h, Option.isSome_iff_exists] at hasked
  obtain ⟨⟨classId, suffix⟩, hsuffix⟩ := hasked
  have hkept' : d.id ∉ registry.plan.dropped := by simpa [Plan.drops] using hkept
  rcases mem_assignSuffixes_of_asked registry.commands [] d hd classId suffix hsuffix with
    hunbound | hcollides | htaken
  · exact absurd (List.mem_append_left _ hunbound) hkept'
  · exact absurd (List.mem_append_right _ hcollides) hkept'
  · cases hof : registry.plan.suffixOf d with
    | some given => exact ⟨given, rfl⟩
    | none =>
      have hnone := List.find?_eq_none.1 (Option.map_eq_none_iff.1 hof) (d.id, suffix)
        (List.mem_map_of_mem (f := fun t : TakenSuffix => (t.holder, t.suffix)) htaken)
      simp at hnone

/-- Two commands of one class never have the same suffix. -/
theorem suffixOf_inj {d e : CommandDeclaration} {suffix : String} (hd : d ∈ registry.commands)
    (he : e ∈ registry.commands) (hclass : d.classId = e.classId)
    (hdsuffix : registry.plan.suffixOf d = some suffix)
    (hesuffix : registry.plan.suffixOf e = some suffix) : d = e := by
  have hdgiven := (suffixOf_eq_some hd hdsuffix).2
  have hegiven := (suffixOf_eq_some he hesuffix).2
  -- Both have what their class gives away once.
  have hdistinct : (registry.given.map fun t => (t.classId, t.suffix)).Nodup :=
    nodup_assignSuffixes _ _ List.nodup_nil
  have hsame := List.inj_on_of_nodup_map hdistinct hdgiven hegiven (by simp [hclass])
  rw [TakenSuffix.mk.injEq] at hsame
  exact eq_of_id_eq hd he hsame.2.2

/-! ## A plan without errors -/

theorem commands_plan : registry.plan.registry.commands = registry.commands := rfl

/-- Each dropped command leaves an error. -/
theorem dropped_eq_nil (h : Diagnostics.hasErrors registry.plan.registry.diagnostics = false) :
    registry.plan.dropped = [] := by
  have hsevere := Diagnostics.hasErrors_eq_false_iff.1 (Diagnostics.hasErrors_append.1 h).2
  have hfailures : registry.bindingFailures = [] := by
    apply List.eq_nil_iff_forall_not_mem.2
    intro failure hmem
    exact hsevere _ (List.mem_append_left _ (List.mem_map_of_mem hmem)) rfl
  -- No suffix collides either, since each collision is an error of its own.
  have hcollisions :
      (registry.assignSuffixes (registry.bindingFailures.map Prod.fst) registry.commands []).2 =
        [] := by
    apply List.eq_nil_iff_forall_not_mem.2
    intro collision hmem
    exact hsevere _ (List.mem_append_right _ (List.mem_map_of_mem hmem)) rfl
  change registry.bindingFailures.map Prod.fst ++
    (registry.assignSuffixes (registry.bindingFailures.map Prod.fst) registry.commands []).2.map
      SuffixCollision.element = []
  rw [hcollisions, hfailures]
  rfl

theorem drops_eq_false (h : registry.plan.dropped = []) (id : SymbolId) :
    registry.plan.drops id = false := by
  simp [Plan.drops, h]

/-- A plan that drops nothing keeps every command. -/
theorem kept_eq_commands (h : registry.plan.dropped = []) :
    registry.plan.kept = registry.commands := by
  unfold Plan.kept
  rw [commands_plan, List.filter_eq_self]
  intro d _
  simp [drops_eq_false h]

end Registry

end CommandFactory
