import CommandFactory.Proofs.Module.Delivery

/-!
# Kept and dropped commands

A synthesis sorts the commands of a registry into two (`Registry.Partitions`). A command that is
kept has all its procedures, in order and in the module of its class alone (`Complete`). A command
that is dropped is rooted in a method, has no procedure anywhere, is reported, and no subcommand and
no mixin calls it (`Discarded`, `Calls`).

A command is dropped because its method is not found, or because an earlier command that is kept has
its suffix (`Forestalls`). What a dropped command does to the others is more than nothing, though:
it counts among the overloads of its method. Where it makes an overload of another method, the
suffix of that method changes, and may collide with a suffix that it would not have collided with
(`overload_drops_other`). Where it does not, all others have the same procedures with and without it
(`Partitions.isolated`).
-/

set_option autoImplicit false

namespace CommandFactory

namespace Registry

variable {registry : Registry} {d : CommandDeclaration}

/-! ## Who is dropped -/

/-- The collisions that the plan of a registry finds. -/
def collided (registry : Registry) : List SuffixCollision :=
  (registry.assignSuffixes (registry.bindingFailures.map Prod.fst) registry.commands []).2

/-- What comes before a command has other identities. -/
theorem ne_of_before {before after : List CommandDeclaration}
    (h : registry.commands = before ++ d :: after) {e : CommandDeclaration} (he : e ∈ before) :
    e.id ≠ d.id := by
  have hdistinct := registry.nodup_command_ids
  rw [h, List.map_append, List.nodup_append] at hdistinct
  exact hdistinct.2.2 e.id (List.mem_map_of_mem he) d.id (by simp)

theorem bindingFailure?_eq_some {failure : SymbolId × Failure}
    (h : registry.bindingFailure? d = some failure) :
    ∃ classId method params, d.rooting = .methodRooted classId method params ∧
      registry.symbols.findMethod? classId method params = none ∧
      failure = (d.id, .unresolvableMethod d.id
        (.methodNotFound classId method (params.map erasure))) := by
  unfold bindingFailure? at h
  cases hrooting : d.rooting with
  | classRooted => simp [hrooting] at h
  | methodRooted classId method params =>
    cases hfind : registry.symbols.findMethod? classId method params with
    | some symbol => simp [hrooting, hfind] at h
    | none =>
      simp only [hrooting, hfind, Option.some.injEq] at h
      exact ⟨classId, method, params, rfl, hfind, h.symm⟩

theorem mem_unbound {id : SymbolId} :
    id ∈ registry.bindingFailures.map Prod.fst ↔
      ∃ d ∈ registry.commands, d.id = id ∧ (registry.bindingFailure? d).isSome = true := by
  constructor
  · intro hmem
    obtain ⟨failure, hfailure, rfl⟩ := List.mem_map.1 hmem
    obtain ⟨d, hd, hfails⟩ := List.mem_filterMap.1 hfailure
    obtain ⟨_, _, _, -, -, heq⟩ := bindingFailure?_eq_some hfails
    exact ⟨d, hd, by rw [heq], by rw [hfails]; rfl⟩
  · rintro ⟨d, hd, rfl, hsome⟩
    obtain ⟨failure, hfails⟩ := Option.isSome_iff_exists.1 hsome
    obtain ⟨_, _, _, -, -, heq⟩ := bindingFailure?_eq_some hfails
    exact List.mem_map.2 ⟨failure, List.mem_filterMap.2 ⟨d, hd, hfails⟩, by rw [heq]⟩

theorem unbound_iff (hd : d ∈ registry.commands) :
    d.id ∈ registry.bindingFailures.map Prod.fst ↔
      (registry.bindingFailure? d).isSome = true := by
  rw [mem_unbound]
  constructor
  · rintro ⟨e, he, hid, hsome⟩
    rwa [← eq_of_id_eq he hd hid]
  · exact fun hsome => ⟨d, hd, rfl, hsome⟩

theorem drops_iff (hd : d ∈ registry.commands) :
    registry.plan.drops d.id = true ↔
      (registry.bindingFailure? d).isSome = true ∨ ∃ c ∈ registry.collided, c.element = d.id := by
  have hdropped : registry.plan.dropped =
      registry.bindingFailures.map Prod.fst ++ registry.collided.map SuffixCollision.element := rfl
  rw [Plan.drops, List.contains_iff_mem, hdropped, List.mem_append, unbound_iff hd, List.mem_map]

section

variable {unbound : List SymbolId}

/-- Commands whose methods are not found get no suffix. -/
theorem bound_of_mem_assignSuffixes (commands : List CommandDeclaration)
    (taken : List TakenSuffix) :
    ∀ t ∈ (registry.assignSuffixes unbound commands taken).1, t ∈ taken ∨ t.holder ∉ unbound := by
  fun_induction registry.assignSuffixes unbound commands taken with
  | case1 taken => exact fun t ht => Or.inl ht
  | case2 d rest taken hnone ih => exact ih
  | case3 d rest taken classId suffix hsuffix hunbound ih => exact ih
  | case4 d rest taken classId suffix hsuffix hbound t hfind next collisions heq ih =>
    rw [heq] at ih
    exact ih
  | case5 d rest taken classId suffix hsuffix hbound hfind ih =>
    intro t ht
    rcases ih t ht with hmem | hnew
    · rcases List.mem_append.1 hmem with hold | hgiven
      · exact Or.inl hold
      · obtain rfl := List.mem_singleton.1 hgiven
        exact Or.inr hbound
    · exact Or.inr hnew

/-- Among the commands is the one of the collision, and its suffix is given to the holder: it was
taken at the start, or by a command before. -/
def CollidesIn (registry : Registry) (given taken : List TakenSuffix) (c : SuffixCollision)
    (commands : List CommandDeclaration) : Prop :=
  ∃ before d after classId, commands = before ++ d :: after ∧ d.id = c.element ∧
    registry.suffix? d = some (classId, c.suffix) ∧ ⟨classId, c.suffix, c.holder⟩ ∈ given ∧
    (⟨classId, c.suffix, c.holder⟩ ∈ taken ∨ ∃ holder ∈ before, holder.id = c.holder)

theorem CollidesIn.cons {given taken : List TakenSuffix} {c : SuffixCollision}
    {commands : List CommandDeclaration} (h : registry.CollidesIn given taken c commands)
    (first : CommandDeclaration) : registry.CollidesIn given taken c (first :: commands) := by
  obtain ⟨before, d, after, classId, rfl, hid, hsuffix, hgiven, hheld⟩ := h
  refine ⟨first :: before, d, after, classId, rfl, hid, hsuffix, hgiven, hheld.imp_right ?_⟩
  exact fun ⟨holder, hholder, heq⟩ => ⟨holder, List.mem_cons_of_mem _ hholder, heq⟩

/-- A command collides with the holder of a suffix that was taken before. -/
theorem collidesIn_of_mem_assignSuffixes (commands : List CommandDeclaration)
    (taken : List TakenSuffix) :
    ∀ c ∈ (registry.assignSuffixes unbound commands taken).2,
      registry.CollidesIn (registry.assignSuffixes unbound commands taken).1 taken c commands := by
  fun_induction registry.assignSuffixes unbound commands taken with
  | case1 taken => simp
  | case2 e rest taken hnone ih => exact fun c hc => (ih c hc).cons e
  | case3 e rest taken classId suffix hsuffix hunbound ih => exact fun c hc => (ih c hc).cons e
  | case4 e rest taken classId suffix hsuffix hbound t hfind next collisions heq ih =>
    have htaken := List.mem_of_find?_eq_some hfind
    have hsame : t.classId = classId ∧ t.suffix = suffix := by
      simpa using List.find?_some hfind
    have ht : t = ⟨classId, suffix, t.holder⟩ := by rw [← hsame.1, ← hsame.2]
    have hstill : ∀ t ∈ taken, t ∈ (registry.assignSuffixes unbound rest taken).1 :=
      mem_assignSuffixes_of_mem rest taken
    rw [heq] at ih hstill
    intro c hc
    rcases List.mem_cons.1 hc with rfl | hc
    · -- The command itself is the one that collides.
      exact ⟨[], e, rest, classId, rfl, rfl, hsuffix, ht ▸ hstill t htaken, Or.inl (ht ▸ htaken)⟩
    · exact (ih c hc).cons e
  | case5 e rest taken classId suffix hsuffix hbound hfind ih =>
    intro c hc
    obtain ⟨before, d, after, classId', rfl, hid, hsuffix', hgiven, hheld⟩ := ih c hc
    refine ⟨e :: before, d, after, classId', rfl, hid, hsuffix', hgiven, ?_⟩
    rcases hheld with hmem | ⟨holder, hholder, heq⟩
    · rcases List.mem_append.1 hmem with hold | hnew
      · exact Or.inl hold
      · -- What is taken now is held by the command at the head.
        have hholder := congrArg TakenSuffix.holder (List.mem_singleton.1 hnew)
        exact Or.inr ⟨e, List.mem_cons_self .., hholder.symm⟩
    · exact Or.inr ⟨holder, List.mem_cons_of_mem _ hholder, heq⟩

end

/-- Who holds a suffix is the one command that its class has given it to. -/
theorem holder_eq_of_given {s t : TakenSuffix} (hs : s ∈ registry.given) (ht : t ∈ registry.given)
    (hclass : s.classId = t.classId) (hsuffix : s.suffix = t.suffix) : s.holder = t.holder := by
  have hdistinct : (registry.given.map fun t => (t.classId, t.suffix)).Nodup :=
    nodup_assignSuffixes _ _ List.nodup_nil
  rw [List.inj_on_of_nodup_map hdistinct hs ht (by simp [hclass, hsuffix])]

/-- A command that collides comes after the holder of its suffix, which is another command. -/
theorem holder_of_mem_collided {c : SuffixCollision} (hc : c ∈ registry.collided) :
    ∃ before d after holder, registry.commands = before ++ d :: after ∧ d.id = c.element ∧
      holder ∈ before ∧ holder.id = c.holder ∧
      registry.suffix? d = some (d.classId, c.suffix) ∧
      ⟨d.classId, c.suffix, c.holder⟩ ∈ registry.given := by
  obtain ⟨before, d, after, classId, hcommands, hid, hsuffix, hgiven, hheld⟩ :=
    collidesIn_of_mem_assignSuffixes _ _ c hc
  obtain ⟨holder, hholder, heq⟩ := hheld.resolve_left List.not_mem_nil
  obtain rfl := suffix?_eq_some hsuffix
  exact ⟨before, d, after, holder, hcommands, hid, hholder, heq, hsuffix, hgiven⟩

/-- Who holds a suffix is kept. -/
theorem kept_of_given {t : TakenSuffix} (ht : t ∈ registry.given) :
    ∃ holder ∈ registry.plan.kept, holder.id = t.holder ∧
      registry.suffix? holder = some (t.classId, t.suffix) := by
  obtain ⟨holder, hholder, hsuffix, hid⟩ :=
    (asked_of_mem_assignSuffixes _ _ t ht).resolve_left List.not_mem_nil
  refine ⟨holder, mem_kept.2 ⟨hholder, ?_⟩, hid.symm, hsuffix⟩
  rw [Bool.eq_false_iff]
  intro hdrops
  rcases (drops_iff hholder).1 hdrops with hunbound | ⟨c, hc, helement⟩
  · have hbound := (bound_of_mem_assignSuffixes _ _ t ht).resolve_left List.not_mem_nil
    exact hbound (hid ▸ (unbound_iff hholder).2 hunbound)
  · -- A collision would be one with another holder of the same suffix.
    obtain ⟨before, d, after, other, hcommands, hd, hother, hotherId, hasked, hgiven⟩ :=
      holder_of_mem_collided hc
    have hmem : d ∈ registry.commands := hcommands ▸ by simp
    obtain rfl := eq_of_id_eq hmem hholder (hd.trans helement)
    rw [hsuffix, Option.some.injEq, Prod.mk.injEq] at hasked
    have hsame := holder_eq_of_given ht hgiven hasked.1 hasked.2
    exact ne_of_before hcommands hother (hotherId.trans (hsame.symm.trans hid))

/-- The holder is an earlier command that is kept, and has the suffix that the other asks for. -/
def Forestalls (registry : Registry) (holder d : CommandDeclaration) : Prop :=
  ∃ before after, registry.commands = before ++ d :: after ∧ holder ∈ before ∧
    holder ∈ registry.plan.kept ∧
    ∃ suffix, registry.suffix? d = some (d.classId, suffix) ∧
      registry.suffix? holder = some (d.classId, suffix)

/-- The suffix of a command that is kept is given to it. -/
theorem given_of_kept (hd : d ∈ registry.plan.kept) {classId : SymbolId} {suffix : String}
    (h : registry.suffix? d = some (classId, suffix)) :
    ⟨classId, suffix, d.id⟩ ∈ registry.given := by
  obtain ⟨hcommands, hkept⟩ := mem_kept.1 hd
  rw [Bool.eq_false_iff, Ne, drops_iff hcommands, not_or, ← unbound_iff hcommands] at hkept
  rcases mem_assignSuffixes_of_asked registry.commands [] d hcommands classId suffix h with
    hunbound | hcollides | hgiven
  · exact absurd hunbound hkept.1
  · exact absurd (List.mem_map.1 hcollides) hkept.2
  · exact hgiven

/-- Behind each collision is a command that an earlier one forestalls. -/
theorem forestalls_of_mem_collided {c : SuffixCollision} (hc : c ∈ registry.collided) :
    ∃ d ∈ registry.commands, d.id = c.element ∧ registry.suffix? d = some (d.classId, c.suffix) ∧
      ∃ holder, holder.id = c.holder ∧ registry.Forestalls holder d := by
  obtain ⟨before, d, after, holder, hcommands, hid, hholder, hholderId, hasked, hgiven⟩ :=
    holder_of_mem_collided hc
  obtain ⟨kept, hkept, hkeptId, hsuffix⟩ := kept_of_given hgiven
  have hmem : holder ∈ registry.commands := by
    rw [hcommands]
    exact List.mem_append_left _ hholder
  obtain rfl := eq_of_id_eq (mem_kept.1 hkept).1 hmem (hkeptId.trans hholderId.symm)
  exact ⟨d, hcommands ▸ by simp, hid, hasked, kept, hholderId, before, after, hcommands, hholder,
    hkept, c.suffix, hasked, hsuffix⟩

/-- A command is dropped exactly if its method is not found or an earlier one forestalls it. -/
theorem drops_iff_forestalls (hd : d ∈ registry.commands) :
    registry.plan.drops d.id = true ↔
      (registry.bindingFailure? d).isSome = true ∨ ∃ holder, registry.Forestalls holder d := by
  constructor
  · intro hdrops
    refine ((drops_iff hd).1 hdrops).imp_right ?_
    rintro ⟨c, hc, helement⟩
    obtain ⟨e, he, hid, -, holder, -, hforestalls⟩ := forestalls_of_mem_collided hc
    obtain rfl := eq_of_id_eq he hd (hid.trans helement)
    exact ⟨holder, hforestalls⟩
  · rintro (hunbound | ⟨holder, before, after, hcommands, hholder, hkept, suffix, hasked, hhas⟩)
    · exact (drops_iff hd).2 (Or.inl hunbound)
    · -- Otherwise both would have been given the suffix.
      by_contra hdrops
      have hd' := given_of_kept (mem_kept.2 ⟨hd, Bool.eq_false_iff.2 hdrops⟩) hasked
      exact ne_of_before hcommands hholder
        (holder_eq_of_given (given_of_kept hkept hhas) hd' rfl rfl)

/-! ## What is generated -/

/-- The command has all its procedures, in order, in the module of its class and nowhere else. -/
structure Complete (registry : Registry) (d : CommandDeclaration) : Prop where
  home : ∃ module ∈ registry.synthesize.1, module.declaration = d.classId ∧
    (module.procedures.filter fun procedure => procedure.element = d.id) =
      d.kinds.map (registry.plan.procedureOf d)
  elsewhere : ∀ module ∈ registry.synthesize.1, module.declaration ≠ d.classId →
    ∀ procedure ∈ module.procedures, procedure.element ≠ d.id

/-- The command is rooted in a method, has no procedure, and is reported: its method is not found,
or an earlier command that is kept has its suffix. -/
structure Discarded (registry : Registry) (d : CommandDeclaration) : Prop where
  methodRooted : d.isMethodRooted = true
  absent : ∀ module ∈ registry.synthesize.1, ∀ procedure ∈ module.procedures,
    procedure.element ≠ d.id
  reported :
    (∃ classId method params, d.rooting = .methodRooted classId method params ∧
      registry.symbols.findMethod? classId method params = none ∧
      .ofFailure d.id
          (.unresolvableMethod d.id (.methodNotFound classId method (params.map erasure))) ∈
        registry.synthesize.2.diagnostics) ∨
    ∃ holder suffix, registry.Forestalls holder d ∧
      registry.suffix? d = some (d.classId, suffix) ∧
      SuffixCollision.diagnostic ⟨d.id, holder.id, suffix⟩ ∈ registry.synthesize.2.diagnostics

/-- The calls of a procedure that add subcommands or mixins go to commands that are kept, and which
its own command names. -/
structure Calls (registry : Registry) (procedure : Procedure) : Prop where
  subcommands : ∀ name ref owner, .addSubcommand name ref owner ∈ procedure.body →
    ∃ d ∈ registry.plan.kept, d.id = procedure.element ∧
      ∃ target ∈ registry.plan.kept, ⟨name, target.id⟩ ∈ d.subcommands ∧
        ref = registry.plan.reference target (.createSpec target.isMethodRooted)
  mixins : ∀ name type ref, .addMixin name type (some ref) ∈ procedure.body →
    ∃ d ∈ registry.plan.kept, d.id = procedure.element ∧
      ∃ target ∈ registry.plan.kept, ⟨name, target.id⟩ ∈ d.mixins ∧
        ref = registry.plan.reference target .configureAll

/-- The procedures of a command in a module. -/
theorem filter_procedures_moduleOf (hd : d ∈ registry.plan.kept) (declaration : Declaration) :
    ((registry.plan.moduleOf declaration).procedures.filter
        fun procedure => procedure.element = d.id) =
      if d.classId = declaration.id then d.kinds.map (registry.plan.procedureOf d) else [] := by
  have hown : ∀ e : CommandDeclaration,
      ((registry.plan.procedures e).value.filter fun procedure => procedure.element = d.id) =
        if e.id = d.id then e.kinds.map (registry.plan.procedureOf e) else [] := by
    intro e
    rw [Plan.procedures_value, List.filter_map]
    have helement : ((fun procedure : Procedure => decide (procedure.element = d.id)) ∘
        registry.plan.procedureOf e) = fun _ => decide (e.id = d.id) := rfl
    rw [helement]
    by_cases hid : e.id = d.id <;> simp [hid]
  have hprocedures : (registry.plan.moduleOf declaration).procedures =
      (registry.plan.kept.filter fun e => e.classId = declaration.id).flatMap fun e =>
        (registry.plan.procedures e).value := rfl
  rw [hprocedures, List.filter_flatMap]
  simp only [hown]
  -- Of the commands that the class roots, only the command itself has procedures of its own.
  generalize hlist : (registry.plan.kept.filter fun e => decide (e.classId = declaration.id)) = list
  have hdistinct : (list.map CommandDeclaration.id).Nodup := by
    rw [← hlist]
    refine registry.nodup_command_ids.sublist (List.Sublist.map _ ?_)
    exact List.filter_sublist.trans List.filter_sublist
  have hmem : d ∈ list ↔ d.classId = declaration.id := by
    rw [← hlist, List.mem_filter, decide_eq_true_iff]
    exact and_iff_right hd
  have hid : ∀ e ∈ list, e.id = d.id → e = d := by
    intro e he
    rw [← hlist] at he
    exact eq_of_id_eq (mem_kept.1 (List.mem_filter.1 he).1).1 (mem_kept.1 hd).1
  rw [← if_congr hmem rfl rfl]
  clear hmem hlist hprocedures
  induction list with
  | nil => simp
  | cons e rest ih =>
    rw [List.map_cons, List.nodup_cons] at hdistinct
    rw [List.flatMap_cons, ih hdistinct.2 fun e he => hid e (List.mem_cons_of_mem _ he)]
    by_cases he : e.id = d.id
    · obtain rfl := hid e (List.mem_cons_self ..) he
      have hnot : e ∉ rest := fun hmem => hdistinct.1 (List.mem_map_of_mem hmem)
      simp [hnot]
    · have hne : d ≠ e := fun heq => he (heq ▸ rfl)
      simp [he, hne]

theorem element_mem_kept {declaration : Declaration} {procedure : Procedure}
    (h : procedure ∈ (registry.plan.moduleOf declaration).procedures) :
    ∃ d ∈ registry.plan.kept, d.classId = declaration.id ∧ procedure.element = d.id := by
  obtain ⟨d, hd, hclass, kind, -, rfl⟩ := (Plan.mem_procedures_moduleOf _).1 h
  exact ⟨d, hd, hclass, rfl⟩

theorem complete_of_kept (hrooted : registry.WellRooted) (hd : d ∈ registry.plan.kept) :
    registry.Complete d where
  home := by
    obtain ⟨declaration, hdeclaration, hid⟩ := hrooted.exists_classShaped (mem_kept.1 hd).1
    refine ⟨_, List.mem_map_of_mem hdeclaration, hid, ?_⟩
    rw [filter_procedures_moduleOf hd, if_pos hid.symm]
  elsewhere := by
    intro module hmodule hclass procedure hprocedure helement
    obtain ⟨declaration, hdeclaration, rfl⟩ := List.mem_map.1 hmodule
    obtain ⟨e, he, heclass, hid⟩ := element_mem_kept hprocedure
    obtain rfl := eq_of_id_eq (mem_kept.1 he).1 (mem_kept.1 hd).1 (hid.symm.trans helement)
    exact hclass heclass.symm

theorem discarded_of_drops (hd : d ∈ registry.commands)
    (hdrops : registry.plan.drops d.id = true) : registry.Discarded d where
  methodRooted := by
    rcases (drops_iff_forestalls hd).1 hdrops with hunbound | ⟨holder, hforestalls⟩
    · obtain ⟨failure, hfails⟩ := Option.isSome_iff_exists.1 hunbound
      obtain ⟨classId, method, params, hrooting, -, -⟩ := bindingFailure?_eq_some hfails
      rw [CommandDeclaration.isMethodRooted, hrooting]
    · obtain ⟨_, _, _, _, _, suffix, hasked, -⟩ := hforestalls
      have hsome : (registry.suffix? d).isSome = d.isMethodRooted := suffix?_isSome
      rw [← hsome, hasked]
      rfl
  absent := by
    intro module hmodule procedure hprocedure helement
    obtain ⟨declaration, hdeclaration, rfl⟩ := List.mem_map.1 hmodule
    obtain ⟨e, he, -, hid⟩ := element_mem_kept hprocedure
    obtain rfl := eq_of_id_eq (mem_kept.1 he).1 hd (hid.symm.trans helement)
    rw [(mem_kept.1 he).2] at hdrops
    cases hdrops
  reported := by
    rcases (drops_iff hd).1 hdrops with hunbound | ⟨c, hc, helement⟩
    · obtain ⟨failure, hfails⟩ := Option.isSome_iff_exists.1 hunbound
      obtain ⟨classId, method, params, hrooting, hfind, rfl⟩ := bindingFailure?_eq_some hfails
      refine Or.inl ⟨classId, method, params, hrooting, hfind, ?_⟩
      refine List.mem_append_left _ (List.mem_append_right _ (List.mem_append_left _ ?_))
      exact List.mem_map.2 ⟨_, List.mem_filterMap.2 ⟨d, hd, hfails⟩, rfl⟩
    · obtain ⟨e, he, hid, hasked, holder, hholder, hforestalls⟩ := forestalls_of_mem_collided hc
      obtain rfl := eq_of_id_eq he hd (hid.trans helement)
      refine Or.inr ⟨holder, c.suffix, hforestalls, hasked, ?_⟩
      refine List.mem_append_left _ (List.mem_append_right _ (List.mem_append_right _ ?_))
      rw [hholder, ← helement]
      exact List.mem_map_of_mem hc

/-- A subcommand that is added is kept. -/
theorem kept_of_subcommand_eq_ok {sub : NamedElement} {statement : Statement}
    (h : registry.plan.subcommand d sub = .ok statement) :
    ∃ target ∈ registry.plan.kept, target.id = sub.element ∧
      statement = .addSubcommand sub.name
        (registry.plan.reference target (.createSpec target.isMethodRooted))
        (Plan.subcommandOwner d target) := by
  obtain ⟨target, htarget, hid, -, heq⟩ := subcommand_eq_ok h
  refine ⟨target, mem_kept.2 ⟨htarget, ?_⟩, hid, heq⟩
  unfold Plan.subcommand at h
  split at h
  · cases h
  · split at h
    · cases h
    · rename_i hkept
      rw [hid]
      exact Bool.eq_false_iff.2 hkept

/-- Among the statements of a command only those for its subcommands add subcommands. -/
theorem mem_subcommands_of_mem_work {kind : ProcedureKind} {name : String} {ref : ProcedureRef}
    {owner : SubcommandOwner}
    (h : .addSubcommand name ref owner ∈ registry.plan.work d kind) :
    .addSubcommand name ref owner ∈ (registry.plan.subcommands d d.subcommands).value := by
  cases kind with
  | createSpec methodRooted =>
    have hopening : .addSubcommand name ref owner ∉ Plan.opening d := by
      unfold Plan.opening
      cases d.rooting <;> simp
    have hdescribing : .addSubcommand name ref owner ∉ Plan.describing d := by
      unfold Plan.describing
      cases d.command with
      | none => simp
      | some command => by_cases hempty : command.description.isEmpty = true <;> simp [hempty]
    simpa [Plan.work, hopening, hdescribing] using h
  | _ => cases writes_of_mem_work h

/-- Only the mixins of a command add mixins. -/
theorem mem_mixins_of_mem_work {kind : ProcedureKind} {name type : String}
    {ref : Option ProcedureRef} (h : .addMixin name type ref ∈ registry.plan.work d kind) :
    .addMixin name type ref ∈ d.mixins.map registry.plan.mixin := by
  cases kind with
  | configureMixins => exact h
  | _ => cases writes_of_mem_work h

theorem calls_procedureOf (hd : d ∈ registry.plan.kept) (kind : ProcedureKind) :
    registry.Calls (registry.plan.procedureOf d kind) := by
  have hwork : ∀ statement ∈ (registry.plan.procedureOf d kind).body, statement ≠ .returnSpec →
      statement ∈ registry.plan.work d kind := by
    intro statement hmem hne
    rw [Plan.procedureOf, Plan.procedure, Plan.bodyOf_eq_work] at hmem
    rcases List.mem_append.1 hmem with hmem | hmem
    · exact hmem
    · split at hmem
      · exact absurd (List.mem_singleton.1 hmem) hne
      · cases hmem
  constructor
  · intro name ref owner hmem
    obtain ⟨sub, hsub, hok⟩ :=
      mem_subcommands (mem_subcommands_of_mem_work (hwork _ hmem (by simp)))
    obtain ⟨target, htarget, hid, heq⟩ := kept_of_subcommand_eq_ok hok
    rw [Statement.addSubcommand.injEq] at heq
    obtain ⟨rfl, rfl, -⟩ := heq
    refine ⟨d, hd, rfl, target, htarget, ?_, rfl⟩
    rw [hid]
    exact hsub
  · intro name type ref hmem
    obtain ⟨named, hnamed, heq⟩ := List.mem_map.1 (mem_mixins_of_mem_work (hwork _ hmem (by simp)))
    rw [Plan.mixin, Statement.addMixin.injEq] at heq
    obtain ⟨rfl, -, hsome⟩ := heq
    obtain ⟨target, htarget, rfl⟩ := Option.map_eq_some_iff.1 hsome
    obtain ⟨hfound, hkept⟩ := Option.filter_eq_some_iff.1 htarget
    obtain ⟨hcommand, hid⟩ := command?_eq_some_iff.1 hfound
    refine ⟨d, hd, rfl, target, mem_kept.2 ⟨hcommand, by simpa using hkept⟩, ?_, rfl⟩
    rw [hid]
    exact hnamed

/-! ## Without a dropped command -/

/-- The registry without the declaration of an identity. -/
def without (registry : Registry) (id : SymbolId) : Registry :=
  { registry with declarations := registry.declarations.erase id }

theorem commands_without (registry : Registry) (id : SymbolId) :
    (registry.without id).commands = registry.commands.filter fun d => d.id ≠ id := by
  change (registry.declarations.toList.filter _).filterMap _ =
    (registry.declarations.toList.filterMap _).filter _
  rw [List.filterMap_filter, List.filter_filterMap]
  congr 1
  funext declaration
  cases declaration with
  | command d =>
    by_cases hid : d.id = id <;>
      simp [Declaration.id, Declaration.command?, Option.filter, hid]
  | container c => simp [Declaration.command?]

theorem mem_commands_without {id : SymbolId} :
    d ∈ (registry.without id).commands ↔ d ∈ registry.commands ∧ d.id ≠ id := by
  rw [commands_without, List.mem_filter, decide_eq_true_iff]

/-- Without a command the overloads of other methods are the same. -/
theorem isOverloaded_without {classId : SymbolId} {method : String} (hd : d ∈ registry.commands)
    (h : isRootedIn classId method d = false) :
    (registry.without d.id).isOverloaded classId method = registry.isOverloaded classId method := by
  unfold isOverloaded
  rw [commands_without, List.countP_filter]
  congr 2
  refine List.countP_congr fun e he => ?_
  by_cases hid : e.id = d.id
  · rw [eq_of_id_eq he hd hid]
    simp [h]
  · simp [hid]

/-- The command makes no overload: with and without it, its method has overloads or has none. -/
def MakesNoOverload (registry : Registry) (d : CommandDeclaration) : Prop :=
  ∀ classId method params, d.rooting = .methodRooted classId method params →
    (registry.without d.id).isOverloaded classId method = registry.isOverloaded classId method

theorem suffix?_without (hd : d ∈ registry.commands) (h : registry.MakesNoOverload d)
    (e : CommandDeclaration) : (registry.without d.id).suffix? e = registry.suffix? e := by
  unfold suffix?
  cases e.rooting with
  | classRooted => rfl
  | methodRooted classId method params =>
    have hsame : (registry.without d.id).isOverloaded classId method =
        registry.isOverloaded classId method := by
      cases hroot : isRootedIn classId method d with
      | false => exact isOverloaded_without hd hroot
      | true =>
        unfold isRootedIn at hroot
        cases hrooting : d.rooting with
        | classRooted => simp [hrooting] at hroot
        | methodRooted owner name types =>
          simp only [hrooting, Bool.and_eq_true, decide_eq_true_iff] at hroot
          obtain ⟨rfl, rfl⟩ := hroot
          exact h owner name types hrooting
    simp only [hsame]

/-- A command that gets no suffix can be left out when suffixes are given away. -/
theorem assignSuffixes_filter {other : Registry} {unbound unbound' : List SymbolId}
    {id : SymbolId} (hsuffix : ∀ e, other.suffix? e = registry.suffix? e)
    (hunbound : ∀ e, e ≠ id → (e ∈ unbound' ↔ e ∈ unbound)) (commands : List CommandDeclaration)
    (taken : List TakenSuffix)
    (h : ∀ t ∈ (registry.assignSuffixes unbound commands taken).1, t.holder ≠ id) :
    other.assignSuffixes unbound' (commands.filter fun e => e.id ≠ id) taken =
      ((registry.assignSuffixes unbound commands taken).1,
        (registry.assignSuffixes unbound commands taken).2.filter fun c => c.element ≠ id) := by
  fun_induction registry.assignSuffixes unbound commands taken with
  | case1 taken => rfl
  | case2 e rest taken hnone ih =>
    by_cases hid : e.id = id
    · rw [List.filter_cons_of_neg (by simp [hid]), ih h]
    · rw [List.filter_cons_of_pos (by simp [hid]), assignSuffixes, hsuffix, hnone]
      exact ih h
  | case3 e rest taken classId suffix hsome hmem ih =>
    by_cases hid : e.id = id
    · rw [List.filter_cons_of_neg (by simp [hid]), ih h]
    · rw [List.filter_cons_of_pos (by simp [hid]), assignSuffixes, hsuffix, hsome]
      simp only [(hunbound e.id hid).2 hmem, if_true]
      exact ih h
  | case4 e rest taken classId suffix hsome hmem t hfind next collisions heq ih =>
    rw [heq] at ih
    by_cases hid : e.id = id
    · rw [List.filter_cons_of_neg (by simp [hid]), ih h, List.filter_cons_of_neg (by simp [hid])]
    · rw [List.filter_cons_of_pos (by simp [hid]), assignSuffixes, hsuffix, hsome]
      simp only [mt (hunbound e.id hid).1 hmem, if_false, hfind, ih h]
      rw [List.filter_cons_of_pos (by simp [hid])]
  | case5 e rest taken classId suffix hsome hmem hfind ih =>
    by_cases hid : e.id = id
    · -- The command would hold the suffix.
      refine absurd hid (h ⟨classId, suffix, e.id⟩ (mem_assignSuffixes_of_mem rest _ _ ?_))
      exact List.mem_append_right _ (List.mem_singleton_self _)
    · rw [List.filter_cons_of_pos (by simp [hid]), assignSuffixes, hsuffix, hsome]
      simp only [mt (hunbound e.id hid).1 hmem, if_false, hfind]
      exact ih h

/-- Where a dropped command makes no overload, the others are kept under the same names without it.
-/
theorem plan_without (hd : d ∈ registry.commands) (hdrops : registry.plan.drops d.id = true)
    (hnone : registry.MakesNoOverload d) :
    (registry.without d.id).plan.kept = registry.plan.kept ∧
      ∀ e kind, (registry.without d.id).plan.procedureName e kind =
        registry.plan.procedureName e kind := by
  have hsuffix := suffix?_without hd hnone
  have hunbound : ∀ id, id ≠ d.id → (id ∈ (registry.without d.id).bindingFailures.map Prod.fst ↔
      id ∈ registry.bindingFailures.map Prod.fst) := by
    intro id hid
    rw [mem_unbound, mem_unbound]
    constructor
    · rintro ⟨e, he, rfl, hfails⟩
      exact ⟨e, (mem_commands_without.1 he).1, rfl, hfails⟩
    · rintro ⟨e, he, rfl, hfails⟩
      exact ⟨e, mem_commands_without.2 ⟨he, hid⟩, rfl, hfails⟩
  have hfree : ∀ t ∈ registry.given, t.holder ≠ d.id := by
    intro t ht hid
    obtain ⟨holder, hholder, hholderId, -⟩ := kept_of_given ht
    obtain ⟨hmem, hkept⟩ := mem_kept.1 hholder
    rw [hholderId, hid, hdrops] at hkept
    cases hkept
  have hassign : ((registry.without d.id).given, (registry.without d.id).collided) =
      (registry.given, registry.collided.filter fun c => c.element ≠ d.id) := by
    rw [given, collided, commands_without]
    exact assignSuffixes_filter hsuffix hunbound registry.commands [] hfree
  obtain ⟨hgiven, hcollided⟩ := Prod.mk.inj hassign
  have hsame : ∀ e ∈ registry.commands, e.id ≠ d.id →
      ((registry.without d.id).plan.drops e.id = true ↔ registry.plan.drops e.id = true) := by
    intro e he hid
    have he' := mem_commands_without.2 ⟨he, hid⟩
    rw [drops_iff he', drops_iff he, ← unbound_iff he', ← unbound_iff he, hunbound e.id hid,
      hcollided]
    simp only [List.mem_filter, decide_eq_true_iff]
    refine or_congr_right ⟨?_, ?_⟩
    · rintro ⟨c, ⟨hc, -⟩, helement⟩
      exact ⟨c, hc, helement⟩
    · rintro ⟨c, hc, helement⟩
      exact ⟨c, ⟨hc, helement ▸ hid⟩, helement⟩
  constructor
  · rw [Plan.kept, Plan.kept, commands_plan, commands_plan, commands_without, List.filter_filter]
    refine List.filter_congr fun e he => ?_
    by_cases hid : e.id = d.id
    · simp [hid, hdrops]
    · have hiff := Bool.eq_iff_iff.2 (hsame e he hid)
      simp [hid, hiff]
  · intro e kind
    have hsuffixes : (registry.without d.id).plan.suffixes = registry.plan.suffixes :=
      congrArg (List.map fun t : TakenSuffix => (t.holder, t.suffix)) hgiven
    rw [Plan.procedureName, Plan.procedureName, hsuffixes]

/-! ## The partition -/

/-- A synthesis sorts the commands into those that are generated completely and those that are
dropped with an error. -/
structure Partitions (registry : Registry) : Prop where
  /-- Each class has one module. -/
  distinct : (registry.synthesize.1.map GeneratedModule.declaration).Nodup
  kept : ∀ d ∈ registry.commands, registry.plan.drops d.id = false → registry.Complete d
  dropped : ∀ d ∈ registry.commands, registry.plan.drops d.id = true → registry.Discarded d
  /-- Nothing else makes a command be dropped. -/
  drops_iff : ∀ d ∈ registry.commands, registry.plan.drops d.id = true ↔
    (registry.bindingFailure? d).isSome = true ∨ ∃ holder, registry.Forestalls holder d
  calls : ∀ module ∈ registry.synthesize.1, ∀ procedure ∈ module.procedures,
    registry.Calls procedure
  /-- After the errors for dropped commands come the reports of procedures; no class lacks its
  module. -/
  reports : registry.synthesize.2.diagnostics = registry.plan.registry.diagnostics ++
    registry.plan.kept.flatMap fun d => (registry.plan.procedures d).diagnostics
  /-- Where a dropped command makes no overload, nothing is lost with it. -/
  isolated : ∀ d ∈ registry.commands, registry.plan.drops d.id = true → registry.MakesNoOverload d →
    (registry.without d.id).plan.kept = registry.plan.kept ∧
      ∀ e kind, (registry.without d.id).plan.procedureName e kind =
        registry.plan.procedureName e kind

theorem WellRooted.partitions (h : registry.WellRooted) : registry.Partitions where
  distinct := registry.flat_flatModules.distinct
  kept _ hd hkept := complete_of_kept h (mem_kept.2 ⟨hd, hkept⟩)
  dropped _ hd hdrops := discarded_of_drops hd hdrops
  drops_iff _ hd := drops_iff_forestalls hd
  calls := by
    intro module hmodule procedure hprocedure
    obtain ⟨declaration, -, rfl⟩ := List.mem_map.1 hmodule
    obtain ⟨d, hd, -, kind, -, rfl⟩ := (Plan.mem_procedures_moduleOf _).1 hprocedure
    exact calls_procedureOf hd kind
  reports := by
    refine congrArg (registry.plan.registry.diagnostics ++ ·) ?_
    refine List.flatMap_congr fun d hd => ?_
    obtain ⟨declaration, hdeclaration, hid⟩ := h.exists_classShaped (mem_kept.1 hd).1
    have hany : (registry.plan.classShaped.any fun declaration => declaration.id = d.classId) =
        true := List.any_eq_true.2 ⟨declaration, hdeclaration, by simp [hid]⟩
    rw [Plan.diagnosticsOf, if_pos hany, List.append_nil]
  isolated _ hd hdrops hnone := plan_without hd hdrops hnone

/-- The synthesis of every manifest under every configuration sorts its commands so. -/
theorem partitions_ofManifest (settings : Settings) (manifest : Manifest) :
    (ofManifest settings manifest).Partitions :=
  (wellRooted_ofManifest settings manifest).partitions

/-- Three commands in methods of one class; the member list of the class leaves out the first, which
has the name of the second. -/
def missingOverload : Manifest where
  symbols :=
    .ofList
      [⟨⟨"demo"⟩, "demo", none, [], .package⟩,
        ⟨⟨"demo.Tool"⟩, "Tool", some ⟨"demo"⟩, [],
          .classType none none (some [⟨"demo.Tool#run(Item)"⟩, ⟨"demo.Tool#runItem"⟩])⟩,
        ⟨⟨"demo.Tool#run(int)"⟩, "run", some ⟨"demo.Tool"⟩, [], .method ["int"]⟩,
        ⟨⟨"demo.Tool#run(Item)"⟩, "run", some ⟨"demo.Tool"⟩, [], .method ["demo.Item"]⟩,
        ⟨⟨"demo.Tool#runItem"⟩, "runItem", some ⟨"demo.Tool"⟩, [], .method []⟩]
  elements :=
    [{ CommandInput.bare ⟨"demo.Tool#run(int)"⟩ with command := some ⟨"count", []⟩ },
      { CommandInput.bare ⟨"demo.Tool#run(Item)"⟩ with command := some ⟨"run", []⟩ },
      { CommandInput.bare ⟨"demo.Tool#runItem"⟩ with command := some ⟨"item", []⟩ }]

/-- The command whose method is not found makes the last one be dropped, whose own method is found
and which is kept without the other. -/
theorem overload_drops_other :
    let registry := ofManifest {} missingOverload
    let failing : SymbolId := ⟨"demo.Tool#run(int)"⟩
    let other : SymbolId := ⟨"demo.Tool#runItem"⟩
    registry.bindingFailures.map Prod.fst = [failing] ∧
      other ∈ registry.plan.dropped ∧
      other ∈ (registry.without failing).plan.kept.map CommandDeclaration.id ∧
      other ∈ (ofManifest {} { missingOverload with
        elements := missingOverload.elements.tail }).plan.kept.map CommandDeclaration.id := by
  decide +kernel

end Registry

end CommandFactory
